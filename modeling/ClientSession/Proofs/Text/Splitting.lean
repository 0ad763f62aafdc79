import ClientSession.Text.Basic

/-!
# Text split at a character

- `Text.splitOnChar_append`: a separator splits a text into the parts before and the parts behind.
- `Text.flatMap_splitOnChar`: the parts with separators in front of them are the text.
- `Text.splitOnChar_intercalate`: parts without separators are what their text is split into.
-/

namespace ClientSession.Text

variable {sep : Char}

theorem splitOnChar_ne_nil (sep : Char) (cs : List Char) : splitOnChar sep cs ≠ [] := by
  cases cs with
  | nil => exact List.cons_ne_nil [] []
  | cons c cs =>
      rw [splitOnChar, List.foldr_cons]
      split
      · exact List.cons_ne_nil [c] []
      · split <;> exact List.cons_ne_nil _ _

theorem splitOnChar_cons_self (cs : List Char) :
    splitOnChar sep (sep :: cs) = [] :: splitOnChar sep cs := by
  obtain ⟨part, parts, hparts⟩ := List.exists_cons_of_ne_nil (splitOnChar_ne_nil sep cs)
  rw [hparts]
  rw [splitOnChar] at hparts ⊢
  rw [List.foldr_cons, hparts]
  exact if_pos rfl

theorem splitOnChar_cons_of_ne {c : Char} {cs part : List Char} {parts : List (List Char)}
    (hc : c ≠ sep) (hparts : splitOnChar sep cs = part :: parts) :
    splitOnChar sep (c :: cs) = (c :: part) :: parts := by
  rw [splitOnChar] at hparts ⊢
  rw [List.foldr_cons, hparts]
  exact if_neg hc

theorem splitOnChar_append (cs ds : List Char) :
    splitOnChar sep (cs ++ sep :: ds) = splitOnChar sep cs ++ splitOnChar sep ds := by
  induction cs with
  | nil => exact splitOnChar_cons_self ds
  | cons c cs ih =>
      obtain ⟨part, parts, hparts⟩ := List.exists_cons_of_ne_nil (splitOnChar_ne_nil sep cs)
      rw [hparts] at ih
      by_cases hc : c = sep
      · subst hc
        rw [List.cons_append, splitOnChar_cons_self, splitOnChar_cons_self, ih, hparts]
        rfl
      · rw [List.cons_append, splitOnChar_cons_of_ne hc ih, splitOnChar_cons_of_ne hc hparts]
        rfl

theorem flatMap_splitOnChar (cs : List Char) :
    (splitOnChar sep cs).flatMap (sep :: ·) = sep :: cs := by
  induction cs with
  | nil => rfl
  | cons c cs ih =>
      obtain ⟨part, parts, hparts⟩ := List.exists_cons_of_ne_nil (splitOnChar_ne_nil sep cs)
      by_cases hc : c = sep
      · subst hc
        rw [splitOnChar_cons_self, List.flatMap_cons, ih]
        rfl
      · rw [hparts, List.flatMap_cons] at ih
        rw [splitOnChar_cons_of_ne hc hparts, List.flatMap_cons]
        simpa using ih

/-- Parts are made of the text's characters. -/
theorem mem_of_mem_splitOnChar {c : Char} {cs part : List Char} (hpart : part ∈ splitOnChar sep cs)
    (hc : c ∈ part) : c ∈ sep :: cs := by
  rw [← flatMap_splitOnChar]
  exact List.mem_flatMap.mpr ⟨part, hpart, List.mem_cons_of_mem _ hc⟩

theorem splitOnChar_of_not_mem {cs : List Char} (h : sep ∉ cs) : splitOnChar sep cs = [cs] := by
  induction cs with
  | nil => rfl
  | cons c cs ih =>
      rw [List.mem_cons, not_or] at h
      exact splitOnChar_cons_of_ne (Ne.symm h.1) (ih h.2)

theorem not_mem_of_mem_splitOnChar {cs part : List Char} (h : part ∈ splitOnChar sep cs) :
    sep ∉ part := by
  induction cs generalizing part with
  | nil =>
      rw [List.mem_singleton.mp h]
      exact List.not_mem_nil
  | cons c cs ih =>
      obtain ⟨first, rest, hparts⟩ := List.exists_cons_of_ne_nil (splitOnChar_ne_nil sep cs)
      by_cases hc : c = sep
      · subst hc
        rw [splitOnChar_cons_self, List.mem_cons] at h
        rcases h with rfl | h
        · exact List.not_mem_nil
        · exact ih h
      · rw [hparts] at ih
        rw [splitOnChar_cons_of_ne hc hparts, List.mem_cons] at h
        rcases h with rfl | h
        · rw [List.mem_cons, not_or]
          exact ⟨Ne.symm hc, ih List.mem_cons_self⟩
        · exact ih (List.mem_cons_of_mem _ h)

/-- Parts without separators are what their text is split into. -/
theorem splitOnChar_intercalate {parts : List (List Char)} (hne : parts ≠ [])
    (h : ∀ part ∈ parts, sep ∉ part) : splitOnChar sep ([sep].intercalate parts) = parts := by
  induction parts with
  | nil => exact absurd rfl hne
  | cons part parts ih =>
      cases parts with
      | nil => rw [List.intercalate_singleton, splitOnChar_of_not_mem (h part List.mem_cons_self)]
      | cons next rest =>
          rw [List.intercalate_cons_cons, List.append_assoc, List.singleton_append,
            splitOnChar_append, splitOnChar_of_not_mem (h part List.mem_cons_self),
            ih (List.cons_ne_nil next rest) fun p hp => h p (List.mem_cons_of_mem part hp)]
          rfl

theorem intercalate_splitOnChar (cs : List Char) : [sep].intercalate (splitOnChar sep cs) = cs := by
  induction cs with
  | nil => rfl
  | cons c cs ih =>
      obtain ⟨part, parts, hparts⟩ := List.exists_cons_of_ne_nil (splitOnChar_ne_nil sep cs)
      by_cases hc : c = sep
      · subst hc
        rw [hparts] at ih
        rw [splitOnChar_cons_self, hparts, List.intercalate_cons_cons, ih]
        rfl
      · rw [hparts] at ih
        rw [splitOnChar_cons_of_ne hc hparts]
        cases parts with
        | nil =>
            rw [List.intercalate_singleton] at ih ⊢
            rw [ih]
        | cons next rest =>
            rw [List.intercalate_cons_cons] at ih ⊢
            rw [← ih]
            rfl

theorem mem_of_mem_intercalate {c : Char} {parts : List (List Char)}
    (h : c ∈ [sep].intercalate parts) : c = sep ∨ ∃ part ∈ parts, c ∈ part := by
  induction parts with
  | nil => exact absurd h List.not_mem_nil
  | cons part parts ih =>
      cases parts with
      | nil =>
          rw [List.intercalate_singleton] at h
          exact .inr ⟨part, List.mem_cons_self, h⟩
      | cons next rest =>
          rw [List.intercalate_cons_cons, List.mem_append, List.mem_append] at h
          rcases h with (h | h) | h
          · exact .inr ⟨part, List.mem_cons_self, h⟩
          · exact .inl (List.mem_singleton.mp h)
          · exact (ih h).imp_right fun ⟨p, hp, hc⟩ => ⟨p, List.mem_cons_of_mem part hp, hc⟩

end ClientSession.Text
