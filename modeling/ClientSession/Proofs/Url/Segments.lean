import ClientSession.Proofs.Text.Splitting
import ClientSession.Url.Parse

/-!
# Segments of a path

The parts of a path become segments one by one. What a part does is decided by its dots.

- `Url.appendParts_up`, `Url.appendParts_stay`, `Url.appendParts_down`: the three kinds of parts.
- `Url.text_prefix`: segments behind those of a directory continue its text.
-/

namespace ClientSession.Url

/-- The segments without the last one, which stays if it may name a drive. -/
def parent (ss : List (List Char)) : List (List Char) :=
  if ss.getLast?.any namesDrive then ss else ss.dropLast

/-- Behind the last part of a path that is made of dots stands an empty segment. -/
def ending (parts : List (List Char)) : List (List Char) := if parts.isEmpty then [[]] else []

@[simp] theorem ending_nil : ending [] = [[]] := rfl

@[simp] theorem ending_cons (part : List Char) (parts : List (List Char)) :
    ending (part :: parts) = [] := rfl

theorem parent_append {own : List (List Char)} (front : List (List Char)) (h : own ≠ []) :
    parent (front ++ own) = front ++ parent own := by
  rw [parent, parent, List.getLast?_append, List.getLast?_eq_some_getLast h, Option.some_or,
    List.dropLast_append_of_ne_nil h]
  split <;> rfl

theorem parent_singleton {name : List Char} (h : namesDrive name = false) : parent [name] = [] := by
  rw [parent, List.getLast?_singleton, Option.any_some, h]
  rfl

section Parts

variable {scheme part : List Char} {ss parts : List (List Char)}

/-! What one part does, by what its dots say. -/

theorem appendParts_up (h : decodeDots part = ['.', '.']) :
    appendParts scheme ss (part :: parts) =
      appendParts scheme (parent ss ++ ending parts) parts := by
  rw [appendParts]
  exact if_pos h

theorem appendParts_stay (h : decodeDots part = ['.']) :
    appendParts scheme ss (part :: parts) = appendParts scheme (ss ++ ending parts) parts := by
  simp [appendParts, h, ending]

theorem appendParts_down (hs : scheme ≠ fileScheme) (hup : decodeDots part ≠ ['.', '.'])
    (hstay : decodeDots part ≠ ['.']) :
    appendParts scheme ss (part :: parts) =
      appendParts scheme (ss ++ [encode pathSet part]) parts := by
  simp [appendParts, nextSegment, hup, hstay, hs]

/-- The parts of a path leave a segment. -/
theorem appendParts_ne_nil (hs : scheme ≠ fileScheme) (h : parts ≠ []) :
    appendParts scheme ss parts ≠ [] := by
  induction parts generalizing ss with
  | nil => exact absurd rfl h
  | cons part parts ih =>
      have hkept {kept : List (List Char)} (hk : parts = [] → kept ≠ []) :
          appendParts scheme kept parts ≠ [] := by
        cases parts with
        | nil => exact hk rfl
        | cons next rest => exact ih (List.cons_ne_nil next rest)
      by_cases hup : decodeDots part = ['.', '.']
      · rw [appendParts_up hup]
        exact hkept fun hp => by simp [hp]
      · by_cases hstay : decodeDots part = ['.']
        · rw [appendParts_stay hstay]
          exact hkept fun hp => by simp [hp]
        · rw [appendParts_down hs hup hstay]
          exact hkept fun _ => by simp

end Parts

theorem splitPath_ne_nil (special : Bool) (cs : List Char) : splitPath special cs ≠ [] :=
  Text.splitOnChar_ne_nil _ _

/-- The segments in front of an empty last one are a text that a slash follows. -/
theorem text_prefix {front more : List (List Char)} (h : more ≠ []) :
    (Path.segments (front ++ [[]])).text <+: (Path.segments (front ++ more)).text := by
  obtain ⟨first, rest, rfl⟩ := List.exists_cons_of_ne_nil h
  simp only [Path.text, List.flatMap_append, List.prefix_append_right_inj]
  exact ⟨first ++ rest.flatMap ('/' :: ·), rfl⟩

end ClientSession.Url
