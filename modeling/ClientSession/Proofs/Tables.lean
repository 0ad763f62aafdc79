import ClientSession.Table
import Mathlib.Data.List.Perm.Basic

/-!
# Tables and what they hold

A table is made of its entries and known by the values at its keys.

- `Table.ofList_entries`: a table is made again of its entries.
- `Table.entries_ofList_perm`: of entries in another order, too.
- `Table.ext_find?`: tables with the same values at the same keys are the same.
-/

namespace ClientSession

namespace Table

variable {κ α : Type} [KeyOrder κ]

theorem place_of_last {k : κ} {v : α} {es : List (κ × α)}
    (h : ∀ e ∈ es, KeyOrder.before e.1 k = true) : place k v es = es ++ [(k, v)] := by
  induction es with
  | nil => rfl
  | cons e rest ih =>
      have he : KeyOrder.before e.1 k = true := h e List.mem_cons_self
      have hback : ¬ KeyOrder.before k e.1 = true := by
        intro hk
        have hself := KeyOrder.before_trans _ _ _ he hk
        rw [KeyOrder.before_irrefl] at hself
        cases hself
      rw [place, if_neg hback, if_pos he, ih fun e' he' => h e' (List.mem_cons_of_mem _ he')]
      rfl

theorem entries_foldl_insert (es : List (κ × α)) (t : Table κ α)
    (h : (t.entries ++ es).Pairwise fun a b => KeyOrder.before a.1 b.1 = true) :
    (es.foldl (fun t e => t.insert e.1 e.2) t).entries = t.entries ++ es := by
  induction es generalizing t with
  | nil => simp
  | cons e rest ih =>
      have hlast : ∀ e' ∈ t.entries, KeyOrder.before e'.1 e.1 = true := by
        intro e' he'
        exact (List.pairwise_append.1 h).2.2 e' he' e List.mem_cons_self
      have hentries : (t.insert e.1 e.2).entries = t.entries ++ [e] := place_of_last hlast
      rw [List.foldl_cons, ih _ (by rw [hentries]; simpa using h), hentries]
      simp

/-- A table is made again of its entries. -/
theorem ofList_entries (t : Table κ α) : ofList t.entries = t := by
  apply ext_entries
  rw [ofList, entries_foldl_insert _ _ t.sorted]
  rfl

theorem place_perm {k : κ} {v : α} {es : List (κ × α)} (hk : k ∉ es.map Prod.fst) :
    (place k v es).Perm ((k, v) :: es) := by
  induction es with
  | nil => exact List.Perm.refl _
  | cons e es ih =>
      rw [List.map_cons, List.mem_cons, not_or] at hk
      rw [place]
      split
      · exact List.Perm.refl _
      · split
        · exact ((ih hk.2).cons e).trans (List.Perm.swap (k, v) e es)
        · rename_i hbefore hafter
          exact absurd (KeyOrder.eq_of_incomparable k e.1 (by simpa using hbefore)
            (by simpa using hafter)) hk.1

/-- Entries with different keys are only put in order. -/
theorem entries_ofList_perm {es : List (κ × α)} (h : (es.map Prod.fst).Nodup) :
    (ofList es).entries.Perm es := by
  suffices hfold : ∀ t : Table κ α, (t.entries.map Prod.fst ++ es.map Prod.fst).Nodup →
      (es.foldl (fun t e => t.insert e.1 e.2) t).entries.Perm (t.entries ++ es) from hfold empty h
  clear h
  induction es with
  | nil => exact fun t _ => by simp
  | cons e es ih =>
      intro t ht
      have hnew : e.1 ∉ t.entries.map Prod.fst := by
        intro hmem
        exact (List.nodup_append.mp ht).2.2 _ hmem _ (by simp) rfl
      have hinsert : (t.insert e.1 e.2).entries.Perm (e :: t.entries) := place_perm hnew
      have hnodup : ((t.insert e.1 e.2).entries.map Prod.fst ++ es.map Prod.fst).Nodup := by
        have hkeys := (hinsert.map Prod.fst).append_right (es.map Prod.fst)
        rw [hkeys.nodup_iff, List.map_cons, List.cons_append]
        exact List.perm_middle.nodup_iff.mp (by simpa using ht)
      exact (ih _ hnodup).trans ((hinsert.append_right es).trans List.perm_middle.symm)

theorem mem_entries_insert {t : Table κ α} {k : κ} {v : α} {e : κ × α}
    (h : e ∈ (t.insert k v).entries) : e = (k, v) ∨ e ∈ t.entries :=
  mem_place h

/-- A table has no entries but those that it is made of. -/
theorem mem_of_mem_ofList {es : List (κ × α)} {e : κ × α} (h : e ∈ (ofList es).entries) :
    e ∈ es := by
  suffices hfold : ∀ t : Table κ α, e ∈ (es.foldl (fun t e => t.insert e.1 e.2) t).entries →
      e ∈ t.entries ∨ e ∈ es from (hfold empty h).resolve_left List.not_mem_nil
  clear h
  induction es with
  | nil => exact fun t ht => .inl ht
  | cons d es ih =>
      intro t ht
      rcases ih (t.insert d.1 d.2) ht with ht | hes
      · rcases mem_entries_insert ht with rfl | ht
        · exact .inr List.mem_cons_self
        · exact .inl ht
      · exact .inr (List.mem_cons_of_mem d hes)

theorem nodup_entries (t : Table κ α) : t.entries.Nodup := by
  apply t.sorted.imp
  rintro a b hab rfl
  rw [KeyOrder.before_irrefl] at hab
  cases hab

/-! ## What a table holds -/

variable [DecidableEq κ]

theorem find?_eq_some_iff (t : Table κ α) (k : κ) (v : α) :
    t.find? k = some v ↔ (k, v) ∈ t.entries := by
  obtain ⟨es, hsorted⟩ := t
  simp only [find?]
  induction es with
  | nil => simp
  | cons e es ih =>
      obtain ⟨hfirst, hrest⟩ := List.pairwise_cons.1 hsorted
      by_cases hk : e.1 = k
      · rw [List.find?_cons_of_pos (by simpa using hk), List.mem_cons]
        constructor
        · intro h
          left
          rw [← hk, ← Option.some.inj h]
        · rintro (h | h)
          · rw [← h]
            rfl
          · -- The keys are sorted, so that no later entry has this key.
            have hself := hfirst _ h
            rw [hk, KeyOrder.before_irrefl] at hself
            cases hself
      · rw [List.find?_cons_of_neg (by simpa using hk), ih hrest, List.mem_cons]
        constructor
        · exact .inr
        · rintro (h | h)
          · rw [← h] at hk
            exact absurd rfl hk
          · exact h

/-- Tables that hold the same values at the same keys are the same. -/
theorem ext_find? {s t : Table κ α} (h : ∀ k, s.find? k = t.find? k) : s = t := by
  apply ext_entries
  have hperm : s.entries.Perm t.entries := by
    rw [List.perm_ext_iff_of_nodup s.nodup_entries t.nodup_entries]
    rintro ⟨k, v⟩
    rw [← find?_eq_some_iff, ← find?_eq_some_iff, h k]
  apply hperm.eq_of_pairwise _ s.sorted t.sorted
  intro a b _ _ hab hba
  have hself := KeyOrder.before_trans _ _ _ hab hba
  rw [KeyOrder.before_irrefl] at hself
  cases hself

/-- Inserting what is there already changes nothing. -/
theorem insert_of_find? {t : Table κ α} {k : κ} {v : α} (h : t.find? k = some v) :
    t.insert k v = t := by
  apply ext_find?
  intro k'
  rw [find?_insert]
  by_cases hk : k = k'
  · rw [if_pos hk, ← hk, h]
  · rw [if_neg hk]

theorem contains_iff (t : Table κ α) (k : κ) : t.contains k = true ↔ t.find? k ≠ none := by
  rw [contains, List.any_eq_true, find?]
  simp [List.find?_eq_none]

end Table

end ClientSession
