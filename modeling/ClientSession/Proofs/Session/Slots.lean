import ClientSession.Proofs.Storage.Health
import Mathlib.Data.List.Basic

/-!
# Tabs and their slots

A change of one tab leaves the other tabs alone, and a change of what a tab remembers leaves the
rest of the tab alone. `Tabs.news` is what has been noted between two states.
-/

namespace ClientSession

/-- A tab but for what it remembers of its session. -/
def Tab.bare (t : Tab) : Tab := { t with cache := .empty }

namespace Tabs

variable {w w' w'' : Tabs}

@[simp] theorem tab?_modifyTab (w : Tabs) (i j : Nat) (f : Tab → Tab) :
    (w.modifyTab i f).tab? j = if j = i then (w.tab? j).map f else w.tab? j := by
  by_cases h : j = i
  · subst h
    cases hj : w.slots[j]? with
    | none => simp [modifyTab, tab?, hj]
    | some t => cases t <;> simp [modifyTab, tab?, hj]
  · have h' : ¬i = j := fun e => h e.symm
    simp [modifyTab, tab?, h, h']

/-- What a slot holds but for what the tab remembers. -/
def bare? (w : Tabs) (j : Nat) : Option Tab := (w.tab? j).map Tab.bare

theorem vault_eq_bare (w : Tabs) (j : Nat) : w.vault j = ((w.bare? j).getD default).vault := by
  cases h : w.tab? j <;> simp [vault, tab, bare?, h, Tab.bare]

theorem isSome_tab?_eq_bare (w : Tabs) (j : Nat) : (w.tab? j).isSome = (w.bare? j).isSome := by
  simp [bare?]

theorem vault_congr (h : ∀ j, w'.bare? j = w.bare? j) (j : Nat) : w'.vault j = w.vault j := by
  rw [vault_eq_bare, vault_eq_bare, h]

theorem isSome_tab?_congr (h : ∀ j, w'.bare? j = w.bare? j) (j : Nat) :
    (w'.tab? j).isSome = (w.tab? j).isSome := by
  rw [isSome_tab?_eq_bare, isSome_tab?_eq_bare, h]

/-! ## Caches -/

theorem cache_of_tab?_none {j : Nat} (h : w.tab? j = none) : w.cache j = .empty := by
  simp only [cache, tab, h]
  rfl

@[simp] theorem bare?_setCache (w : Tabs) (i j : Nat) (k : SessionCache) :
    (w.setCache i k).bare? j = w.bare? j := by
  by_cases h : j = i
  · subst h
    cases hj : w.tab? j <;> simp [setCache, bare?, hj, Tab.bare]
  · simp [setCache, bare?, h]

@[simp] theorem tab?_setCache_of_ne {i j : Nat} (h : j ≠ i) (w : Tabs) (k : SessionCache) :
    (w.setCache i k).tab? j = w.tab? j := by
  simp [setCache, h]

theorem cache_setCache_of_ne {i j : Nat} (h : j ≠ i) (w : Tabs) (k : SessionCache) :
    (w.setCache i k).cache j = w.cache j := by
  simp [cache, tab, h]

theorem cache_setCache_self {i : Nat} (h : (w.tab? i).isSome) (k : SessionCache) :
    (w.setCache i k).cache i = k := by
  obtain ⟨t, ht⟩ := Option.isSome_iff_exists.mp h
  simp [cache, tab, setCache, ht]

theorem cache_forget (w : Tabs) (i : Nat) : (w.forget i).cache i = .empty := by
  cases h : w.tab? i with
  | none => exact cache_of_tab?_none (by simp [forget, setCache, h])
  | some t => exact cache_setCache_self (by simp [h]) _

@[simp] theorem backend_setCache (w : Tabs) (i : Nat) (k : SessionCache) :
    (w.setCache i k).backend = w.backend := rfl

@[simp] theorem history_setCache (w : Tabs) (i : Nat) (k : SessionCache) :
    (w.setCache i k).history = w.history := rfl

@[simp] theorem listeners_setCache (w : Tabs) (i : Nat) (k : SessionCache) :
    (w.setCache i k).listeners = w.listeners := rfl

/-! ## What is stored -/

theorem stores_congr (hb : ∀ j, w'.bare? j = w.bare? j)
    (hi : w'.backend.items = w.backend.items) (i : Nat) (key : String) :
    w'.stores i key = w.stores i key := by
  simp only [stores, hi, vault_congr hb]

@[simp] theorem stores_setCache (w : Tabs) (i j : Nat) (k : SessionCache) (key : String) :
    (w.setCache i k).stores j key = w.stores j key :=
  stores_congr (fun j => bare?_setCache w i j k) rfl j key

/-! ## News -/

/-- What has been noted since an earlier state. -/
def news (w w' : Tabs) : List Occurrence := w'.history.drop w.history.length

theorem news_self (w : Tabs) : w.news w = [] := by simp [news]

theorem history_eq_append_news (h : w.history <+: w'.history) :
    w'.history = w.history ++ w.news w' := by
  obtain ⟨t, ht⟩ := h
  simp [news, ← ht]

theorem news_of_history (h : w'.history = w.history) : w.news w' = [] := by simp [news, h]

theorem news_note (w : Tabs) (o : Occurrence) : w.news (w.note o) = [o] := by simp [news, note]

theorem news_trans (h₁ : w.history <+: w'.history) (h₂ : w'.history <+: w''.history) :
    w.news w'' = w.news w' ++ w'.news w'' := by
  have e₁ := history_eq_append_news h₁
  have e₂ := history_eq_append_news h₂
  have hlen : w'.history.length = w.history.length + (w.news w').length := by
    rw [e₁, List.length_append]
  rw [e₁, List.append_assoc] at e₂
  rw [show w.news w'' = w''.history.drop w.history.length from rfl, e₂, List.drop_left]

end Tabs

end ClientSession
