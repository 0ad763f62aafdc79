/-!
# Tables

A table maps keys to values and lists its entries in the order of the keys, each key once.
Inserting a present key replaces its value.
-/

namespace ClientSession

/-- A strict linear order on keys. -/
class KeyOrder (κ : Type) where
  before : κ → κ → Bool
  before_irrefl : ∀ a, before a a = false
  before_trans : ∀ a b c, before a b = true → before b c = true → before a c = true
  eq_of_incomparable : ∀ a b, before a b = false → before b a = false → a = b

/-- Text is ordered by its code points. -/
instance : KeyOrder String where
  before a b := decide (a < b)
  before_irrefl a := decide_eq_false (String.lt_irrefl a)
  before_trans a b c := by
    simp only [decide_eq_true_eq]
    exact String.lt_trans
  eq_of_incomparable a b := by
    simp only [decide_eq_false_iff_not]
    intro h₁ h₂
    exact String.le_antisymm (String.not_lt.mp h₂) (String.not_lt.mp h₁)

/-- Entries with strictly increasing keys. -/
structure Table (κ α : Type) [KeyOrder κ] where
  entries : List (κ × α)
  sorted : entries.Pairwise fun a b => KeyOrder.before a.1 b.1 = true

namespace Table

variable {κ α β : Type} [KeyOrder κ]

/-- Adds an entry in its place, or replaces the one with the same key. -/
def place (k : κ) (v : α) : List (κ × α) → List (κ × α)
  | [] => [(k, v)]
  | (k', v') :: rest =>
    if KeyOrder.before k k' then (k, v) :: (k', v') :: rest
    else if KeyOrder.before k' k then (k', v') :: place k v rest
    else (k, v) :: rest

theorem mem_place {k : κ} {v : α} {es : List (κ × α)} {e : κ × α} (h : e ∈ place k v es) :
    e = (k, v) ∨ e ∈ es := by
  induction es with
  | nil => simpa [place] using h
  | cons e' rest ih =>
    unfold place at h
    split at h
    · simpa using h
    · split at h
      · rcases List.mem_cons.1 h with h | h
        · exact Or.inr (by simp [h])
        · exact (ih h).imp id (List.mem_cons_of_mem _)
      · rcases List.mem_cons.1 h with h | h
        · exact Or.inl h
        · exact Or.inr (List.mem_cons_of_mem _ h)

theorem place_sorted {k : κ} {v : α} {es : List (κ × α)}
    (h : es.Pairwise fun a b => KeyOrder.before a.1 b.1 = true) :
    (place k v es).Pairwise fun a b => KeyOrder.before a.1 b.1 = true := by
  induction es with
  | nil => simp [place]
  | cons e rest ih =>
    obtain ⟨k', v'⟩ := e
    have hrest := (List.pairwise_cons.1 h).2
    have hhead := (List.pairwise_cons.1 h).1
    unfold place
    split
    · rename_i hk
      refine List.pairwise_cons.2 ⟨fun b hb => ?_, h⟩
      rcases List.mem_cons.1 hb with rfl | hb
      · exact hk
      · exact KeyOrder.before_trans _ _ _ hk (hhead b hb)
    · rename_i hk
      split
      · rename_i hk'
        refine List.pairwise_cons.2 ⟨fun b hb => ?_, ih hrest⟩
        rcases mem_place hb with rfl | hb
        · exact hk'
        · exact hhead b hb
      · rename_i hk'
        have hkk : k = k' := KeyOrder.eq_of_incomparable k k' (by simpa using hk) (by simpa using hk')
        subst hkk
        exact List.pairwise_cons.2 ⟨hhead, hrest⟩

def empty : Table κ α := ⟨[], List.Pairwise.nil⟩

instance : Inhabited (Table κ α) := ⟨empty⟩

/-- The table with one more entry, or with another value at a present key. -/
def insert (t : Table κ α) (k : κ) (v : α) : Table κ α :=
  ⟨place k v t.entries, place_sorted t.sorted⟩

/-- The table of the entries; of two with one key the later stays. -/
def ofList (es : List (κ × α)) : Table κ α := es.foldl (fun t e => t.insert e.1 e.2) empty

/-- The entries whose key and value satisfy a test. -/
def filter (t : Table κ α) (p : κ → α → Bool) : Table κ α :=
  ⟨t.entries.filter fun e => p e.1 e.2, t.sorted.filter _⟩

/-- The table with other values at the same keys. -/
def map (t : Table κ α) (f : α → β) : Table κ β :=
  ⟨t.entries.map fun e => (e.1, f e.2), by simpa [List.pairwise_map] using t.sorted⟩

theorem ext_entries {s t : Table κ α} (h : s.entries = t.entries) : s = t := by
  cases s; cases t; simp_all

variable [DecidableEq κ]

/-- The value at a key. -/
def find? (t : Table κ α) (k : κ) : Option α := (t.entries.find? fun e => e.1 = k).map (·.2)

/-- The table without a key. -/
def erase (t : Table κ α) (k : κ) : Table κ α := t.filter fun k' _ => k' ≠ k

def contains (t : Table κ α) (k : κ) : Bool := t.entries.any fun e => e.1 = k

def keys (t : Table κ α) : List κ := t.entries.map (·.1)

def isEmpty (t : Table κ α) : Bool := t.entries.isEmpty

/-! ## What operations do to the values -/

theorem find?_place (k k' : κ) (v : α) (es : List (κ × α)) :
    ((place k v es).find? fun e => decide (e.1 = k')).map (·.2) =
      if k = k' then some v else (es.find? fun e => decide (e.1 = k')).map (·.2) := by
  induction es with
  | nil => by_cases h : k = k' <;> simp [place, h]
  | cons e rest ih =>
    obtain ⟨l, u⟩ := e
    unfold place
    split
    · by_cases h : k = k' <;> simp [h]
    · rename_i hkl
      split
      · rename_i hlk
        by_cases hl : l = k'
        · have hk : k ≠ k' := by
            rintro rfl
            subst hl
            simp [KeyOrder.before_irrefl] at hlk
          simp [hl, hk]
        · simpa [hl] using ih
      · rename_i hlk
        have hkl' : k = l :=
          KeyOrder.eq_of_incomparable k l (by simpa using hkl) (by simpa using hlk)
        subst hkl'
        by_cases h : k = k' <;> simp [h]

/-- An inserted value is found at its key, and every other value where it was. -/
theorem find?_insert (t : Table κ α) (k k' : κ) (v : α) :
    (t.insert k v).find? k' = if k = k' then some v else t.find? k' :=
  find?_place k k' v t.entries

/-- Nothing is found at an erased key, and every other value where it was. -/
theorem find?_erase (t : Table κ α) (k k' : κ) :
    (t.erase k).find? k' = if k = k' then none else t.find? k' := by
  obtain ⟨es, hes⟩ := t
  simp only [erase, filter, find?]
  clear hes
  induction es with
  | nil => simp
  | cons e rest ih =>
    obtain ⟨l, u⟩ := e
    by_cases hl : l = k
    · subst hl
      by_cases h : l = k'
      · simp [h]
      · simpa [h] using ih
    · by_cases h : l = k'
      · subst h
        simp [hl, Ne.symm hl]
      · simpa [hl, h] using ih

theorem find?_empty (k : κ) : (empty : Table κ α).find? k = none := rfl

instance [DecidableEq α] : DecidableEq (Table κ α) := fun s t =>
  if h : s.entries = t.entries then isTrue (ext_entries h)
  else isFalse fun e => h (congrArg entries e)

end Table

end ClientSession
