import ClientSession.Proofs.Storage.Savings

/-!
# What an opened store holds

A store that is opened holds what the snapshot stands for: the items of its document, or none when
there is no snapshot or an empty one. Of a document of which only a beginning was written no items
are read, unless nothing of it was written.

- `openAt_eq_ok`, `exists_openAt_calm`: when a store is opened, and with which items.
- `items?_begun`: what the beginning of a document stands for.
-/

namespace ClientSession

/-- The items that a store holds which is opened on an entry. -/
def Entry.items? : Entry → Option Items
  | .absent => some Table.empty
  | .directory => none
  | .file text => if text.isEmpty then some Table.empty else (Items.ofDocument text).toOption

/-- The items that the first characters of a document of items stand for. -/
def Items.begun (items : Items) (n : Nat) : Option Items :=
  if n = 0 then some Table.empty
  else if n < items.document.toList.length then none
  else some items

theorem Items.document_ne_empty (items : Items) : items.document.isEmpty = false := by
  obtain ⟨body, hbody⟩ := items.document_ends_with_brace
  rw [Bool.eq_false_iff]
  intro hempty
  have hnil : items.document.toList = [] := by simpa using hempty
  rw [hbody] at hnil
  simp at hnil

theorem items?_document (items : Items) : (Entry.file items.document).items? = some items := by
  simp [Entry.items?, items.document_ne_empty, Items.ofDocument_document, Except.toOption]

/-- The beginning of a document stands for the items when it is the whole document, for no items
when nothing was written, and is no document otherwise. -/
theorem items?_begun (items : Items) (n : Nat) :
    (Entry.file (String.ofList (items.document.toList.take n))).items? = items.begun n := by
  unfold Items.begun
  by_cases hzero : n = 0
  · subst hzero
    rfl
  rw [if_neg hzero]
  by_cases hless : n < items.document.toList.length
  · have hnonempty : (String.ofList (items.document.toList.take n)).isEmpty = false := by
      rw [Bool.eq_false_iff]
      intro hempty
      have hnil : items.document.toList.take n = [] := by simpa using hempty
      rcases List.take_eq_nil_iff.1 hnil with h | h
      · exact hzero h
      · rw [h] at hless
        simp at hless
    rw [if_pos hless, Entry.items?, hnonempty]
    rcases hread : Items.ofDocument (String.ofList (items.document.toList.take n)) with _ | items'
    · rfl
    · exact absurd hread (Items.ofDocument_take items items' hless)
  · rw [if_neg hless, List.take_of_length_le (Nat.le_of_not_lt hless), String.ofList_toList]
    exact items?_document items

/-! ## Opening -/

/-- The disk without any trouble. -/
def Disk.calm (d : Disk) : Disk := d.under ⟨fun _ => none, 0⟩

namespace FileStore

variable {s : FileStore} {d d' : Disk}

theorem read_eq_ok {content : Option String} (h : d.read = .ok content) :
    d.snapshot = content.elim .absent .file := by
  unfold Disk.read at h
  split at h
  · cases h
  · cases h
  · rename_i hsnapshot
    cases h
    exact hsnapshot
  · rename_i hsnapshot
    cases h
    exact hsnapshot

/-- A store was opened with the items of the snapshot, and the directory is there. -/
theorem openAt_eq_ok (h : openAt d = (.ok s, d')) :
    d' = d.housed ∧ d.snapshot.items? = some s.items := by
  unfold openAt readSnapshot at h
  rcases hparent : d.makeParent with reason | d₁
  · simp [attempt, hparent, thenDisk] at h
  rw [Disk.makeParent_eq_ok hparent] at hparent
  simp only [attempt, hparent, thenDisk] at h
  rcases hread : d.housed.read with reason | content
  · simp [hread] at h
  have hsnapshot : d.snapshot = content.elim .absent .file := read_eq_ok (d := d.housed) hread
  rw [hsnapshot]
  rcases content with _ | text
  · simp only [hread] at h
    cases h
    exact ⟨rfl, rfl⟩
  by_cases hempty : text.isEmpty = true
  · simp only [hread, hempty, if_true] at h
    cases h
    simp [Entry.items?, hempty]
  · rcases hdecode : Items.ofDocument text with issue | items
    · simp [hread, hempty, hdecode] at h
    · simp only [hread, hempty, hdecode] at h
      cases h
      simp [Entry.items?, hempty, hdecode, Except.toOption]

/-- Where the directory is there, a store is opened with the items that the snapshot stands
for. -/
theorem exists_openAt_calm (hparent : d.parent = .directory) :
    (∃ d', openAt d.calm = (.ok s, d')) ↔ d.snapshot.items? = some s.items := by
  constructor
  · rintro ⟨d', h⟩
    exact (openAt_eq_ok h).2
  · intro hitems
    obtain ⟨items⟩ := s
    have hhoused : d.calm.makeParent = .ok d.calm := by
      unfold Disk.makeParent Disk.calm Disk.under
      rw [hparent]
    refine ⟨d.calm, ?_⟩
    unfold openAt readSnapshot
    simp only [attempt, hhoused, thenDisk]
    have hread : ∀ content : Option String, d.snapshot = content.elim .absent .file →
        d.calm.read = .ok content := by
      intro content hsnapshot
      unfold Disk.read Disk.calm Disk.under
      rcases content with _ | text
      · rw [hsnapshot]
        rfl
      · rw [hsnapshot]
        rfl
    rcases hsnapshot : d.snapshot with _ | text | _
    · rw [hsnapshot] at hitems
      cases hitems
      simp only [hread none hsnapshot]
      rfl
    · rw [hsnapshot, Entry.items?] at hitems
      simp only [hread (some text) hsnapshot]
      by_cases hempty : text.isEmpty = true
      · rw [if_pos hempty] at hitems ⊢
        cases hitems
        rfl
      · rw [if_neg hempty] at hitems ⊢
        rcases hdecode : Items.ofDocument text with issue | items
        · rw [hdecode] at hitems
          cases hitems
        · rw [hdecode] at hitems
          cases hitems
          rfl
    · rw [hsnapshot] at hitems
      cases hitems

end FileStore

end ClientSession
