import ClientSession.Proofs.Storage.Documents

/-!
# What a saving leaves

A change of a store takes place in memory and is then saved. The saving goes through the steps of
the disk in order, and each may fail: what is then on disk depends on the step, and the items in
memory are the changed ones all the same.

- `saves`: the outcomes of a saving, one for each step that can fail.
- `snapshot_of_refused`: a failed saving leaves the snapshot alone, unless it is the staging file.
- `FileStore.refused_unnoticed_iff`: which changes that fail leave no trace.
-/

namespace ClientSession

namespace Disk

variable {d : Disk}

/-- The disk with the directory of the snapshot made. -/
def housed (d : Disk) : Disk := { d with parent := .directory }

/-- The disk after the staging file, with a content, has taken the place of the snapshot. -/
def placed (d : Disk) (content : String) : Disk :=
  if d.shared then { d with snapshot := .file content }
  else { d with snapshot := .file content, staging := .absent }

theorem stagingEntry_setStaging (d : Disk) (e : Entry) : (d.setStaging e).stagingEntry = e := by
  unfold stagingEntry setStaging
  by_cases hshared : d.shared = true
  · simp [hshared]
  · simp [hshared]

theorem setStaging_setStaging (d : Disk) (e e' : Entry) :
    (d.setStaging e).setStaging e' = d.setStaging e' := by
  unfold setStaging
  by_cases hshared : d.shared = true
  · simp [hshared]
  · simp [hshared]

@[simp]
theorem failing_setStaging (d : Disk) (e : Entry) : (d.setStaging e).failing = d.failing := by
  unfold setStaging
  split <;> rfl

@[simp]
theorem kept_setStaging (d : Disk) (e : Entry) : (d.setStaging e).kept = d.kept := by
  unfold setStaging
  split <;> rfl

@[simp]
theorem parent_setStaging (d : Disk) (e : Entry) : (d.setStaging e).parent = d.parent := by
  unfold setStaging
  split <;> rfl

@[simp]
theorem shared_setStaging (d : Disk) (e : Entry) : (d.setStaging e).shared = d.shared := by
  unfold setStaging
  split <;> rfl

theorem snapshot_setStaging (d : Disk) (e : Entry) :
    (d.setStaging e).snapshot = if d.shared then e else d.snapshot := by
  unfold setStaging
  split <;> rfl

theorem snapshot_placed (d : Disk) (content : String) :
    (d.placed content).snapshot = .file content := by
  unfold placed
  split <;> rfl

@[simp]
theorem parent_placed (d : Disk) (content : String) : (d.placed content).parent = d.parent := by
  unfold placed
  split <;> rfl

theorem makeParent_eq_ok {d' : Disk} (h : d.makeParent = .ok d') : d' = d.housed := by
  unfold makeParent at h
  split at h
  · cases h
  · cases h
  · cases h
    rfl

theorem createStaging_eq_ok {d' : Disk} (h : d.createStaging = .ok d') :
    d' = d.setStaging (.file "") := by
  unfold createStaging at h
  split at h
  · cases h
  · cases h
  · cases h
    rfl

theorem sync_eq_ok {d' : Disk} (h : d.sync = .ok d') : d' = d := by
  unfold sync at h
  split at h
  · cases h
  · cases h
    rfl

theorem write_eq_ok {d' : Disk} {text : String}
    (h : (d.setStaging (.file "")).write text = .ok d') :
    d' = d.setStaging (.file text) := by
  unfold write at h
  rw [stagingEntry_setStaging] at h
  split at h
  · cases h
  · rename_i hcontent
    cases hcontent
    rw [setStaging_setStaging, String.empty_append] at h
    cases h
    rfl
  · rename_i hfile
    exact absurd rfl (hfile "")

theorem tear_emptied (d : Disk) (text : String) (n : Nat) :
    (d.setStaging (.file "")).tear text n =
      d.setStaging (.file (String.ofList (text.toList.take n))) := by
  unfold tear
  rw [stagingEntry_setStaging]
  simp only [setStaging_setStaging, String.empty_append]

theorem replace_eq_ok {d' : Disk} {content : String}
    (h : (d.setStaging (.file content)).replace = .ok d') : d' = d.placed content := by
  unfold replace at h
  unfold placed
  split at h
  · cases h
  · cases h
  · cases h
    unfold setStaging
    by_cases hshared : d.shared = true
    · simp [hshared]
    · simp [hshared]

end Disk

/-- What comes of saving items on a disk: the step that failed, and the disk it leaves. -/
inductive Saves (items : Items) (d : Disk) : DiskResult Unit → Prop
  | unhoused (reason : OsError) : Saves items d (.error (.refused "create" .parent reason), d)
  | unstaged (reason : OsError) :
      Saves items d (.error (.refused "create" .staging reason), d.housed)
  | torn (reason : OsError) :
      Saves items d (.error (.refused "write" .staging reason),
        d.housed.setStaging (.file (String.ofList (items.document.toList.take d.kept))))
  | unsynced (reason : OsError) :
      Saves items d (.error (.refused "sync" .staging reason),
        d.housed.setStaging (.file items.document))
  | unplaced (reason : OsError) :
      Saves items d (.error (.refused "replace" .snapshot reason),
        d.housed.setStaging (.file items.document))
  | done : Saves items d (.ok (), d.housed.placed items.document)

/-- A saving has one of these outcomes. -/
theorem saves (items : Items) (d : Disk) : Saves items d (writeSnapshot items d) := by
  unfold writeSnapshot
  rcases hparent : d.makeParent with reason | d₁
  · simp only [attempt, hparent, thenDisk]
    exact .unhoused reason
  rw [Disk.makeParent_eq_ok hparent] at hparent
  rcases hcreate : d.housed.createStaging with reason | d₂
  · simp only [attempt, hparent, hcreate, thenDisk]
    exact .unstaged reason
  rw [Disk.createStaging_eq_ok hcreate] at hcreate
  rcases hwrite : (d.housed.setStaging (.file "")).write items.document with reason | d₃
  · simp only [attempt, hparent, hcreate, writeStaging, hwrite, thenDisk, Disk.tear_emptied,
      Disk.kept_setStaging]
    exact .torn reason
  rw [Disk.write_eq_ok hwrite] at hwrite
  rcases hsync : (d.housed.setStaging (.file items.document)).sync with reason | d₄
  · simp only [attempt, hparent, hcreate, writeStaging, hwrite, hsync, thenDisk]
    exact .unsynced reason
  rw [Disk.sync_eq_ok hsync] at hsync
  rcases hreplace : (d.housed.setStaging (.file items.document)).replace with reason | d₅
  · simp only [attempt, hparent, hcreate, writeStaging, hwrite, hsync, hreplace, thenDisk]
    exact .unplaced reason
  · rw [Disk.replace_eq_ok hreplace] at hreplace
    simp only [attempt, hparent, hcreate, writeStaging, hwrite, hsync, hreplace, thenDisk]
    exact .done

/-- What a failed saving of a document has put into the staging file, if it has emptied it. -/
def FileError.staged (document : String) (kept : Nat) : FileError → Option String
  | .refused "create" _ _ => none
  | .refused "write" _ _ => some (String.ofList (document.toList.take kept))
  | .refused _ _ _ => some document
  | .notItems _ _ => none

/-- A failed saving leaves the snapshot alone, unless it is the staging file. -/
theorem snapshot_of_refused {items : Items} {d d' : Disk} {e : FileError}
    (h : writeSnapshot items d = (.error e, d')) :
    d'.snapshot = if d.shared then ((e.staged items.document d.kept).elim d.snapshot .file)
      else d.snapshot := by
  have hsaves := saves items d
  rw [h] at hsaves
  cases hsaves with
  | unhoused => simp [FileError.staged]
  | unstaged => simp [FileError.staged, Disk.housed]
  | torn => simp [FileError.staged, Disk.snapshot_setStaging, Disk.housed]
  | unsynced => simp [FileError.staged, Disk.snapshot_setStaging, Disk.housed]
  | unplaced => simp [FileError.staged, Disk.snapshot_setStaging, Disk.housed]

/-! ## Changes -/

/-- What goes wrong with a disk for a while. -/
structure Trouble where
  failing : DiskStep → Option OsError
  kept : Nat

/-- Every attempt to put a staging file in the place of the snapshot fails. -/
def Trouble.replacing : Trouble :=
  ⟨fun step => if step = .replace then some (.other 5 "Input/output error") else none, 0⟩

/-- The disk with this trouble, and no other. -/
def Disk.under (d : Disk) (t : Trouble) : Disk := { d with failing := t.failing, kept := t.kept }

namespace FileStore

/-- A change of a store. -/
inductive Change where
  | set (key value : String)
  | remove (key : String)

namespace Change

/-- The items with the change. -/
def applied : Change → Items → Items
  | .set key value, items => items.insert key value
  | .remove key, items => items.erase key

/-- The change is saved; only the removal of an absent key is none. -/
def isSaved : Change → Items → Bool
  | .set _ _, _ => true
  | .remove key, items => items.contains key

end Change

variable {s s' : FileStore} {c : Change} {d d' : Disk}

def apply (s : FileStore) : Change → Disk → DiskResult Unit × FileStore
  | .set key value, d => s.set key value d
  | .remove key, d => s.remove key d

theorem apply_of_saved (h : c.isSaved s.items = true) (d : Disk) :
    s.apply c d = (writeSnapshot (c.applied s.items) d, ⟨c.applied s.items⟩) := by
  cases c with
  | set key value => rfl
  | remove key =>
      have hheld : s.items.contains key = true := h
      simp only [apply, remove, hheld, if_true, Change.applied]

theorem apply_of_not_saved (h : c.isSaved s.items = false) (d : Disk) :
    s.apply c d = ((.ok (), d), s) := by
  cases c with
  | set key value => cases h
  | remove key =>
      have hheld : s.items.contains key = false := h
      simp [apply, remove, hheld]

/-- The same keys are listed, and the same values found. -/
def ReadsLike (s' s : FileStore) : Prop := s'.keys = s.keys ∧ ∀ key, s'.get? key = s.get? key

theorem readsLike_iff : s'.ReadsLike s ↔ s' = s := by
  constructor
  · rintro ⟨-, hvalues⟩
    have hitems : s'.items = s.items := Table.ext_find? hvalues
    exact congrArg FileStore.mk hitems
  · rintro rfl
    exact ⟨rfl, fun _ => rfl⟩

/-- A saved change leaves the items as they are if and only if it sets a value that is there. -/
theorem applied_eq_iff (h : c.isSaved s.items = true) :
    c.applied s.items = s.items ↔ ∃ key value, c = .set key value ∧ s.get? key = some value := by
  cases c with
  | set key value =>
      constructor
      · intro hsame
        refine ⟨key, value, rfl, ?_⟩
        have hvalue := Table.find?_insert s.items key key value
        rw [if_pos rfl] at hvalue
        rw [get?, ← hsame]
        exact hvalue
      · rintro ⟨_, _, hchange, hvalue⟩
        cases hchange
        exact Table.insert_of_find? hvalue
  | remove key =>
      constructor
      · intro hsame
        have hnone := Table.find?_erase s.items key key
        rw [if_pos rfl] at hnone
        have hheld := (Table.contains_iff s.items key).1 h
        rw [← hsame] at hheld
        exact absurd hnone hheld
      · rintro ⟨_, _, hchange, -⟩
        cases hchange

/-- A change that fails leaves no trace, in what is read and in the snapshot, if and only if it
sets a value that is there, and has not put another document into the snapshot on the way, where
the staging file is the snapshot. -/
theorem refused_unnoticed_iff {e : FileError} (h : s.apply c d = ((.error e, d'), s')) :
    s'.ReadsLike s ∧ d'.snapshot = d.snapshot ↔
      (∃ key value, c = .set key value ∧ s.get? key = some value) ∧
        (d.shared = true → ∀ text,
          e.staged (c.applied s.items).document d.kept = some text → d.snapshot = .file text) := by
  have hsaved : c.isSaved s.items = true := by
    by_contra hnot
    rw [apply_of_not_saved (by simpa using hnot)] at h
    cases h
  rw [apply_of_saved hsaved, Prod.mk.injEq] at h
  obtain ⟨hwrite, rfl⟩ := h
  have hsnapshot := snapshot_of_refused hwrite
  rw [readsLike_iff, ← applied_eq_iff hsaved]
  apply and_congr
  · constructor
    · intro hsame
      exact congrArg FileStore.items hsame
    · intro hsame
      exact congrArg FileStore.mk hsame
  · rw [hsnapshot]
    by_cases hshared : d.shared = true
    · rw [if_pos hshared]
      rcases e.staged (c.applied s.items).document d.kept with _ | text
      · simp
      · simp [hshared, eq_comm]
    · simp [hshared]

/-- The value set again is there, and the snapshot is not the staging file. -/
theorem refused_unnoticed_iff_again :
    let s : FileStore := ⟨Table.ofList [("a", "1")]⟩
    let d := (Disk.empty false).under .replacing
    let r := s.apply (.set "a" "1") d
    r.1.1 = .error (.refused "replace" .snapshot (.other 5 "Input/output error")) ∧
      r.2.ReadsLike s ∧ r.1.2.snapshot = d.snapshot := by
  refine ⟨rfl, (refused_unnoticed_iff rfl).2 ⟨⟨"a", "1", rfl, by decide⟩, ?_⟩⟩
  intro hshared
  cases hshared

/-- A value is read although its saving failed. -/
theorem not_refused_unnoticed :
    ¬ ∀ (s s' : FileStore) (c : Change) (d d' : Disk) (e : FileError),
      s.apply c d = ((.error e, d'), s') → s'.ReadsLike s ∧ d'.snapshot = d.snapshot := by
  intro h
  have hlike := (h ⟨Table.empty⟩ _ (.set "a" "1") ((Disk.empty false).under .replacing) _ _ rfl).1
  have hvalue := hlike.2 "a"
  revert hvalue
  decide

end FileStore

end ClientSession
