import ClientSession.Proofs.Storage.Openings

/-!
# What is done is on disk

A store that nobody else writes to changes through a history of changes, each with its own trouble.
A change that was saved is there when the store is opened again. A change that had nothing to save
is done at once; then the opened store holds the same if and only if the snapshot stands for what
the store holds, which it does not after a change that failed and was not made again.

- `Running.Sound`: the snapshot stands for what is recorded, kept by every change.
- `Running.done_durable_iff`: when what is done is on disk.
-/

namespace ClientSession

namespace FileStore

/-- A store opened anew on the disk lists the same keys and finds the same values. -/
def Durable (s : FileStore) (d : Disk) : Prop :=
  ∃ s' d', openAt d.calm = (.ok s', d') ∧ s'.ReadsLike s

theorem durable_iff {s : FileStore} {d : Disk} (hparent : d.parent = .directory) :
    s.Durable d ↔ d.snapshot.items? = some s.items := by
  constructor
  · rintro ⟨s', d', hopen, hlike⟩
    rw [readsLike_iff] at hlike
    subst hlike
    exact (openAt_eq_ok hopen).2
  · intro hitems
    obtain ⟨d', hopen⟩ := (exists_openAt_calm hparent).2 hitems
    exact ⟨s, d', hopen, readsLike_iff.2 rfl⟩

/-- What the snapshot stands for after items were saved on a disk, by the outcome: the items, and
what it stood for before when the saving failed. Where the staging file is the snapshot, a saving
that fails has written the document or a beginning of it. -/
def savedAfter (d : Disk) (items : Items) (saved : Option Items) :
    Except FileError Unit → Option Items
  | .ok () => some items
  | .error e =>
    if d.shared then
      match e with
      | .refused "create" _ _ => saved
      | .refused "write" _ _ => items.begun d.kept
      | _ => some items
    else saved

theorem items?_of_saves {items : Items} {d : Disk} {r : DiskResult Unit} (h : Saves items d r) :
    r.2.snapshot.items? = savedAfter d items d.snapshot.items? r.1 := by
  cases h with
  | unhoused => simp [savedAfter]
  | unstaged => simp [savedAfter, Disk.housed]
  | torn =>
      by_cases hshared : d.shared = true
      · simp [savedAfter, Disk.snapshot_setStaging, Disk.housed, hshared, items?_begun]
      · simp [savedAfter, Disk.snapshot_setStaging, Disk.housed, hshared]
  | unsynced =>
      by_cases hshared : d.shared = true
      · simp [savedAfter, Disk.snapshot_setStaging, Disk.housed, hshared, items?_document]
      · simp [savedAfter, Disk.snapshot_setStaging, Disk.housed, hshared]
  | unplaced =>
      by_cases hshared : d.shared = true
      · simp [savedAfter, Disk.snapshot_setStaging, Disk.housed, hshared, items?_document]
      · simp [savedAfter, Disk.snapshot_setStaging, Disk.housed, hshared]
  | done => simp only [savedAfter, Disk.snapshot_placed, items?_document]

theorem parent_of_saves {items : Items} {d : Disk} {r : DiskResult Unit} (h : Saves items d r)
    (hparent : d.parent = .directory) : r.2.parent = .directory := by
  cases h with
  | unhoused => exact hparent
  | unstaged => rfl
  | torn => simp [Disk.housed]
  | unsynced => simp [Disk.housed]
  | unplaced => simp [Disk.housed]
  | done => simp [Disk.housed]

/-- A running store with its disk, and the items that the snapshot stands for: those saved last,
or none that could be read when a saving into the snapshot itself was cut short. -/
structure Running where
  store : FileStore
  disk : Disk
  saved : Option Items

namespace Running

/-- A store just opened: the snapshot stands for its items. -/
def opened (s : FileStore) (d : Disk) : Running := ⟨s, d, some s.items⟩

/-- What is answered to a change under some trouble. -/
def outcome (r : Running) (a : Trouble × Change) : Except FileError Unit :=
  (r.store.apply a.2 (r.disk.under a.1)).1.1

/-- One change under some trouble. -/
def next (r : Running) (a : Trouble × Change) : Running :=
  let d := r.disk.under a.1
  let (result, store) := r.store.apply a.2 d
  { store, disk := result.2
    saved := if a.2.isSaved r.store.items then savedAfter d store.items r.saved result.1
      else r.saved }

/-- A history of changes, each under its own trouble. -/
def after (r : Running) (history : List (Trouble × Change)) : Running := history.foldl next r

/-- The directory is there, and the snapshot stands for what is recorded. -/
structure Sound (r : Running) : Prop where
  parent : r.disk.parent = .directory
  saved : r.disk.snapshot.items? = r.saved

theorem sound_opened {s : FileStore} {d d' : Disk} (h : openAt d = (.ok s, d')) :
    (opened s d').Sound := by
  obtain ⟨rfl, hitems⟩ := openAt_eq_ok h
  exact ⟨rfl, hitems⟩

/-- A change keeps the record of what the snapshot stands for. -/
theorem Sound.next {r : Running} (h : r.Sound) (a : Trouble × Change) : (r.next a).Sound := by
  obtain ⟨t, c⟩ := a
  by_cases hsaved : c.isSaved r.store.items = true
  · have hsaves := saves (c.applied r.store.items) (r.disk.under t)
    have happly := apply_of_saved hsaved (r.disk.under t)
    refine ⟨?_, ?_⟩
    · simp only [Running.next, happly]
      exact parent_of_saves hsaves h.parent
    · have hitems := items?_of_saves hsaves
      have hold : (r.disk.under t).snapshot.items? = r.saved := h.saved
      rw [hold] at hitems
      simp only [Running.next, happly, hsaved, if_true]
      exact hitems
  · have hidle : c.isSaved r.store.items = false := by simpa using hsaved
    refine ⟨?_, ?_⟩
    · simp only [Running.next, apply_of_not_saved hidle]
      exact h.parent
    · simp only [Running.next, apply_of_not_saved hidle, hidle]
      exact h.saved

theorem Sound.after {r : Running} (h : r.Sound) (history : List (Trouble × Change)) :
    (r.after history).Sound := by
  induction history generalizing r with
  | nil => exact h
  | cons a history ih => exact ih (h.next a)

/-- After any history, a change that is done is on disk if and only if it was saved, or the
snapshot stands already for what the store holds. -/
theorem done_durable_iff {s : FileStore} {d d' : Disk} (hopen : openAt d = (.ok s, d'))
    (history : List (Trouble × Change)) (a : Trouble × Change)
    (hdone : ((opened s d').after history).outcome a = .ok ()) :
    (((opened s d').after history).next a).store.Durable
        (((opened s d').after history).next a).disk ↔
      a.2.isSaved ((opened s d').after history).store.items = true ∨
        ((opened s d').after history).saved = some ((opened s d').after history).store.items := by
  have hsound := (sound_opened hopen).after history
  generalize (opened s d').after history = r at hdone hsound ⊢
  have hnext := hsound.next a
  rw [durable_iff hnext.parent, hnext.saved]
  obtain ⟨t, c⟩ := a
  by_cases hsaved : c.isSaved r.store.items = true
  · -- What was saved is recorded.
    have happly := apply_of_saved hsaved (r.disk.under t)
    rw [outcome, happly] at hdone
    have hok : (writeSnapshot (c.applied r.store.items) (r.disk.under t)).1 = .ok () := hdone
    simp only [next, happly, hsaved, if_true, hok, savedAfter, true_or]
  · -- Nothing was saved, and nothing has changed.
    have hidle : c.isSaved r.store.items = false := by simpa using hsaved
    simp only [next, apply_of_not_saved hidle, hidle]
    simp

/-- The removal of a value is saved. -/
theorem done_durable_iff_plain :
    let calm : Trouble := ⟨fun _ => none, 0⟩
    let r := (opened ⟨Table.empty⟩ (Disk.empty false).housed).after [(calm, .set "a" "1")]
    r.outcome (calm, .remove "a") = .ok () ∧
      (r.next (calm, .remove "a")).store.Durable (r.next (calm, .remove "a")).disk := by
  refine ⟨rfl, (done_durable_iff (d := Disk.empty false) rfl [_] _ rfl).2 (.inl ?_)⟩
  decide

/-- A removal that failed is answered as done when it is asked again, and the value is there when
the store is opened anew. -/
theorem not_done_durable :
    ¬ ∀ (s : FileStore) (d d' : Disk), openAt d = (.ok s, d') →
      ∀ (history : List (Trouble × Change)) (a : Trouble × Change),
        ((opened s d').after history).outcome a = .ok () →
          (((opened s d').after history).next a).store.Durable
            (((opened s d').after history).next a).disk := by
  intro h
  have hdurable := h ⟨Table.empty⟩ (Disk.empty false) _ rfl
    [(⟨fun _ => none, 0⟩, .set "a" "1"), (.replacing, .remove "a")]
    (⟨fun _ => none, 0⟩, .remove "a") rfl
  rw [durable_iff rfl] at hdurable
  revert hdurable
  decide +kernel

end Running

end FileStore

end ClientSession
