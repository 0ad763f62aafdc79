import ClientSession.Proofs.Storage.Openings
import ClientSession.Storage.Path

/-!
# Crashes while items are saved

A crash leaves the disk after some of the steps of a saving, or within the writing of the document.
Opened again, the store holds the items from before or the new ones, unless the staging file is the
snapshot: then the beginning of a document is all there is. The staging file is the snapshot for
the paths with the extension `tmp`.

- `writeSnapshot_eq_ok_iff`: a saving goes through its steps.
- `Disk.CutShort.outcomes`: what a crash leaves.
- `FileStore.crash_safe_iff`: which paths are safe.
-/

namespace ClientSession

namespace Disk

variable {d d' : Disk} {items : Items}

/-- Takes one step. -/
def take (d : Disk) : DiskStep → Except OsError Disk
  | .makeParent => d.makeParent
  | .read => d.read.map fun _ => d
  | .createStaging => d.createStaging
  | .write text => d.write text
  | .sync => d.sync
  | .replace => d.replace

/-- Takes steps in order, up to one that fails. -/
def follow (d : Disk) : List DiskStep → Except OsError Disk
  | [] => .ok d
  | step :: steps =>
    match d.take step with
    | .ok d' => d'.follow steps
    | .error e => .error e

theorem follow_cons_eq_ok_iff {step : DiskStep} {steps : List DiskStep} :
    d.follow (step :: steps) = .ok d' ↔ ∃ d₁, d.take step = .ok d₁ ∧ d₁.follow steps = .ok d' := by
  rw [follow]
  rcases d.take step with e | d₁
  · simp
  · simp

theorem follow_append_eq_ok_iff {steps steps' : List DiskStep} :
    d.follow (steps ++ steps') = .ok d' ↔
      ∃ d₁, d.follow steps = .ok d₁ ∧ d₁.follow steps' = .ok d' := by
  induction steps generalizing d with
  | nil => simp [follow]
  | cons step steps ih =>
      rw [List.cons_append, follow_cons_eq_ok_iff]
      simp only [ih, follow_cons_eq_ok_iff]
      constructor
      · rintro ⟨d₁, hstep, d₂, hsteps, hrest⟩
        exact ⟨d₂, ⟨d₁, hstep, hsteps⟩, hrest⟩
      · rintro ⟨d₂, ⟨d₁, hstep, hsteps⟩, hrest⟩
        exact ⟨d₁, hstep, d₂, hsteps, hrest⟩

/-- The steps of a saving. -/
def savingSteps (items : Items) : List DiskStep :=
  [.makeParent, .createStaging, .write items.document, .sync, .replace]

/-- The disk that a crash leaves while items are saved: after some of the steps, or while the
document is written, of which the first characters are in the staging file. -/
inductive CutShort (items : Items) (d : Disk) : Disk → Prop
  | between {d' : Disk} (n : Nat) (h : d.follow ((savingSteps items).take n) = .ok d') :
      CutShort items d d'
  | within {d' : Disk} (n : Nat) (h : d.follow [.makeParent, .createStaging] = .ok d') :
      CutShort items d (d'.tear items.document n)

/-- Nothing keeps the staging file from being made empty. -/
def Stages (d : Disk) : Prop :=
  d.failing .makeParent = none ∧ d.failing .createStaging = none

theorem eq_of_staged (h : d.follow [.makeParent, .createStaging] = .ok d') :
    d.Stages ∧ d' = d.housed.setStaging (.file "") := by
  obtain ⟨d₁, hparent, h⟩ := follow_cons_eq_ok_iff.1 h
  obtain ⟨d₂, hcreate, h⟩ := follow_cons_eq_ok_iff.1 h
  cases h
  have hd₁ := makeParent_eq_ok hparent
  subst hd₁
  refine ⟨⟨?_, ?_⟩, createStaging_eq_ok hcreate⟩
  · by_contra hfailing
    obtain ⟨e, he⟩ := Option.ne_none_iff_exists'.1 hfailing
    simp [take, makeParent, he] at hparent
  · by_contra hfailing
    obtain ⟨e, he⟩ := Option.ne_none_iff_exists'.1 hfailing
    have he' : d.housed.failing .createStaging = some e := he
    simp [take, createStaging, he'] at hcreate

/-- Nothing keeps the staging file from being made empty, so it is, unless a directory is in the way
of it or a file in the way of the directory. -/
theorem follow_of_stages (h : d.Stages) (hparent : d.parent = .directory)
    (hstaging : d.stagingEntry ≠ .directory) :
    d.follow [.makeParent, .createStaging] = .ok (d.housed.setStaging (.file "")) := by
  have hhoused : d.take .makeParent = .ok d.housed := by
    rw [take, makeParent, h.1, hparent]
    rfl
  have hcreate : d.housed.take .createStaging = .ok (d.housed.setStaging (.file "")) := by
    have hfailing : d.housed.failing .createStaging = none := h.2
    have hentry : d.housed.stagingEntry = d.stagingEntry := rfl
    rw [take, createStaging, hfailing, hentry]
    rcases hstaged : d.stagingEntry with _ | _ | _
    · rfl
    · rfl
    · exact absurd hstaged hstaging
  rw [follow_cons_eq_ok_iff]
  refine ⟨_, hhoused, ?_⟩
  rw [follow_cons_eq_ok_iff]
  exact ⟨_, hcreate, rfl⟩

/-- What a crash leaves: the disk as it was, the staging file with a beginning of the document, or
the document in the place of the snapshot. -/
theorem CutShort.outcomes (h : d.CutShort items d') :
    d' = d ∨ d' = d.housed ∨
      (d.Stages ∧ ∃ n, d' = d.housed.setStaging
        (.file (String.ofList (items.document.toList.take n)))) ∨
      d' = d.housed.placed items.document := by
  cases h with
  | @within d₂ n h =>
      obtain ⟨hstages, rfl⟩ := eq_of_staged h
      exact .inr (.inr (.inl ⟨hstages, n, tear_emptied _ _ _⟩))
  | between n h =>
      rcases n with _ | _ | n
      · cases h
        exact .inl rfl
      · obtain ⟨d₁, hparent, h⟩ := follow_cons_eq_ok_iff.1 h
        cases h
        exact .inr (.inl (makeParent_eq_ok hparent))
      have hstart : (savingSteps items).take (n + 1 + 1) = [.makeParent, .createStaging] ++
          [.write items.document, .sync, .replace].take n := rfl
      rw [hstart, follow_append_eq_ok_iff] at h
      obtain ⟨d₂, hstaged, h⟩ := h
      obtain ⟨hstages, rfl⟩ := eq_of_staged hstaged
      rcases n with _ | n
      · cases h
        exact .inr (.inr (.inl ⟨hstages, 0, by simp⟩))
      obtain ⟨d₃, hwrite, h⟩ := follow_cons_eq_ok_iff.1 h
      have hwritten := write_eq_ok hwrite
      have hwhole : String.ofList (items.document.toList.take items.document.toList.length) =
          items.document := by
        rw [List.take_length, String.ofList_toList]
      rcases n with _ | _ | n
      · cases h
        refine .inr (.inr (.inl ⟨hstages, items.document.toList.length, ?_⟩))
        rw [hwhole]
        exact hwritten
      · obtain ⟨d₄, hsync, h⟩ := follow_cons_eq_ok_iff.1 h
        cases h
        refine .inr (.inr (.inl ⟨hstages, items.document.toList.length, ?_⟩))
        rw [hwhole, sync_eq_ok hsync]
        exact hwritten
      · obtain ⟨d₄, hsync, h⟩ := follow_cons_eq_ok_iff.1 h
        obtain ⟨d₅, hreplace, h⟩ := follow_cons_eq_ok_iff.1 h
        rw [List.take_nil] at h
        cases h
        rw [sync_eq_ok hsync, hwritten] at hreplace
        exact .inr (.inr (.inr (replace_eq_ok hreplace)))

end Disk

/-! ## The steps of a saving -/

theorem attempt_eq_ok_iff {action : String} {location : Location} {d d' : Disk}
    {step : Disk → Except OsError Disk} :
    attempt action location d step = (.ok (), d') ↔ step d = .ok d' := by
  unfold attempt
  rcases step d with e | d₁
  · simp
  · simp

theorem writeStaging_eq_ok_iff {text : String} {d d' : Disk} :
    writeStaging text d = (.ok (), d') ↔ d.write text = .ok d' := by
  unfold writeStaging
  rcases d.write text with e | d₁
  · simp
  · simp

theorem thenDisk_eq_ok_iff {r : DiskResult Unit} {f : Unit → Disk → DiskResult Unit} {d' : Disk} :
    thenDisk r f = (.ok (), d') ↔ ∃ d, r = (.ok (), d) ∧ f () d = (.ok (), d') := by
  obtain ⟨e | _, d⟩ := r
  · simp [thenDisk]
  · simp [thenDisk]

/-- A saving that is done has gone through its steps. -/
theorem writeSnapshot_eq_ok_iff {items : Items} {d d' : Disk} :
    writeSnapshot items d = (.ok (), d') ↔ d.follow (Disk.savingSteps items) = .ok d' := by
  simp only [writeSnapshot, thenDisk_eq_ok_iff, attempt_eq_ok_iff, writeStaging_eq_ok_iff,
    Disk.savingSteps, Disk.follow_cons_eq_ok_iff, Disk.take]
  simp [Disk.follow]

namespace FileStore

/-- A store opened on the disk holds the items. -/
def OpensWith (d : Disk) (items : Items) : Prop :=
  ∃ s d', openAt d.calm = (.ok s, d') ∧ s.items = items

theorem opensWith_iff {d : Disk} {items : Items} (hparent : d.parent = .directory) :
    OpensWith d items ↔ d.snapshot.items? = some items := by
  constructor
  · rintro ⟨s, d', hopen, rfl⟩
    exact (openAt_eq_ok hopen).2
  · intro hitems
    obtain ⟨d', hopen⟩ := (exists_openAt_calm (s := ⟨items⟩) hparent).2 hitems
    exact ⟨⟨items⟩, d', hopen, rfl⟩

/-- One character is not the whole of a document. -/
theorem begun_one (items : Items) : items.begun 1 = none := by
  have hlength : 1 < items.document.toList.length := by
    rcases hentries : items.entries with _ | ⟨e, es⟩
    · rw [Items.document, hentries]
      decide
    · rw [Items.toList_document hentries]
      simp only [List.length_cons, List.length_append, List.length_nil]
      omega
  simp [Items.begun, hlength]

/-- Whatever path a store was opened at, whatever it held, and whatever is saved then under
whatever trouble: a store opened after a crash holds the old or the new items in every case if and
only if the path has not the extension `tmp`, or the staging file is never made empty. A path
without a name is no place for a file. -/
theorem crash_safe_iff {path : String} {s : FileStore} {d d' : Disk}
    (hshared : d.shared = FilePath.stagesInPlace path) (hopen : openAt d = (.ok s, d'))
    (t : Trouble) (hname : FilePath.name? path = none → t.failing .createStaging ≠ none)
    (items : Items) :
    (∀ left, (d'.under t).CutShort items left → OpensWith left s.items ∨ OpensWith left items) ↔
      FilePath.extension? path ≠ some ['t', 'm', 'p'] ∨ ¬ (d'.under t).Stages := by
  obtain ⟨rfl, hheld⟩ := openAt_eq_ok hopen
  have hheld' : (d.housed.under t).snapshot.items? = some s.items := hheld
  constructor
  · intro hsafe
    by_contra hunsafe
    rw [not_or, not_not, not_not] at hunsafe
    obtain ⟨htmp, hstages⟩ := hunsafe
    have hname' : FilePath.name? path ≠ none := by
      intro hnone
      rw [FilePath.extension?, hnone] at htmp
      cases htmp
    have hinPlace : (d.housed.under t).shared = true := by
      show d.shared = true
      rw [hshared, FilePath.stagesInPlace_iff hname', htmp]
    have hstaging : (d.housed.under t).stagingEntry ≠ .directory := by
      rw [Disk.stagingEntry, if_pos hinPlace]
      intro hdirectory
      rw [hdirectory] at hheld'
      cases hheld'
    -- A crash after the first character: no document is left.
    have htorn := hsafe _ (.within 1 (Disk.follow_of_stages hstages rfl hstaging))
    have hnothing : ∀ items', ¬ OpensWith
        (((d.housed.under t).housed.setStaging (.file "")).tear items.document 1) items' := by
      intro items' hopens
      rw [Disk.tear_emptied, opensWith_iff (by simp [Disk.housed]), Disk.snapshot_setStaging]
        at hopens
      have hinPlace' : (d.housed.under t).housed.shared = true := hinPlace
      rw [if_pos hinPlace', items?_begun, begun_one] at hopens
      cases hopens
    rcases htorn with h | h
    · exact hnothing _ h
    · exact hnothing _ h
  · intro hsafe left hcut
    rcases hcut.outcomes with rfl | rfl | ⟨hstages, n, rfl⟩ | rfl
    · exact .inl ((opensWith_iff rfl).2 hheld')
    · exact .inl ((opensWith_iff rfl).2 hheld')
    · left
      have hbeside : (d.housed.under t).shared = false := by
        show d.shared = false
        rcases hnone : FilePath.name? path with _ | name
        · exact absurd hstages.2 (hname hnone)
        · have hnamed : FilePath.name? path ≠ none := by simp [hnone]
          have hiff := FilePath.stagesInPlace_iff hnamed
          rcases hsafe with hother | hnot
          · rw [Bool.eq_false_iff, hshared]
            intro hsame
            exact hother (hiff.1 hsame)
          · exact absurd hstages hnot
      have hbeside' : ¬ (d.housed.under t).housed.shared = true := by
        rw [Bool.not_eq_true]
        exact hbeside
      rw [opensWith_iff (by simp [Disk.housed]), Disk.snapshot_setStaging, if_neg hbeside']
      exact hheld'
    · right
      rw [opensWith_iff (by simp [Disk.housed]), Disk.snapshot_placed]
      exact items?_document items

/-- A snapshot that is no staging file. -/
theorem crash_safe_iff_plain :
    FilePath.stagesInPlace "state/session.json" = false ∧
      ∀ left, ((Disk.empty false).housed.under ⟨fun _ => none, 0⟩).CutShort
        (Table.ofList [("a", "1")]) left →
          OpensWith left Table.empty ∨ OpensWith left (Table.ofList [("a", "1")]) :=
  have hbeside : FilePath.stagesInPlace "state/session.json" = false := by decide +kernel
  have hnamed : FilePath.name? "state/session.json" ≠ none := by decide +kernel
  have hsafe := crash_safe_iff (s := ⟨Table.empty⟩) (d := Disk.empty false) hbeside.symm rfl
    ⟨fun _ => none, 0⟩ (fun hnone => absurd hnone hnamed) (Table.ofList [("a", "1")])
  ⟨hbeside, hsafe.2 (.inl (by decide +kernel))⟩

/-- After a crash when the staging file was made empty, which is the snapshot, the items are
gone. -/
theorem not_crash_safe :
    ¬ ∀ (path : String) (s : FileStore) (d d' : Disk),
      d.shared = FilePath.stagesInPlace path → openAt d = (.ok s, d') →
        ∀ (items : Items) (left : Disk), d'.calm.CutShort items left →
          OpensWith left s.items ∨ OpensWith left items := by
  intro h
  let old : Items := Table.ofList [("a", "1")]
  let d : Disk := { Disk.empty true with parent := .directory, snapshot := .file old.document }
  obtain ⟨d', hopen⟩ := (exists_openAt_calm (s := ⟨old⟩) (d := d) rfl).2 (items?_document old)
  obtain ⟨rfl, -⟩ := openAt_eq_ok hopen
  have hcut : d.calm.housed.calm.CutShort (old.insert "b" "2")
      (d.calm.housed.calm.housed.setStaging (.file "")) := .between 2 rfl
  have hleft := h "session.tmp" ⟨old⟩ d.calm _ (by decide +kernel) hopen _ _ hcut
  rw [opensWith_iff rfl, opensWith_iff rfl] at hleft
  revert hleft
  decide +kernel

end FileStore

end ClientSession
