import Mathlib.Data.List.Induction
import Mathlib.Data.List.Nodup
import ClientSession.Proofs.Telemetry.Custody

/-!
# Sends of session events

Beside the ledger of session events a list is kept of the sends: which tickets were handed to the
sink together, and what became of it. From the list is read in how many sends an event was and how
they ended.

- `Batcher.Booked`: what the list says of the tickets of a ledger.
- `Batcher.Booked.take` and its siblings: it says so still after tickets have moved.
- `Batcher.Booked.step`: so it does after each moment of a course.
- `Batcher.sent_at_most_twice`: a session event is in two sends at most, of which the first one
  failed, and no two places have it at a time.
-/

namespace ClientSession

namespace Batcher

open Workplace

/-! ## The list -/

/-- What became of a send. One that is under way is known by its flight. -/
inductive Fate where
  | underway (flight : Nat)
  | succeeded
  | failed
  | cutOff
deriving DecidableEq

def Fate.isUnderway : Fate → Bool
  | .underway _ => true
  | _ => false

/-- What became of a send once a flight is done with its own. -/
def Fate.settle (n : Nat) (outcome fate : Fate) : Fate :=
  if fate = .underway n then outcome else fate

/-- Tickets that were handed to the sink together. -/
structure Dispatch where
  tickets : List Ticket
  fate : Fate

def Dispatch.settle (n : Nat) (outcome : Fate) (d : Dispatch) : Dispatch :=
  { d with fate := Fate.settle n outcome d.fate }

/-- The event of the number was in the send. -/
def Dispatch.bears (t : Nat) (d : Dispatch) : Bool := d.tickets.any fun k => k.number = t

/-- What became of the sends of the event of a number, in their order. -/
def fates (t : Nat) (ds : List Dispatch) : List Fate := (ds.filter (·.bears t)).map (·.fate)

section Fates

variable {n t : Nat} {outcome : Fate} {ds : List Dispatch}

theorem bears_iff {d : Dispatch} : d.bears t = true ↔ ∃ k ∈ d.tickets, k.number = t := by
  simp [Dispatch.bears]

theorem fates_concat_of_bears {d : Dispatch} (h : d.bears t = true) :
    fates t (ds ++ [d]) = fates t ds ++ [d.fate] := by
  simp [fates, h]

theorem fates_concat_of_not_bears {d : Dispatch} (h : d.bears t = false) :
    fates t (ds ++ [d]) = fates t ds := by
  simp [fates, h]

theorem fates_settle : fates t (ds.map (Dispatch.settle n outcome)) =
    (fates t ds).map (Fate.settle n outcome) := by
  induction ds with
  | nil => rfl
  | cons d ds ih =>
      have hbears : (d.settle n outcome).bears t = d.bears t := rfl
      unfold fates at ih ⊢
      rw [List.map_cons, List.filter_cons, List.filter_cons, hbears]
      split
      · rw [List.map_cons, List.map_cons, List.map_cons, ih]
        rfl
      · exact ih

/-- What failed stays so. -/
theorem settle_replicate_failed (m : Nat) :
    (List.replicate m Fate.failed).map (Fate.settle n outcome) = List.replicate m .failed := by
  rw [List.map_replicate]
  rfl

theorem settle_underway_self : Fate.settle n outcome (.underway n) = outcome := if_pos rfl

theorem settle_underway_of_ne {m : Nat} (h : m ≠ n) :
    Fate.settle n outcome (.underway m) = .underway m := by
  apply if_neg
  intro heq
  exact h (Fate.underway.inj heq)

end Fates

/-! ## What the list says -/

/-- What the list of the sends says of the tickets of a ledger, which are those of these events, by
the order in which they were accepted. -/
structure Booked (events : List Event) (L : Ledger) (ds : List Dispatch) : Prop where
  accepted : L.accepted = events.length
  /-- A ticket is the one of the event of its number. -/
  named : ∀ k, k ∈ L.waiting ∨ k ∈ L.underway.map (·.ticket) → events[k.number]? = some k.event
  listed : ∀ d ∈ ds, (d.tickets.map (·.number)).Nodup ∧
    ∀ k ∈ d.tickets, events[k.number]? = some k.event
  once : ∀ t, Ledger.tally t L.waiting + Ledger.tally t (L.underway.map (·.ticket)) ≤ 1
  fresh : ∀ t, L.accepted ≤ t → fates t ds = []
  /-- What waits was in no send, or in one that failed. -/
  waiting : ∀ k ∈ L.waiting, k.failures ≤ 1 ∧
    fates k.number ds = List.replicate k.failures .failed
  held : ∀ n, ∀ k ∈ L.held n, k.failures ≤ 1 ∧
    fates k.number ds = List.replicate k.failures .failed ++ [.underway n]
  underway : ∀ d ∈ ds, ∀ n, d.fate = .underway n → d.tickets = L.held n ∧ L.held n ≠ []
  /-- What was in a send stands before what was not. -/
  ordered : L.waiting.Pairwise fun k l => 0 < l.failures → 0 < k.failures
  twice : ∀ t, (fates t ds).length ≤ 2 ∧ ∀ fate ∈ (fates t ds).dropLast, fate = .failed

theorem booked_empty : Booked [] Ledger.empty [] where
  accepted := rfl
  named := by simp [Ledger.empty]
  listed := by simp
  once := fun _ => Nat.zero_le 1
  fresh := fun _ _ => rfl
  waiting := by simp [Ledger.empty]
  held := by simp [Ledger.empty, Ledger.held]
  underway := by simp
  ordered := List.Pairwise.nil
  twice := by simp [fates]

section Booked

variable {events : List Event} {L L' : Ledger} {ds : List Dispatch} {n : Nat}

theorem mem_underway_of_held {k : Ticket} (h : k ∈ L.held n) : k ∈ L.underway.map (·.ticket) := by
  obtain ⟨p, hp, rfl⟩ := List.mem_map.mp h
  exact List.mem_map.mpr ⟨p, (List.mem_filter.mp hp).1, rfl⟩

/-- Where no number stands twice the numbers are different. -/
theorem nodup_of_tally {ks : List Ticket} (h : ∀ t, Ledger.tally t ks ≤ 1) :
    (ks.map (·.number)).Nodup := by
  rw [List.nodup_iff_count_le_one]
  intro t
  rw [List.count_eq_countP, List.countP_map]
  exact h t

/-- Only what waits and what is under way matters. -/
theorem Booked.same (h : Booked events L ds) (haccepted : L'.accepted = L.accepted)
    (hwaiting : L'.waiting = L.waiting) (hunderway : L'.underway = L.underway) :
    Booked events L' ds := by
  have hheld (n : Nat) : L'.held n = L.held n := by rw [Ledger.held, Ledger.held, hunderway]
  constructor
  · rw [haccepted]
    exact h.accepted
  · rw [hwaiting, hunderway]
    exact h.named
  · exact h.listed
  · rw [hwaiting, hunderway]
    exact h.once
  · rw [haccepted]
    exact h.fresh
  · rw [hwaiting]
    exact h.waiting
  · intro n
    rw [hheld]
    exact h.held n
  · intro d hd n
    rw [hheld]
    exact h.underway d hd n
  · rw [hwaiting]
    exact h.ordered
  · exact h.twice

theorem Booked.track (h : Booked events L ds) (hL : L.Balanced) (e : Event) :
    Booked (events ++ [e]) (L.track e) ds := by
  have hold {k : Ticket} (hk : events[k.number]? = some k.event) :
      (events ++ [e])[k.number]? = some k.event := by
    obtain ⟨hlt, -⟩ := List.getElem?_eq_some_iff.mp hk
    rw [List.getElem?_append_left hlt]
    exact hk
  constructor
  · simp [Ledger.track, h.accepted]
  · rintro k (hk | hk)
    · rcases List.mem_append.mp hk with hk | hk
      · exact hold (h.named k (.inl hk))
      · obtain rfl := List.mem_singleton.mp hk
        simp [h.accepted]
    · exact hold (h.named k (.inr hk))
  · intro d hd
    exact ⟨(h.listed d hd).1, fun k hk => hold ((h.listed d hd).2 k hk)⟩
  · intro t
    have honce := h.once t
    have hnone := fun hle => hL.none t hle
    rw [Ledger.tally_tickets] at hnone
    have hnew : Ledger.tally t [⟨L.accepted, e, 0⟩] = if L.accepted = t then 1 else 0 := by
      simp [Ledger.tally, List.countP_cons]
    simp only [Ledger.track, Ledger.tally_append, hnew]
    split
    · omega
    · omega
  · intro t ht
    exact h.fresh t (Nat.le_of_succ_le ht)
  · intro k hk
    rcases List.mem_append.mp hk with hk | hk
    · exact h.waiting k hk
    · obtain rfl := List.mem_singleton.mp hk
      exact ⟨Nat.zero_le 1, h.fresh _ (Nat.le_refl _)⟩
  · exact h.held
  · exact h.underway
  · refine List.pairwise_append.mpr ⟨h.ordered, List.pairwise_singleton _ _, ?_⟩
    intro k _ l hl hpositive
    obtain rfl := List.mem_singleton.mp hl
    exact absurd hpositive (Nat.lt_irrefl 0)
  · exact h.twice

theorem Booked.clear (h : Booked events L ds) : Booked events L.clear ds := by
  constructor
  · exact h.accepted
  · rintro k (hk | hk)
    · cases hk
    · exact h.named k (.inr hk)
  · exact h.listed
  · intro t
    exact Nat.le_trans (Nat.add_le_add_right (Nat.zero_le _) _) (h.once t)
  · exact h.fresh
  · intro k hk
    cases hk
  · exact h.held
  · exact h.underway
  · exact List.Pairwise.nil
  · exact h.twice

/-- All that waits is handed to the sink. -/
theorem Booked.take (h : Booked events L ds) (hheld : L.held n = []) (hsome : L.waiting ≠ []) :
    Booked events (L.take n) (ds ++ [⟨L.waiting, .underway n⟩]) := by
  have htaken : (L.take n).underway.map (·.ticket) = L.underway.map (·.ticket) ++ L.waiting := by
    rw [Ledger.take, List.map_append, List.map_map]
    exact congrArg _ L.waiting.map_id
  have hbears {t : Nat} {fate : Fate} :
      Dispatch.bears t ⟨L.waiting, fate⟩ = true ↔ ∃ k ∈ L.waiting, k.number = t := bears_iff
  constructor
  · exact h.accepted
  · rintro k (hk | hk)
    · cases hk
    · rw [htaken, List.mem_append] at hk
      exact h.named k hk.symm
  · intro d hd
    rcases List.mem_append.mp hd with hd | hd
    · exact h.listed d hd
    · obtain rfl := List.mem_singleton.mp hd
      refine ⟨nodup_of_tally fun t => ?_, fun k hk => h.named k (.inl hk)⟩
      exact Nat.le_trans (Nat.le_add_right _ _) (h.once t)
  · intro t
    have honce := h.once t
    have hempty : Ledger.tally t (L.take n).waiting = 0 := rfl
    rw [htaken, hempty, Ledger.tally_append]
    omega
  · intro t ht
    cases hb : Dispatch.bears t ⟨L.waiting, .underway n⟩ with
    | false =>
        rw [fates_concat_of_not_bears hb]
        exact h.fresh t ht
    | true =>
        obtain ⟨k, hk, rfl⟩ := hbears.mp hb
        obtain ⟨hlt, -⟩ := List.getElem?_eq_some_iff.mp (h.named k (.inl hk))
        rw [← h.accepted] at hlt
        exact absurd ht (Nat.not_le.mpr hlt)
  · intro k hk
    cases hk
  · intro m k hk
    by_cases hm : m = n
    · subst hm
      rw [Ledger.held_take_self hheld] at hk
      obtain ⟨hfailures, hfates⟩ := h.waiting k hk
      rw [fates_concat_of_bears (hbears.mpr ⟨k, hk, rfl⟩), hfates]
      exact ⟨hfailures, rfl⟩
    · rw [Ledger.held_take_of_ne hm] at hk
      -- What another flight sends does not wait.
      have hb : Dispatch.bears k.number ⟨L.waiting, .underway n⟩ = false := by
        refine Bool.eq_false_iff.mpr fun hb => ?_
        have hwaits := Ledger.tally_pos.mpr (hbears.mp hb)
        have hsent := Ledger.tally_pos.mpr ⟨k, mem_underway_of_held hk, rfl⟩
        have honce := h.once k.number
        omega
      rw [fates_concat_of_not_bears hb]
      exact h.held m k hk
  · intro d hd m hm
    rcases List.mem_append.mp hd with hd | hd
    · obtain ⟨htickets, hne⟩ := h.underway d hd m hm
      have hother : m ≠ n := by
        rintro rfl
        exact hne hheld
      rw [Ledger.held_take_of_ne hother]
      exact ⟨htickets, hne⟩
    · obtain rfl := List.mem_singleton.mp hd
      obtain rfl := Fate.underway.inj hm
      rw [Ledger.held_take_self hheld]
      exact ⟨rfl, hsome⟩
  · exact List.Pairwise.nil
  · intro t
    cases hb : Dispatch.bears t ⟨L.waiting, .underway n⟩ with
    | false =>
        rw [fates_concat_of_not_bears hb]
        exact h.twice t
    | true =>
        obtain ⟨k, hk, rfl⟩ := hbears.mp hb
        obtain ⟨hfailures, hfates⟩ := h.waiting k hk
        rw [fates_concat_of_bears hb, hfates, List.dropLast_concat]
        refine ⟨by simpa using hfailures, fun fate hfate => ?_⟩
        exact List.eq_of_mem_replicate hfate

/-- A flight is done with its send. -/
theorem Booked.release (h : Booked events L ds) {outcome : Fate}
    (houtcome : outcome.isUnderway = false) :
    Booked events (L.release n) (ds.map (Dispatch.settle n outcome)) := by
  have hsublist : ((L.release n).underway.map (·.ticket)).Sublist (L.underway.map (·.ticket)) :=
    List.filter_sublist.map _
  constructor
  · exact h.accepted
  · intro k hk
    exact h.named k (hk.imp_right hsublist.mem)
  · intro d hd
    obtain ⟨d, hmem, rfl⟩ := List.mem_map.mp hd
    exact h.listed d hmem
  · intro t
    refine Nat.le_trans (Nat.add_le_add_left ?_ _) (h.once t)
    exact hsublist.countP_le
  · intro t ht
    rw [fates_settle, h.fresh t ht]
    rfl
  · intro k hk
    obtain ⟨hfailures, hfates⟩ := h.waiting k hk
    rw [fates_settle, hfates, settle_replicate_failed]
    exact ⟨hfailures, rfl⟩
  · intro m k hk
    by_cases hm : m = n
    · subst hm
      rw [Ledger.held_release_self] at hk
      cases hk
    · rw [Ledger.held_release_of_ne hm] at hk
      obtain ⟨hfailures, hfates⟩ := h.held m k hk
      rw [fates_settle, hfates, List.map_append, settle_replicate_failed, List.map_singleton,
        settle_underway_of_ne hm]
      exact ⟨hfailures, rfl⟩
  · intro d hd m hm
    obtain ⟨d, hmem, rfl⟩ := List.mem_map.mp hd
    have hfate : d.fate = .underway m ∧ m ≠ n := by
      by_cases hown : d.fate = .underway n
      · rw [Dispatch.settle, Fate.settle, if_pos hown] at hm
        obtain rfl : outcome = .underway m := hm
        cases houtcome
      · rw [Dispatch.settle, Fate.settle, if_neg hown] at hm
        exact ⟨hm, fun heq => hown (heq ▸ hm)⟩
    rw [Ledger.held_release_of_ne hfate.2]
    exact h.underway d hmem m hfate.1
  · exact h.ordered
  · intro t
    obtain ⟨hlength, hfailed⟩ := h.twice t
    rw [fates_settle, List.length_map, ← List.map_dropLast]
    refine ⟨hlength, fun fate hfate => ?_⟩
    obtain ⟨fate, hmem, rfl⟩ := List.mem_map.mp hfate
    rw [hfailed fate hmem]
    rfl

theorem Booked.deliver (h : Booked events L ds) (n : Nat) :
    Booked events (L.deliver n) (ds.map (Dispatch.settle n .succeeded)) :=
  (h.release rfl).same rfl rfl rfl

theorem Booked.drop (h : Booked events L ds) (n : Nat) :
    Booked events (L.drop n) (ds.map (Dispatch.settle n .cutOff)) :=
  (h.release rfl).same rfl rfl rfl

/-- What waits again after a send that failed was in this one only. -/
theorem Booked.again (h : Booked events L ds) {k : Ticket}
    (hk : k ∈ (((L.held n).filter L.counts).map Ticket.failed).filter (·.failures < 2)) :
    ∃ k' ∈ L.held n, k = ⟨k'.number, k'.event, 1⟩ ∧
      fates k'.number (ds.map (Dispatch.settle n .failed)) = [.failed] := by
  obtain ⟨hmem, hfailures⟩ := List.mem_filter.mp hk
  obtain ⟨k', hk', rfl⟩ := List.mem_map.mp hmem
  have hheld : k' ∈ L.held n := (List.mem_filter.mp hk').1
  have hzero : k'.failures = 0 := by
    have hlt : k'.failures + 1 < 2 := of_decide_eq_true hfailures
    omega
  refine ⟨k', hheld, ?_, ?_⟩
  · simp [Ticket.failed, hzero]
  · rw [fates_settle, (h.held n k' hheld).2, hzero]
    simp [settle_underway_self]

theorem Booked.fail (h : Booked events L ds) (n : Nat) :
    Booked events (L.fail n) (ds.map (Dispatch.settle n .failed)) := by
  have hrest : Booked events (L.release n) (ds.map (Dispatch.settle n .failed)) := h.release rfl
  have hwaiting : (L.fail n).waiting =
      (((L.held n).filter L.counts).map Ticket.failed).filter (·.failures < 2) ++ L.waiting := rfl
  constructor
  · exact h.accepted
  · rintro k (hk | hk)
    · rw [hwaiting] at hk
      rcases List.mem_append.mp hk with hk | hk
      · obtain ⟨k', hk', rfl, -⟩ := h.again hk
        exact h.named k' (.inr (mem_underway_of_held hk'))
      · exact h.named k (.inl hk)
    · exact hrest.named k (.inr hk)
  · exact hrest.listed
  · intro t
    have honce := h.once t
    have hsplit := Ledger.tally_underway (L := L) t n
    have hagain : Ledger.tally t
        ((((L.held n).filter L.counts).map Ticket.failed).filter (·.failures < 2)) ≤
          Ledger.tally t (L.held n) := by
      refine Nat.le_trans List.filter_sublist.countP_le ?_
      rw [← Ledger.tally, Ledger.tally_failed]
      exact List.filter_sublist.countP_le
    have hunderway : (L.fail n).underway = (L.release n).underway := rfl
    rw [hwaiting, Ledger.tally_append, hunderway]
    omega
  · exact hrest.fresh
  · intro k hk
    rw [hwaiting] at hk
    rcases List.mem_append.mp hk with hk | hk
    · obtain ⟨k', -, rfl, hfates⟩ := h.again hk
      exact ⟨Nat.le_refl 1, hfates⟩
    · exact hrest.waiting k hk
  · exact hrest.held
  · exact hrest.underway
  · rw [hwaiting]
    refine List.pairwise_append.mpr ⟨?_, h.ordered, ?_⟩
    · refine List.pairwise_of_forall_mem_list ?_
      intro k hk l _ _
      obtain ⟨k', -, rfl, -⟩ := h.again hk
      exact Nat.one_pos
    · intro k hk l _ _
      obtain ⟨k', -, rfl, -⟩ := h.again hk
      exact Nat.one_pos
  · exact hrest.twice

end Booked

/-! ## The sends of a course -/

/-- The session event that a moment accepted. -/
def tracked? (x : BatcherMoment) : Option Event :=
  match x.work, x.result with
  | .call (.trackAuth e), .ended _ => some (x.start.state.attributed e)
  | _, _ => none

/-- The session events that were accepted, in this order. -/
def tracked (ms : List BatcherMoment) : List Event := ms.filterMap tracked?

/-- What a moment does to the list of the sends. A send that ends with the stretch in which it began
was refused at once. -/
def dispatch (L : Ledger) (ds : List Dispatch) (x : BatcherMoment) : List Dispatch :=
  match x.result with
  | .paused .drops => ds.map (Dispatch.settle x.number .cutOff)
  | .paused (.waits w) =>
    if (flushes x.work && w.isSink) = true then ds ++ [⟨L.waiting, .underway x.number⟩] else ds
  | .paused _ => ds
  | .ended _ =>
    if flushes x.work = true then
      if (L.held x.number).isEmpty then
        if L.waiting.isEmpty then ds else ds ++ [⟨L.waiting, .failed⟩]
      else if succeeded x.start.cue then ds.map (Dispatch.settle x.number .succeeded)
      else ds.map (Dispatch.settle x.number .failed)
    else ds

/-- The ledger of the moments and the list of their sends. -/
def books (ms : List BatcherMoment) : Ledger × List Dispatch :=
  ms.foldl (fun p x => (p.1.act x, dispatch p.1 p.2 x)) (.empty, [])

def dispatches (ms : List BatcherMoment) : List Dispatch := (books ms).2

section Course

variable {events : List Event} {L : Ledger} {ds : List Dispatch} {s : BatcherScene}
  {ms : List BatcherMoment} {x : BatcherMoment}

theorem fst_books (ms : List BatcherMoment) : (books ms).1 = Ledger.of ms := by
  induction ms using List.reverseRecOn with
  | nil => rfl
  | append_singleton ms x ih =>
      rw [Ledger.of_snoc, ← ih, books, List.foldl_append]
      rfl

theorem dispatches_snoc (ms : List BatcherMoment) (x : BatcherMoment) :
    dispatches (ms ++ [x]) = dispatch (Ledger.of ms) (dispatches ms) x := by
  rw [← fst_books, dispatches, books, List.foldl_append]
  rfl

/-- A stretch keeps the rules with a memo to which the ledger is linked. -/
theorem Mirrors.keeps (h : Mirrors L s) (hnumbered : Numbered s) (hx : workplace.Step s x) :
    ∃ m m', Linked L s.state.generation x.number m ∧ rules.Keeps m m' x := by
  cases hx with
  | call k now s' hs =>
      have hmeets := rules_keptBy.meets (.call k) now s.state
      have hfresh := h.held_next hnumbered
      exact ⟨none, (Rules.keeps_of_meets hmeets).imp fun m' hkeeps => ⟨hfresh, hkeeps⟩⟩
  | begin f now s' hf hstop hw hs =>
      have hmeets := rules_keptBy.meets f.work now s.state
      have hnone := h.held_eq_nil hnumbered hf hw
      exact ⟨none, (Rules.keeps_of_meets hmeets).imp fun m' hkeeps => ⟨hnone, hkeeps⟩⟩
  | reply f y a now s' hf hstop hw hs =>
      obtain ⟨m, hawaits, hlinked, -⟩ := h.follows f hf y hw
      have hmeets := hawaits.meets a now s.state
      exact ⟨m, (Rules.keeps_of_meets hmeets).imp fun m' hkeeps => ⟨hlinked, hkeeps⟩⟩
  | drop f now hf =>
      cases hw : f.waiting with
      | none =>
          have hundo : f.undo s.state = s.state := by rw [Flight.undo, hw]
          refine ⟨none, none, h.held_eq_nil hnumbered hf hw, ?_⟩
          rw [hundo]
          exact rules_keptBy.drops f.work now s.state
      | some y =>
          obtain ⟨m, hawaits, hlinked, -⟩ := h.follows f hf y hw
          have hundo : f.undo s.state = y.drop s.state := by rw [Flight.undo, hw]
          refine ⟨m, m, hlinked, ?_⟩
          rw [hundo]
          exact hawaits.drops now s.state

/-- A flush that comes to wait for the sink hands all over that waits. -/
theorem Mirrors.takes (h : Mirrors L s) (hnumbered : Numbered s) (hx : workplace.Step s x)
    {w : Wait} (hw : x.result = .paused (.waits w)) (hsink : (flushes x.work && w.isSink) = true) :
    L.held x.number = [] ∧ L.waiting ≠ [] ∧ w.Sends (L.waiting.map (·.event)) := by
  obtain ⟨m, m', hlinked, hkeeps⟩ := h.keeps hnumbered hx
  simp only [Rules.Keeps, hw] at hkeeps
  obtain ⟨rfl, htakes⟩ := hkeeps
  rw [if_pos hsink] at htakes
  have hauth : x.start.state.auth = L.waiting.map Ticket.queued := by
    rw [hx.start_state]
    exact h.records.auth
  refine ⟨hlinked, fun hnil => htakes.some ?_, ?_⟩
  · rw [hauth, hnil]
    rfl
  · have hsends := htakes.sends
    rw [hauth, List.map_map] at hsends
    exact hsends

/-- The end of a flush settles its send. -/
theorem Booked.close (h : Booked events L ds) {n : Nat} {cue : Option Cue} :
    Booked events (L.close n cue)
      (if (L.held n).isEmpty then if L.waiting.isEmpty then ds else ds ++ [⟨L.waiting, .failed⟩]
      else if succeeded cue then ds.map (Dispatch.settle n .succeeded)
      else ds.map (Dispatch.settle n .failed)) := by
  unfold Ledger.close
  by_cases hheld : L.held n = []
  · simp only [hheld, List.isEmpty_nil, if_true]
    by_cases hwaiting : L.waiting = []
    · -- Nothing was to be sent.
      have hall : (L.underway.filter fun p => p.flight ≠ n) = L.underway := by
        refine List.filter_eq_self.mpr fun p hp => ?_
        refine decide_eq_true fun hn => ?_
        have hmem : p.ticket ∈ L.held n :=
          List.mem_map.mpr ⟨p, List.mem_filter.mpr ⟨hp, decide_eq_true hn⟩, rfl⟩
        rw [hheld] at hmem
        cases hmem
      simp only [hwaiting, List.isEmpty_nil, if_true]
      refine h.same rfl ?_ ?_
      · have hnone : (L.take n).held n = [] := (Ledger.held_take_self hheld).trans hwaiting
        rw [Ledger.fail, hnone, hwaiting]
        rfl
      · simpa [Ledger.fail, Ledger.release, Ledger.take, hwaiting] using hall
    · have hfailed := (h.take hheld hwaiting).fail n
      have hothers : ds.map (Dispatch.settle n .failed) = ds := by
        refine (List.map_congr_left fun d hd => ?_).trans ds.map_id
        have hother : d.fate ≠ .underway n := fun hn => (h.underway d hd n hn).2 hheld
        rw [Dispatch.settle, Fate.settle, if_neg hother]
        rfl
      rw [List.map_append, hothers] at hfailed
      simpa [hwaiting, Dispatch.settle, settle_underway_self] using hfailed
  · have hsome : (L.held n).isEmpty = false := by simpa using hheld
    simp only [hsome, Bool.false_eq_true, if_false]
    split
    · exact h.deliver n
    · exact h.fail n

theorem tracked?_of_paused {p : Pause} (h : x.result = .paused p) : tracked? x = none := by
  unfold tracked?
  split
  · rename_i hended
    rw [hended] at h
    cases h
  · rfl

theorem tracked?_of_flushes (h : flushes x.work = true) : tracked? x = none := by
  unfold tracked?
  split
  · rename_i hwork _
    rw [hwork] at h
    cases h
  · rfl

theorem tracked?_of_spares (h : spares x.work = true) : tracked? x = none := by
  unfold tracked?
  split
  · rename_i hwork _
    rw [hwork] at h
    cases h
  · rfl

theorem Booked.step (h : Booked events L ds) (hL : Mirrors L s) (hnumbered : Numbered s)
    (hx : workplace.Step s x) :
    Booked (events ++ (tracked? x).toList) (L.act x) (dispatch L ds x) := by
  cases hr : x.result with
  | paused p =>
      rw [tracked?_of_paused hr, Option.toList_none, List.append_nil]
      cases p with
      | drops =>
          simp only [Ledger.act, dispatch, hr]
          exact h.drop x.number
      | waits w =>
          simp only [Ledger.act, dispatch, hr]
          split
          · rename_i hsink
            obtain ⟨hheld, hsome, -⟩ := hL.takes hnumbered hx hr hsink
            exact h.take hheld hsome
          · exact h
      | faults =>
          simp only [Ledger.act, dispatch, hr]
          exact h
      | stays =>
          simp only [Ledger.act, dispatch, hr]
          exact h
  | ended e =>
      have hdispatch (hwork : flushes x.work = false) : dispatch L ds x = ds := by
        simp [dispatch, hr, hwork]
      rcases flushes_or_spares x.work with hwork | hwork | ⟨e, hwork⟩ | hwork
      · have hact : L.act x = L.close x.number x.start.cue := by
          obtain ⟨n, work, i, result, left, after⟩ := x
          subst hr
          exact act_of_flushes hwork _
        rw [tracked?_of_flushes hwork, Option.toList_none, List.append_nil, hact]
        simp only [dispatch, hr, hwork, if_true]
        exact h.close
      · have hact : L.act x = L := by
          obtain ⟨n, work, i, result, left, after⟩ := x
          subst hr
          exact act_of_spares hwork _
        have hflushes : flushes x.work = false := by
          cases hk : x.work with
          | call k => rw [hk] at hwork; cases k <;> first | rfl | cases hwork
          | job j => rw [hk] at hwork; cases j <;> first | rfl | cases hwork
        rw [tracked?_of_spares hwork, Option.toList_none, List.append_nil, hact, hdispatch hflushes]
        exact h
      · have hact : L.act x = L.track (x.start.state.attributed e) := by
          simp [Ledger.act, hr, hwork]
        have htracked : tracked? x = some (x.start.state.attributed e) := by
          simp [tracked?, hr, hwork]
        rw [htracked, hact, hdispatch (by rw [hwork]; rfl)]
        exact h.track hL.records.balanced _
      · have hact : L.act x = L.clear := by simp [Ledger.act, hr, hwork]
        have htracked : tracked? x = none := by simp [tracked?, hwork]
        rw [htracked, Option.toList_none, List.append_nil, hact, hdispatch (by rw [hwork]; rfl)]
        exact h.clear

theorem booked_of_course {config : BatcherConfig} {sink : Sink} {hasWorkers : Bool}
    (h : workplace.Course (idle (new config sink hasWorkers)) ms s) :
    Booked (tracked ms) (Ledger.of ms) (dispatches ms) := by
  induction h with
  | nil => exact booked_empty
  | @snoc ms t x ht hx ih =>
      have htracked : tracked (ms ++ [x]) = tracked ms ++ (tracked? x).toList := by
        cases hx : tracked? x <;> simp [tracked, hx]
      rw [htracked, Ledger.of_snoc, dispatches_snoc]
      exact ih.step (mirrors_of_course ht) ht.numbered hx

end Course

/-! ## How often an event is sent -/

section Sent

variable {events : List Event} {L : Ledger} {ds : List Dispatch} {ms : List BatcherMoment}
  {s : BatcherScene}

/-- An event is in one place at a time. -/
theorem Booked.place (h : Booked events L ds) (t : Nat) :
    Ledger.tally t L.waiting + (fates t ds).countP Fate.isUnderway ≤ 1 := by
  by_cases hwaits : Ledger.tally t L.waiting = 0
  · -- Of the sends all but the last one failed.
    obtain ⟨-, hfailed⟩ := h.twice t
    rcases List.eq_nil_or_concat (fates t ds) with hnil | ⟨before, last, hlast⟩
    · simp [hwaits, hnil]
    · rw [List.concat_eq_append] at hlast
      rw [hlast, List.dropLast_concat] at hfailed
      have hnone : before.countP Fate.isUnderway = 0 := by
        rw [List.countP_eq_zero]
        intro fate hfate
        rw [hfailed fate hfate]
        exact Bool.false_ne_true
      have hone : [last].countP Fate.isUnderway ≤ 1 := List.countP_le_length
      rw [hlast, List.countP_append]
      omega
  · obtain ⟨k, hk, rfl⟩ := Ledger.tally_pos.mp (Nat.pos_of_ne_zero hwaits)
    have hnone : (fates k.number ds).countP Fate.isUnderway = 0 := by
      rw [(h.waiting k hk).2, List.countP_replicate]
      rfl
    rw [hnone]
    exact Nat.le_trans (Nat.le_add_right _ _) (h.once k.number)

/-- In the queue the events that were sent stand before those that were not. -/
theorem Booked.queue_ordered (h : Booked events L ds) :
    (L.waiting.map Ticket.queued).Pairwise fun p q => q.requeued = true → p.requeued = true := by
  refine List.pairwise_map.mpr (h.ordered.imp fun hkl hrequeued => ?_)
  exact decide_eq_true (hkl (of_decide_eq_true hrequeued))

/-- A send that is under way is one of a flight that waits for the sink with its events. -/
theorem Mirrors.sender (hL : Mirrors L s) (h : Booked events L ds) {d : Dispatch} (hd : d ∈ ds)
    {n : Nat} (hn : d.fate = .underway n) : ∃ f ∈ s.flights, f.number = n ∧
      flushes f.work = true ∧ ∃ y, f.waiting = some y ∧ y.wait.Sends (d.tickets.map (·.event)) := by
  obtain ⟨htickets, hne⟩ := h.underway d hd n hn
  obtain ⟨f, hf, rfl, hwaits⟩ := hL.owned n hne
  obtain ⟨y, hy⟩ := Option.isSome_iff_exists.mp hwaits
  obtain ⟨m, -, -, hsends⟩ := hL.follows f hf y hy
  obtain ⟨hflushes, hsends⟩ := hsends hne
  rw [htickets]
  exact ⟨f, hf, rfl, hflushes, y, hy, hsends⟩

/-- Each session event that was accepted is in two sends at most, and all its sends but the last one
failed. At no time is it twice in the queue, or in two sends that are under way, or in the queue and
in such a send. What stands in the queue was in no send, or it was in one that failed and is marked
so; what is marked stands before what is not. -/
theorem sent_at_most_twice {config : BatcherConfig} {sink : Sink} {hasWorkers : Bool}
    (h : workplace.Course (idle (new config sink hasWorkers)) ms s) :
    (∀ t, (fates t (dispatches ms)).length ≤ 2 ∧
      ∀ fate ∈ (fates t (dispatches ms)).dropLast, fate = .failed) ∧
      (∀ t, Ledger.tally t (Ledger.of ms).waiting +
        (fates t (dispatches ms)).countP Fate.isUnderway ≤ 1) ∧
      s.state.auth = (Ledger.of ms).waiting.map Ticket.queued ∧
      (∀ k ∈ (Ledger.of ms).waiting, (tracked ms)[k.number]? = some k.event ∧
        k.failures ≤ 1 ∧ fates k.number (dispatches ms) = List.replicate k.failures .failed) ∧
      (s.state.auth.Pairwise fun p q => q.requeued = true → p.requeued = true) ∧
      -- The sends are those of the flushes.
      (∀ d ∈ dispatches ms, (d.tickets.map (·.number)).Nodup ∧
        (∀ k ∈ d.tickets, (tracked ms)[k.number]? = some k.event) ∧
        ∀ n, d.fate = .underway n → ∃ f ∈ s.flights, f.number = n ∧ flushes f.work = true ∧
          ∃ y, f.waiting = some y ∧ y.wait.Sends (d.tickets.map (·.event))) ∧
      ∀ before x after w, ms = before ++ x :: after → x.result = .paused (.waits w) →
        flushes x.work = true → w.isSink = true →
          w.Sends ((Ledger.of before).waiting.map (·.event)) ∧ dispatches (before ++ [x]) =
            dispatches before ++ [⟨(Ledger.of before).waiting, .underway x.number⟩] := by
  have hmirrors := mirrors_of_course h
  have hbooked := booked_of_course h
  have hauth := hmirrors.records.auth
  refine ⟨hbooked.twice, hbooked.place, hauth, ?_, ?_, ?_, ?_⟩
  · intro k hk
    exact ⟨hbooked.named k (.inl hk), hbooked.waiting k hk⟩
  · rw [hauth]
    exact hbooked.queue_ordered
  · intro d hd
    obtain ⟨hnodup, hnamed⟩ := hbooked.listed d hd
    exact ⟨hnodup, hnamed, fun n hn => hmirrors.sender hbooked hd hn⟩
  · rintro before x after w rfl hw hflushes hsink
    obtain ⟨t, hbefore, hx, -⟩ := h.split
    have hsends : (flushes x.work && w.isSink) = true := by rw [hflushes, hsink]; rfl
    obtain ⟨-, -, htakes⟩ := (mirrors_of_course hbefore).takes hbefore.numbered hx hw hsends
    refine ⟨htakes, ?_⟩
    rw [dispatches_snoc]
    simp [dispatch, hw, hflushes, hsink]

end Sent

/-- The sink refuses every batch. -/
def refusing : (w : Wait) → w.Answer
  | .sleep _ => ()
  | .call _ => .error ⟨false, ""⟩
  | .deliver _ => .error (.rejected 503)
  | .token => .error .loginRequired
  | .turn _ => ()

/-- An event returns to the queue once its send has failed, and is sent again with another one. -/
def resending : List (Instant × Move Call) :=
  [(⟨0⟩, .ask (.trackAuth (.auth "login" true ⟨0⟩))), (⟨0⟩, .ask .flushAuth),
    (⟨0⟩, .ask (.trackAuth (.auth "logout" true ⟨0⟩))), (⟨0⟩, .reply 1 refusing),
    (⟨0⟩, .ask .flushAuth),
    (⟨0⟩, .reply 3 (Wait.answer (.error ⟨false, ""⟩) (.error .loginRequired)))]

/-- The first of the two events is in two sends, the second one in the last of them. -/
theorem sent_at_most_twice_resending : ∃ (ms : List BatcherMoment) (s : BatcherScene),
    workplace.Course (idle (new default (.service true) true)) ms s ∧
      (∀ t, (fates t (dispatches ms)).length ≤ 2) ∧
      fates 0 (dispatches ms) = [.failed, .succeeded] ∧
        fates 1 (dispatches ms) = [.succeeded] := by
  have hpasses : workplace.passes (idle (new default (.service true) true)) resending 0
      (fun ms x ms' _ => decide (fates 0 (dispatches (ms ++ x :: ms')) = [.failed, .succeeded] ∧
        fates 1 (dispatches (ms ++ x :: ms')) = [.succeeded])) = true := by
    decide +kernel
  obtain ⟨ms, x, ms', s, h, htest⟩ := exists_course hpasses
  exact ⟨_, s, h, fun t => ((sent_at_most_twice h).1 t).1, of_decide_eq_true htest⟩

end Batcher

end ClientSession
