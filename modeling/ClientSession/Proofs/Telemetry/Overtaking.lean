import ClientSession.Proofs.Telemetry.Dispatches
import Mathlib.Data.List.Infix
import Mathlib.Data.List.Sublists

/-!
# The order of session events

A flush takes all session events that wait, and if its send fails those that were sent for the first
time return to the front of the queue. So the queue has two parts: what waits again, and behind it
what was never sent. The second part is always in the order in which its events were accepted. The
first part is too, as long as flushes that overlap do not fail in the order in which they began:
then the later one puts its events in front of those of the earlier one, which are older.

- `Batcher.Sequenced`: what was never sent is newer than all that was, and each send has the first
  sends of its own events in order.
- `Batcher.shift_of_moment`: what a moment does to the queue and to the list of the sends.
- `Batcher.not_overtakes_iff`: whether a flush that fails overtakes another one.
- `Batcher.in_order_iff`: when the events that wait again are in order.
- `Batcher.not_in_order`: flushes that fail one after another turn the order round.
-/

namespace ClientSession

namespace Batcher

open Workplace

/-! ## The parts of a queue -/

/-- The tickets stand in the order in which their events were accepted. -/
def Ascending (ks : List Ticket) : Prop := ks.Pairwise fun k l => k.number < l.number

instance (ks : List Ticket) : Decidable (Ascending ks) :=
  inferInstanceAs (Decidable (ks.Pairwise fun k l => k.number < l.number))

/-- The tickets that were in a send that failed. -/
def again (ks : List Ticket) : List Ticket := ks.filter fun k => decide (0 < k.failures)

/-- The tickets that were in no send that failed. -/
def fresh (ks : List Ticket) : List Ticket := ks.filter fun k => decide (k.failures = 0)

/-- What comes back of these tickets if their send fails. -/
def Ledger.returned (L : Ledger) (ks : List Ticket) : List Ticket :=
  ((ks.filter L.counts).map Ticket.failed).filter (·.failures < 2)

section Parts

variable {L : Ledger} {k : Ticket} {ks ls : List Ticket}

@[simp] theorem again_nil : again [] = [] := rfl

@[simp] theorem fresh_nil : fresh [] = [] := rfl

theorem mem_again : k ∈ again ks ↔ k ∈ ks ∧ 0 < k.failures := by simp [again]

theorem mem_fresh : k ∈ fresh ks ↔ k ∈ ks ∧ k.failures = 0 := by simp [fresh]

theorem again_append : again (ks ++ ls) = again ks ++ again ls := List.filter_append ..

theorem fresh_append : fresh (ks ++ ls) = fresh ks ++ fresh ls := List.filter_append ..

/-- The parts make up the whole where what was sent stands before what was not. -/
theorem again_append_fresh (h : ks.Pairwise fun k l => 0 < l.failures → 0 < k.failures) :
    again ks ++ fresh ks = ks := by
  induction ks with
  | nil => rfl
  | cons k ks ih =>
      obtain ⟨hk, hks⟩ := List.pairwise_cons.mp h
      by_cases hzero : k.failures = 0
      · -- Behind a ticket that was never sent there are only such.
        have hnone : again ks = [] := by
          refine List.filter_eq_nil_iff.mpr fun l hl => ?_
          simpa [hzero] using hk l hl
        have hall := ih hks
        rw [hnone, List.nil_append] at hall
        rw [again, List.filter_cons_of_neg (by simp [hzero]), ← again, hnone, fresh,
          List.filter_cons_of_pos (by simp [hzero]), ← fresh, hall]
        rfl
      · have hpositive : 0 < k.failures := Nat.pos_of_ne_zero hzero
        rw [again, List.filter_cons_of_pos (by simp [hpositive]), ← again, fresh,
          List.filter_cons_of_neg (by simp [hzero]), ← fresh, List.cons_append, ih hks]

/-- Of the tickets of a send those come back that are accounted for and were in no other send. -/
theorem mem_returned : k ∈ L.returned ks ↔
    ∃ l ∈ fresh ks, L.counts l = true ∧ k = l.failed := by
  rw [Ledger.returned, List.mem_filter, List.mem_map, decide_eq_true_eq]
  constructor
  · rintro ⟨⟨l, hl, rfl⟩, hfailures⟩
    obtain ⟨hmem, hcounts⟩ := List.mem_filter.mp hl
    have hzero : l.failures = 0 := by
      have hlt : l.failures + 1 < 2 := hfailures
      omega
    exact ⟨l, mem_fresh.mpr ⟨hmem, hzero⟩, hcounts, rfl⟩
  · rintro ⟨l, hl, hcounts, rfl⟩
    obtain ⟨hmem, hzero⟩ := mem_fresh.mp hl
    exact ⟨⟨l, List.mem_filter.mpr ⟨hmem, hcounts⟩, rfl⟩, by simp [Ticket.failed, hzero]⟩

theorem failures_of_returned (h : k ∈ L.returned ks) : k.failures = 1 := by
  obtain ⟨l, hl, -, rfl⟩ := mem_returned.mp h
  simp [Ticket.failed, (mem_fresh.mp hl).2]

theorem again_returned : again (L.returned ks) = L.returned ks := by
  refine List.filter_eq_self.mpr fun k hk => ?_
  simp [failures_of_returned hk]

theorem fresh_returned : fresh (L.returned ks) = [] := by
  refine List.filter_eq_nil_iff.mpr fun k hk => ?_
  simp [failures_of_returned hk]

/-- What comes back is in order if what was sent for the first time was. -/
theorem ascending_returned (h : Ascending (fresh ks)) : Ascending (L.returned ks) := by
  have hfresh : ks.filter ((fun k => decide (k.failures < 2)) ∘ Ticket.failed) = fresh ks := by
    refine List.filter_congr fun k _ => ?_
    have hiff : k.failures + 1 < 2 ↔ k.failures = 0 := by omega
    exact decide_eq_decide.mpr hiff
  rw [Ascending, Ledger.returned, List.filter_map, List.pairwise_map, List.filter_comm, hfresh]
  exact List.Pairwise.sublist List.filter_sublist h

end Parts

/-! ## What a moment does -/

/-- The moment is the end of a flush whose send failed. -/
def fails (x : BatcherMoment) : Bool :=
  match x.result with
  | .ended _ => flushes x.work && !succeeded x.start.cue
  | .paused _ => false

/-- What a moment does to the tickets that wait and to the list of those that were sent together:
only the end of a flush that failed gives back what was under way. -/
inductive Shift (L : Ledger) (sends : List (List Ticket)) (x : BatcherMoment) :
    List Ticket → List (List Ticket) → Prop where
  | keeps (h : fails x = true → L.held x.number = []) : Shift L sends x L.waiting sends
  | gains (e : Event) (h : fails x = true → L.held x.number = []) :
      Shift L sends x (L.waiting ++ [⟨L.accepted, e, 0⟩]) sends
  | loses (h : fails x = true → L.held x.number = []) : Shift L sends x [] sends
  | takes (h : fails x = true → L.held x.number = []) : Shift L sends x [] (sends ++ [L.waiting])
  | refuses (h : fails x = true → L.held x.number = []) :
      Shift L sends x (L.returned L.waiting) (sends ++ [L.waiting])
  | returns (h : fails x = true) :
      Shift L sends x (L.returned (L.held x.number) ++ L.waiting) sends

section Shift

variable {L : Ledger} {ds : List Dispatch} {x : BatcherMoment}

theorem tickets_settle (n : Nat) (outcome : Fate) (ds : List Dispatch) :
    (ds.map (Dispatch.settle n outcome)).map (·.tickets) = ds.map (·.tickets) := by
  rw [List.map_map]
  rfl

theorem shift_of_flush {e : Ending Answer BatchJob} (hr : x.result = .ended e)
    (hwork : flushes x.work = true) :
    Shift L (ds.map (·.tickets)) x (L.close x.number x.start.cue).waiting
      ((dispatch L ds x).map (·.tickets)) := by
  simp only [dispatch, hr, hwork, if_true, Ledger.close]
  by_cases hheld : L.held x.number = []
  · have hreturned : ((L.take x.number).fail x.number).waiting = L.returned L.waiting := by
      have hall := Ledger.held_take_self hheld
      simp only [Ledger.fail, hall]
      exact List.append_nil _
    simp only [hheld, List.isEmpty_nil, if_true, hreturned]
    by_cases hwaiting : L.waiting = []
    · have hnone : L.returned L.waiting = L.waiting := by rw [hwaiting]; rfl
      simp only [hwaiting, List.isEmpty_nil, if_true] at hnone ⊢
      rw [hnone, ← hwaiting]
      exact .keeps fun _ => hheld
    · have hsome : L.waiting.isEmpty = false := by simpa using hwaiting
      simp only [hsome, Bool.false_eq_true, if_false, List.map_append, List.map_singleton]
      exact .refuses fun _ => hheld
  · have hsome : (L.held x.number).isEmpty = false := by simpa using hheld
    simp only [hsome, Bool.false_eq_true, if_false]
    cases hcue : succeeded x.start.cue with
    | true =>
        simp only [if_true, tickets_settle]
        exact .keeps fun hfails => by simp [fails, hr, hcue] at hfails
    | false =>
        simp only [Bool.false_eq_true, if_false, tickets_settle]
        exact .returns (by simp [fails, hr, hwork, hcue])

theorem shift_of_moment (L : Ledger) (ds : List Dispatch) (x : BatcherMoment) :
    Shift L (ds.map (·.tickets)) x (L.act x).waiting ((dispatch L ds x).map (·.tickets)) := by
  cases hr : x.result with
  | paused p =>
      have hidle : fails x = true → L.held x.number = [] := fun h => by simp [fails, hr] at h
      cases p with
      | drops =>
          simp only [Ledger.act, dispatch, hr, tickets_settle]
          exact .keeps hidle
      | waits w =>
          simp only [Ledger.act, dispatch, hr]
          split
          · rw [List.map_append, List.map_singleton]
            exact .takes hidle
          · exact .keeps hidle
      | faults =>
          simp only [Ledger.act, dispatch, hr]
          exact .keeps hidle
      | stays =>
          simp only [Ledger.act, dispatch, hr]
          exact .keeps hidle
  | ended e =>
      by_cases hwork : flushes x.work = true
      · have hact : L.act x = L.close x.number x.start.cue := by
          obtain ⟨n, work, i, result, left, after⟩ := x
          subst hr
          exact act_of_flushes hwork _
        rw [hact]
        exact shift_of_flush hr hwork
      · have hidle : fails x = true → L.held x.number = [] := fun h => by
          simp [fails, hr, hwork] at h
        have hdispatch : dispatch L ds x = ds := by simp [dispatch, hr, hwork]
        rw [hdispatch]
        rcases flushes_or_spares x.work with hflushes | hspares | ⟨e, htrack⟩ | hclear
        · exact absurd hflushes hwork
        · have hact : L.act x = L := by
            obtain ⟨n, work, i, result, left, after⟩ := x
            subst hr
            exact act_of_spares hspares _
          rw [hact]
          exact .keeps hidle
        · have hact : L.act x = L.track (x.start.state.attributed e) := by
            simp [Ledger.act, hr, htrack]
          rw [hact]
          exact .gains _ hidle
        · have hact : L.act x = L.clear := by simp [Ledger.act, hr, hclear]
          rw [hact]
          exact .loses hidle

end Shift

/-! ## What was never sent -/

/-- What was never sent is newer than all that was, in the queue and in each send, and is in order
there; what waits again was sent for the first time in one of the sends. -/
structure Sequenced (waiting : List Ticket) (sends : List (List Ticket)) : Prop where
  fresh : Ascending (fresh waiting)
  unsent : ∀ ks ∈ sends, ∀ k ∈ ks, ∀ l ∈ Batcher.fresh waiting, k.number < l.number
  first : ∀ ks ∈ sends, Ascending (Batcher.fresh ks)
  later : sends.Pairwise fun ks ls => ∀ k ∈ ks, ∀ l ∈ Batcher.fresh ls, k.number < l.number
  again : ∀ k ∈ again waiting, ∃ ks ∈ sends, ∃ l ∈ Batcher.fresh ks, l.number = k.number

theorem sequenced_empty : Sequenced [] [] where
  fresh := .nil
  unsent := by simp
  first := by simp
  later := .nil
  again := by simp

section Sequenced

variable {L : Ledger} {sends sends' : List (List Ticket)} {waiting waiting' : List Ticket}
  {x : BatcherMoment} {ks : List Ticket}

theorem Sequenced.lose (h : Sequenced waiting sends) : Sequenced [] sends where
  fresh := .nil
  unsent := by simp
  first := h.first
  later := h.later
  again := by simp

/-- All that waits is sent. -/
theorem Sequenced.take (h : Sequenced waiting sends) : Sequenced [] (sends ++ [waiting]) where
  fresh := .nil
  unsent := by simp
  first := by
    intro ks hks
    rcases List.mem_append.mp hks with hks | hks
    · exact h.first ks hks
    · rw [List.mem_singleton.mp hks]
      exact h.fresh
  later := by
    refine List.pairwise_append.mpr ⟨h.later, List.pairwise_singleton _ _, fun ks hks ls hls => ?_⟩
    rw [List.mem_singleton.mp hls]
    exact h.unsent ks hks
  again := by simp

theorem Sequenced.gain (h : Sequenced waiting sends) {k : Ticket} (hzero : k.failures = 0)
    (hwaiting : ∀ l ∈ waiting, l.number < k.number)
    (hsends : ∀ ks ∈ sends, ∀ l ∈ ks, l.number < k.number) :
    Sequenced (waiting ++ [k]) sends := by
  have hfresh : Batcher.fresh [k] = [k] := by simp [Batcher.fresh, hzero]
  have hagain : Batcher.again [k] = [] := by simp [Batcher.again, hzero]
  constructor
  · rw [fresh_append, hfresh]
    refine List.pairwise_append.mpr ⟨h.fresh, List.pairwise_singleton _ _, fun l hl m hm => ?_⟩
    rw [List.mem_singleton.mp hm]
    exact hwaiting l (mem_fresh.mp hl).1
  · intro ks hks l hl m hm
    rw [fresh_append, hfresh] at hm
    rcases List.mem_append.mp hm with hm | hm
    · exact h.unsent ks hks l hl m hm
    · rw [List.mem_singleton.mp hm]
      exact hsends ks hks l hl
  · exact h.first
  · exact h.later
  · rw [again_append, hagain, List.append_nil]
    exact h.again

/-- What was sent comes back. -/
theorem Sequenced.return (h : Sequenced waiting sends)
    (hks : ∀ k ∈ Batcher.fresh ks, ∃ ls ∈ sends, k ∈ Batcher.fresh ls) :
    Sequenced (L.returned ks ++ waiting) sends := by
  have hfresh : Batcher.fresh (L.returned ks ++ waiting) = Batcher.fresh waiting := by
    rw [fresh_append, fresh_returned, List.nil_append]
  constructor
  · rw [hfresh]
    exact h.fresh
  · rw [hfresh]
    exact h.unsent
  · exact h.first
  · exact h.later
  · intro k hk
    rw [again_append, again_returned] at hk
    rcases List.mem_append.mp hk with hk | hk
    · obtain ⟨l, hl, -, rfl⟩ := mem_returned.mp hk
      obtain ⟨ls, hls, hmem⟩ := hks l hl
      exact ⟨ls, hls, l, hmem, rfl⟩
    · exact h.again k hk

theorem Sequenced.shift (h : Sequenced L.waiting sends)
    (hwaiting : ∀ k ∈ L.waiting, k.number < L.accepted)
    (hsends : ∀ ks ∈ sends, ∀ k ∈ ks, k.number < L.accepted)
    (hheld : ∀ k ∈ L.held x.number, ∃ ks ∈ sends, k ∈ ks)
    (hs : Shift L sends x waiting' sends') : Sequenced waiting' sends' := by
  cases hs with
  | keeps => exact h
  | gains e => exact h.gain rfl hwaiting hsends
  | loses => exact h.lose
  | takes => exact h.take
  | refuses =>
      have hreturned : Sequenced (L.returned L.waiting ++ []) (sends ++ [L.waiting]) :=
        h.take.return fun k hk => ⟨L.waiting, List.mem_append_right _ List.mem_cons_self, hk⟩
      rwa [List.append_nil] at hreturned
  | returns =>
      refine h.return fun k hk => ?_
      obtain ⟨hmem, hzero⟩ := mem_fresh.mp hk
      obtain ⟨ks, hks, hk'⟩ := hheld k hmem
      exact ⟨ks, hks, mem_fresh.mpr ⟨hk', hzero⟩⟩

end Sequenced

/-! ## Flushes that overtake others -/

/-- A flush fails that sent events for the first time, while events of another flush that began
before it wait again. -/
def Overtakes (L : Ledger) (ds : List Dispatch) (x : BatcherMoment) : Prop :=
  fails x = true ∧ ∃ d d', [d, d'].Sublist ds ∧ d'.fate = .underway x.number ∧
    fresh d'.tickets ≠ [] ∧ ∃ l ∈ again L.waiting, d.bears l.number = true

section Overtakes

variable {events : List Event} {L : Ledger} {ds : List Dispatch} {x : BatcherMoment}

theorem mem_fates_iff {t : Nat} {fate : Fate} :
    fate ∈ fates t ds ↔ ∃ d ∈ ds, d.bears t = true ∧ d.fate = fate := by
  simp [fates, and_assoc]

/-- What a flight sends is in the list of the sends. -/
theorem Booked.exists_of_held (h : Booked events L ds) {n : Nat} {k : Ticket} (hk : k ∈ L.held n) :
    ∃ d ∈ ds, d.fate = .underway n ∧ d.tickets = L.held n := by
  have hfate : Fate.underway n ∈ fates k.number ds := by
    rw [(h.held n k hk).2]
    exact List.mem_append_right _ List.mem_cons_self
  obtain ⟨d, hd, -, hunderway⟩ := mem_fates_iff.mp hfate
  exact ⟨d, hd, hunderway, (h.underway d hd n hunderway).1⟩

theorem Booked.not_overtakes (h : Booked events L ds)
    (hidle : fails x = true → L.held x.number = []) : ¬Overtakes L ds x := by
  rintro ⟨hfails, d, d', hsub, hfate, -, -⟩
  have hd' : d' ∈ ds := hsub.subset (by simp)
  exact (h.underway d' hd' x.number hfate).2 (hidle hfails)

/-- Of two members of a list one stands before the other one. -/
theorem sublist_or_sublist {α : Type} {a b : α} {l : List α} (ha : a ∈ l) (hb : b ∈ l)
    (hne : a ≠ b) : [a, b].Sublist l ∨ [b, a].Sublist l := by
  obtain ⟨front, back, rfl⟩ := List.append_of_mem hb
  rcases List.mem_append.mp ha with ha | ha
  · exact .inl ((List.singleton_sublist.mpr ha).append (List.singleton_sublist.mpr (by simp)))
  · have hback : a ∈ back := (List.mem_cons.mp ha).resolve_left hne
    refine .inr (List.Sublist.trans ?_ (List.sublist_append_right front _))
    exact (List.singleton_sublist.mpr hback).cons_cons b

/-- A flush that fails overtakes no other one exactly if what comes back of its send is older than
all that waits again. -/
theorem not_overtakes_iff (h : Booked events L ds) (hs : Sequenced L.waiting (ds.map (·.tickets)))
    (hcounted : ∀ k ∈ L.waiting, L.counts k = true) (hfails : fails x = true) :
    ¬Overtakes L ds x ↔
      ∀ k ∈ L.returned (L.held x.number), ∀ l ∈ again L.waiting, k.number < l.number := by
  have hlater := List.pairwise_map.mp hs.later
  constructor
  · intro hnot k hk l hl
    obtain ⟨k, hfresh, -, rfl⟩ := mem_returned.mp hk
    obtain ⟨d', hd', hfate, htickets⟩ := h.exists_of_held (mem_fresh.mp hfresh).1
    obtain ⟨ks, hks, m, hm, hnumber⟩ := hs.again l hl
    obtain ⟨d, hd, rfl⟩ := List.mem_map.mp hks
    have hbears : d.bears l.number = true := bears_iff.mpr ⟨m, (mem_fresh.mp hm).1, hnumber⟩
    have hne : d ≠ d' := by
      rintro rfl
      -- The sends of what waits have failed.
      have hunderway : d.fate ∈ fates l.number ds := mem_fates_iff.mpr ⟨d, hd, hbears, rfl⟩
      rw [(h.waiting l (mem_again.mp hl).1).2, hfate] at hunderway
      cases List.eq_of_mem_replicate hunderway
    rcases sublist_or_sublist hd hd' hne with hbefore | hafter
    · refine absurd ⟨hfails, d, d', hbefore, hfate, ?_, l, hl, hbears⟩ hnot
      rw [htickets]
      exact List.ne_nil_of_mem hfresh
    · have hlt := List.pairwise_iff_forall_sublist.mp hlater hafter k
        (htickets ▸ (mem_fresh.mp hfresh).1) m hm
      rwa [hnumber] at hlt
  · rintro hall ⟨-, d, d', hsub, hfate, hne, l, hl, hbears⟩
    obtain ⟨k, hk⟩ := List.exists_mem_of_ne_nil _ hne
    obtain ⟨m, hm, hnumber⟩ := bears_iff.mp hbears
    have hlt := List.pairwise_iff_forall_sublist.mp hlater hsub m hm k hk
    rw [(h.underway d' (hsub.subset (by simp)) x.number hfate).1] at hk
    have hcounts : L.counts k = true := by
      have hcleared := of_decide_eq_true (hcounted l (mem_again.mp hl).1)
      exact decide_eq_true (by omega)
    have hless := hall k.failed (mem_returned.mpr ⟨k, hk, hcounts, rfl⟩) l hl
    have hfailed : k.failed.number = k.number := rfl
    omega

/-- A moment keeps what waits again in order exactly if it is no flush that overtakes another. -/
theorem again_shift (h : Booked events L ds) (hs : Sequenced L.waiting (ds.map (·.tickets)))
    (hcounted : ∀ k ∈ L.waiting, L.counts k = true) (horder : Ascending (again L.waiting))
    {waiting : List Ticket} {sends : List (List Ticket)}
    (hshift : Shift L (ds.map (·.tickets)) x waiting sends) :
    Ascending (again waiting) ↔ ¬Overtakes L ds x := by
  cases hshift with
  | keeps hidle => exact iff_of_true horder (h.not_overtakes hidle)
  | gains e hidle =>
      refine iff_of_true ?_ (h.not_overtakes hidle)
      have hnew : again [⟨L.accepted, e, 0⟩] = [] := rfl
      rw [again_append, hnew, List.append_nil]
      exact horder
  | loses hidle => exact iff_of_true .nil (h.not_overtakes hidle)
  | takes hidle => exact iff_of_true .nil (h.not_overtakes hidle)
  | refuses hidle =>
      refine iff_of_true ?_ (h.not_overtakes hidle)
      rw [again_returned]
      exact ascending_returned hs.fresh
  | returns hfails =>
      have hheld : Ascending (L.returned (L.held x.number)) := by
        by_cases hnil : L.held x.number = []
        · rw [hnil]
          exact .nil
        · obtain ⟨k, hk⟩ := List.exists_mem_of_ne_nil _ hnil
          obtain ⟨d, hd, -, htickets⟩ := h.exists_of_held hk
          have hfirst := hs.first _ (List.mem_map_of_mem hd)
          rw [htickets] at hfirst
          exact ascending_returned hfirst
      rw [not_overtakes_iff h hs hcounted hfails, again_append, again_returned, Ascending,
        List.pairwise_append]
      exact ⟨fun h => h.2.2, fun h => ⟨hheld, horder, h⟩⟩

end Overtakes

/-! ## Courses -/

section Course

variable {config : BatcherConfig} {sink : Sink} {hasWorkers : Bool} {ms : List BatcherMoment}
  {s : BatcherScene}

theorem sequenced_of_course (h : workplace.Course (idle (new config sink hasWorkers)) ms s) :
    Sequenced (Ledger.of ms).waiting ((dispatches ms).map (·.tickets)) := by
  induction h with
  | nil => exact sequenced_empty
  | @snoc ms t x ht hx ih =>
      have hbooked := booked_of_course ht
      have hnumber {k : Ticket} (hk : (tracked ms)[k.number]? = some k.event) :
          k.number < (Ledger.of ms).accepted := by
        rw [hbooked.accepted]
        exact (List.getElem?_eq_some_iff.mp hk).1
      rw [Ledger.of_snoc, dispatches_snoc]
      refine ih.shift (fun k hk => hnumber (hbooked.named k (.inl hk))) ?_ ?_
        (shift_of_moment _ _ x)
      · intro ks hks k hk
        obtain ⟨d, hd, rfl⟩ := List.mem_map.mp hks
        exact hnumber ((hbooked.listed d hd).2 k hk)
      · intro k hk
        obtain ⟨d, hd, -, htickets⟩ := hbooked.exists_of_held hk
        exact ⟨d.tickets, List.mem_map_of_mem hd, htickets ▸ hk⟩

theorem again_snoc (h : workplace.Course (idle (new config sink hasWorkers)) ms s)
    (horder : Ascending (again (Ledger.of ms).waiting)) (x : BatcherMoment) :
    Ascending (again (Ledger.of (ms ++ [x])).waiting) ↔
      ¬Overtakes (Ledger.of ms) (dispatches ms) x := by
  rw [Ledger.of_snoc]
  exact again_shift (booked_of_course h) (sequenced_of_course h)
    (mirrors_of_course h).records.balanced.counted horder (shift_of_moment _ (dispatches ms) x)

/-- What waits again has always been in order if and only if no flush has overtaken another. -/
theorem always_ascending_iff (h : workplace.Course (idle (new config sink hasWorkers)) ms s) :
    (∀ before after, ms = before ++ after → Ascending (again (Ledger.of before).waiting)) ↔
      ∀ before x after, ms = before ++ x :: after →
        ¬Overtakes (Ledger.of before) (dispatches before) x := by
  constructor
  · rintro hall before x after rfl
    obtain ⟨t, hbefore, -, -⟩ := h.split
    refine (again_snoc hbefore (hall before (x :: after) rfl) x).mp ?_
    exact hall (before ++ [x]) after (List.append_cons before x after)
  · intro hnot before
    induction before using List.reverseRecOn with
    | nil => exact fun _ _ => .nil
    | append_singleton before x ih =>
        intro after heq
        rw [← List.append_cons] at heq
        have hbefore : ∃ t, workplace.Course (idle (new config sink hasWorkers)) before t := by
          rw [heq] at h
          obtain ⟨t, hbefore, -, -⟩ := h.split
          exact ⟨t, hbefore⟩
        obtain ⟨t, hbefore⟩ := hbefore
        exact (again_snoc hbefore (ih (x :: after) heq) x).mpr (hnot before x after heq)

/-- **The order of session events**: the queue is what waits again and behind it what was never
sent, and whoever hands a batch to the sink hands over the queue, both parts one after the other.
What was never sent is always in the order in which it was accepted. What waits again has always
been so if and only if no flush failed, with events that it sent for the first time, while events of
a flush that had begun before it were waiting again. -/
theorem in_order_iff (h : workplace.Course (idle (new config sink hasWorkers)) ms s) :
    s.state.auth =
        (again (Ledger.of ms).waiting ++ fresh (Ledger.of ms).waiting).map Ticket.queued ∧
      (∀ k ∈ (Ledger.of ms).waiting, (tracked ms)[k.number]? = some k.event) ∧
      Ascending (fresh (Ledger.of ms).waiting) ∧
      (∀ before x after w, ms = before ++ x :: after → x.result = .paused (.waits w) →
        flushes x.work = true → w.isSink = true → w.Sends
          ((again (Ledger.of before).waiting ++ fresh (Ledger.of before).waiting).map (·.event))) ∧
      ((∀ before after, ms = before ++ after → Ascending (again (Ledger.of before).waiting)) ↔
        ∀ before x after, ms = before ++ x :: after →
          ¬Overtakes (Ledger.of before) (dispatches before) x) := by
  have hbooked := booked_of_course h
  refine ⟨?_, fun k hk => hbooked.named k (.inl hk), (sequenced_of_course h).fresh, ?_,
    always_ascending_iff h⟩
  · rw [again_append_fresh hbooked.ordered]
    exact (mirrors_of_course h).records.auth
  · rintro before x after w rfl hw hflushes hsink
    obtain ⟨t, hbefore, hx, -⟩ := h.split
    have hsends : (flushes x.work && w.isSink) = true := by rw [hflushes, hsink]; rfl
    rw [again_append_fresh (booked_of_course hbefore).ordered]
    exact ((mirrors_of_course hbefore).takes hbefore.numbered hx hw hsends).2.2

end Course

/-- Session events are tracked one at a time, each of them is flushed while the sends of those
before are under way, and then these sends are refused in an order. -/
def overlapping (refused : List Nat) : List (Instant × Move Call) :=
  [(⟨0⟩, .ask (.trackAuth (.auth "a" true ⟨0⟩))), (⟨0⟩, .ask .flushAuth),
    (⟨0⟩, .ask (.trackAuth (.auth "b" true ⟨0⟩))), (⟨0⟩, .ask .flushAuth),
    (⟨0⟩, .ask (.trackAuth (.auth "c" true ⟨0⟩))), (⟨0⟩, .ask .flushAuth)] ++
  refused.map (fun n => (⟨0⟩, .reply n refusing)) ++ [(⟨0⟩, .ask .flushAuth)]

/-- Sends that are refused in the opposite order leave the order as it was. -/
theorem in_order_iff_overlapping : ∃ (before : List BatcherMoment) (x : BatcherMoment)
    (after : List BatcherMoment) (s t : BatcherScene),
    workplace.Course (idle (new default (.service true) true)) (before ++ x :: after) s ∧
      workplace.Course (idle (new default (.service true) true)) before t ∧
      t.state.auth =
        (again (Ledger.of before).waiting ++ fresh (Ledger.of before).waiting).map Ticket.queued ∧
      (again (Ledger.of before).waiting).map (·.event.name) = ["a", "b", "c"] ∧
      ∀ first y rest, before = first ++ y :: rest →
        ¬Overtakes (Ledger.of first) (dispatches first) y := by
  have hpasses : workplace.passes (idle (new default (.service true) true)) (overlapping [5, 3, 1])
      9 (fun before _ _ _ =>
        decide ((again (Ledger.of before).waiting).map (·.event.name) = ["a", "b", "c"]) &&
          before.inits.all fun first => decide (Ascending (again (Ledger.of first).waiting))) =
        true := by
    decide +kernel
  obtain ⟨before, x, after, s, h, htest⟩ := exists_course hpasses
  rw [Bool.and_eq_true, decide_eq_true_eq, List.all_eq_true] at htest
  obtain ⟨hnames, hinits⟩ := htest
  obtain ⟨t, hbefore, -, -⟩ := h.split
  obtain ⟨hauth, -, -, -, hiff⟩ := in_order_iff hbefore
  refine ⟨before, x, after, s, t, h, hbefore, hauth, hnames, hiff.mp ?_⟩
  intro first rest heq
  exact of_decide_eq_true (hinits first ((List.mem_inits first before).mpr ⟨rest, heq.symm⟩))

/-- The names of the events in the batch that a moment hands to a service. -/
def delivered (x : BatcherMoment) : List String :=
  match x.result with
  | .paused (.waits (.deliver batch)) => batch.events.map (·.name)
  | _ => []

theorem exists_of_delivered {x : BatcherMoment} (h : delivered x ≠ []) :
    ∃ batch : Batch, x.result = .paused (.waits (.deliver batch)) ∧
      delivered x = batch.events.map (·.name) := by
  rw [delivered] at h ⊢
  split at h
  · exact ⟨_, ‹_›, rfl⟩
  · exact absurd rfl h

/-- Sends that are refused in the order in which they began turn it round: what waits again is not
in the order in which it was accepted, and the batch that is sent then is not made of two parts that
are. -/
theorem not_in_order : ∃ (before : List BatcherMoment) (x : BatcherMoment)
    (after : List BatcherMoment) (s : BatcherScene) (w : Wait),
    workplace.Course (idle (new default (.service true) true)) (before ++ x :: after) s ∧
      x.result = .paused (.waits w) ∧
      ¬((x.start.state.auth.filter (·.requeued)).map (·.event)).Sublist (tracked before) ∧
      ∀ older newer, older.Sublist (tracked before) → newer.Sublist (tracked before) →
        ¬w.Sends (older ++ newer) := by
  have hpasses : workplace.passes (idle (new default (.service true) true)) (overlapping [1, 3, 5])
      9 (fun before x _ _ => x.start.state.auth.all (·.requeued) &&
        decide ((tracked before).map (·.name) = ["a", "b", "c"] ∧
          x.start.state.auth.map (·.event.name) = ["c", "b", "a"] ∧
          delivered x = ["c", "b", "a"])) = true := by
    decide +kernel
  obtain ⟨before, x, after, s, h, htest⟩ := exists_course hpasses
  rw [Bool.and_eq_true, decide_eq_true_eq] at htest
  obtain ⟨hrequeued, htracked, hqueue, hsent⟩ := htest
  obtain ⟨batch, hresult, hbatch⟩ := exists_of_delivered (hsent ▸ List.cons_ne_nil _ _)
  refine ⟨before, x, after, s, .deliver batch, h, hresult, fun hsub => ?_, ?_⟩
  · have hnames := hsub.map (·.name)
    rw [List.filter_eq_self.mpr (List.all_eq_true.mp hrequeued), List.map_map, htracked] at hnames
    have hqueue' : x.start.state.auth.map ((·.name) ∘ (·.event)) = ["c", "b", "a"] := hqueue
    rw [hqueue'] at hnames
    exact absurd hnames (by decide)
  · intro older newer holder hnewer hsends
    have hevents : batch.events = older ++ newer := hsends
    rw [hsent, hevents, List.map_append] at hbatch
    have hparts : ∀ front ∈ ["a", "b", "c"].sublists, ∀ back ∈ ["a", "b", "c"].sublists,
        ["c", "b", "a"] ≠ front ++ back := by decide
    refine hparts _ (List.mem_sublists.mpr ?_) _ (List.mem_sublists.mpr ?_) hbatch
    · exact htracked ▸ holder.map (·.name)
    · exact htracked ▸ hnewer.map (·.name)

end Batcher

end ClientSession
