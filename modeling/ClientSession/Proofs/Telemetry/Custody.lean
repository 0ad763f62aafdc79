import ClientSession.Proofs.Flights
import ClientSession.Proofs.Telemetry.Callers
import ClientSession.Proofs.Telemetry.Ledger

/-!
# Custody of session events

A ledger is kept of the moments of a course, in which a batcher and its tasks serve any number of
callers. It tells at each moment where the session events are that were accepted since everything
was last discarded.

- `Batcher.Mirrors`: the queue and the flights are what the ledger says.
- `Batcher.Mirrors.step`: so they are after each moment.
- `Batcher.kept_iff_not_cutOff`: an event is lost only with a flush that is cut off while it waits
  for the sink, for it was dropped or its timer was stopped.
-/

namespace ClientSession

namespace Batcher

open Workplace

abbrev BatcherMoment := Moment Batcher Call Answer BatchJob

abbrev BatcherScene := Scene Batcher Call Answer BatchJob

namespace Ledger

/-- A flush ends. What it took without waiting for the sink was refused. -/
def close (L : Ledger) (n : Nat) (cue : Option Cue) : Ledger :=
  if (L.held n).isEmpty then (L.take n).fail n
  else if succeeded cue then L.deliver n
  else L.fail n

/-- What a moment does to the ledger. -/
def act (L : Ledger) (x : BatcherMoment) : Ledger :=
  match x.result, x.work with
  | .paused .drops, _ => L.drop x.number
  | .paused (.waits w), work => if (flushes work && w.isSink) = true then L.take x.number else L
  | .paused _, _ => L
  | .ended _, .call (.trackAuth e) => L.track (x.start.state.attributed e)
  | .ended _, .call .clear => L.clear
  | .ended _, work => if flushes work = true then L.close x.number x.start.cue else L

/-- The ledger of the moments. -/
def of (ms : List BatcherMoment) : Ledger := ms.foldl act empty

theorem of_snoc (ms : List BatcherMoment) (x : BatcherMoment) : of (ms ++ [x]) = (of ms).act x := by
  rw [of, List.foldl_append]
  rfl

end Ledger

/-! ## What the ledger says -/

/-- What the ledger says of what a flight holds on to, as it does while everything has been
discarded so many times. -/
structure Holds (L : Ledger) (generation n : Nat) (queue : List QueuedEvent) (taken : Nat) :
    Prop where
  some : L.held n ≠ []
  queue : queue = (L.held n).map Ticket.queued
  dated : (taken = generation ∧ ∀ k ∈ L.held n, L.counts k = true) ∨
    (taken < generation ∧ ∀ k ∈ L.held n, L.counts k = false)

def Linked (L : Ledger) (generation n : Nat) : Memo → Prop
  | none => L.held n = []
  | some (queue, taken) => Holds L generation n queue taken

/-- The queue is the one of the ledger, which is in order. -/
structure Records (L : Ledger) (b : Batcher) : Prop where
  auth : b.auth = L.waiting.map Ticket.queued
  balanced : L.Balanced
  spent : ∀ k ∈ L.spent, 2 ≤ k.failures

/-- What a flight that waits has to do with the ledger. -/
def Follows (L : Ledger) (generation : Nat) (f : Flight Batcher Call Answer BatchJob) : Prop :=
  ∀ y, f.waiting = some y → ∃ m, rules.Awaits f.work m y ∧ Linked L generation f.number m ∧
    (L.held f.number ≠ [] →
      flushes f.work = true ∧ y.wait.Sends ((L.held f.number).map (·.event)))

/-- The queue and the flights are what the ledger says. -/
structure Mirrors (L : Ledger) (s : BatcherScene) : Prop where
  records : Records L s.state
  follows : ∀ f ∈ s.flights, Follows L s.state.generation f
  owned : ∀ n, L.held n ≠ [] → ∃ f ∈ s.flights, f.number = n ∧ f.waiting.isSome = true

/-! ## What happens to the queue -/

section Records

variable {L : Ledger} {b b' : Batcher} {n : Nat}

theorem requeued_map_queued (ks : List Ticket) : requeued (ks.map Ticket.queued) =
    ((ks.map Ticket.failed).filter fun k => decide (k.failures < 2)).map Ticket.queued := by
  rw [requeued, List.filter_map, List.filter_map, List.map_map, List.map_map]
  have hsame : (fun q : QueuedEvent => !q.requeued) ∘ Ticket.queued =
      (fun k : Ticket => decide (k.failures < 2)) ∘ Ticket.failed := by
    funext k
    show (!decide (0 < k.failures)) = decide (k.failures + 1 < 2)
    rw [← decide_not, decide_eq_decide]
    omega
  rw [hsame]
  refine List.map_congr_left fun k _ => ?_
  simp [Ticket.queued, Ticket.failed]

theorem Records.same (h : Records L b) (hb : Untouched b b') : Records L b' :=
  ⟨hb.auth.trans h.auth, h.balanced, h.spent⟩

theorem Records.track (h : Records L b) (e : Event)
    (hb : b'.auth = b.auth ++ [⟨e, false⟩]) : Records (L.track e) b' := by
  refine ⟨?_, h.balanced.track e, h.spent⟩
  rw [hb, h.auth, Ledger.track, List.map_append]
  rfl

theorem Records.clear (h : Records L b) (hb : b'.auth = []) : Records L.clear b' :=
  ⟨hb, h.balanced.clear, h.spent⟩

theorem Records.take (h : Records L b) (n : Nat) (hb : b'.auth = []) : Records (L.take n) b' :=
  ⟨hb, h.balanced.take n, h.spent⟩

theorem Records.drop (h : Records L b) (n : Nat) : Records (L.drop n) b :=
  ⟨h.auth, h.balanced.drop n, h.spent⟩

theorem Records.deliver (h : Records L b) (n : Nat) (hb : b'.auth = b.auth) :
    Records (L.deliver n) b' :=
  ⟨hb.trans h.auth, h.balanced.deliver n, h.spent⟩

theorem Records.fail (h : Records L b) (n : Nat)
    (hb : b'.auth = requeued (((L.held n).filter L.counts).map Ticket.queued) ++ b.auth) :
    Records (L.fail n) b' := by
  refine ⟨?_, h.balanced.fail n, fun k hk => ?_⟩
  · rw [hb, h.auth, requeued_map_queued, Ledger.fail, List.map_append]
  · rcases List.mem_append.mp hk with hk | hk
    · exact h.spent k hk
    · have hfailures : (!decide (k.failures < 2)) = true := (List.mem_filter.mp hk).2
      rw [Bool.not_eq_true', decide_eq_false_iff_not, Nat.not_lt] at hfailures
      exact hfailures

end Records

/-! ## What happens to the flights -/

section Moved

variable {L L' : Ledger} {generation n : Nat} {held : Memo} {b b' : Batcher}

theorem linked_of_same (h : Linked L generation n held) (hheld : L'.held n = L.held n)
    (hcleared : L'.cleared = L.cleared) : Linked L' generation n held := by
  have hcounts : L'.counts = L.counts := by
    funext k
    rw [Ledger.counts, Ledger.counts, hcleared]
  cases held with
  | none => exact hheld.trans h
  | some q =>
      obtain ⟨hsome, hqueue, hdated⟩ := h
      constructor <;> rw [hheld]
      · exact hsome
      · exact hqueue
      · rw [hcounts]
        exact hdated

/-- What has been accepted is not accounted for once everything is discarded. -/
theorem linked_clear (hL : L.Balanced) (h : Linked L generation n held) :
    Linked L.clear (generation + 1) n held := by
  cases held with
  | none => exact h
  | some q =>
      refine ⟨h.some, h.queue, .inr ⟨?_, fun k hk => ?_⟩⟩
      · rcases h.dated with ⟨htaken, -⟩ | ⟨htaken, -⟩
        · exact htaken ▸ Nat.lt_succ_self _
        · exact Nat.lt_succ_of_lt htaken
      · have hlt : k.number < L.accepted := hL.lt_accepted (Ledger.mem_tickets_of_held hk)
        exact decide_eq_false (Nat.not_le.mpr hlt)

/-- A stretch of a flight does to the ledger what it does to the queue, and leaves what the other
flights hold alone. -/
structure Moved (L L' : Ledger) (n : Nat) (b b' : Batcher) : Prop where
  records : Records L' b'
  held : ∀ n', n' ≠ n → L'.held n' = L.held n'
  linked : ∀ n' m, n' ≠ n → Linked L b.generation n' m → Linked L' b'.generation n' m

/-- While nothing is discarded only what is held matters. -/
theorem moved_of_held (h : Records L' b') (hheld : ∀ n', n' ≠ n → L'.held n' = L.held n')
    (hcleared : L'.cleared = L.cleared) (hgeneration : b'.generation = b.generation) :
    Moved L L' n b b' := by
  refine ⟨h, hheld, fun n' m hne hlinked => ?_⟩
  rw [hgeneration]
  exact linked_of_same hlinked (hheld n' hne) hcleared

theorem moved_same (h : Records L b) (hb : Untouched b b') : Moved L L n b b' :=
  moved_of_held (h.same hb) (fun _ _ => rfl) rfl hb.generation

theorem moved_track (h : Records L b) (e : Event) (hauth : b'.auth = b.auth ++ [⟨e, false⟩])
    (hgeneration : b'.generation = b.generation) : Moved L (L.track e) n b b' :=
  moved_of_held (h.track e hauth) (fun _ _ => rfl) rfl hgeneration

theorem moved_clear (h : Records L b) (hauth : b'.auth = [])
    (hgeneration : b'.generation = b.generation + 1) : Moved L L.clear n b b' := by
  refine ⟨h.clear hauth, fun _ _ => rfl, fun n' m _ hlinked => ?_⟩
  rw [hgeneration]
  exact linked_clear h.balanced hlinked

theorem moved_take (h : Records L b) (hauth : b'.auth = [])
    (hgeneration : b'.generation = b.generation) : Moved L (L.take n) n b b' :=
  moved_of_held (h.take n hauth) (fun _ hne => Ledger.held_take_of_ne hne) rfl hgeneration

theorem moved_drop (h : Records L b) : Moved L (L.drop n) n b b :=
  moved_of_held (h.drop n) (fun _ hne => Ledger.held_release_of_ne hne) rfl rfl

/-- The send of what a flight holds is over. -/
theorem moved_settled {queue : List QueuedEvent} {taken : Nat} {i : Start Batcher}
    (h : Records L i.state) (hholds : Holds L i.state.generation n queue taken)
    (hs : Settles queue taken i b) : Moved L (L.close n i.cue) n i.state b := by
  have hother (n' : Nat) (hne : n' ≠ n) : (L.release n).held n' = L.held n' :=
    Ledger.held_release_of_ne hne
  have hclose : L.close n i.cue = if succeeded i.cue then L.deliver n else L.fail n :=
    if_neg fun hempty => hholds.some (List.isEmpty_iff.mp hempty)
  rw [hclose]
  cases hcue : succeeded i.cue with
  | true =>
      have hauth : b.auth = i.state.auth := by
        rw [hs.auth, hcue]
        rfl
      exact moved_of_held (h.deliver n hauth) hother rfl hs.generation
  | false =>
      refine moved_of_held (h.fail n ?_) hother rfl hs.generation
      rw [hs.auth, hcue]
      rcases hholds.dated with ⟨htaken, hcounts⟩ | ⟨htaken, hcounts⟩
      · rw [List.filter_eq_self.mpr hcounts, ← hholds.queue, htaken]
        simp
      · have hnone : (L.held n).filter L.counts = [] :=
          List.filter_eq_nil_iff.mpr fun k hk => Bool.eq_false_iff.mp (hcounts k hk)
        rw [hnone, if_neg (by simp [Nat.ne_of_gt htaken])]
        rfl

/-- What a flush took in its last stretch was refused. -/
theorem moved_refused {i : Start Batcher} (h : Records L i.state) (hheld : L.held n = [])
    (hauth : b.auth = requeued i.state.auth) (hgeneration : b.generation = i.state.generation) :
    Moved L (L.close n i.cue) n i.state b := by
  have htaken : Records (L.take n) { i.state with auth := [] } := h.take n rfl
  have hclose : L.close n i.cue = (L.take n).fail n := if_pos (by rw [hheld]; rfl)
  rw [hclose]
  refine moved_of_held (htaken.fail n ?_) (fun n' hne => ?_) rfl hgeneration
  · have hcounts : L.waiting.filter (L.take n).counts = L.waiting :=
      List.filter_eq_self.mpr h.balanced.counted
    rw [Ledger.held_take_self hheld, hcounts, hauth, h.auth, List.append_nil]
  · exact (Ledger.held_release_of_ne hne).trans (Ledger.held_take_of_ne hne)

end Moved

/-! ## What a stretch does -/

section Stretch

variable {L : Ledger} {n : Nat} {work : Work Call BatchJob} {held : Memo} {i : Start Batcher}
  {b : Batcher} {s s' : BatcherScene}

theorem held_close : (L.close n i.cue).held n = [] := by
  rw [Ledger.close]
  split
  · exact Ledger.held_release_self
  · split <;> exact Ledger.held_release_self

/-- The kinds of work. -/
theorem flushes_or_spares (work : Work Call BatchJob) :
    flushes work = true ∨ spares work = true ∨ (∃ e, work = .call (.trackAuth e)) ∨
      work = .call .clear := by
  cases work with
  | call k => cases k <;> simp [flushes, spares]
  | job j => cases j <;> simp [flushes, spares]

theorem outcome_of_flushes (hwork : flushes work = true) (h : outcome work none i b) :
    b.auth = requeued i.state.auth ∧ b.generation = i.state.generation := by
  cases work with
  | call k => cases k <;> first | exact h | cases hwork
  | job j => cases j <;> first | exact h | cases hwork

theorem outcome_of_spares (hwork : spares work = true) (h : outcome work none i b) :
    Untouched i.state b := by
  cases work with
  | call k => cases k <;> first | exact h | cases hwork
  | job j => cases j <;> first | exact h | cases hwork

theorem act_of_flushes (hwork : flushes work = true) (e : Ending Answer BatchJob) :
    L.act ⟨n, work, i, .ended e, b, s⟩ = L.close n i.cue := by
  cases work with
  | call k => cases k <;> first | rfl | cases hwork
  | job j => cases j <;> first | rfl | cases hwork

theorem act_of_spares (hwork : spares work = true) (e : Ending Answer BatchJob) :
    L.act ⟨n, work, i, .ended e, b, s⟩ = L := by
  cases work with
  | call k => cases k <;> first | rfl | cases hwork
  | job j => cases j <;> first | rfl | cases hwork

/-- A flight that ends holds nothing. -/
theorem moved_ended (h : Records L i.state) (hlinked : Linked L i.state.generation n held)
    {e : Ending Answer BatchJob} (hout : outcome work held i b) :
    Moved L (L.act ⟨n, work, i, .ended e, b, s⟩) n i.state b ∧
      (L.act ⟨n, work, i, .ended e, b, s⟩).held n = [] := by
  cases held with
  | some q =>
      obtain ⟨hwork, hsettles⟩ := hout
      rw [act_of_flushes hwork]
      exact ⟨moved_settled h hlinked hsettles, held_close⟩
  | none =>
      rcases flushes_or_spares work with hwork | hwork | ⟨e, rfl⟩ | rfl
      · obtain ⟨hauth, hgeneration⟩ := outcome_of_flushes hwork hout
        rw [act_of_flushes hwork]
        exact ⟨moved_refused h hlinked hauth hgeneration, held_close⟩
      · rw [act_of_spares hwork]
        exact ⟨moved_same h (outcome_of_spares hwork hout), hlinked⟩
      · obtain ⟨hauth, hgeneration⟩ := hout
        exact ⟨moved_track h _ hauth hgeneration, hlinked⟩
      · obtain ⟨hauth, hgeneration⟩ := hout
        exact ⟨moved_clear h hauth hgeneration, hlinked⟩

/-- A flight that comes to wait holds what it waits for the sink with. -/
theorem moved_waits (h : Records L i.state) (hlinked : Linked L i.state.generation n held)
    {held' : Memo} {w : Wait} (hp : pact work held i (.waits w) b held') :
    Moved L (L.act ⟨n, work, i, .paused (.waits w), b, s⟩) n i.state b ∧
      Linked (L.act ⟨n, work, i, .paused (.waits w), b, s⟩) b.generation n held' ∧
        ((L.act ⟨n, work, i, .paused (.waits w), b, s⟩).held n ≠ [] → flushes work = true ∧
          w.Sends (((L.act ⟨n, work, i, .paused (.waits w), b, s⟩).held n).map (·.event))) := by
  obtain ⟨rfl, hp⟩ := hp
  have hact : L.act ⟨n, work, i, .paused (.waits w), b, s⟩ =
      if (flushes work && w.isSink) = true then L.take n else L := rfl
  rw [hact]
  by_cases hsink : (flushes work && w.isSink) = true
  · rw [if_pos hsink] at hp ⊢
    obtain ⟨hsome, hsends, hauth, hgeneration, rfl⟩ := hp
    have htaken : (L.take n).held n = L.waiting := Ledger.held_take_self hlinked
    have hevents : i.state.auth.map (·.event) = L.waiting.map (·.event) := by
      rw [h.auth, List.map_map]
      rfl
    refine ⟨moved_take h hauth hgeneration, ⟨?_, ?_, .inl ⟨hgeneration.symm, ?_⟩⟩, fun _ => ?_⟩
    · rw [htaken]
      intro hnil
      exact hsome (by rw [h.auth, hnil]; rfl)
    · rw [htaken]
      exact h.auth
    · rw [htaken]
      exact h.balanced.counted
    · rw [htaken, ← hevents]
      exact ⟨(Bool.and_eq_true_iff.mp hsink).1, hsends⟩
  · rw [if_neg hsink] at hp ⊢
    obtain ⟨hsame, rfl⟩ := hp
    exact ⟨moved_same h hsame, hlinked, fun hne => absurd hlinked hne⟩

/-- What a stretch does, and what it leaves in flight. -/
theorem moved_stretch {f : Flight Batcher Call Answer BatchJob} (h : Records L i.state)
    (hlinked : Linked L i.state.generation f.number held) {r : Run Batcher (Ending Answer BatchJob)}
    (hr : r.Meets (rules.pact f.work) (rules.outcome f.work) held i)
    (hs : workplace.settle s f r = some s') {L' : Ledger}
    (hL : L' = L.act ⟨f.number, f.work, i, r.result, r.state, s'⟩) :
    Moved L L' f.number i.state r.state ∧
      (∀ g, f.left? r = some g → Follows L' r.state.generation g) ∧
        (L'.held f.number ≠ [] → ∃ g, f.left? r = some g ∧ g.number = f.number ∧
          g.waiting.isSome = true) := by
  subst hL
  cases r with
  | done c e =>
      obtain ⟨hmoved, hnone⟩ := moved_ended (s := s') h hlinked hr
      refine ⟨hmoved, fun g hg y hy => ?_, fun hne => absurd hnone hne⟩
      -- What starts over has not begun.
      cases e <;> cases hg
      cases hy
  | fault c e => exact absurd rfl (settle_not_faults hs hr)
  | stay c => exact hr.elim
  | wait c w drop resume =>
      obtain ⟨held', hp, hdrop, hresume⟩ := hr
      obtain ⟨hmoved, hlinked', hsends⟩ := moved_waits (s := s') h hlinked hp
      refine ⟨hmoved, fun g hg y hy => ?_, fun _ => ⟨_, rfl, rfl, rfl⟩⟩
      obtain rfl := Option.some.inj hg
      obtain rfl := Option.some.inj hy
      exact ⟨held', ⟨hdrop, hresume⟩, hlinked', hsends⟩

end Stretch

/-! ## What a course does -/

section Course

variable {L L' : Ledger} {s s' : BatcherScene} {ms : List BatcherMoment}

theorem standing_follows (L : Ledger) (generation : Nat) :
    workplace.Standing fun f _ => Follows L generation f where
  later _ _ h := h
  starts _ _ := nofun
  halts f _ name h := by
    obtain ⟨hnumber, hwork, hwaiting, -⟩ := halt_same (W := workplace) name f
    unfold Follows
    rw [hnumber, hwork, hwaiting]
    exact h

/-- What another flight does leaves a flight what it is. -/
theorem Moved.follows {n : Nat} {b b' : Batcher} {g : Flight Batcher Call Answer BatchJob}
    (h : Moved L L' n b b') (hne : g.number ≠ n) (hg : Follows L b.generation g) :
    Follows L' b'.generation g := by
  intro y hy
  obtain ⟨m, hawaits, hlinked, hsends⟩ := hg y hy
  refine ⟨m, hawaits, h.linked g.number m hne hlinked, ?_⟩
  rw [h.held g.number hne]
  exact hsends

theorem Mirrors.settle (h : Mirrors L s) {f : Flight Batcher Call Answer BatchJob} {held : Memo}
    {i : Start Batcher} (hi : i.state = s.state)
    (hlinked : Linked L s.state.generation f.number held) {r : Run Batcher (Ending Answer BatchJob)}
    (hr : r.Meets (rules.pact f.work) (rules.outcome f.work) held i)
    (hs : workplace.settle s f r = some s') :
    Mirrors (L.act ⟨f.number, f.work, i, r.result, r.state, s'⟩) s' := by
  have hrecords := h.records
  have hfollows := h.follows
  rw [← hi] at hlinked hrecords hfollows
  obtain ⟨hmoved, hown, hheld⟩ := moved_stretch hrecords hlinked hr hs rfl
  generalize L.act ⟨f.number, f.work, i, r.result, r.state, s'⟩ = L' at hmoved hown hheld ⊢
  have hstate : Untouched r.state s'.state := by
    rcases settle_state hs with hstate | ⟨-, j, -, hstate⟩ <;> rw [hstate] <;> exact ⟨rfl, rfl⟩
  refine ⟨hmoved.records.same hstate, ?_, fun n hne => ?_⟩
  · rw [hstate.generation]
    exact (Each.settle (standing_follows L' _)
      (fun g hg hne => hmoved.follows hne (hfollows g hg)) hown hs).1
  · -- What is held is held by a flight that waits, and this is in flight still.
    have hflight : ∃ g, (g ∈ s.flights ∧ g.number ≠ f.number ∨ f.left? r = some g) ∧
        g.number = n ∧ g.waiting.isSome = true := by
      by_cases hn : n = f.number
      · subst hn
        obtain ⟨g, hleft, hg⟩ := hheld hne
        exact ⟨g, .inr hleft, hg⟩
      · rw [hmoved.held n hn] at hne
        obtain ⟨g, hmem, hg, hwaits⟩ := h.owned n hne
        exact ⟨g, .inl ⟨hmem, hg ▸ hn⟩, hg, hwaits⟩
    obtain ⟨g, hg, hnumber, hwaits⟩ := hflight
    obtain ⟨g', hmem, hnumber', -, hwaiting⟩ := inFlight_settle hs hg
    exact ⟨g', hmem, hnumber'.trans hnumber, hwaiting ▸ hwaits⟩

/-- A batcher does not notice that what waits is dropped. -/
theorem Mirrors.undo_eq (h : Mirrors L s) {f : Flight Batcher Call Answer BatchJob}
    (hf : f ∈ s.flights) : f.undo s.state = s.state := by
  cases hw : f.waiting with
  | none => rw [Flight.undo, hw]
  | some y =>
      obtain ⟨m, hawaits, -⟩ := h.follows f hf y hw
      rw [Flight.undo, hw]
      exact (hawaits.drops default s.state).1

theorem Mirrors.drop (h : Mirrors L s) {f : Flight Batcher Call Answer BatchJob}
    (hf : f ∈ s.flights) :
    Mirrors (L.drop f.number) (workplace.heed (land s f.number) (f.undo s.state)) := by
  have hmoved : Moved L (L.drop f.number) f.number s.state s.state := moved_drop h.records
  rw [h.undo_eq hf]
  have hstate : Untouched s.state (workplace.heed (land s f.number) s.state).state := by
    rw [heed_state]
    exact ⟨rfl, rfl⟩
  refine ⟨hmoved.records.same hstate, ?_, fun n hne => ?_⟩
  · rw [hstate.generation]
    have hothers : Each (fun g _ => Follows (L.drop f.number) s.state.generation g)
        (land s f.number) :=
      Each.land (s := s) fun g hg hne => hmoved.follows hne (h.follows g hg)
    exact hothers.heed (standing_follows _ _) s.state
  · have hn : n ≠ f.number := by
      rintro rfl
      exact hne Ledger.held_release_self
    rw [hmoved.held n hn] at hne
    obtain ⟨g, hg, hnumber, hwaits⟩ := h.owned n hne
    have hland : g ∈ (land s f.number).flights :=
      List.mem_filter.mpr ⟨hg, decide_eq_true (hnumber ▸ hn)⟩
    obtain ⟨g', hmem, hnumber', -, hwaiting⟩ := inFlight_heed (W := workplace) hland s.state
    exact ⟨g', hmem, hnumber'.trans hnumber, hwaiting ▸ hwaits⟩

/-- A flight that does not wait holds nothing. -/
theorem Mirrors.held_eq_nil (h : Mirrors L s) (hnumbered : Numbered s)
    {f : Flight Batcher Call Answer BatchJob} (hf : f ∈ s.flights) (hw : f.waiting = none) :
    L.held f.number = [] := by
  refine Decidable.byContradiction fun hne => ?_
  obtain ⟨g, hg, hnumber, hwaits⟩ := h.owned f.number hne
  obtain rfl := hnumbered.eq_of_number hg hf hnumber
  rw [hw] at hwaits
  cases hwaits

/-- The flight that is to begin next holds nothing: no flight has its number yet. -/
theorem Mirrors.held_next (h : Mirrors L s) (hnumbered : Numbered s) : L.held s.next = [] := by
  refine Decidable.byContradiction fun hne => ?_
  obtain ⟨g, hg, hnumber, -⟩ := h.owned s.next hne
  exact absurd hnumber (Nat.ne_of_lt (hnumbered.below g hg))

theorem Mirrors.step (h : Mirrors L s) (hnumbered : Numbered s) {x : BatcherMoment}
    (hx : workplace.Step s x) : Mirrors (L.act x) x.after := by
  cases hx with
  | call k now s' hs =>
      have hcalled : Mirrors L { s with next := s.next + 1 } := ⟨h.records, h.follows, h.owned⟩
      have hnone : Linked L s.state.generation s.next none := h.held_next hnumbered
      exact hcalled.settle (f := ⟨s.next, .call k, false, none⟩) (i := ⟨none, now, s.state⟩)
        rfl hnone (rules_keptBy.meets (.call k) now s.state) hs
  | begin f now s' hf hstop hw hs =>
      have hnone : Linked L s.state.generation f.number none := h.held_eq_nil hnumbered hf hw
      exact h.settle (i := ⟨none, now, s.state⟩) rfl hnone
        (rules_keptBy.meets f.work now s.state) hs
  | reply f y a now s' hf hstop hw hs =>
      obtain ⟨m, hawaits, hlinked, -⟩ := h.follows f hf y hw
      exact h.settle (i := ⟨some ⟨y.wait, a⟩, now, s.state⟩) rfl hlinked
        (hawaits.meets a now s.state) hs
  | drop f now hf => exact h.drop hf

theorem mirrors_of_course {config : BatcherConfig} {sink : Sink} {hasWorkers : Bool}
    (h : workplace.Course (idle (new config sink hasWorkers)) ms s) : Mirrors (Ledger.of ms) s := by
  induction h with
  | nil =>
      exact ⟨⟨rfl, Ledger.balanced_empty, fun _ hk => nomatch hk⟩, fun _ hf => (nomatch hf),
        fun _ hne => absurd rfl hne⟩
  | @snoc ms t x ht hx ih =>
      rw [Ledger.of_snoc]
      exact ih.step ht.numbered hx

/-- What is stopped goes by a number. -/
def Timed (f : Flight Batcher Call Answer BatchJob) : Prop :=
  f.stopped = true → ∃ j, f.work = .job j ∧ (task? j).isSome = true

theorem standing_timed : workplace.Standing fun f _ => Timed f where
  later _ _ h := h
  starts _ _ := nofun
  halts f _ name h := by
    unfold halt
    split
    · exact h
    · rename_i j hj
      split
      · rename_i hname
        intro _
        refine ⟨j, hj, ?_⟩
        rw [of_decide_eq_true hname]
        rfl
      · exact h

theorem timed_of_course {b : Batcher} (h : workplace.Course (idle b) ms s) :
    ∀ f ∈ s.flights, Timed f := by
  induction h with
  | nil => exact fun _ hf => nomatch hf
  | snoc _ hx ih =>
      refine Each.step standing_timed ih (fun f g _ r hf hg hstop => ?_) hx
      have hsame : g.stopped = f.stopped := by
        cases r with
        | done c e =>
            cases e <;> cases hg
            rfl
        | fault c e => cases hg
        | stay c => exact congrArg _ (Option.some.inj hg).symm
        | wait c w drop resume => exact congrArg (·.stopped) (Option.some.inj hg).symm
      rw [hsame, hf] at hstop
      cases hstop

end Course

/-! ## Where an event is -/

/-- The session event of a number waits in the queue, or is in a send that goes on, or was in a send
that succeeded or in two that failed. -/
def Kept (L : Ledger) (s : BatcherScene) (t : Nat) : Prop :=
  ∃ k : Ticket, k.number = t ∧
    (k ∈ L.waiting ∨
      (∃ f ∈ s.flights, f.stopped = false ∧ k ∈ L.held f.number ∧
        ∃ y, f.waiting = some y ∧ y.wait.Sends ((L.held f.number).map (·.event))) ∨
      k ∈ L.delivered ∨ (k ∈ L.spent ∧ 2 ≤ k.failures))

/-- The session event of a number was in a send that was dropped, or is in one of a timer that was
stopped. -/
def CutOff (L : Ledger) (s : BatcherScene) (t : Nat) : Prop :=
  ∃ k : Ticket, k.number = t ∧
    (k ∈ L.dropped ∨ ∃ f ∈ s.flights, f.stopped = true ∧
      (∃ task, f.work = .job (.periodicFlush task)) ∧ k ∈ L.held f.number)

section Places

variable {L : Ledger} {s : BatcherScene} {t : Nat}

/-- What a flight holds it waits with, and a flight that holds something and is stopped is one of a
timer. -/
theorem Mirrors.holder (h : Mirrors L s) (htimed : ∀ f ∈ s.flights, Timed f) {k : Ticket}
    (hk : k ∈ L.underway.map (·.ticket)) : ∃ f ∈ s.flights, k ∈ L.held f.number ∧
      (∃ y, f.waiting = some y ∧ y.wait.Sends ((L.held f.number).map (·.event))) ∧
        (f.stopped = true → ∃ task, f.work = .job (.periodicFlush task)) := by
  obtain ⟨p, hp, rfl⟩ := List.mem_map.mp hk
  have hheld : p.ticket ∈ L.held p.flight :=
    List.mem_map.mpr ⟨p, List.mem_filter.mpr ⟨hp, decide_eq_true rfl⟩, rfl⟩
  obtain ⟨f, hf, hnumber, hwaits⟩ := h.owned p.flight (List.ne_nil_of_mem hheld)
  rw [← hnumber] at hheld
  obtain ⟨y, hy⟩ := Option.isSome_iff_exists.mp hwaits
  obtain ⟨m, -, -, hsends⟩ := h.follows f hf y hy
  obtain ⟨hflushes, hsends⟩ := hsends (List.ne_nil_of_mem hheld)
  refine ⟨f, hf, hheld, ⟨y, hy, hsends⟩, fun hstop => ?_⟩
  obtain ⟨j, hj, htask⟩ := htimed f hf hstop
  rw [hj] at hflushes
  cases j with
  | periodicFlush task => exact ⟨task, hj⟩
  | flushAuth => cases htask
  | deliver batch => cases htask
  | farewell request => cases htask
  | deferredSend task wait => cases hflushes

/-- A number that is at one place is at no other. -/
theorem not_cutOff_of_kept (hnumbered : Numbered s)
    (honce : Ledger.tally t L.tickets = 1) (hkept : Kept L s t) : ¬CutOff L s t := by
  rintro ⟨k', hk', hcut⟩
  obtain ⟨k, hk, hkept⟩ := hkept
  rw [Ledger.tally_tickets] at honce
  have hpos {ks : List Ticket} {k : Ticket} (hmem : k ∈ ks) (hk : k.number = t) :
      0 < Ledger.tally t ks := Ledger.tally_pos.mpr ⟨k, hmem, hk⟩
  have hunderway (n : Nat) := Ledger.tally_underway (L := L) t n
  rcases hcut with hdropped | ⟨f', hf', hstopped, -, hheld'⟩
  · have hdropped := hpos hdropped hk'
    rcases hkept with hplace | ⟨f, -, -, hplace, -⟩ | hplace | ⟨hplace, -⟩ <;>
      have hplace := hpos hplace hk
    · omega
    · have hunderway := hunderway f.number
      omega
    · omega
    · omega
  · have hcutoff := hpos hheld' hk'
    have hunderway := hunderway f'.number
    rcases hkept with hplace | ⟨f, hf, hgoes, hplace, -⟩ | hplace | ⟨hplace, -⟩
    · have hplace := hpos hplace hk
      omega
    · -- Two flights hold it, of which one is stopped and the other is not.
      have hne : f.number ≠ f'.number := by
        intro hn
        obtain rfl := hnumbered.eq_of_number hf hf' hn
        rw [hgoes] at hstopped
        cases hstopped
      rw [← Ledger.held_release_of_ne hne] at hplace
      have hplace := hpos hplace hk
      have hrest := Ledger.tally_underway (L := L.release f'.number) t f.number
      omega
    · have hplace := hpos hplace hk
      omega
    · have hplace := hpos hplace hk
      omega

theorem kept_of_not_cutOff (h : Mirrors L s) (htimed : ∀ f ∈ s.flights, Timed f)
    (honce : Ledger.tally t L.tickets = 1) (hcut : ¬CutOff L s t) : Kept L s t := by
  obtain ⟨k, hmem, rfl⟩ := Ledger.tally_pos.mp (by rw [honce]; exact Nat.one_pos)
  refine ⟨k, rfl, ?_⟩
  simp only [Ledger.tickets, List.mem_append] at hmem
  rcases hmem with (((hplace | hplace) | hplace) | hplace) | hplace
  · exact .inl hplace
  · obtain ⟨f, hf, hheld, hsends, htask⟩ := h.holder htimed hplace
    cases hstop : f.stopped with
    | true => exact absurd ⟨k, rfl, .inr ⟨f, hf, hstop, htask hstop, hheld⟩⟩ hcut
    | false => exact .inr (.inl ⟨f, hf, hstop, hheld, hsends⟩)
  · exact .inr (.inr (.inl hplace))
  · exact .inr (.inr (.inr ⟨hplace, h.records.spent k hplace⟩))
  · exact absurd ⟨k, rfl, .inl hplace⟩ hcut

end Places

/-- At every moment the queue is the one of the ledger, and of the session events that were accepted
since everything was last discarded all are kept but those whose send was cut off: its flush was
dropped while it waited for the sink, or its timer was stopped. -/
theorem kept_iff_not_cutOff {config : BatcherConfig} {sink : Sink} {hasWorkers : Bool}
    {ms : List BatcherMoment} {s : BatcherScene}
    (h : workplace.Course (idle (new config sink hasWorkers)) ms s) :
    s.state.auth = (Ledger.of ms).waiting.map Ticket.queued ∧
      ∀ t, (Ledger.of ms).cleared ≤ t → t < (Ledger.of ms).accepted →
        (Kept (Ledger.of ms) s t ↔ ¬CutOff (Ledger.of ms) s t) := by
  have hmirrors : Mirrors (Ledger.of ms) s := mirrors_of_course h
  refine ⟨hmirrors.records.auth, fun t hcleared haccepted => ?_⟩
  have honce := hmirrors.records.balanced.once t hcleared haccepted
  exact ⟨not_cutOff_of_kept h.numbered honce,
    kept_of_not_cutOff hmirrors (timed_of_course h) honce⟩

/-- A session event is accepted, and the timer is started and sends it when its period ends. -/
def flushing : List (Instant × Move Call) :=
  [(⟨0⟩, .ask (.trackAuth (.auth "login" true ⟨0⟩))), (⟨0⟩, .ask .startPeriodic), (⟨0⟩, .begin 2),
    (⟨0⟩, .reply 2 (Wait.answer (.error ⟨false, ""⟩) (.error .loginRequired)))]

/-- The event is kept while the send goes on. -/
theorem kept_iff_not_cutOff_flushing : ∃ (ms : List BatcherMoment) (s : BatcherScene),
    workplace.Course (idle (new default (.service true) true)) ms s ∧
      s.state.auth = (Ledger.of ms).waiting.map Ticket.queued ∧
        (Ledger.of ms).cleared ≤ 0 ∧ 0 < (Ledger.of ms).accepted ∧
          (Kept (Ledger.of ms) s 0 ↔ ¬CutOff (Ledger.of ms) s 0) := by
  have hpasses : workplace.passes (idle (new default (.service true) true)) flushing 3
      (fun ms x ms' _ => decide ((Ledger.of (ms ++ x :: ms')).cleared ≤ 0 ∧
        0 < (Ledger.of (ms ++ x :: ms')).accepted)) = true := by
    decide +kernel
  obtain ⟨ms, x, ms', s, h, htest⟩ := exists_course hpasses
  obtain ⟨hcleared, haccepted⟩ := of_decide_eq_true htest
  obtain ⟨hauth, hkept⟩ := kept_iff_not_cutOff h
  exact ⟨_, s, h, hauth, hcleared, haccepted, hkept 0 hcleared haccepted⟩

/-- Nothing waits, and nothing was sent or goes on. -/
def nothingLeft (L : Ledger) (s : BatcherScene) : Bool :=
  L.waiting.isEmpty && s.flights.all (·.stopped) && L.delivered.isEmpty && L.spent.isEmpty

theorem not_kept_of_nothingLeft {L : Ledger} {s : BatcherScene} (h : nothingLeft L s = true)
    (t : Nat) : ¬Kept L s t := by
  simp only [nothingLeft, Bool.and_eq_true, List.isEmpty_iff, List.all_eq_true] at h
  obtain ⟨⟨⟨hwaiting, hstopped⟩, hdelivered⟩, hspent⟩ := h
  rintro ⟨k, -, hplace | ⟨f, hf, hgoes, -⟩ | hplace | ⟨hplace, -⟩⟩
  · rw [hwaiting] at hplace
    cases hplace
  · rw [hstopped f hf] at hgoes
    cases hgoes
  · rw [hdelivered] at hplace
    cases hplace
  · rw [hspent] at hplace
    cases hplace

/-- Not every event is kept that was accepted since everything was last discarded, even where no
flush was dropped: the batcher is shut down while its timer waits for the sink. -/
theorem not_kept_of_shutdown : ∃ (ms : List BatcherMoment) (s : BatcherScene),
    workplace.Course (idle (new default (.service true) true)) ms s ∧
      (Ledger.of ms).dropped = [] ∧ (Ledger.of ms).cleared = 0 ∧ (Ledger.of ms).accepted = 1 ∧
        s.state.auth = [] ∧ ¬Kept (Ledger.of ms) s 0 := by
  have hpasses : workplace.passes (idle (new default (.service true) true))
      (flushing ++ [(⟨0⟩, .ask .shutdown)]) 4 (fun ms x ms' s =>
        (Ledger.of (ms ++ x :: ms')).dropped.isEmpty &&
          decide ((Ledger.of (ms ++ x :: ms')).cleared = 0 ∧
            (Ledger.of (ms ++ x :: ms')).accepted = 1 ∧ s.state.auth = []) &&
            nothingLeft (Ledger.of (ms ++ x :: ms')) s) = true := by
    decide +kernel
  obtain ⟨ms, x, ms', s, h, htest⟩ := exists_course hpasses
  simp only [Bool.and_eq_true, decide_eq_true_eq, List.isEmpty_iff] at htest
  obtain ⟨⟨hdropped, hcleared, haccepted, hauth⟩, hnothing⟩ := htest
  exact ⟨_, s, h, hdropped, hcleared, haccepted, hauth, not_kept_of_nothingLeft hnothing 0⟩

end Batcher

end ClientSession
