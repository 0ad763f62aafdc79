import ClientSession.Proofs.Telemetry.Dispatches
import ClientSession.Proofs.Telemetry.Stream

/-!
# Discarding everything

When everything is discarded the events that were accepted before do not come back, neither from the
queues, which are empty then, nor from a send of session events that fails afterwards: what it holds
is no longer accounted for.

- `Batcher.held_of_append`: what a flight sends stays the same until its next moment.
- `Batcher.cleared_le`: what was discarded is not accounted for any longer.
- `Batcher.cleared_for_good`: after everything was discarded only later events wait or are sent.
-/

namespace ClientSession

namespace Batcher

open Workplace

variable {L : Ledger} {s t : BatcherScene} {before after ms : List BatcherMoment}
  {x y : BatcherMoment}

/-! ## The ledger from moment to moment -/

/-- Only the moments of a flight change what it sends. -/
theorem held_act_of_ne {n : Nat} (h : n ≠ x.number) : (L.act x).held n = L.held n := by
  have hclose (cue : Option Cue) : (L.close x.number cue).held n = L.held n := by
    unfold Ledger.close
    split
    · exact (Ledger.held_release_of_ne h).trans (Ledger.held_take_of_ne h)
    · split
      · exact Ledger.held_release_of_ne h
      · exact Ledger.held_release_of_ne h
  unfold Ledger.act
  split
  · exact Ledger.held_release_of_ne h
  · split
    · exact Ledger.held_take_of_ne h
    · rfl
  · rfl
  · rfl
  · rfl
  · split
    · exact hclose _
    · rfl

theorem held_of_append {n : Nat} (h : ∀ z ∈ after, z.number ≠ n) :
    (Ledger.of (before ++ after)).held n = (Ledger.of before).held n := by
  induction after using List.reverseRecOn with
  | nil => rw [List.append_nil]
  | append_singleton after z ih =>
      have hz : n ≠ z.number := (h z (by simp)).symm
      rw [← List.append_assoc, Ledger.of_snoc, held_act_of_ne hz]
      exact ih fun y hy => h y (List.mem_append_left _ hy)

theorem cleared_act (hL : L.Balanced) (x : BatcherMoment) : L.cleared ≤ (L.act x).cleared := by
  unfold Ledger.act Ledger.close
  split
  · exact Nat.le_refl _
  · split <;> exact Nat.le_refl _
  · exact Nat.le_refl _
  · exact Nat.le_refl _
  · exact hL.ordered
  · split
    · split
      · exact Nat.le_refl _
      · split <;> exact Nat.le_refl _
    · exact Nat.le_refl _

/-- What was accepted before everything was discarded is not accounted for afterwards. -/
theorem cleared_le {config : BatcherConfig} {sink : Sink} {hasWorkers : Bool}
    (h : workplace.Course (idle (new config sink hasWorkers)) (before ++ x :: after) s)
    (hclears : clears x.work x.result = true) :
    (tracked before).length ≤ (Ledger.of (before ++ x :: after)).cleared := by
  induction after using List.reverseRecOn generalizing s with
  | nil =>
      obtain ⟨t, hbefore, -, -⟩ := h.last
      have hact : (Ledger.of before).act x = (Ledger.of before).clear := by
        unfold clears at hclears
        split at hclears
        · rename_i hwork hresult
          simp [Ledger.act, hwork, hresult]
        · cases hclears
      rw [Ledger.of_snoc, hact, ← (booked_of_course hbefore).accepted]
      exact Nat.le_refl _
  | append_singleton after z ih =>
      rw [← List.cons_append, ← List.append_assoc] at h ⊢
      obtain ⟨t, hinit, -, -⟩ := h.last
      rw [Ledger.of_snoc]
      exact Nat.le_trans (ih hinit) (cleared_act (mirrors_of_course hinit).records.balanced z)

/-! ## The sends after a clearing -/

/-- A moment hands over what waits, or nothing. -/
theorem tickets_dispatch (L : Ledger) (ds : List Dispatch) (x : BatcherMoment) :
    (dispatch L ds x).map (·.tickets) = ds.map (·.tickets) ∨
      (dispatch L ds x).map (·.tickets) = ds.map (·.tickets) ++ [L.waiting] := by
  have hsettle (outcome : Fate) :
      (ds.map (Dispatch.settle x.number outcome)).map (·.tickets) = ds.map (·.tickets) := by
    rw [List.map_map]
    rfl
  unfold dispatch
  split
  · exact .inl (hsettle _)
  · split
    · exact .inr (by simp)
    · exact .inl rfl
  · exact .inl rfl
  · split
    · split
      · split
        · exact .inl rfl
        · exact .inr (by simp)
      · split
        · exact .inl (hsettle _)
        · exact .inl (hsettle _)
    · exact .inl rfl

/-- The sends that begin after everything was discarded are of later events. -/
theorem later_dispatches {config : BatcherConfig} {sink : Sink} {hasWorkers : Bool}
    (h : workplace.Course (idle (new config sink hasWorkers)) (before ++ x :: after) s)
    (hclears : clears x.work x.result = true) : ∃ later,
      (dispatches (before ++ x :: after)).map (·.tickets) =
        (dispatches before).map (·.tickets) ++ later ∧
        ∀ ks ∈ later, ∀ k ∈ ks, (tracked before).length ≤ k.number := by
  induction after using List.reverseRecOn generalizing s with
  | nil =>
      refine ⟨[], ?_, by simp⟩
      have hsame : dispatch (Ledger.of before) (dispatches before) x = dispatches before := by
        unfold clears at hclears
        split at hclears
        · rename_i hwork hresult
          simp [dispatch, hwork, hresult, flushes]
        · cases hclears
      rw [dispatches_snoc, hsame, List.append_nil]
  | append_singleton after z ih =>
      rw [← List.cons_append, ← List.append_assoc] at h ⊢
      obtain ⟨t, hinit, -, -⟩ := h.last
      obtain ⟨later, hlater, hnew⟩ := ih hinit
      rw [dispatches_snoc]
      have hdispatch := tickets_dispatch (Ledger.of (before ++ x :: after))
        (dispatches (before ++ x :: after)) z
      rcases hdispatch with hsame | hmore
      · exact ⟨later, by rw [hsame, hlater], hnew⟩
      · refine ⟨later ++ [(Ledger.of (before ++ x :: after)).waiting], ?_, ?_⟩
        · rw [hmore, hlater, List.append_assoc]
        · intro ks hks k hk
          rcases List.mem_append.mp hks with hks | hks
          · exact hnew ks hks k hk
          · obtain rfl := List.mem_singleton.mp hks
            have hcounted := (mirrors_of_course hinit).records.balanced.counted k hk
            exact Nat.le_trans (cleared_le hinit hclears) (of_decide_eq_true hcounted)

/-- The end of a send gives nothing back to the queue if what was sent is not accounted for. -/
theorem Mirrors.auth_left (h : Mirrors L s) (hnumbered : Numbered s) (hy : workplace.Step s y)
    (hheld : L.held y.number ≠ []) (hold : ∀ k ∈ L.held y.number, L.counts k = false) :
    y.left.auth = y.start.state.auth := by
  obtain ⟨m, m', hlinked, hkeeps⟩ := h.keeps hnumbered hy
  cases m with
  | none => exact absurd hlinked hheld
  | some q =>
      obtain ⟨queue, taken⟩ := q
      have hholds : Holds L s.state.generation y.number queue taken := hlinked
      have htaken : taken < s.state.generation := by
        rcases hholds.dated with ⟨-, hcounts⟩ | ⟨htaken, -⟩
        · obtain ⟨k, hk⟩ := List.exists_mem_of_ne_nil _ hheld
          have hboth := (hold k hk).symm.trans (hcounts k hk)
          cases hboth
        · exact htaken
      cases hr : y.result with
      | ended e =>
          simp only [Rules.Keeps, hr] at hkeeps
          obtain ⟨⟨-, hsettles⟩, -⟩ := hkeeps
          have hlater : y.start.state.generation ≠ taken := by
            rw [hy.start_state]
            exact Nat.ne_of_gt htaken
          rw [hsettles.auth]
          simp [hlater]
      | paused p =>
          simp only [Rules.Keeps, hr] at hkeeps
          cases p with
          | drops => rw [hkeeps.1]
          | faults => exact absurd hr (hy.not_faults hkeeps)
          | stays => exact hkeeps.elim
          | waits w => exact absurd hkeeps.1 (Option.some_ne_none _)

/-- A send that was under way when everything was discarded gives nothing back to the queue. -/
theorem auth_left_of_cleared {config : BatcherConfig} {sink : Sink} {hasWorkers : Bool}
    {begun : List BatcherMoment} {w : BatcherMoment} {meanwhile later : List BatcherMoment}
    (h : workplace.Course (idle (new config sink hasWorkers))
      ((begun ++ w :: before) ++ x :: (meanwhile ++ y :: later)) s)
    (hclears : clears x.work x.result = true) {wait : Wait} (hw : w.result = .paused (.waits wait))
    (hsink : (flushes w.work && wait.isSink) = true) (hnumber : y.number = w.number)
    (hnext : ∀ z ∈ before ++ x :: meanwhile, z.number ≠ w.number) :
    y.left.auth = y.start.state.auth := by
  rw [← List.cons_append, ← List.append_assoc] at h
  obtain ⟨t, hcourse, hy, -⟩ := h.split
  have hmirrors := mirrors_of_course hcourse
  -- What the flight sends has been the same since the send began.
  obtain ⟨u, hbefore, -, -⟩ := hcourse.split
  obtain ⟨v, hbegun, hstep, -⟩ := hbefore.split
  obtain ⟨hheld, hsome, -⟩ := (mirrors_of_course hbegun).takes hbegun.numbered hstep hw hsink
  have htaken : (Ledger.of (begun ++ [w])).held w.number = (Ledger.of begun).waiting := by
    have hact : (Ledger.of begun).act w = (Ledger.of begun).take w.number := by
      simp [Ledger.act, hw, hsink]
    rw [Ledger.of_snoc, hact]
    exact Ledger.held_take_self hheld
  have hthen : (Ledger.of (begun ++ w :: before)).held w.number = (Ledger.of begun).waiting := by
    rw [List.append_cons, held_of_append, htaken]
    exact fun z hz => hnext z (List.mem_append_left _ hz)
  have hnow : (Ledger.of ((begun ++ w :: before) ++ x :: meanwhile)).held y.number =
      (Ledger.of begun).waiting := by
    rw [hnumber, held_of_append, hthen]
    exact fun z hz => hnext z (List.mem_append_right _ hz)
  refine hmirrors.auth_left hcourse.numbered hy (by rw [hnow]; exact hsome) ?_
  rw [hnow]
  intro k hk
  have hlt : k.number < (Ledger.of (begun ++ w :: before)).accepted := by
    rw [← hthen] at hk
    exact (mirrors_of_course hbefore).records.balanced.lt_accepted (Ledger.mem_tickets_of_held hk)
  rw [(booked_of_course hbefore).accepted] at hlt
  exact decide_eq_false (Nat.not_le.mpr (Nat.lt_of_lt_of_le hlt (cleared_le hcourse hclears)))

/-- After everything was discarded only later session events stand in the queue, and the sends that
begin are of later ones; the request events that leave the line or stand in it are those that were
accepted since, all of them and in this order. A send that was under way gives nothing back to the
queue, however it ends. -/
theorem cleared_for_good {config : BatcherConfig} {sink : Sink} {hasWorkers : Bool}
    (h : workplace.Course (idle (new config sink hasWorkers)) (before ++ x :: after) s)
    (hclears : clears x.work x.result = true) :
    (s.state.auth = (Ledger.of (before ++ x :: after)).waiting.map Ticket.queued ∧
      ∀ k ∈ (Ledger.of (before ++ x :: after)).waiting, (tracked before).length ≤ k.number ∧
        (tracked (before ++ x :: after))[k.number]? = some k.event) ∧
      (∃ later, (dispatches (before ++ x :: after)).map (·.tickets) =
        (dispatches before).map (·.tickets) ++ later ∧
          ∀ ks ∈ later, ∀ k ∈ ks, (tracked before).length ≤ k.number) ∧
      accepted after = (exits after).flatMap Exit.events ++ s.state.requests ∧
      ∀ begun w rest meanwhile y later wait, before = begun ++ w :: rest →
        after = meanwhile ++ y :: later → w.result = .paused (.waits wait) →
        (flushes w.work && wait.isSink) = true → y.number = w.number →
        (∀ z ∈ rest ++ x :: meanwhile, z.number ≠ w.number) →
          y.left.auth = y.start.state.auth := by
  have hmirrors := mirrors_of_course h
  refine ⟨⟨hmirrors.records.auth, fun k hk => ⟨?_, ?_⟩⟩, later_dispatches h hclears, ?_, ?_⟩
  · have hcounted := hmirrors.records.balanced.counted k hk
    exact Nat.le_trans (cleared_le h hclears) (of_decide_eq_true hcounted)
  · exact (booked_of_course h).named k (.inl hk)
  · obtain ⟨t, hbefore, hx, hafter⟩ := h.split
    have hacts := acts_of_mem h
    have hempty : x.after.state.requests = [] := by
      rw [state_after hx]
      cases (hacts x (by simp)).flow with
      | empties _ _ hleft => exact hleft
      | keeps hkeeps => rw [hkeeps] at hclears; cases hclears
      | drains hdrains => rw [hdrains] at hclears; cases hclears
    have hstream := requests_append_accepted hafter fun z hz => hacts z (by simp [hz])
    rw [hempty, List.nil_append] at hstream
    exact hstream
  · rintro begun w rest meanwhile y later wait rfl rfl hw hsink hnumber hnext
    exact auth_left_of_cleared h hclears hw hsink hnumber hnext

/-- Everything is discarded while a send is under way, which fails afterwards. -/
def clearing : List (Instant × Move Call) :=
  [(⟨0⟩, .ask (.trackAuth (.auth "login" true ⟨0⟩))), (⟨0⟩, .ask .flushAuth),
    (⟨0⟩, .ask (.trackRequest (.request "GET" "/a" (some 200) Span.zero ⟨0⟩))), (⟨0⟩, .ask .clear),
    (⟨0⟩, .ask (.trackAuth (.auth "logout" true ⟨0⟩))), (⟨0⟩, .reply 1 refusing)]

/-- Of the two session events the first one is gone, and no request event is left. -/
theorem cleared_for_good_clearing : ∃ (before : List BatcherMoment) (x : BatcherMoment)
    (after : List BatcherMoment) (s : BatcherScene),
    workplace.Course (idle (new default (.service true) true)) (before ++ x :: after) s ∧
      clears x.work x.result = true ∧ (tracked before).length = 1 ∧
        s.state.auth = (Ledger.of (before ++ x :: after)).waiting.map Ticket.queued ∧
          accepted after = (exits after).flatMap Exit.events ++ s.state.requests ∧
            s.state.auth.length = 1 ∧ s.state.requests = [] := by
  have hpasses : workplace.passes (idle (new default (.service true) true)) clearing 3
      (fun before x _ s => clears x.work x.result && decide ((tracked before).length = 1 ∧
        s.state.auth.length = 1 ∧ s.state.requests = [])) = true := by
    decide +kernel
  obtain ⟨before, x, after, s, h, htest⟩ := exists_course hpasses
  rw [Bool.and_eq_true, decide_eq_true_eq] at htest
  obtain ⟨hclears, htracked, hauth, hrequests⟩ := htest
  obtain ⟨⟨hqueue, -⟩, -, hstream, -⟩ := cleared_for_good h hclears
  exact ⟨before, x, after, s, h, hclears, htracked, hqueue, hstream, hauth, hrequests⟩

end Batcher

end ClientSession
