import Mathlib.Data.List.Induction
import ClientSession.Proofs.Telemetry.Timers

/-!
# Deferred sends

A request event that finds no deferred send has one started, which sleeps until the distance to the
last send has been kept. Where timers follow the clock of the batcher, deferred sends keep this
distance, and none is missing while events stand in line.

- `Batcher.Runtime`: timers follow the clock, and run unless they have been taken back.
- `Batcher.Due`: a deferred send sleeps long enough.
- `Batcher.send_deferred`: what holds of deferred sends in every course of such a runtime.
-/

namespace ClientSession

namespace Batcher

open Workplace

variable {s t : BatcherScene} {ms : List BatcherMoment} {x : BatcherMoment}

/-! ## A runtime -/

/-- For how long the work sleeps after a moment. -/
def slept (x : BatcherMoment) : Span :=
  match x.result with
  | .paused (.waits (.sleep span)) => span
  | _ => Span.zero

def dropped (x : BatcherMoment) : Bool :=
  match x.result with
  | .paused .drops => true
  | _ => false

/-- Of two moments the clock reads no less at the second one, and if that is one of the same work,
the sleep at whose start the first one ended is over by then. -/
def Timely (x y : BatcherMoment) : Prop :=
  x.start.now ≤ y.start.now ∧ (y.number = x.number → dropped y = false →
    x.start.now.nanos + (slept x).nanos ≤ y.start.now.nanos)

instance (x y : BatcherMoment) : Decidable (Timely x y) :=
  inferInstanceAs (Decidable (_ ∧ (_ → _ → _)))

/-- Timers follow the clock of the batcher, and a deferred send is not dropped unless it has been
taken back. -/
structure Runtime (ms : List BatcherMoment) : Prop where
  timely : ms.Pairwise Timely
  keeps : ∀ x ∈ ms, cutsOff x = false

theorem Runtime.init {ms' : List BatcherMoment} (h : Runtime (ms ++ ms')) : Runtime ms where
  timely := (List.pairwise_append.mp h.timely).1
  keeps := fun y hy => h.keeps y (List.mem_append_left _ hy)

theorem Runtime.last (h : Runtime (ms ++ [x])) : ∀ y ∈ ms, Timely y x :=
  fun y hy => (List.pairwise_append.mp h.timely).2.2 y hy x (List.mem_singleton.mpr rfl)

/-! ## What does not change -/

theorem Acts.config (h : Acts x) : x.left.config = x.start.state.config ∧
    x.left.hasWorkers = x.start.state.hasWorkers := by
  cases h.turn <;> rename_i hline <;>
    exact ⟨congrArg (·.config) hline, congrArg (·.hasWorkers) hline⟩

theorem config_of_course {config : BatcherConfig} {sink : Sink} {hasWorkers : Bool}
    (h : workplace.Course (idle (new config sink hasWorkers)) ms s) :
    s.state.config = config ∧ s.state.hasWorkers = hasWorkers := by
  induction h with
  | nil => exact ⟨rfl, rfl⟩
  | @snoc ms t x ht hx ih =>
      obtain ⟨hconfig, hworkers⟩ := (acts_of_mem (ht.snoc hx) x (by simp)).config
      rw [hx.start_state] at hconfig hworkers
      rw [state_after hx]
      exact ⟨hconfig.trans ih.1, hworkers.trans ih.2⟩

/-! ## When a deferred send is due -/

/-- A deferred send that has not been taken back sleeps, or will, until the distance to the last
send has been kept, if there was one. -/
def Due (ms : List BatcherMoment) (s : BatcherScene) : Prop :=
  ∀ f ∈ s.flights, f.stopped = false → ∀ task wait, f.work = .job (.deferredSend task wait) →
    ∀ last, s.state.lastSend = some last → ∃ z ∈ ms,
      last.nanos + s.state.config.minSendInterval.nanos ≤ z.start.now.nanos + wait.nanos ∧
        (f.waiting.isSome = true → z.number = f.number ∧ slept z = wait)

theorem Due.step (h : Due ms s) (htimers : Timers s) (hruntime : Runtime (ms ++ [x]))
    (hcommands : s.state.commands = []) (hx : workplace.Step s x) (hacts : Acts x) :
    Due (ms ++ [x]) x.after := by
  intro g hg hgoes task wait hwork last hlast
  rw [← hx.start_state] at hcommands
  have hkept := htimers.current_after hcommands hx hacts g hg hgoes task wait hwork
  have hconfig : x.left.config = s.state.config := by
    rw [hacts.config.1, hx.start_state]
  rw [state_after hx] at hkept hlast ⊢
  rw [hconfig]
  -- No other deferred send is left by the moments that take one back.
  cases hacts.timing hcommands with
  | resets hleft hstarts hstops =>
      rw [hleft] at hkept
      cases hkept
  | fires task' span hself hends hcue hleft hstarts =>
      rw [hleft, if_pos (htimers.fired hx hself (by rw [hends]; exact nofun))] at hkept
      cases hkept
  | idles hpending hsame hends hstarts hstops =>
      have hbefore : s.state.lastSend = some last := by
        rw [← hx.start_state, ← hsame]
        exact hlast
      rcases deferred_cases hx hacts hg hwork with ⟨f, hf, hnumber, -, hfwork, hwaiting, hstopped⟩ |
        ⟨hnumber, hself, -, y, hresult, hwaiting⟩ | ⟨hstart, -⟩
      · obtain ⟨z, hz, hdue, hsleeps⟩ := h f hf (hstopped hgoes).1 task wait hfwork last hbefore
        rw [hwaiting, hnumber] at hsleeps
        exact ⟨z, List.mem_append_left _ hz, hdue, hsleeps⟩
      · -- It goes to sleep in this moment.
        have hpauses := hacts.pauses _ hresult
        rw [hself] at hpauses
        obtain ⟨hcue, -, hsleep⟩ := hpauses
        obtain ⟨f, hf, -, hfwork, hfstop, -⟩ :=
          hx.exists_begun (by rw [hself]; rfl) hcue (by rw [hresult]; exact nofun)
        obtain ⟨z, hz, hdue, -⟩ := h f hf hfstop task wait (hfwork.trans hself) last hbefore
        have hclock : z.start.now.nanos ≤ x.start.now.nanos := (hruntime.last z hz).1
        refine ⟨x, by simp, by omega, fun _ => ⟨hnumber.symm, ?_⟩⟩
        rw [slept, hresult, hsleep]
      · cases hstarts _ hstart
  | defers span hpending hwait hleft hsame hstarted =>
      have hnone : ∀ f ∈ s.flights, f.stopped = false →
          f.work ≠ .job (.deferredSend task wait) := by
        intro f hf hfstop hfwork
        have hcurrent := htimers.current f hf hfstop task wait hfwork
        rw [← hx.start_state, hpending] at hcurrent
        cases hcurrent
      rcases deferred_cases hx hacts hg hwork with ⟨f, hf, -, -, hfwork, -, hstopped⟩ |
        ⟨-, hself, -, y, hresult, -⟩ | ⟨hstart, hwaiting⟩
      · exact absurd hfwork (hnone f hf (hstopped hgoes).1)
      · obtain ⟨f, hf, -, hfwork, hfstop⟩ := hx.exists_flight (by rw [hself]; rfl)
        exact absurd (hfwork.trans hself) (hnone f hf (hfstop (by rw [hresult]; exact nofun)))
      · rw [hstarted] at hstart
        cases List.mem_singleton.mp hstart
        have hdistance := nanos_sendDelay hwait (hsame.symm.trans hlast)
        rw [hx.start_state] at hdistance
        refine ⟨x, by simp, by omega, fun hwaits => ?_⟩
        rw [hwaiting] at hwaits
        cases hwaits

theorem due_of_course {config : BatcherConfig} {sink : Sink} {hasWorkers : Bool}
    (h : workplace.Course (idle (new config sink hasWorkers)) ms s) (hruntime : Runtime ms) :
    Due ms s := by
  induction h with
  | nil => exact fun _ hf => nomatch hf
  | @snoc ms t x ht hx ih =>
      exact (ih hruntime.init).step (timers_of_course ht hruntime.init.keeps) hruntime
        (commands_of_course rfl ht) hx (acts_of_mem (ht.snoc hx) x (by simp))

/-! ## The last send -/

/-- Unless everything has been discarded since, a batch that was drained counts as the last send, or
a later one does. -/
theorem last_of_drained {config : BatcherConfig} {sink : Sink} {hasWorkers : Bool}
    {before after : List BatcherMoment} {y : BatcherMoment}
    (h : workplace.Course (idle (new config sink hasWorkers)) (before ++ y :: after) s)
    (hruntime : Runtime (before ++ y :: after)) (hy : (drained? y).isSome = true)
    (hafter : ∀ z ∈ after, clears z.work z.result = false) :
    ∃ last, s.state.lastSend = some last ∧ y.start.now ≤ last := by
  induction after using List.reverseRecOn generalizing s with
  | nil =>
      obtain ⟨t, -, hstep, rfl⟩ := h.last
      have hacts : Acts y := acts_of_mem h y (by simp)
      rw [state_after hstep]
      cases hacts.flow with
      | empties hclears haccepts hleft => simp [drained?, hclears] at hy
      | keeps hclears hdrained hleft hlast =>
          rw [hdrained] at hy
          cases hy
      | drains hclears hdrained hleft hlast =>
          refine ⟨y.start.now, ?_, Int.le_refl _⟩
          rw [hdrained, batch?] at hy
          rw [hlast]
          split at hy
          · cases hy
          · rename_i hsome
            rw [if_neg hsome]
  | append_singleton after z ih =>
      rw [← List.cons_append, ← List.append_assoc] at h hruntime
      obtain ⟨t, hinit, hstep, rfl⟩ := h.last
      have hacts : Acts z := acts_of_mem h z (by simp)
      obtain ⟨last, hlast, hle⟩ :=
        ih hinit hruntime.init fun w hw => hafter w (List.mem_append_left _ hw)
      rw [state_after hstep]
      rw [← hstep.start_state] at hlast
      cases hacts.flow with
      | empties hclears haccepts hleft =>
          rw [hafter z (by simp)] at hclears
          cases hclears
      | keeps hclears hdrained hleft hsame => exact ⟨last, hsame.trans hlast, hle⟩
      | drains hclears hdrained hleft hsame =>
          by_cases hempty : (gathered z).isEmpty = true
          · rw [if_pos hempty] at hsame
            exact ⟨last, hsame.trans hlast, hle⟩
          · rw [if_neg hempty] at hsame
            exact ⟨_, hsame, (hruntime.last y (by simp)).1⟩

/-- A deferred send that drains a batch has been asleep, unless it did not have to. -/
theorem Acts.fires (h : Acts x) {task : Nat} {wait : Span}
    (hwork : x.work = .job (.deferredSend task wait)) (hdrained : (drained? x).isSome = true) :
    x.result = .ended .leaves ∧ (x.start.cue = none → wait.isPositive = false) := by
  cases h.turn with
  | rests orders horders haccepts hclears hends hline =>
      have hleft : x.left.requests = gathered x := by
        rw [gathered_of_none haccepts]
        exact congrArg (·.requests) hline
      rw [drained?_of_kept hleft] at hdrained
      cases hdrained
  | arms haccepts hclears hcall hline => rw [hwork] at hcall; cases hcall
  | disarms haccepts hclears hcall hline => rw [hwork] at hcall; cases hcall
  | closes haccepts hclears hshuts hline => rw [hwork] at hshuts; cases hshuts
  | discards haccepts hclears hline => rw [hwork] at hclears; cases hclears
  | queues e haccepts hclears hpending hline => rw [hwork] at haccepts; cases haccepts
  | defers e span haccepts hclears hpending hworkers hwait hline =>
      rw [hwork] at haccepts
      cases haccepts
  | sends joining orders lasts haccepts hclears hcall hbegins hgoes horders hline =>
      rw [hwork] at hcall
      cases hcall
  | fires task' wait' haccepts hclears hself hends hcue hline =>
      rw [hwork] at hself
      cases hself
      exact ⟨hends, hcue⟩

/-- A deferred send drains a batch only when the distance to the last send has been kept. -/
theorem Due.spaced (h : Due ms s) (hruntime : Runtime (ms ++ [x])) (hx : workplace.Step s x)
    (hacts : Acts x) (hdeferred : isDeferred x.work = true)
    (hdrained : (drained? x).isSome = true) {last : Instant}
    (hlast : s.state.lastSend = some last) :
    last.nanos + s.state.config.minSendInterval.nanos ≤ x.start.now.nanos := by
  obtain ⟨task, wait, hwork⟩ : ∃ task wait, x.work = .job (.deferredSend task wait) := by
    cases hwork : x.work with
    | call k => rw [hwork] at hdeferred; cases hdeferred
    | job j => cases j <;> first | exact ⟨_, _, rfl⟩ | (rw [hwork] at hdeferred; cases hdeferred)
  obtain ⟨hends, hbegins⟩ := hacts.fires hwork hdrained
  cases hcue : x.start.cue with
  | none =>
      obtain ⟨f, hf, -, hfwork, hfstop, -⟩ :=
        hx.exists_begun (by rw [hwork]; rfl) hcue (by rw [hends]; exact nofun)
      obtain ⟨z, hz, hdue, -⟩ := h f hf hfstop task wait (hfwork.trans hwork) last hlast
      have hclock : z.start.now.nanos ≤ x.start.now.nanos := (hruntime.last z hz).1
      have hwait : ¬0 < wait.nanos := of_decide_eq_false (hbegins hcue)
      omega
  | some q =>
      obtain ⟨f, hf, hnumber, hfwork, hfstop, y, hy, -⟩ := hx.exists_resumed hcue
      obtain ⟨z, hz, hdue, hsleeps⟩ := h f hf hfstop task wait (hfwork.trans hwork) last hlast
      obtain ⟨hsame, hslept⟩ := hsleeps (by rw [hy]; rfl)
      have hover := (hruntime.last z hz).2 (hnumber.symm.trans hsame.symm)
        (by rw [dropped, hends])
      rw [hslept] at hover
      omega

/-! ## No send is missing -/

/-- While events stand in line a deferred send is kept, unless the moment shuts the batcher down or
leaves all as it was. -/
theorem Acts.wakes (h : Acts x) (hworkers : x.start.state.hasWorkers = true) :
    x.left.requests = [] ∨ shuts x.work x.result = true ∨ x.left.pendingSend.isSome = true ∨
      accepted? x = none ∧ x.left.requests = x.start.state.requests ∧
        x.left.pendingSend = x.start.state.pendingSend := by
  cases h.turn with
  | rests orders horders haccepts hclears hends hline =>
      exact .inr (.inr (.inr ⟨haccepts, congrArg (·.requests) hline,
        congrArg (·.pendingSend) hline⟩))
  | arms haccepts hclears hcall hline =>
      exact .inr (.inr (.inr ⟨haccepts, congrArg (·.requests) hline,
        congrArg (·.pendingSend) hline⟩))
  | disarms haccepts hclears hcall hline =>
      exact .inr (.inr (.inr ⟨haccepts, congrArg (·.requests) hline,
        congrArg (·.pendingSend) hline⟩))
  | closes haccepts hclears hshuts hline => exact .inr (.inl hshuts)
  | discards haccepts hclears hline => exact .inl (congrArg (·.requests) hline)
  | queues e haccepts hclears hpending hline =>
      have hsame : x.left.pendingSend = x.start.state.pendingSend := congrArg (·.pendingSend) hline
      rw [hworkers] at hpending
      exact .inr (.inr (.inl (by rw [hsame]; exact hpending.resolve_right Bool.noConfusion)))
  | defers e wait haccepts hclears hpending hworkers hwait hline =>
      have hsame : x.left.pendingSend = some x.start.state.nextTask :=
        congrArg (·.pendingSend) hline
      exact .inr (.inr (.inl (by rw [hsame]; rfl)))
  | sends joining orders lasts haccepts hclears hcall hbegins hgoes horders hline =>
      exact .inl (congrArg (·.requests) hline)
  | fires task wait haccepts hclears hwork hends hcue hline =>
      exact .inl (congrArg (·.requests) hline)

/-- The batcher has been shut down, and no request event was accepted since. -/
def ShutDown (ms : List BatcherMoment) : Prop :=
  ∃ before x after, ms = before ++ x :: after ∧ shuts x.work x.result = true ∧
    ∀ y ∈ after, accepted? y = none

theorem pending_or_shutDown {config : BatcherConfig} {sink : Sink}
    (h : workplace.Course (idle (new config sink true)) ms s) (hs : s.state.requests ≠ []) :
    s.state.pendingSend.isSome = true ∨ ShutDown ms := by
  induction h with
  | nil => exact absurd rfl hs
  | @snoc ms t x ht hx ih =>
      have hacts : Acts x := acts_of_mem (ht.snoc hx) x (by simp)
      have hworkers : x.start.state.hasWorkers = true := by
        rw [hx.start_state]
        exact (config_of_course ht).2
      rw [state_after hx] at hs ⊢
      rcases hacts.wakes hworkers with hempty | hshuts | hpending | ⟨haccepts, hsame, hpending⟩
      · exact absurd hempty hs
      · exact .inr ⟨ms, x, [], rfl, hshuts, by simp⟩
      · exact .inl hpending
      · rw [hsame, hx.start_state] at hs
        rw [hpending, hx.start_state]
        refine (ih hs).imp_right ?_
        rintro ⟨before, y, after, rfl, hshuts, hafter⟩
        refine ⟨before, y, after ++ [x], by simp, hshuts, fun z hz => ?_⟩
        rcases List.mem_append.mp hz with hz | hz
        · exact hafter z hz
        · obtain rfl := List.mem_singleton.mp hz
          exact haccepts

/-- Where timers follow the clock there is one deferred send at most that has not been taken back. A
deferred send that drains a batch keeps its distance to every batch drained before, if nothing was
discarded in between. While request events stand in line there is a deferred send, unless the
batcher was shut down after the last one of them had been accepted. -/
theorem send_deferred {config : BatcherConfig} {sink : Sink}
    (h : workplace.Course (idle (new config sink true)) ms s) (hruntime : Runtime ms) :
    s.flights.countP isPending ≤ 1 ∧
      (∀ before y between x after, ms = before ++ y :: between ++ x :: after →
        (drained? y).isSome = true → (∀ z ∈ between, clears z.work z.result = false) →
          isDeferred x.work = true → (drained? x).isSome = true →
            y.start.now.nanos + config.minSendInterval.nanos ≤ x.start.now.nanos) ∧
      (s.state.requests ≠ [] → (∃ f ∈ s.flights, isPending f = true) ∨ ShutDown ms) := by
  have htimers := timers_of_course h hruntime.keeps
  refine ⟨htimers.countP_isPending_le, ?_, fun hs => ?_⟩
  · rintro before y between x after rfl hy hbetween hdeferred hdrained
    obtain ⟨t, hbefore, hx, -⟩ := h.split
    have hprefix : Runtime ((before ++ y :: between) ++ [x]) := by
      rw [List.append_cons] at hruntime
      exact hruntime.init
    obtain ⟨last, hlast, hle⟩ := last_of_drained hbefore hprefix.init hy hbetween
    have hspaced := (due_of_course hbefore hprefix.init).spaced hprefix hx
      (acts_of_mem h x (by simp)) hdeferred hdrained hlast
    rw [(config_of_course hbefore).1] at hspaced
    exact Int.le_trans (Int.add_le_add_right hle _) hspaced
  · refine (pending_or_shutDown h hs).imp_left fun hpending => ?_
    obtain ⟨n, hn⟩ := Option.isSome_iff_exists.mp hpending
    obtain ⟨f, hf, hgoes, wait, hwork⟩ := htimers.present n hn
    exact ⟨f, hf, isPending_iff.mpr ⟨hgoes, n, wait, hwork⟩⟩

/-- The first event is sent at once, the second one when half a minute has passed since then. -/
def deferring : List (Instant × Move Call) :=
  let event (path : String) : Event := .request "GET" path (some 200) Span.zero ⟨0⟩
  [(⟨0⟩, .ask (.trackRequest (event "/a"))), (⟨0⟩, .begin 1),
    (⟨1000000000⟩, .ask (.trackRequest (event "/b"))), (⟨2000000000⟩, .begin 4),
    (⟨31000000000⟩, .reply 4 (Wait.answer (.error ⟨false, ""⟩) (.error .loginRequired)))]

/-- The second send comes half a minute after the first one at the earliest. -/
theorem send_deferred_deferring : ∃ (before : List BatcherMoment) (y : BatcherMoment)
    (between : List BatcherMoment) (x : BatcherMoment) (s : BatcherScene),
    workplace.Course (idle (new default (.service true) true)) (before ++ y :: between ++ [x]) s ∧
      Runtime (before ++ y :: between ++ [x]) ∧ (drained? y).isSome = true ∧
        isDeferred x.work = true ∧ (drained? x).isSome = true ∧
          y.start.now.nanos + 30000000000 ≤ x.start.now.nanos ∧
            s.flights.countP isPending ≤ 1 := by
  have hpasses : workplace.passes (idle (new default (.service true) true)) deferring 1
      (fun before y after _ => decide ((before ++ y :: after).Pairwise Timely) &&
        (before ++ y :: after).all (fun z => !cutsOff z) && (drained? y).isSome &&
        after.dropLast.all (fun z => !clears z.work z.result) &&
        after.getLast?.any fun x => isDeferred x.work && (drained? x).isSome) = true := by
    decide +kernel
  obtain ⟨before, y, after, s, h, htest⟩ := exists_course hpasses
  simp only [Bool.and_eq_true, decide_eq_true_eq, List.all_eq_true, Bool.not_eq_true',
    Option.any_eq_true] at htest
  obtain ⟨⟨⟨⟨htimely, hkeeps⟩, hy⟩, hbetween⟩, x, hx, hdeferred, hdrained⟩ := htest
  obtain ⟨between, rfl⟩ := List.getLast?_eq_some_iff.mp hx
  rw [List.dropLast_concat] at hbetween
  have hruntime : Runtime (before ++ y :: between ++ [x]) := by
    rw [List.append_assoc]
    exact ⟨htimely, hkeeps⟩
  rw [← List.cons_append, ← List.append_assoc] at h
  obtain ⟨hone, hspaced, -⟩ := send_deferred h hruntime
  have hdistance := hspaced before y between x [] rfl hy hbetween hdeferred hdrained
  exact ⟨before, y, between, x, s, h, hruntime, hy, hdeferred, hdrained, hdistance, hone⟩

end Batcher

end ClientSession
