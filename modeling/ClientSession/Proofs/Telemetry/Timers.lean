import Mathlib.Data.List.Nodup
import ClientSession.Proofs.Telemetry.Stream

/-!
# The timers of a batcher

A batcher has two timers, each under a name of its own: the one of the periodic flush, and the one
of the deferred send of request events. It keeps the names of both, and a timer whose name it gives
up is stopped.

- `Batcher.Timing`, `Batcher.Naming`: what a moment does to the timers.
- `Batcher.Timers`: the deferred send that has not been taken back is the one whose name is kept.
- `Batcher.Timers.step`: so it is after each moment, if no such send is cut off.
- `Batcher.Timers.countP_isPending_le`: there is one at most.
-/

namespace ClientSession

namespace Batcher

open Workplace

variable {s : BatcherScene} {ms : List BatcherMoment} {x : BatcherMoment}

/-- The name of the timer of a flight. -/
def name? (f : Flight Batcher Call Answer BatchJob) : Option Nat :=
  match f.work with
  | .call _ => none
  | .job j => task? j

def names (s : BatcherScene) : List Nat := s.flights.filterMap name?

/-- The flight is a deferred send that has not been taken back. -/
def isPending (f : Flight Batcher Call Answer BatchJob) : Bool := !f.stopped && isDeferred f.work

/-- A deferred send is dropped that has not been taken back. -/
def cutsOff (x : BatcherMoment) : Bool :=
  match x.result, x.work with
  | .paused .drops, .job (.deferredSend task _) => x.start.state.pendingSend = some task
  | _, _ => false

/-! ## What a moment does to the timers -/

/-- What a moment does to the deferred send. -/
inductive Timing (x : BatcherMoment) : Prop where
  | idles (hpending : x.left.pendingSend = x.start.state.pendingSend)
      (hlast : x.left.lastSend = x.start.state.lastSend)
      (hends : ∀ e, x.result = .ended e → isDeferred x.work = false)
      (hstarts : ∀ j, .start j ∈ x.left.commands → isDeferred (.job j) = false)
      (hstops : ∀ n, .stop n ∈ x.left.commands → x.start.state.flushTask = some n)
  | defers (wait : Span) (hpending : x.start.state.pendingSend = none)
      (hwait : x.start.state.sendDelay x.start.now = .ok wait)
      (hleft : x.left.pendingSend = some x.start.state.nextTask)
      (hlast : x.left.lastSend = x.start.state.lastSend)
      (hcommands : x.left.commands = [.start (.deferredSend x.start.state.nextTask wait)])
  /-- The deferred send is taken back. -/
  | resets (hleft : x.left.pendingSend = none)
      (hstarts : ∀ j, .start j ∈ x.left.commands → isDeferred (.job j) = false)
      (hstops : ∀ n, x.start.state.pendingSend = some n → .stop n ∈ x.left.commands)
  | fires (task : Nat) (wait : Span) (hwork : x.work = .job (.deferredSend task wait))
      (hends : x.result = .ended .leaves) (hcue : x.start.cue = none → wait.isPositive = false)
      (hleft : x.left.pendingSend =
        if x.start.state.pendingSend = some task then none else x.start.state.pendingSend)
      (hstarts : ∀ j, .start j ∈ x.left.commands → isDeferred (.job j) = false)

/-- Which names a moment gives and keeps. -/
inductive Naming (x : BatcherMoment) : Prop where
  | none (hnames : (workplace.started x.left).filterMap task? = [])
      (hnext : x.left.nextTask = x.start.state.nextTask)
      (hflush : x.left.flushTask = x.start.state.flushTask ∨ x.left.flushTask = .none)
  | periodic (hstarted : workplace.started x.left = [.periodicFlush x.start.state.nextTask])
      (hnext : x.left.nextTask = x.start.state.nextTask + 1)
      (hflush : x.left.flushTask = some x.start.state.nextTask)
  | deferred (wait : Span)
      (hstarted : workplace.started x.left = [.deferredSend x.start.state.nextTask wait])
      (hnext : x.left.nextTask = x.start.state.nextTask + 1)
      (hflush : x.left.flushTask = x.start.state.flushTask)

theorem mem_halting {task : Option Nat} {o : Command BatchJob Nat} :
    o ∈ halting task ↔ ∃ n, task = some n ∧ o = .stop n := by
  cases task <;> simp [halting]

theorem mem_delivering {l : Line} {now : Instant} {serial : Nat} {o : Command BatchJob Nat}
    (h : o ∈ l.delivering now serial) : ∃ batch, o = .start (.deliver batch) := by
  unfold Line.delivering at h
  split at h
  · cases h
  · split at h
    · exact ⟨_, List.mem_singleton.mp h⟩
    · cases h

/-- No order starts a deferred send. -/
def Starts (orders : List (Command BatchJob Nat)) : Prop :=
  ∀ j, .start j ∈ orders → isDeferred (.job j) = false

theorem starts_halting (task : Option Nat) : Starts (halting task) := by
  intro j hj
  obtain ⟨n, -, hstop⟩ := mem_halting.mp hj
  cases hstop

theorem starts_delivering (l : Line) (now : Instant) (serial : Nat) :
    Starts (l.delivering now serial) := by
  intro j hj
  obtain ⟨batch, hstart⟩ := mem_delivering hj
  cases hstart
  rfl

theorem Starts.append {orders orders' : List (Command BatchJob Nat)} (h : Starts orders)
    (h' : Starts orders') : Starts (orders ++ orders') := by
  intro j hj
  rcases List.mem_append.mp hj with hj | hj
  · exact h j hj
  · exact h' j hj

theorem stop_mem_halting {task : Option Nat} {n : Nat} :
    .stop n ∈ halting task ↔ task = some n := by
  simp [mem_halting]

/-- A caller that has the line drained starts deliveries and last requests only, which have no
names. -/
theorem unnamed_of_sends {work : Work Call BatchJob} {orders : List (Command BatchJob Nat)}
    {lasts : List (Instant × Batch)} {sent : List Batch} {l : Line} {now : Instant} {serial : Nat}
    (h : if handsOver work then (∀ o ∈ orders, ∃ r, o = .start (.farewell r)) ∧
        (lasts.map (·.2)).Sublist sent
      else orders = l.delivering now serial ∧ lasts = [])
    {o : Command BatchJob Nat} (ho : o ∈ orders) :
    ∃ j, o = .start j ∧ task? j = none ∧ isDeferred (.job j) = false := by
  split at h
  · obtain ⟨r, rfl⟩ := h.1 o ho
    exact ⟨_, rfl, rfl, rfl⟩
  · rw [h.1] at ho
    obtain ⟨batch, rfl⟩ := mem_delivering ho
    exact ⟨_, rfl, rfl, rfl⟩

theorem Acts.timing (h : Acts x) (hcommands : x.start.state.commands = []) : Timing x := by
  have hbefore : x.start.state.line.commands = [] := hcommands
  have hordered (l : Line) (hline : x.left.line = l) : x.left.commands = l.commands :=
    congrArg (·.commands) hline
  have hended (hcall : x.work.isCall = true) : isDeferred x.work = false := by
    cases hwork : x.work with
    | call k => rfl
    | job j =>
        rw [hwork] at hcall
        cases hcall
  cases h.turn with
  | rests orders horders haccepts hclears hends hline =>
      have hleft : x.left.commands = orders := by simp [hordered _ hline, Line.order, hbefore]
      refine .idles (congrArg (·.pendingSend) hline) (congrArg (·.lastSend) hline) hends ?_ ?_
      · intro j hj
        rw [hleft] at hj
        cases horders _ hj
        rfl
      · intro n hn
        rw [hleft] at hn
        cases horders _ hn
  | arms haccepts hclears hcall hline =>
      have hleft : x.left.commands =
          .start (.periodicFlush x.start.state.nextTask) :: halting x.start.state.flushTask := by
        simp [hordered _ hline, Line.order, hbefore]
      refine .idles (congrArg (·.pendingSend) hline) (congrArg (·.lastSend) hline)
        (fun _ _ => hended hcall) ?_ ?_
      · intro j hj
        rw [hleft] at hj
        rcases List.mem_cons.mp hj with hj | hj
        · cases hj
          rfl
        · exact starts_halting _ j hj
      · intro n hn
        rw [hleft] at hn
        rcases List.mem_cons.mp hn with hn | hn
        · cases hn
        · exact stop_mem_halting.mp hn
  | disarms haccepts hclears hcall hline =>
      have hleft : x.left.commands = halting x.start.state.flushTask := by
        simp [hordered _ hline, Line.order, hbefore]
      refine .idles (congrArg (·.pendingSend) hline) (congrArg (·.lastSend) hline)
        (fun _ _ => hended hcall) ?_ ?_
      · rw [hleft]
        exact starts_halting _
      · intro n hn
        rw [hleft] at hn
        exact stop_mem_halting.mp hn
  | closes haccepts hclears hshuts hline =>
      have hleft : x.left.commands =
          halting x.start.state.flushTask ++ halting x.start.state.pendingSend := by
        rw [hordered _ hline, Line.cancelled, Line.order, Line.order, hbefore]
        rfl
      refine .resets (congrArg (·.pendingSend) hline) ?_ ?_
      · rw [hleft]
        exact (starts_halting _).append (starts_halting _)
      · intro n hn
        rw [hleft]
        exact List.mem_append_right _ (stop_mem_halting.mpr hn)
  | discards haccepts hclears hline =>
      have hleft : x.left.commands = halting x.start.state.pendingSend := by
        rw [hordered _ hline, Line.cancelled, Line.order, hbefore]
        rfl
      refine .resets (congrArg (·.pendingSend) hline) ?_ ?_
      · rw [hleft]
        exact starts_halting _
      · intro n hn
        rw [hleft]
        exact stop_mem_halting.mpr hn
  | queues e haccepts hclears hpending hline =>
      have hleft : x.left.commands = [] := (hordered _ hline).trans hbefore
      refine .idles (congrArg (·.pendingSend) hline) (congrArg (·.lastSend) hline) ?_ ?_ ?_
      · intro e he
        cases hwork : x.work with
        | call k => rfl
        | job j =>
            rw [hwork] at haccepts
            cases haccepts
      · intro j hj
        rw [hleft] at hj
        cases hj
      · intro n hn
        rw [hleft] at hn
        cases hn
  | defers e wait haccepts hclears hpending hworkers hwait hline =>
      refine .defers wait hpending hwait (congrArg (·.pendingSend) hline)
        (congrArg (·.lastSend) hline) ?_
      rw [hordered _ hline, Line.deferred, Line.order, Line.join, hbefore]
      rfl
  | sends joining orders lasts haccepts hclears hcall hbegins hgoes horders hline =>
      have hleft : x.left.commands = halting x.start.state.pendingSend ++ orders := by
        simp [hordered _ hline, Line.order, Line.drained, Line.cancelled, Line.join, hcommands,
          line]
      have hstarts : Starts orders := by
        intro j hj
        obtain ⟨k, hstart, -, hother⟩ := unnamed_of_sends horders hj
        cases hstart
        exact hother
      refine .resets (congrArg (·.pendingSend) hline) ?_ ?_
      · rw [hleft]
        exact (starts_halting _).append hstarts
      · intro n hn
        rw [hleft]
        exact List.mem_append_left _ (stop_mem_halting.mpr hn)
  | fires task wait haccepts hclears hwork hends hcue hline =>
      have hleft : x.left.commands =
          x.start.state.line.delivering x.start.now x.start.state.serial := by
        simp [hordered _ hline, Line.order, Line.drained, hbefore]
      refine .fires task wait hwork hends hcue (congrArg (·.pendingSend) hline) ?_
      rw [hleft]
      exact starts_delivering _ _ _

@[simp] theorem start?_halting (task : Option Nat) :
    (halting task).filterMap Command.start? = [] := by
  cases task <;> rfl

/-- What carries no name. -/
theorem names_of_unnamed {orders : List (Command BatchJob Nat)}
    (h : ∀ o ∈ orders, ∀ j, o = .start j → task? j = none) :
    (orders.filterMap Command.start?).filterMap task? = [] := by
  simp only [List.filterMap_filterMap, List.filterMap_eq_nil_iff]
  intro o ho
  cases o with
  | start j => exact h _ ho j rfl
  | stop n => rfl

theorem Acts.naming (h : Acts x) (hcommands : x.start.state.commands = []) : Naming x := by
  have hbefore : x.start.state.line.commands = [] := hcommands
  have hstarted (l : Line) (hline : x.left.line = l) :
      workplace.started x.left = l.commands.filterMap Command.start? :=
    congrArg (fun l => l.commands.filterMap Command.start?) hline
  cases h.turn with
  | rests orders horders haccepts hclears hends hline =>
      refine .none ?_ (congrArg (·.nextTask) hline) (.inl (congrArg (·.flushTask) hline))
      rw [hstarted _ hline, Line.order, hbefore, List.nil_append]
      refine names_of_unnamed fun o ho j hj => ?_
      rw [horders o ho] at hj
      cases hj
      rfl
  | arms haccepts hclears hcall hline =>
      refine .periodic ?_ (congrArg (·.nextTask) hline) (congrArg (·.flushTask) hline)
      rw [hstarted _ hline, Line.order, hbefore]
      simp [Command.start?]
  | disarms haccepts hclears hcall hline =>
      refine .none ?_ (congrArg (·.nextTask) hline) (.inr (congrArg (·.flushTask) hline))
      simp [hstarted _ hline, Line.order, hbefore]
  | closes haccepts hclears hshuts hline =>
      refine .none ?_ (congrArg (·.nextTask) hline) (.inr (congrArg (·.flushTask) hline))
      simp [hstarted _ hline, Line.cancelled, Line.order, hbefore]
  | discards haccepts hclears hline =>
      refine .none ?_ (congrArg (·.nextTask) hline) (.inl (congrArg (·.flushTask) hline))
      simp [hstarted _ hline, Line.cancelled, Line.order, hbefore]
  | queues e haccepts hclears hpending hline =>
      refine .none ?_ (congrArg (·.nextTask) hline) (.inl (congrArg (·.flushTask) hline))
      simp [hstarted _ hline, Line.join, hbefore]
  | defers e wait haccepts hclears hpending hworkers hwait hline =>
      refine .deferred wait ?_ (congrArg (·.nextTask) hline) (congrArg (·.flushTask) hline)
      rw [hstarted _ hline, Line.deferred, Line.order, Line.join, hbefore]
      rfl
  | sends joining orders lasts haccepts hclears hcall hbegins hgoes horders hline =>
      refine .none ?_ (congrArg (·.nextTask) hline) (.inl (congrArg (·.flushTask) hline))
      have hunnamed : (orders.filterMap Command.start?).filterMap task? = [] := by
        refine names_of_unnamed fun o ho j hj => ?_
        obtain ⟨k, hstart, hnone, -⟩ := unnamed_of_sends horders ho
        rw [hj] at hstart
        cases hstart
        exact hnone
      simpa [hstarted _ hline, Line.order, Line.drained, Line.cancelled, Line.join, hbefore]
        using hunnamed
  | fires task wait haccepts hclears hwork hends hcue hline =>
      refine .none ?_ (congrArg (·.nextTask) hline) (.inl (congrArg (·.flushTask) hline))
      rw [hstarted _ hline, Line.order, Line.drained, hbefore, List.nil_append]
      refine names_of_unnamed fun o ho j hj => ?_
      subst hj
      obtain ⟨batch, hstart⟩ := mem_delivering ho
      cases hstart
      rfl

/-! ## What is in flight -/

/-- The names of timers are different, and the deferred send that has not been taken back is the one
whose name is kept. -/
structure Timers (s : BatcherScene) : Prop where
  apart : (names s).Nodup
  below : ∀ n ∈ names s, n < s.state.nextTask
  /-- The name of the periodic flush is no name of a deferred send. -/
  periodic : ∀ n, s.state.flushTask = some n → n < s.state.nextTask ∧
    ∀ f ∈ s.flights, ∀ wait, f.work ≠ .job (.deferredSend n wait)
  current : ∀ f ∈ s.flights, f.stopped = false → ∀ task wait,
    f.work = .job (.deferredSend task wait) → s.state.pendingSend = some task
  present : ∀ n, s.state.pendingSend = some n → ∃ f ∈ s.flights, f.stopped = false ∧
    ∃ wait, f.work = .job (.deferredSend n wait)

theorem timers_idle (config : BatcherConfig) (sink : Sink) (hasWorkers : Bool) :
    Timers (idle (new config sink hasWorkers)) where
  apart := List.nodup_nil
  below := fun _ h => nomatch h
  periodic := fun _ h => nomatch h
  current := fun _ h => nomatch h
  present := fun _ h => nomatch h

section Step

variable {own : List (Flight Batcher Call Answer BatchJob)} {base : BatcherScene}

/-- What a moment leaves of its own flight was in flight before it, with the same work, as far as it
has a name. -/
theorem own_cases (hx : workplace.Step s x) (hacts : Acts x) (hleaves : x.Leaves own) :
    own = [] ∨ ∃ g, own = [g] ∧ (name? g = none ∨
      ∃ f ∈ s.flights, f.number = x.number ∧ f.work = g.work ∧ f.stopped = false) := by
  have hflight (hcall : x.work.isCall = false) (hgoes : x.result ≠ .paused .drops) :
      ∃ f ∈ s.flights, f.number = x.number ∧ f.work = x.work ∧ f.stopped = false := by
    obtain ⟨f, hf, hnumber, hwork, hstop⟩ := hx.exists_flight hcall
    exact ⟨f, hf, hnumber, hwork, hstop hgoes⟩
  unfold Moment.Leaves at hleaves
  split at hleaves
  · rename_i j hresult
    obtain ⟨task, hwork, rfl⟩ := hacts.again j hresult
    obtain ⟨f, hf, hnumber, hsame, hstop⟩ :=
      hflight (by rw [hwork]; rfl) (by rw [hresult]; exact nofun)
    exact .inr ⟨_, hleaves, .inr ⟨f, hf, hnumber, hsame.trans hwork, hstop⟩⟩
  · rename_i w hresult
    obtain ⟨y, -, hown⟩ := hleaves
    refine .inr ⟨_, hown, ?_⟩
    cases hwork : x.work with
    | call k => exact .inl rfl
    | job j =>
        obtain ⟨f, hf, hnumber, hsame, hstop⟩ :=
          hflight (by rw [hwork]; rfl) (by rw [hresult]; exact nofun)
        exact .inr ⟨f, hf, hnumber, hsame.trans hwork, hstop⟩
  · exact .inl hleaves

/-- No name is given twice by what goes on. -/
theorem count_names_base (hx : workplace.Step s x) (hacts : Acts x) (hleaves : x.Leaves own)
    (hbase : Exchanged s x.number own base) (n : Nat) :
    (names base).count n ≤ (names s).count n := by
  have hland : (names (land s x.number)).Sublist (names s) := List.filter_sublist.filterMap _
  have hrest := hland.count_le n
  have hnames : names base = names (land s x.number) ++ own.filterMap name? := by
    rw [names, hbase.flights, List.filterMap_append]
    rfl
  rw [hnames, List.count_append]
  rcases own_cases hx hacts hleaves with rfl | ⟨g, rfl, hnone | ⟨f, hf, hnumber, hwork, -⟩⟩
  · exact hrest
  · simpa [hnone] using hrest
  · have hsame : name? f = name? g := by rw [name?, name?, hwork]
    cases hg : name? g with
    | none => simpa [hg] using hrest
    | some m =>
        rw [hg] at hsame
        by_cases hm : m = n
        · subst hm
          have hlanded : (names (land s f.number)).count m + 1 ≤ (names s).count m :=
            count_landed hf hsame
          rw [hnumber] at hlanded
          simpa [hg] using hlanded
        · simpa [hg, List.count_singleton, hm] using hrest

end Step

/-- Two flights of one name are one. -/
theorem Timers.eq_of_name (h : Timers s) {f g : Flight Batcher Call Answer BatchJob} {n : Nat}
    (hf : f ∈ s.flights) (hg : g ∈ s.flights) (hfn : name? f = some n) (hgn : name? g = some n) :
    f.number = g.number := by
  refine Decidable.byContradiction fun hne => ?_
  -- Once one of them has landed the name stands on the other one still.
  have hland : g ∈ (land s f.number).flights :=
    List.mem_filter.mpr ⟨hg, decide_eq_true fun heq => hne heq.symm⟩
  have hmem : n ∈ names (land s f.number) := List.mem_filterMap.mpr ⟨g, hland, hgn⟩
  have hcount : (names (land s f.number)).count n + 1 ≤ (names s).count n := count_landed hf hfn
  have hone := List.nodup_iff_count_le_one.mp h.apart n
  have hpositive := List.count_pos_iff.mpr hmem
  omega

section Step

variable {own : List (Flight Batcher Call Answer BatchJob)} {base : BatcherScene}

theorem names_after (hafter : x.after = workplace.heed base x.left) :
    names x.after = names base ++ (workplace.started x.left).filterMap task? := by
  rw [names, hafter, filterMap_heed (p := task?)]
  · rfl
  · intro name f
    obtain ⟨-, hwork, -, -⟩ := halt_same (W := workplace) name f
    rw [name?, name?, hwork]
  · exact fun _ _ => rfl

theorem mem_names {n : Nat} {f : Flight Batcher Call Answer BatchJob} (hf : f ∈ s.flights)
    {wait : Span} (hwork : f.work = .job (.deferredSend n wait)) : n ∈ names s :=
  List.mem_filterMap.mpr ⟨f, hf, by rw [name?, hwork]; rfl⟩

/-- New names are given in turn, so that no two timers get one. -/
theorem Timers.apart_after (h : Timers s) (hcommands : x.start.state.commands = [])
    (hx : workplace.Step s x) (hacts : Acts x) :
    (names x.after).Nodup ∧ ∀ n ∈ names x.after, n < x.after.state.nextTask := by
  obtain ⟨own, base, hleaves, hbase, hafter⟩ := exists_aftermath hx hacts
  have hbelow (n : Nat) (hn : n ∈ names base) : n < x.start.state.nextTask := by
    rw [hx.start_state]
    refine h.below n (List.count_pos_iff.mp ?_)
    have hcount := count_names_base hx hacts hleaves hbase n
    have hpositive := List.count_pos_iff.mpr hn
    omega
  have hnodup : (names base).Nodup := by
    refine List.nodup_iff_count_le_one.mpr fun n => ?_
    have hone := List.nodup_iff_count_le_one.mp h.apart n
    exact Nat.le_trans (count_names_base hx hacts hleaves hbase n) hone
  have hnew (hstarted : (workplace.started x.left).filterMap task? = [x.start.state.nextTask])
      (hnext : x.left.nextTask = x.start.state.nextTask + 1) :
      (names x.after).Nodup ∧ ∀ n ∈ names x.after, n < x.after.state.nextTask := by
    rw [names_after hafter, hstarted, state_after hx, hnext]
    refine ⟨List.nodup_append.mpr ⟨hnodup, List.nodup_singleton _, ?_⟩, ?_⟩
    · intro n hn m hm
      obtain rfl := List.mem_singleton.mp hm
      exact Nat.ne_of_lt (hbelow n hn)
    · intro n hn
      rcases List.mem_append.mp hn with hn | hn
      · exact Nat.lt_succ_of_lt (hbelow n hn)
      · obtain rfl := List.mem_singleton.mp hn
        exact Nat.lt_succ_self _
  cases hacts.naming hcommands with
  | none hnames hnext hflush =>
      rw [names_after hafter, hnames, List.append_nil, state_after hx, hnext]
      exact ⟨hnodup, hbelow⟩
  | periodic hstarted hnext hflush => exact hnew (by rw [hstarted]; rfl) hnext
  | deferred wait hstarted hnext hflush => exact hnew (by rw [hstarted]; rfl) hnext

/-- A deferred send after a moment is one from before it, or the moment is a stretch of it that has
come to wait, or the moment has started it. -/
theorem deferred_cases (hx : workplace.Step s x) (hacts : Acts x)
    {g : Flight Batcher Call Answer BatchJob} (hg : g ∈ x.after.flights) {task : Nat} {wait : Span}
    (hwork : g.work = .job (.deferredSend task wait)) :
    (∃ f ∈ s.flights, f.number = g.number ∧ f.number ≠ x.number ∧
      f.work = .job (.deferredSend task wait) ∧ f.waiting = g.waiting ∧
        (g.stopped = false → f.stopped = false ∧ .stop task ∉ x.left.commands)) ∨
      (g.number = x.number ∧ x.work = .job (.deferredSend task wait) ∧
        (g.stopped = false → .stop task ∉ x.left.commands) ∧
          ∃ y, x.result = .paused (.waits y.wait) ∧ g.waiting = some y) ∨
      .start (.deferredSend task wait) ∈ x.left.commands ∧ g.waiting = none := by
  obtain ⟨own, base, hleaves, hbase, hafter⟩ := exists_aftermath hx hacts
  rw [hafter] at hg
  rcases mem_heed hg with ⟨f, hf, hnumber, hsame, hwaiting, hstopped⟩ | ⟨j, hj, hsame, hwaiting⟩
  · rw [hwork] at hsame
    have hspared (hgoes : g.stopped = false) : .stop task ∉ x.left.commands := by
      intro hmem
      have hnot := (hstopped hgoes).2 task _ hmem hsame.symm
      exact absurd rfl (of_decide_eq_false hnot)
    rw [hbase.flights, List.mem_append] at hf
    rcases hf with hf | hf
    · obtain ⟨hmem, hne⟩ := List.mem_filter.mp hf
      exact .inl ⟨f, hmem, hnumber.symm, of_decide_eq_true hne, hsame.symm, hwaiting.symm,
        fun hgoes => ⟨(hstopped hgoes).1, hspared hgoes⟩⟩
    · unfold Moment.Leaves at hleaves
      split at hleaves
      · rename_i j hresult
        obtain ⟨task', -, rfl⟩ := hacts.again j hresult
        subst hleaves
        obtain rfl := List.mem_singleton.mp hf
        cases hsame
      · rename_i w hresult
        obtain ⟨y, rfl, rfl⟩ := hleaves
        obtain rfl := List.mem_singleton.mp hf
        exact .inr (.inl ⟨hnumber, hsame.symm, hspared, y, hresult, hwaiting⟩)
      · subst hleaves
        cases hf
  · rw [hwork] at hsame
    cases hsame
    exact .inr (.inr ⟨hj, hwaiting⟩)

theorem Timers.current_after (h : Timers s) (hcommands : x.start.state.commands = [])
    (hx : workplace.Step s x) (hacts : Acts x) :
    ∀ g ∈ x.after.flights, g.stopped = false → ∀ task wait,
      g.work = .job (.deferredSend task wait) → x.after.state.pendingSend = some task := by
  intro g hg hgoes task wait hwork
  have hleft : x.after.state.pendingSend = x.left.pendingSend := by rw [state_after hx]
  rw [hleft]
  -- If it was in flight before, its name was kept, and it has not been stopped.
  have hbefore (hstarted : .start (.deferredSend task wait) ∉ x.left.commands) :
      x.start.state.pendingSend = some task ∧ .stop task ∉ x.left.commands ∧
        ∃ f ∈ s.flights, name? f = some task ∧ (f.number ≠ x.number ∨
          ∃ w, x.result = .paused (.waits w)) := by
    rw [hx.start_state]
    rcases deferred_cases hx hacts hg hwork with ⟨f, hf, -, hne, hsame, -, hstopped⟩ |
      ⟨-, hsame, hspared, y, hresult, -⟩ | ⟨hstart, -⟩
    · obtain ⟨hgoes, hspared⟩ := hstopped hgoes
      exact ⟨h.current f hf hgoes task wait hsame, hspared, f, hf, by rw [name?, hsame]; rfl,
        .inl hne⟩
    · obtain ⟨f, hf, hnumber, hflight, hstop⟩ := hx.exists_flight (by rw [hsame]; rfl)
      have hgoing := hstop (by rw [hresult]; exact nofun)
      rw [hsame] at hflight
      exact ⟨h.current f hf hgoing task wait hflight, hspared hgoes, f, hf,
        by rw [name?, hflight]; rfl, .inr ⟨_, hresult⟩⟩
    · exact absurd hstart hstarted
  cases hacts.timing hcommands with
  | idles hpending hlast hends hstarts hstops =>
      rw [hpending]
      exact (hbefore fun hstart => nomatch hstarts _ hstart).1
  | defers span hpending hwait hleft hlast hcommands =>
      rw [hleft]
      by_cases hstart : Command.start (.deferredSend task wait) ∈ x.left.commands
      · rw [hcommands] at hstart
        cases List.mem_singleton.mp hstart
        rfl
      · have hkept := (hbefore hstart).1
        rw [hpending] at hkept
        cases hkept
  | resets hleft hstarts hstops =>
      obtain ⟨hkept, hspared, -⟩ := hbefore fun hstart => nomatch hstarts _ hstart
      exact absurd (hstops task hkept) hspared
  | fires task' span hself hends hcue hleft hstarts =>
      obtain ⟨hkept, -, f, hf, hname, hother⟩ := hbefore fun hstart => nomatch hstarts _ hstart
      obtain ⟨e, he, hnumber, hflight, hstop⟩ := hx.exists_flight (by rw [hself]; rfl)
      rw [hself] at hflight
      have hgoes := hstop (by rw [hends]; exact nofun)
      have hfired := h.current e he hgoes task' span hflight
      rw [← hx.start_state, hkept] at hfired
      obtain rfl := Option.some.inj hfired
      -- Both go by one name, so that it is the flight that has landed.
      have hsame := h.eq_of_name hf he hname (by rw [name?, hflight]; rfl)
      rcases hother with hne | ⟨w, hresult⟩
      · exact absurd (hsame.trans hnumber) hne
      · rw [hends] at hresult
        cases hresult

theorem Timers.periodic_after (h : Timers s) (hcommands : x.start.state.commands = [])
    (hx : workplace.Step s x) (hacts : Acts x) : ∀ n, x.after.state.flushTask = some n →
      n < x.after.state.nextTask ∧
        ∀ g ∈ x.after.flights, ∀ wait, g.work ≠ .job (.deferredSend n wait) := by
  intro n hn
  rw [state_after hx] at hn ⊢
  -- A deferred send of that name was there before, or has been started.
  have hbefore (g : Flight Batcher Call Answer BatchJob) (hg : g ∈ x.after.flights) (wait : Span)
      (hwork : g.work = .job (.deferredSend n wait)) :
      (∃ f ∈ s.flights, f.work = .job (.deferredSend n wait)) ∨
        .deferredSend n wait ∈ workplace.started x.left := by
    rcases deferred_cases hx hacts hg hwork with ⟨f, hf, -, -, hsame, -⟩ |
      ⟨-, hsame, -⟩ | ⟨hstart, -⟩
    · exact .inl ⟨f, hf, hsame⟩
    · obtain ⟨f, hf, -, hflight, -⟩ := hx.exists_flight (by rw [hsame]; rfl)
      exact .inl ⟨f, hf, hflight.trans hsame⟩
    · exact .inr (List.mem_filterMap.mpr ⟨_, hstart, rfl⟩)
  have hstate := hx.start_state
  cases hacts.naming hcommands with
  | none hnames hnext hflush =>
      have hkept : s.state.flushTask = some n := by
        rw [← hstate]
        rcases hflush with hflush | hflush
        · exact hflush.symm.trans hn
        · rw [hn] at hflush
          cases hflush
      obtain ⟨hlt, hnone⟩ := h.periodic n hkept
      refine ⟨by rw [hnext, hstate]; exact hlt, fun g hg wait hwork => ?_⟩
      rcases hbefore g hg wait hwork with ⟨f, hf, hsame⟩ | hstart
      · exact hnone f hf wait hsame
      · have hmem : n ∈ (workplace.started x.left).filterMap task? :=
          List.mem_filterMap.mpr ⟨_, hstart, rfl⟩
        rw [hnames] at hmem
        cases hmem
  | periodic hstarted hnext hflush =>
      obtain rfl := Option.some.inj (hn.symm.trans hflush)
      refine ⟨by rw [hnext]; exact Nat.lt_succ_self _, fun g hg wait hwork => ?_⟩
      rcases hbefore g hg wait hwork with ⟨f, hf, hsame⟩ | hstart
      · have hlt := h.below _ (mem_names hf hsame)
        rw [hstate] at hlt
        exact Nat.lt_irrefl _ hlt
      · rw [hstarted] at hstart
        cases List.mem_singleton.mp hstart
  | deferred span hstarted hnext hflush =>
      obtain ⟨hlt, hnone⟩ := h.periodic n (by rw [← hstate, ← hflush]; exact hn)
      refine ⟨by rw [hnext, hstate]; exact Nat.lt_succ_of_lt hlt, fun g hg wait hwork => ?_⟩
      rcases hbefore g hg wait hwork with ⟨f, hf, hsame⟩ | hstart
      · exact hnone f hf wait hsame
      · rw [hstarted] at hstart
        cases List.mem_singleton.mp hstart
        rw [hstate] at hlt
        exact Nat.lt_irrefl _ hlt

/-- A deferred send that fires was the one whose name was kept. -/
theorem Timers.fired (h : Timers s) (hx : workplace.Step s x) {task : Nat} {wait : Span}
    (hwork : x.work = .job (.deferredSend task wait)) (hgoes : x.result ≠ .paused .drops) :
    x.start.state.pendingSend = some task := by
  obtain ⟨f, hf, -, hflight, hstop⟩ := hx.exists_flight (by rw [hwork]; rfl)
  rw [hx.start_state]
  exact h.current f hf (hstop hgoes) task wait (hflight.trans hwork)

theorem Timers.present_after (h : Timers s) (hnumbered : Numbered s)
    (hcommands : x.start.state.commands = []) (hx : workplace.Step s x) (hacts : Acts x)
    (hkeeps : cutsOff x = false) : ∀ n, x.after.state.pendingSend = some n →
      ∃ g ∈ x.after.flights, g.stopped = false ∧ ∃ wait, g.work = .job (.deferredSend n wait) := by
  intro n hn
  rw [state_after hx] at hn
  obtain ⟨own, base, hleaves, hbase, hafter⟩ := exists_aftermath hx hacts
  rw [hafter]
  cases hacts.timing hcommands with
  | idles hpending hlast hends hstarts hstops =>
      have hkept : x.start.state.pendingSend = some n := hpending.symm.trans hn
      obtain ⟨f, hf, hgoes, wait, hwork⟩ := h.present n (by rw [← hx.start_state]; exact hkept)
      -- Only the timer of the periodic flush is stopped.
      have hspares : workplace.Spares x.left.commands (.job (.deferredSend n wait)) := by
        intro name j hmem hj
        cases hj
        have hflush := hstops name hmem
        rw [hx.start_state] at hflush
        refine decide_eq_false fun heq => ?_
        obtain rfl := Option.some.inj heq
        exact (h.periodic _ hflush).2 f hf wait hwork
      have hgoesOn (e : Flight Batcher Call Answer BatchJob) (he : e ∈ base.flights)
          (hstop : e.stopped = false) (hsame : e.work = .job (.deferredSend n wait)) :
          ∃ g ∈ (workplace.heed base x.left).flights, g.stopped = false ∧
            ∃ wait, g.work = .job (.deferredSend n wait) := by
        obtain ⟨g, hg, -, hgwork, -, hgstop⟩ := exists_heed he hstop (hsame.symm ▸ hspares)
        exact ⟨g, hg, hgstop, wait, hgwork.trans hsame⟩
      by_cases hnumber : f.number = x.number
      · have hself : x.work = .job (.deferredSend n wait) :=
          (hx.work_eq hnumbered hf hnumber).symm.trans hwork
        cases hr : x.result with
        | ended e =>
            have hdeferred := hends e hr
            rw [hself] at hdeferred
            cases hdeferred
        | paused p =>
            cases p with
            | drops =>
                simp [cutsOff, hr, hself, hkept] at hkeeps
            | faults =>
                have hcall := hacts.faults hr
                rw [hself] at hcall
                cases hcall
            | stays => exact absurd hr hacts.goesOn
            | waits w =>
                simp only [Moment.Leaves, hr] at hleaves
                obtain ⟨y, -, rfl⟩ := hleaves
                refine hgoesOn ⟨x.number, x.work, false, some y⟩ ?_ rfl hself
                rw [hbase.flights]
                simp
      · refine hgoesOn f ?_ hgoes hwork
        rw [hbase.flights]
        exact List.mem_append_left _ (List.mem_filter.mpr ⟨hf, decide_eq_true hnumber⟩)
  | defers span hpending hwait hleft hlast hstarted =>
      obtain rfl := Option.some.inj (hleft.symm.trans hn)
      have horders : workplace.orders x.left =
          [] ++ .start (.deferredSend x.start.state.nextTask span) :: [] := hstarted
      obtain ⟨g, hg, hwork, -, hstop⟩ := exists_started (s := base) horders nofun
      exact ⟨g, hg, hstop, span, hwork⟩
  | resets hleft hstarts hstops =>
      rw [hn] at hleft
      cases hleft
  | fires task wait hself hends hcue hleft hstarts =>
      rw [if_pos (h.fired hx hself (by rw [hends]; exact nofun)), hn] at hleft
      cases hleft

theorem Timers.step (h : Timers s) (hnumbered : Numbered s)
    (hcommands : s.state.commands = []) (hx : workplace.Step s x) (hacts : Acts x)
    (hkeeps : cutsOff x = false) : Timers x.after := by
  rw [← hx.start_state] at hcommands
  obtain ⟨hapart, hbelow⟩ := h.apart_after hcommands hx hacts
  constructor
  · exact hapart
  · exact hbelow
  · exact h.periodic_after hcommands hx hacts
  · exact h.current_after hcommands hx hacts
  · exact h.present_after hnumbered hcommands hx hacts hkeeps

end Step

theorem timers_of_course {config : BatcherConfig} {sink : Sink} {hasWorkers : Bool}
    (h : workplace.Course (idle (new config sink hasWorkers)) ms s)
    (hkeeps : ∀ x ∈ ms, cutsOff x = false) : Timers s := by
  induction h with
  | nil => exact timers_idle config sink hasWorkers
  | @snoc ms t x ht hx ih =>
      have hacts : Acts x := acts_of_mem (ht.snoc hx) x (by simp)
      have hbefore := ih fun y hy => hkeeps y (List.mem_append_left _ hy)
      exact hbefore.step ht.numbered (commands_of_course rfl ht) hx hacts (hkeeps x (by simp))

theorem isPending_iff {f : Flight Batcher Call Answer BatchJob} : isPending f = true ↔
    f.stopped = false ∧ ∃ task wait, f.work = .job (.deferredSend task wait) := by
  obtain ⟨number, work, stopped, waiting⟩ := f
  cases work with
  | call k => simp [isPending, isDeferred]
  | job j => cases j <;> simp [isPending, isDeferred]

/-- One deferred send at most has not been taken back. -/
theorem Timers.countP_isPending_le (h : Timers s) : s.flights.countP isPending ≤ 1 := by
  cases hpending : s.state.pendingSend with
  | none =>
      have hnone : s.flights.countP isPending = 0 := by
        refine List.countP_eq_zero.mpr fun f hf hpends => ?_
        obtain ⟨hgoes, task, wait, hwork⟩ := isPending_iff.mp hpends
        have hkept := h.current f hf hgoes task wait hwork
        rw [hpending] at hkept
        cases hkept
      rw [hnone]
      exact Nat.zero_le 1
  | some n =>
      -- All such sends have the name that is kept.
      calc s.flights.countP isPending
          ≤ s.flights.countP fun f => ((name? f).map (· == n)).getD false := by
            refine List.countP_mono_left fun f hf hpends => ?_
            obtain ⟨hgoes, task, wait, hwork⟩ := isPending_iff.mp hpends
            have hkept := h.current f hf hgoes task wait hwork
            rw [hpending] at hkept
            obtain rfl := Option.some.inj hkept
            simp [name?, hwork, task?]
        _ = (names s).count n := by rw [names, List.count_eq_countP, List.countP_filterMap]
        _ ≤ 1 := List.nodup_iff_count_le_one.mp h.apart n

end Batcher

end ClientSession
