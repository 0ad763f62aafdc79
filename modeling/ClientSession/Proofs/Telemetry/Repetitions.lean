import ClientSession.Proofs.Tables
import ClientSession.Proofs.Telemetry.Overrun

/-!
# Repetitions

A batcher takes a request event unless its address is excluded, it is a success in the background,
or an event of its key was accepted less than a window ago. What it remembers for this is pruned
only when events come, outlives the batches that the events leave in, and is discarded with
everything else. So what it answers can be told from the events that it has accepted.

- `Batcher.Memory`: what a batcher remembers for the events to come.
- `Batcher.recalls_keptBy`: what each stretch does to the memory, and what a report answers.
- `Batcher.Remembers`: the memory holds what still counts of the events that were accepted.
- `Batcher.queue_bounded`: the line never gets as long as it may.
- `Batcher.report_answers`: what a report answers, from the events accepted before it.
- `Batcher.not_reports_taken`: one that is to be taken need not be.
-/

namespace ClientSession

namespace Batcher

open Activity Workplace
open Instant (calendarEnd)

/-! ## The memory -/

/-- What a batcher remembers for the request events to come. -/
structure Memory where
  recent : Table String Instant
  inBackground : Bool

def memory (b : Batcher) : Memory := ⟨b.recent, b.inBackground⟩

section Functions

variable {b b' : Batcher} {now : Instant} {e : Event}

theorem memory_start (b : Batcher) (job : BatchJob) : (b.start job).2.memory = b.memory := by
  unfold start
  split <;> rfl

theorem memory_stop (b : Batcher) (task : Option Nat) : (b.stop task).memory = b.memory := by
  cases task <;> rfl

theorem memory_startTask (b : Batcher) (job : Nat → BatchJob) :
    (b.startTask job).2.memory = b.memory := by
  unfold startTask
  split <;> rfl

theorem memory_cancelPending (b : Batcher) : b.cancelPending.memory = b.memory :=
  memory_stop b b.pendingSend

theorem memory_drainRequests (b : Batcher) (now : Instant) :
    (b.drainRequests now).2.memory = b.memory := by
  unfold drainRequests
  split <;> rfl

theorem memory_startDelivery (b : Batcher) (now : Instant) :
    (b.startDelivery now).memory = b.memory := by
  have h := memory_drainRequests b now
  unfold startDelivery
  split
  · rename_i batch b' hb
    rw [hb] at h
    exact (memory_start b' _).trans h
  · rename_i b' hb
    rw [hb] at h
    exact h

theorem memory_shutdown (b : Batcher) : b.shutdown.memory = b.memory :=
  (memory_cancelPending _).trans (memory_stop b b.flushTask)

theorem memory_startPeriodic (b : Batcher) : b.startPeriodic.memory = b.memory := by
  unfold startPeriodic
  split
  · exact (memory_stop _ _).trans (memory_startTask b _)
  · rfl

theorem memory_trackAuth (b : Batcher) (e : Event) : (b.trackAuth e).memory = b.memory := by
  unfold trackAuth
  dsimp only
  split
  · exact memory_start _ _
  · rfl

theorem memory_sendLast (b : Batcher) (batch : Batch) (now : Instant) :
    (b.sendLast batch now).2.memory = b.memory := by
  unfold sendLast
  split
  · rfl
  · split
    · rfl
    · exact memory_start _ _

theorem memory_flushOnUnload (b : Batcher) (now : Instant) :
    (b.flushOnUnload now).2.memory = b.memory := by
  have h := (memory_drainRequests b.cancelPending now).trans (memory_cancelPending b)
  unfold flushOnUnload
  split
  · rename_i b' hb
    rw [hb] at h
    exact h
  · rename_i batch b' hb
    rw [hb] at h
    exact (memory_sendLast b' batch now).trans h

theorem memory_deferSend (h : b.deferSend now = .ok b') : b'.memory = b.memory := by
  unfold deferSend at h
  split at h
  · cases h
    rfl
  · cases hdelay : b.sendDelay now with
    | error f =>
        rw [hdelay] at h
        cases h
    | ok wait =>
        rw [hdelay] at h
        cases h
        exact memory_startTask b _

theorem requests_deferSend (h : b.deferSend now = .ok b') : b'.requests = b.requests := by
  rcases deferSend_cases h with ⟨-, hline⟩ | ⟨-, -, wait, -, hline⟩
  · exact congrArg (·.requests) hline
  · exact congrArg (·.requests) hline

/-! ## A report -/

theorem dedupKey_attributed (b : Batcher) (e : Event) : (b.attributed e).dedupKey = e.dedupKey := by
  unfold attributed
  split <;> rfl

/-- What is remembered of a key when an event comes. -/
theorem find?_forgetOld (b : Batcher) (now : Instant) (key : String) (t : Instant) :
    (b.forgetOld now).recent.find? key = some t ↔
      b.recent.find? key = some t ∧ now.since t < b.config.dedupWindow := by
  rw [Table.find?_eq_some_iff, Table.find?_eq_some_iff]
  unfold forgetOld Table.filter
  rw [List.mem_filter, decide_eq_true_eq]

/-- What a report leaves of the memory and of the line, by what it answers. -/
structure Reported (b : Batcher) (e : Event) (now : Instant) (taken : Bool) (b' : Batcher) :
    Prop where
  taken_iff : taken = true ↔ b.Wants e now
  inBackground : b'.inBackground = b.inBackground
  refused : taken = false → b'.requests = b.requests ∧
    (b'.recent = b.recent ∨ b'.recent = (b.forgetOld now).recent)
  accepted : taken = true → (b'.requests = [] ∨
      b'.requests.length = b.requests.length + 1 ∧
        b.requests.length + 1 < max b.config.requestMaxQueue 1) ∧
    b'.recent = (b.forgetOld now).recent.insert e.dedupKey now

theorem reported_trackRequest {r : Bool × Batcher} (h : b.trackRequest e now = .ok r) :
    Reported b e now r.1 r.2 := by
  unfold trackRequest at h
  by_cases hskip : (b.excludes e.name || (b.inBackground && e.success)) = true
  · rw [if_pos hskip] at h
    cases h
    refine ⟨iff_of_false Bool.false_ne_true ?_, rfl, fun _ => ⟨rfl, .inl rfl⟩, nofun⟩
    rintro ⟨hreported, hseen, -⟩
    rw [hreported, hseen] at hskip
    cases hskip
  rw [if_neg hskip] at h
  obtain ⟨hreported, hseen⟩ := Bool.or_eq_false_iff.mp (Bool.eq_false_iff.mpr hskip)
  dsimp only at h
  by_cases hagain : (b.forgetOld now).recent.contains (b.attributed e).dedupKey = true
  · rw [if_pos hagain] at h
    cases h
    refine ⟨iff_of_false Bool.false_ne_true ?_, rfl, fun _ => ⟨rfl, .inr rfl⟩, nofun⟩
    rintro ⟨-, -, hnew⟩
    rw [hnew] at hagain
    cases hagain
  rw [if_neg hagain] at h
  have hwants : b.Wants e now := ⟨hreported, hseen, Bool.eq_false_iff.mpr hagain⟩
  have hkey := dedupKey_attributed b e
  split at h
  · cases h
    have hmemory := (memory_startDelivery _ now).trans (memory_cancelPending
      { b.forgetOld now with
        recent := (b.forgetOld now).recent.insert (b.attributed e).dedupKey now
        requests := (b.forgetOld now).requests ++ [b.attributed e] })
    refine ⟨iff_of_true rfl hwants, congrArg (·.inBackground) hmemory, nofun, fun _ => ?_⟩
    refine ⟨.inl ?_, ?_⟩
    · exact congrArg (·.requests) (line_startDelivery _ now)
    · rw [← hkey]
      exact congrArg (·.recent) hmemory
  · rename_i hroom
    revert h
    generalize hd : deferSend _ now = d
    intro h
    cases d with
    | error f => cases h
    | ok b' =>
        cases h
        have hmemory := memory_deferSend hd
        have hlength := congrArg List.length (requests_deferSend hd)
        rw [List.length_append, List.length_singleton] at hlength
        rw [List.length_append, List.length_singleton] at hroom
        refine ⟨iff_of_true rfl hwants, congrArg (·.inBackground) hmemory, nofun, fun _ => ?_⟩
        refine ⟨.inr ⟨hlength, Nat.not_le.mp hroom⟩, ?_⟩
        rw [← hkey]
        exact congrArg (·.recent) hmemory

end Functions

/-! ## What stretches do to it -/

/-- The memory is the same. -/
def SameMemory (b b' : Batcher) : Prop := b'.memory = b.memory

protected theorem SameMemory.refl (b : Batcher) : SameMemory b b := rfl

/-- Work that leaves the memory as it is. -/
abbrev Retains {α : Type} (x : Activity Batcher α) : Prop := Moves (fun _ => True) SameMemory x

theorem retains_modify {f : Batcher → Batcher} (hf : ∀ b, (f b).memory = b.memory) :
    Retains (modify f : Activity Batcher PUnit) :=
  moves_modify fun _ b h => (hf b).trans h

theorem retains_step {α : Type} {f : Instant → Batcher → α × Batcher}
    (hf : ∀ now b, (f now b).2.memory = b.memory) : Retains (Activity.step f) :=
  moves_step fun now _ b h => (hf now b).trans h

theorem retains_await (w : Wait) : Retains (Activity.await w) :=
  moves_await SameMemory.refl trivial

theorem retains_sleep (span : Span) : Retains (Activity.sleep span) :=
  moves_sleep SameMemory.refl trivial

theorem retains_send (batch : Batch) : Retains (send batch) := by
  refine Maintains.bind maintains_get fun b => ?_
  cases b.sink with
  | service accepts => exact retains_await _
  | ingest profile csrf =>
      refine Maintains.bind (retains_step fun _ _ => rfl) fun request => ?_
      cases request with
      | none => exact maintains_pure _
      | some r =>
          refine Maintains.bind (retains_await _) fun outcome => ?_
          cases outcome <;> exact maintains_pure _

theorem retains_deliver (batch : Batch) : Retains (deliver batch) := by
  refine Maintains.bind (retains_modify fun _ => rfl) fun _ => ?_
  refine Maintains.bind (retains_send batch) fun result => ?_
  cases result <;> exact retains_modify fun _ => rfl

theorem retains_flushAuth : Retains flushAuth := by
  refine Maintains.bind maintains_get fun before => ?_
  refine Maintains.ite (maintains_pure _) ?_
  refine Maintains.bind (retains_step fun _ _ => rfl) fun batch => ?_
  refine Maintains.bind (retains_modify fun _ => rfl) fun _ => ?_
  refine Maintains.bind (retains_send batch) fun result => ?_
  cases result with
  | ok _ => exact retains_modify fun _ => rfl
  | error _ =>
      refine retains_modify fun b => ?_
      dsimp only
      split <;> rfl

theorem retains_flushRequests : Retains flushRequests := by
  refine Maintains.bind (retains_modify memory_cancelPending) fun _ => ?_
  refine Maintains.bind (retains_step fun now b => memory_drainRequests b now) fun batch => ?_
  cases batch with
  | none => exact maintains_pure _
  | some batch => exact retains_deliver batch

theorem retains_perform (j : BatchJob) : Retains (perform j) := by
  cases j with
  | flushAuth => exact Maintains.map retains_flushAuth
  | deliver batch => exact Maintains.map (retains_deliver batch)
  | farewell request => exact Maintains.map (retains_await _)
  | deferredSend task wait =>
      refine Maintains.bind (retains_sleep wait) fun _ => ?_
      refine Maintains.bind ?_ fun _ => Maintains.bind (retains_modify fun b => ?_) fun _ =>
        maintains_pure _
      · exact triple_change fun _ i b h => (memory_startDelivery b i.now).trans h
      · split <;> rfl
  | periodicFlush task =>
      refine Maintains.bind maintains_get fun before => ?_
      refine Maintains.bind (retains_sleep _) fun _ => ?_
      exact Maintains.bind retains_flushAuth fun _ => maintains_pure _

/-- What work has done to the memory at its end. -/
def Recalls : Work Call BatchJob → Start Batcher → Ending Answer BatchJob → Batcher → Prop
  | .call (.trackRequest e), i, ending, b =>
    ∃ taken, ending = .answers (.accepted taken) ∧ Reported i.state e i.now taken b
  | .call .clear, i, _, b => b.memory = ⟨.empty, i.state.inBackground⟩
  | .call (.setVisibility inBackground), i, _, b => b.memory = ⟨i.state.recent, inBackground⟩
  | _, i, _, b => SameMemory i.state b

/-- A stretch that pauses leaves the memory as it is. -/
def recalls : Rules Unit Batcher Call Answer BatchJob where
  memo := ()
  pact _ _ i _ b _ := SameMemory i.state b
  outcome work _ i ending b := Recalls work i ending b

theorem recalls_keptBy : recalls.KeptBy workplace where
  drops _ _ _ := rfl
  meets work now b := by
    -- The first stretch is one from the state in which the work begins.
    suffices htriple : Triple (recalls.pact work) (fun _ i b => b = i.state)
        (workplace.carryOut work) fun _ i ending b => Recalls work i ending b from
      htriple.meets () ⟨none, now, b⟩ b rfl
    have hretains : ∀ {x : Activity Batcher (Ending Answer BatchJob)}, Retains x →
        Triple (recalls.pact work) (fun _ i b => b = i.state) x fun _ i _ b =>
          SameMemory i.state b := by
      intro x hx
      refine ⟨fun m i b hb => (hx.meets m i b ?_).mono (fun _ _ _ _ _ h => h.2) ?_⟩
      · rw [hb]
        exact .refl _
      · exact fun _ _ _ _ h => h
    cases work with
    | job j =>
        refine hretains (Maintains.bind (retains_perform j) fun next => ?_)
        cases next <;> exact maintains_pure _
    | call k =>
        cases k with
        | trackRequest e =>
            refine Triple.map (Triple.map (triple_attempt ?_ ?_))
            · rintro m i b rfl
              exact .refl _
            · rintro m i b r rfl hr
              exact ⟨r.1, rfl, reported_trackRequest hr⟩
        | clear =>
            refine Triple.map (Triple.map (triple_modify ?_))
            rintro m i b rfl
            exact congrArg (fun l => (⟨.empty, l.inBackground⟩ : Memory))
              (memory_cancelPending i.state)
        | setVisibility inBackground =>
            refine Triple.map (Triple.map (triple_modify ?_))
            rintro m i b rfl
            rfl
        | trackAuth e =>
            exact hretains (Maintains.map (Maintains.map
              (retains_modify fun b => memory_trackAuth b e)))
        | flushAuth => exact hretains (Maintains.map (Maintains.map retains_flushAuth))
        | flushRequests => exact hretains (Maintains.map (Maintains.map retains_flushRequests))
        | flushOnUnload =>
            exact hretains (Maintains.map (Maintains.map
              (retains_step fun now b => memory_flushOnUnload b now)))
        | startPeriodic =>
            exact hretains (Maintains.map (Maintains.map (retains_modify memory_startPeriodic)))
        | shutdown =>
            exact hretains (Maintains.map (Maintains.map (retains_modify memory_shutdown)))
        | setUser user =>
            exact hretains (Maintains.map (Maintains.map (retains_modify fun _ => rfl)))

/-! ## What moments do to it -/

variable {config : BatcherConfig} {sink : Sink} {hasWorkers : Bool} {s : BatcherScene}
  {ms : List BatcherMoment} {x : BatcherMoment} {now : Instant}

/-- The visibility that a moment sets. -/
def visibility? (x : BatcherMoment) : Option Bool :=
  match x.work, x.result with
  | .call (.setVisibility inBackground), .ended _ => some inBackground
  | _, _ => none

/-- What a moment does to what is remembered of events, and to the length of the line. -/
inductive Minds (x : BatcherMoment) : Prop where
  | keeps (haccepts : accepted? x = none) (hclears : clears x.work x.result = false)
      (hrecent : x.left.recent = x.start.state.recent ∨
        x.left.recent = (x.start.state.forgetOld x.start.now).recent)
  | gains (e : Event) (haccepts : accepted? x = some e) (hclears : clears x.work x.result = false)
      (hrecent : x.left.recent =
        (x.start.state.forgetOld x.start.now).recent.insert e.dedupKey x.start.now)
      (hline : x.left.requests = [] ∨
        x.left.requests.length < max x.start.state.config.requestMaxQueue 1)
  | loses (haccepts : accepted? x = none) (hclears : clears x.work x.result = true)
      (hrecent : x.left.recent = .empty)

theorem minds_of_keeps (h : recalls.Keeps () () x) :
    Minds x ∧ x.left.inBackground = (visibility? x).getD x.start.state.inBackground := by
  obtain ⟨number, work, i, result, left, after⟩ := x
  have hsame : SameMemory i.state left → accepts? work i result = none →
      clears work result = false →
      Minds ⟨number, work, i, result, left, after⟩ ∧ left.inBackground = i.state.inBackground :=
    fun h haccepts hclears => ⟨.keeps haccepts hclears (.inl (congrArg (·.recent) h)),
      congrArg (·.inBackground) h⟩
  cases result with
  | paused p =>
      have hnone : visibility? ⟨number, work, i, .paused p, left, after⟩ = none := by
        unfold visibility?
        split
        · rename_i heq
          cases heq
        · rfl
      rw [hnone]
      exact hsame h (accepts?_paused ..) (clears_paused ..)
  | ended ending =>
      obtain ⟨h, -⟩ := h
      cases work with
      | job j => exact hsame h rfl rfl
      | call k =>
          cases k with
          | trackRequest e =>
              obtain ⟨taken, rfl, hreported⟩ := h
              refine ⟨?_, hreported.inBackground⟩
              cases taken with
              | false => exact .keeps rfl rfl (hreported.refused rfl).2
              | true =>
                  obtain ⟨hline, hrecent⟩ := hreported.accepted rfl
                  refine .gains _ rfl rfl ?_ (hline.imp_right ?_)
                  · rw [dedupKey_attributed]
                    exact hrecent
                  · rintro ⟨hlength, hroom⟩
                    exact hlength.trans_lt hroom
          | clear =>
              exact ⟨.loses rfl rfl (congrArg (·.recent) h), congrArg (·.inBackground) h⟩
          | setVisibility inBackground =>
              exact ⟨.keeps rfl rfl (.inl (congrArg (·.recent) h)), congrArg (·.inBackground) h⟩
          | trackAuth e => exact hsame h rfl rfl
          | flushAuth => exact hsame h rfl rfl
          | flushRequests => exact hsame h rfl rfl
          | flushOnUnload => exact hsame h rfl rfl
          | startPeriodic => exact hsame h rfl rfl
          | shutdown => exact hsame h rfl rfl
          | setUser user => exact hsame h rfl rfl

theorem minds_of_mem {b : Batcher} (h : workplace.Course (idle b) ms s) : ∀ x ∈ ms,
    Minds x ∧ x.left.inBackground = (visibility? x).getD x.start.state.inBackground :=
  fun x hx => minds_of_keeps (recalls_keptBy.all h x hx)

/-! ## The length of the line -/

/-- The line stays below its bound after every moment of a course. -/
theorem queue_bounded (h : workplace.Course (idle (new config sink hasWorkers)) ms s) :
    (∀ x ∈ ms, x.left.requests.length < max config.requestMaxQueue 1) ∧
      s.state.requests.length < max config.requestMaxQueue 1 := by
  have hpositive : 0 < max config.requestMaxQueue 1 := Nat.lt_of_lt_of_le Nat.one_pos
    (Nat.le_max_right _ _)
  induction h with
  | nil => exact ⟨List.forall_mem_nil _, hpositive⟩
  | @snoc ms t x ht hx ih =>
      have hcourse := ht.snoc hx
      have hleft : x.left.requests.length < max config.requestMaxQueue 1 := by
        have hsame (haccepts : accepted? x = none) :
            x.left.requests.length < max config.requestMaxQueue 1 := by
          have hgathered := gathered_of_none haccepts
          rw [hx.start_state] at hgathered
          cases (acts_of_mem hcourse x (by simp)).flow with
          | empties _ _ hempty =>
              rw [hempty]
              exact hpositive
          | keeps _ _ hkept _ =>
              rw [hkept, hgathered]
              exact ih.2
          | drains _ _ hempty _ =>
              rw [hempty]
              exact hpositive
        cases (minds_of_mem hcourse x (by simp)).1 with
        | keeps haccepts _ _ => exact hsame haccepts
        | loses haccepts _ _ => exact hsame haccepts
        | gains e _ _ _ hline =>
            rw [hx.start_state, (config_of_course ht).1] at hline
            rcases hline with hempty | hroom
            · rw [hempty]
              exact hpositive
            · exact hroom
      refine ⟨fun y hy => ?_, ?_⟩
      · rcases List.mem_append.mp hy with hy | hy
        · exact ih.1 y hy
        · obtain rfl := List.mem_singleton.mp hy
          exact hleft
      · rw [state_after hx]
        exact hleft

/-! ## What is remembered -/

/-- An event of the key was accepted at the instant, and nothing was discarded since. -/
def AcceptedAt (ms : List BatcherMoment) (key : String) (t : Instant) : Prop :=
  ∃ before x after e, ms = before ++ x :: after ∧ accepted? x = some e ∧ e.dedupKey = key ∧
    x.start.now = t ∧ ∀ y ∈ after, clears y.work y.result = false

/-- The visibility that was set last is the background. -/
def hidden (ms : List BatcherMoment) : Bool := (ms.filterMap visibility?).getLast?.getD false

theorem hidden_snoc (ms : List BatcherMoment) (x : BatcherMoment) :
    hidden (ms ++ [x]) = (visibility? x).getD (hidden ms) := by
  unfold hidden
  rw [List.filterMap_append]
  cases h : visibility? x <;> simp [h]

theorem not_acceptedAt_nil {key : String} {t : Instant} : ¬AcceptedAt [] key t := by
  rintro ⟨before, x, after, e, heq, -⟩
  simp at heq

theorem acceptedAt_snoc {key : String} {t : Instant} : AcceptedAt (ms ++ [x]) key t ↔
    (∃ e, accepted? x = some e ∧ e.dedupKey = key ∧ x.start.now = t) ∨
      AcceptedAt ms key t ∧ clears x.work x.result = false := by
  constructor
  · rintro ⟨before, y, after, e, heq, haccepts, hkey, ht, hafter⟩
    rcases List.eq_nil_or_concat after with rfl | ⟨after, z, rfl⟩
    · obtain ⟨rfl, hlast⟩ := List.append_inj' heq rfl
      obtain rfl := List.singleton_inj.mp hlast
      exact .inl ⟨e, haccepts, hkey, ht⟩
    · rw [List.concat_eq_append, ← List.cons_append, ← List.append_assoc] at heq
      obtain ⟨rfl, hlast⟩ := List.append_inj' heq rfl
      obtain rfl := List.singleton_inj.mp hlast
      refine .inr ⟨⟨before, y, after, e, rfl, haccepts, hkey, ht, fun w hw => ?_⟩, ?_⟩
      · exact hafter w (by simp [hw])
      · exact hafter x (by simp)
  · rintro (⟨e, haccepts, hkey, ht⟩ | ⟨⟨before, y, after, e, rfl, haccepts, hkey, ht, hafter⟩, hx⟩)
    · exact ⟨ms, x, [], e, rfl, haccepts, hkey, ht, List.forall_mem_nil _⟩
    · refine ⟨before, y, after ++ [x], e, by simp, haccepts, hkey, ht, fun w hw => ?_⟩
      rcases List.mem_append.mp hw with hw | hw
      · exact hafter w hw
      · obtain rfl := List.mem_singleton.mp hw
        exact hx

theorem exists_of_acceptedAt {key : String} {t : Instant} (h : AcceptedAt ms key t) :
    ∃ x ∈ ms, x.start.now = t := by
  obtain ⟨before, x, after, e, rfl, -, -, ht, -⟩ := h
  exact ⟨x, by simp, ht⟩

/-- No reading is later than the ones after it. -/
def Ordered (ms : List BatcherMoment) : Prop := ms.Pairwise fun x y => x.start.now ≤ y.start.now

instance (ms : List BatcherMoment) : Decidable (Ordered ms) :=
  inferInstanceAs (Decidable (ms.Pairwise _))

theorem Ordered.last (h : Ordered (ms ++ [x])) : ∀ y ∈ ms, y.start.now ≤ x.start.now :=
  fun y hy => (List.pairwise_append.mp h).2.2 y hy x (List.mem_singleton.mpr rfl)

theorem Ordered.init (h : Ordered (ms ++ [x])) : Ordered ms := (List.pairwise_append.mp h).1

/-- The memory holds what is said of events accepted before, and holds one of each key for which any
still counts. -/
structure Remembers (ms : List BatcherMoment) (b : Batcher) : Prop where
  inBackground : b.inBackground = hidden ms
  sound : ∀ key t, b.recent.find? key = some t → AcceptedAt ms key t
  complete : ∀ key t now, AcceptedAt ms key t → (∀ y ∈ ms, y.start.now ≤ now) →
    now.since t < b.config.dedupWindow → ∃ t', b.recent.find? key = some t' ∧ t ≤ t'

/-- What counts at a later instant counts at an earlier one, and what is newer counts longer. -/
theorem counts_mono {window : Span} {t t' now now' : Instant} (h : now'.since t < window)
    (hnow : now ≤ now') (ht : t ≤ t') : now.since t' < window := by
  change now'.nanos - t.nanos < window.nanos at h
  change now.nanos ≤ now'.nanos at hnow
  change t.nanos ≤ t'.nanos at ht
  change now.nanos - t'.nanos < window.nanos
  omega

theorem remembers_new (config : BatcherConfig) (sink : Sink) (hasWorkers : Bool) :
    Remembers [] (new config sink hasWorkers) where
  inBackground := rfl
  sound key t h := by
    rw [new, Table.find?_empty] at h
    cases h
  complete key t now h := absurd h not_acceptedAt_nil

/-- Where only what no longer counts is forgotten, what was accepted before is remembered. -/
theorem Remembers.keeps {b b' : Batcher} (h : Remembers ms b)
    (hconfig : b'.config = b.config) (hinBackground : b'.inBackground = hidden (ms ++ [x]))
    (haccepts : accepted? x = none) (hclears : clears x.work x.result = false)
    (hrecent : b'.recent = b.recent ∨ b'.recent = (b.forgetOld x.start.now).recent) :
    Remembers (ms ++ [x]) b' := by
  have haccepted {key : String} {t : Instant} :
      AcceptedAt (ms ++ [x]) key t ↔ AcceptedAt ms key t := by
    rw [acceptedAt_snoc, haccepts, hclears]
    simp
  refine ⟨hinBackground, fun key t ht => ?_, fun key t now hold hnow hcounts => ?_⟩
  · rw [haccepted]
    rcases hrecent with hsame | hforgets
    · rw [hsame] at ht
      exact h.sound key t ht
    · rw [hforgets, find?_forgetOld] at ht
      exact h.sound key t ht.1
  · rw [haccepted] at hold
    rw [hconfig] at hcounts
    obtain ⟨t', ht', hle⟩ :=
      h.complete key t now hold (fun y hy => hnow y (List.mem_append_left _ hy)) hcounts
    refine ⟨t', ?_, hle⟩
    rcases hrecent with hsame | hforgets
    · rw [hsame]
      exact ht'
    · rw [hforgets, find?_forgetOld]
      exact ⟨ht', counts_mono hcounts (hnow x (by simp)) hle⟩

/-- An event that is accepted is the last one of its key. -/
theorem Remembers.gains {b b' : Batcher} (h : Remembers ms b) {e : Event}
    (hconfig : b'.config = b.config) (hinBackground : b'.inBackground = hidden (ms ++ [x]))
    (haccepts : accepted? x = some e) (hclears : clears x.work x.result = false)
    (hlast : ∀ y ∈ ms, y.start.now ≤ x.start.now)
    (hrecent : b'.recent = (b.forgetOld x.start.now).recent.insert e.dedupKey x.start.now) :
    Remembers (ms ++ [x]) b' := by
  have haccepted {key : String} {t : Instant} : AcceptedAt (ms ++ [x]) key t ↔
      (e.dedupKey = key ∧ x.start.now = t) ∨ AcceptedAt ms key t := by
    rw [acceptedAt_snoc, haccepts, hclears]
    simp
  refine ⟨hinBackground, fun key t ht => ?_, fun key t now hold hnow hcounts => ?_⟩
  · rw [haccepted]
    rw [hrecent, Table.find?_insert] at ht
    split at ht
    · rename_i hkey
      exact .inl ⟨hkey, Option.some.inj ht⟩
    · exact .inr (h.sound key t ((find?_forgetOld b _ key t).mp ht).1)
  · rw [haccepted] at hold
    rw [hrecent, Table.find?_insert]
    split
    · refine ⟨x.start.now, rfl, ?_⟩
      rcases hold with ⟨-, rfl⟩ | hold
      · exact Int.le_refl _
      · obtain ⟨y, hy, rfl⟩ := exists_of_acceptedAt hold
        exact hlast y hy
    · rename_i hkey
      rw [hconfig] at hcounts
      have hbefore : AcceptedAt ms key t := hold.resolve_left fun hnew => hkey hnew.1
      obtain ⟨t', ht', hle⟩ :=
        h.complete key t now hbefore (fun y hy => hnow y (List.mem_append_left _ hy)) hcounts
      refine ⟨t', ?_, hle⟩
      rw [find?_forgetOld]
      exact ⟨ht', counts_mono hcounts (hnow x (by simp)) hle⟩

theorem Remembers.loses {b' : Batcher} (hinBackground : b'.inBackground = hidden (ms ++ [x]))
    (haccepts : accepted? x = none) (hclears : clears x.work x.result = true)
    (hrecent : b'.recent = .empty) : Remembers (ms ++ [x]) b' := by
  have hnone {key : String} {t : Instant} : ¬AcceptedAt (ms ++ [x]) key t := by
    rw [acceptedAt_snoc, haccepts, hclears]
    simp
  refine ⟨hinBackground, fun key t ht => ?_, fun key t now hold => absurd hold hnone⟩
  rw [hrecent, Table.find?_empty] at ht
  cases ht

theorem remembers_of_course (h : workplace.Course (idle (new config sink hasWorkers)) ms s)
    (hordered : Ordered ms) : Remembers ms s.state := by
  induction h with
  | nil => exact remembers_new config sink hasWorkers
  | @snoc ms t x ht hx ih =>
      have hcourse := ht.snoc hx
      have hbefore := ih hordered.init
      rw [← hx.start_state] at hbefore
      have hconfig := (acts_of_mem hcourse x (by simp)).config.1
      obtain ⟨hminds, hsets⟩ := minds_of_mem hcourse x (by simp)
      rw [hbefore.inBackground, ← hidden_snoc] at hsets
      rw [state_after hx]
      -- That orders have been heeded is no matter to the memory.
      cases hminds with
      | keeps haccepts hclears hrecent =>
          exact hbefore.keeps hconfig hsets haccepts hclears hrecent
      | gains e haccepts hclears hrecent hline =>
          exact hbefore.gains hconfig hsets haccepts hclears hordered.last hrecent
      | loses haccepts hclears hrecent => exact .loses hsets haccepts hclears hrecent

/-! ## What is answered -/

/-- Calls of the address are not to be reported: it is one of those that never are, or it is among
the addresses that are configured, or under one of them. -/
def Excluded (config : BatcherConfig) (url : String) : Prop :=
  Route.isReportingExcluded (Route.normalize url) = true ∨
    ∃ excluded ∈ config.excludedEndpoints, Route.normalize url = Route.normalize excluded ∨
      (Route.normalize excluded).toList ++ ['/'] <+: (Route.normalize url).toList

theorem excludes_iff (b : Batcher) (url : String) :
    b.excludes url = true ↔ Excluded b.config url := by
  unfold excludes Excluded
  simp only [Bool.or_eq_true, List.any_eq_true, decide_eq_true_eq, List.isPrefixOf_iff_prefix]

/-- An event is to be taken: its address is not excluded, it is not a success in the background, and
no event of its key that was accepted since everything was discarded counts for repetitions still.
-/
structure Welcome (config : BatcherConfig) (ms : List BatcherMoment) (e : Event) (now : Instant) :
    Prop where
  reported : ¬Excluded config e.name
  seen : ¬(hidden ms = true ∧ e.success = true)
  new : ∀ t, AcceptedAt ms e.dedupKey t → ¬now.since t < config.dedupWindow

theorem wants_iff (h : workplace.Course (idle (new config sink hasWorkers)) ms s)
    (hordered : Ordered ms) (hnow : ∀ x ∈ ms, x.start.now ≤ now) (e : Event) :
    s.state.Wants e now ↔ Welcome config ms e now := by
  have hconfig := (config_of_course h).1
  have hremembers := remembers_of_course h hordered
  have hreported : s.state.excludes e.name = false ↔ ¬Excluded config e.name := by
    rw [← Bool.not_eq_true, excludes_iff, hconfig]
  have hseen : (s.state.inBackground && e.success) = false ↔
      ¬(hidden ms = true ∧ e.success = true) := by
    rw [← Bool.not_eq_true, Bool.and_eq_true, hremembers.inBackground]
  have hnew : (s.state.forgetOld now).recent.contains (s.state.attributed e).dedupKey = false ↔
      ∀ t, AcceptedAt ms e.dedupKey t → ¬now.since t < config.dedupWindow := by
    rw [← Bool.not_eq_true, Table.contains_iff, not_not, dedupKey_attributed]
    constructor
    · intro hnone t haccepted hcounts
      rw [← hconfig] at hcounts
      obtain ⟨t', ht', hle⟩ := hremembers.complete _ t now haccepted hnow hcounts
      have hfound := (find?_forgetOld s.state now _ t').mpr
        ⟨ht', counts_mono hcounts (Int.le_refl _) hle⟩
      rw [hnone] at hfound
      cases hfound
    · intro hold
      cases hfind : (s.state.forgetOld now).recent.find? e.dedupKey with
      | none => rfl
      | some t =>
          obtain ⟨hfound, hcounts⟩ := (find?_forgetOld s.state now _ t).mp hfind
          rw [hconfig] at hcounts
          exact absurd hcounts (hold t (hremembers.sound _ t hfound))
  unfold Wants
  rw [hreported, hseen, hnew]
  exact ⟨fun h => ⟨h.1, h.2.1, h.2.2⟩, fun h => ⟨h.reported, h.seen, h.new⟩⟩

/-- An event that joins the line needs a deferred send, at an instant that the calendar does not
have. -/
structure Strands (config : BatcherConfig) (ms : List BatcherMoment) (b : Batcher) : Prop where
  room : b.requests.length + 1 < max config.requestMaxQueue 1
  pending : b.pendingSend = none
  outrun : ∃ last, lastDrained ms = some last ∧
    calendarEnd ≤ last.nanos + config.minSendInterval.nanos

/-- Work that makes its answer of the one of other work is answered where that is. -/
theorem ended_map_iff {α β : Type} {x : Activity Batcher α} {f : α → β} {b : Batcher} {c : β} :
    ((do return f (← x) : Activity Batcher β) now b).result = .ended c ↔
      ∃ a, (x now b).result = .ended a ∧ f a = c := by
  show (Run.bind _ (x now b) now).result = _ ↔ _
  cases x now b with
  | done b a =>
      show Result.ended (f a) = .ended c ↔ _
      simp [Run.result]
  | fault b e => simp [Run.bind, Run.result]
  | stay b => simp [Run.bind, Run.result]
  | wait b w drop resume => simp [Run.bind, Run.result]

theorem ended_attempt_iff {α : Type} (f : Instant → Batcher → Checked (α × Batcher)) (now : Instant)
    (b : Batcher) (a : α) : (Activity.attempt f now b).result = .ended a ↔ ∃ b', f now b = .ok (a, b') := by
  unfold Activity.attempt
  cases f now b <;> simp [Run.result, Prod.ext_iff]

theorem ended_report_iff {b : Batcher} {e : Event} {taken : Bool} :
    (workplace.carryOut (.call (.trackRequest e)) now b).result =
        .ended (.answers (.accepted taken)) ↔ ∃ b', b.trackRequest e now = .ok (taken, b') := by
  have hattempt := ended_attempt_iff (fun now b => b.trackRequest e now) now b taken
  refine Iff.trans ?_ hattempt
  refine ended_map_iff.trans ⟨?_, fun hrun => ?_⟩
  · rintro ⟨answer, hserve, heq⟩
    obtain rfl := Ending.answers.inj heq
    obtain ⟨taken', hrun, htaken⟩ := ended_map_iff.mp hserve
    obtain rfl := Answer.accepted.inj htaken
    exact hrun
  · exact ⟨_, ended_map_iff.mpr ⟨_, hrun, rfl⟩, rfl⟩

/-- A report that does not fault is answered by whether the event is to be taken. -/
theorem answered_report_iff (b : Batcher) (e : Event) (now : Instant) (taken : Bool) :
    (workplace.carryOut (.call (.trackRequest e)) now b).result =
        .ended (.answers (.accepted taken)) ↔
      (taken = true ↔ b.Wants e now) ∧
        ¬(workplace.carryOut (.call (.trackRequest e)) now b).result.isFault = true := by
  rw [ended_report_iff, isFault_report]
  cases h : b.trackRequest e now with
  | error f => simp [Except.toOption]
  | ok r =>
      obtain ⟨taken', b'⟩ := r
      have htaken : taken' = true ↔ b.Wants e now := (reported_trackRequest h).taken_iff
      rw [← htaken]
      simp only [Except.ok.injEq, Prod.mk.injEq, exists_and_left, exists_eq', and_true,
        Except.toOption, Option.isNone_some, Bool.false_eq_true, not_false_eq_true,
        ← Bool.eq_iff_iff]
      exact eq_comm

/-- After every moment of a course fewer events stand in line than may, one at least. In a course at
readings of the calendar, none of which is later than the ones after it, an event is accepted if and
only if it is to be taken, unless it needs a deferred send at an instant that the calendar does not
have. Then there is no answer. All other events are refused. -/
theorem report_answers (h : workplace.Course (idle (new config sink hasWorkers)) ms s) :
    (∀ x ∈ ms, x.left.requests.length < max config.requestMaxQueue 1) ∧
      ∀ now e, Ordered ms → (∀ x ∈ ms, x.start.now.InCalendar ∧ x.start.now ≤ now) →
        let r := (workplace.carryOut (.call (.trackRequest e)) now s.state).result
        (r = .ended (.answers (.accepted true)) ↔
            Welcome config ms e now ∧ ¬Strands config ms s.state) ∧
          (r = .ended (.answers (.accepted false)) ↔ ¬Welcome config ms e now) ∧
          (r.isFault = true ↔ Welcome config ms e now ∧ Strands config ms s.state) := by
  refine ⟨(queue_bounded h).1, fun now e hordered hms => ?_⟩
  dsimp only
  have hwants := wants_iff h hordered (fun x hx => (hms x hx).2) e
  have hfault : (workplace.carryOut (.call (.trackRequest e)) now s.state).result.isFault = true ↔
      Welcome config ms e now ∧ Strands config ms s.state := by
    rw [call_isFault_iff h (fun x hx => (hms x hx).1) now, ← hwants]
    constructor
    · rintro ⟨e', last, heq, hwanted, hroom, hpending, hlast, hover⟩
      cases heq
      exact ⟨hwanted, hroom, hpending, last, hlast, hover⟩
    · rintro ⟨hwanted, hroom, hpending, last, hlast, hover⟩
      exact ⟨e, last, rfl, hwanted, hroom, hpending, hlast, hover⟩
  refine ⟨?_, ?_, hfault⟩
  · rw [answered_report_iff, hwants, hfault]
    simp only [true_iff]
    exact and_congr_right fun hwelcome => not_congr (and_iff_right hwelcome)
  · rw [answered_report_iff, hwants, hfault]
    simp only [Bool.false_eq_true, false_iff]
    exact and_iff_left_of_imp fun hnot hstrands => hnot hstrands.1

/-- With the settings of before, one second after an event was accepted it is a repetition, and
another event is accepted. -/
theorem report_answers_firstBatch : ∃ (ms : List BatcherMoment) (s : BatcherScene)
    (now : Instant),
      workplace.Course (idle (new default (.service true) true)) ms s ∧ Ordered ms ∧
      (∀ x ∈ ms, x.start.now.InCalendar ∧ x.start.now ≤ now) ∧
      (∀ x ∈ ms, x.left.requests.length < 50) ∧
      Welcome default ms (visit "/b") now ∧ ¬Welcome default ms (visit "/a") now ∧
      (workplace.carryOut (.call (.trackRequest (visit "/b"))) now s.state).result =
        .ended (.answers (.accepted true)) ∧
      (workplace.carryOut (.call (.trackRequest (visit "/a"))) now s.state).result =
        .ended (.answers (.accepted false)) := by
  let now : Instant := ⟨1748779201000000000⟩
  have hpasses : workplace.passes (idle (new default (.service true) true)) firstBatch 0
      (fun ms x ms' s => decide (Ordered (ms ++ x :: ms') ∧
        (∀ y ∈ ms ++ x :: ms', y.start.now.InCalendar ∧ y.start.now ≤ now) ∧
        s.state.Wants (visit "/b") now ∧ ¬s.state.Wants (visit "/a") now ∧
        lastDrained (ms ++ x :: ms') = some ⟨1748779200000000000⟩)) = true := by
    decide +kernel
  obtain ⟨ms, x, ms', s, h, htest⟩ := exists_course hpasses
  obtain ⟨hordered, hms, hwanted, hrefused, hlast⟩ := of_decide_eq_true htest
  have hwants := wants_iff h hordered fun x hx => (hms x hx).2
  obtain ⟨hbound, hanswers⟩ := report_answers h
  obtain ⟨htaken, -, -⟩ := hanswers now (visit "/b") hordered hms
  obtain ⟨-, hnot, -⟩ := hanswers now (visit "/a") hordered hms
  rw [hwants] at hwanted hrefused
  refine ⟨_, s, now, h, hordered, hms, hbound, hwanted, hrefused, htaken.mpr ⟨hwanted, ?_⟩,
    hnot.mpr hrefused⟩
  -- Half a minute after the batch is in the calendar.
  rintro ⟨-, -, last, hsome, hover⟩
  rw [hlast] at hsome
  obtain rfl := Option.some.inj hsome
  exact absurd hover (by decide)

/-- An event need not be accepted though it is to be taken: so it is where batches are to be kept
more than thirty thousand years apart. -/
theorem not_reports_taken : ¬∀ (text : String) (config : BatcherConfig) (sink : Sink)
    (hasWorkers : Bool) (ms : List BatcherMoment) (s : BatcherScene) (now : Instant) (e : Event),
    (Json.decodeWhole BatcherConfig.shape.decode text).toOption = some config →
      workplace.Course (idle (new config sink hasWorkers)) ms s → Ordered ms →
        (∀ x ∈ ms, x.start.now.InCalendar ∧ x.start.now ≤ now) → now.InCalendar →
          ((workplace.carryOut (.call (.trackRequest e)) now s.state).result =
            .ended (.answers (.accepted true)) ↔ Welcome config ms e now) := by
  intro hclaim
  let now : Instant := ⟨1748779203000000000⟩
  have hread : (Json.decodeWhole BatcherConfig.shape.decode
      "\x7b\"minSendIntervalSecs\": 1000000000000\x7d").toOption = some lifelong := by
    decide +kernel
  have hpasses : workplace.passes (idle (new lifelong (.service true) true)) firstBatch 0
      (fun ms x ms' s => decide (Ordered (ms ++ x :: ms') ∧
        (∀ y ∈ ms ++ x :: ms', y.start.now.InCalendar ∧ y.start.now ≤ now) ∧
        s.state.Wants (visit "/b") now ∧
        (workplace.carryOut (.call (.trackRequest (visit "/b"))) now s.state).result.isFault =
          true)) = true := by
    decide +kernel
  obtain ⟨ms, x, ms', s, h, htest⟩ := exists_course hpasses
  obtain ⟨hordered, hms, hwanted, hfault⟩ := of_decide_eq_true htest
  rw [wants_iff h hordered fun x hx => (hms x hx).2] at hwanted
  have htaken := (hclaim _ _ _ _ _ s now _ hread h hordered hms (by decide)).mpr hwanted
  rw [htaken] at hfault
  cases hfault

end Batcher

end ClientSession
