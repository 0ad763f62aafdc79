import ClientSession.Proofs.Course
import ClientSession.Proofs.Http.Stamps
import ClientSession.Telemetry.Batcher

/-!
# Callers of a batcher

Any number of callers give a batcher events, have it send them, start and shut down its periodic
flush and discard what waits; the work that it starts beside them is carried out by tasks. The queue
of session events is emptied by the flushes of it, which hold on to what they took while they wait
for the sink. Nothing else that waits has a part in it.

- `Batcher.pact`, `Batcher.outcome`: what each stretch does to the queue of session events.
- `Batcher.rules_keptBy`: so does every stretch of all work.
-/

namespace ClientSession

/-- The wait is one for a sink. -/
def Wait.isSink : Wait → Bool
  | .deliver _ => true
  | .call _ => true
  | _ => false

/-- A batch of these events is being handed to a sink. -/
def Wait.Sends (events : List Event) : Wait → Prop
  | .deliver batch => batch.events = events
  | .call r => ∃ batch : Batch, batch.events = events ∧ r.body = batch.toJson?
  | _ => False

namespace Batcher

open Activity

/-! ## Calls -/

/-- What callers of a batcher ask for. -/
inductive Call where
  | trackAuth (event : Event)
  | trackRequest (event : Event)
  | flushAuth
  | flushRequests
  | flushOnUnload
  | startPeriodic
  | shutdown
  | clear
  | setVisibility (inBackground : Bool)
  | setUser (user : Option String)

/-- What they get. -/
inductive Answer where
  | done
  | accepted (accepted : Bool)

def serve : Call → Activity Batcher Answer
  | .trackAuth e => do
    modify (·.trackAuth e)
    return .done
  | .trackRequest e => do return .accepted (← Activity.attempt fun now b => b.trackRequest e now)
  | .flushAuth => do
    flushAuth
    return .done
  | .flushRequests => do
    flushRequests
    return .done
  | .flushOnUnload => do return .accepted (← Activity.step fun now b => b.flushOnUnload now)
  | .startPeriodic => do
    modify startPeriodic
    return .done
  | .shutdown => do
    modify shutdown
    return .done
  | .clear => do
    modify clear
    return .done
  | .setVisibility inBackground => do
    modify fun b => { b with inBackground := inBackground }
    return .done
  | .setUser user => do
    modify fun b => { b with user := user }
    return .done

/-- The number under which the job may be stopped. -/
def task? : BatchJob → Option Nat
  | .deferredSend task _ => some task
  | .periodicFlush task => some task
  | _ => none

/-- A batcher, its callers and its tasks. -/
def workplace : Workplace Batcher Call Answer BatchJob Nat where
  call := serve
  perform := perform
  goesBy job task := decide (task? job = some task)
  orders b := b.commands
  heeded b := { b with commands := [] }
  abandon b _ := b

/-- The work sends the session events that wait. -/
def flushes : Work Call BatchJob → Bool
  | .call .flushAuth => true
  | .job .flushAuth => true
  | .job (.periodicFlush _) => true
  | _ => false

/-! ## What leaves session events alone -/

/-- The queue of session events is the same, and nothing has been discarded. -/
structure Untouched (b b' : Batcher) : Prop where
  auth : b'.auth = b.auth
  generation : b'.generation = b.generation

protected theorem Untouched.refl (b : Batcher) : Untouched b b := ⟨rfl, rfl⟩

theorem Untouched.trans {a b c : Batcher} (h : Untouched a b) (h' : Untouched b c) :
    Untouched a c := ⟨h'.auth.trans h.auth, h'.generation.trans h.generation⟩

theorem Untouched.of_same {a b c : Batcher} (h : Untouched b c) (hauth : b.auth = a.auth)
    (hgeneration : b.generation = a.generation) : Untouched a c :=
  Untouched.trans ⟨hauth, hgeneration⟩ h

section Untouched

variable {b b' : Batcher}

theorem untouched_start (b : Batcher) (job : BatchJob) : Untouched b (b.start job).2 := by
  rw [start]
  split <;> exact ⟨rfl, rfl⟩

theorem untouched_stop (b : Batcher) (task : Option Nat) : Untouched b (b.stop task) := by
  cases task <;> exact ⟨rfl, rfl⟩

theorem untouched_startTask (b : Batcher) (job : Nat → BatchJob) :
    Untouched b (b.startTask job).2 := by
  rw [startTask]
  split <;> exact ⟨rfl, rfl⟩

theorem untouched_cancelPending (b : Batcher) : Untouched b b.cancelPending :=
  (untouched_stop b b.pendingSend).trans ⟨rfl, rfl⟩

theorem untouched_drainRequests (b : Batcher) (now : Instant) :
    Untouched b (b.drainRequests now).2 := by
  rw [drainRequests]
  split <;> exact ⟨rfl, rfl⟩

theorem untouched_startDelivery (b : Batcher) (now : Instant) :
    Untouched b (b.startDelivery now) := by
  have h := untouched_drainRequests b now
  rw [startDelivery]
  split
  · rename_i batch b' hb
    rw [hb] at h
    exact h.trans (untouched_start b' _)
  · rename_i b' hb
    rw [hb] at h
    exact h

theorem untouched_shutdown (b : Batcher) : Untouched b b.shutdown :=
  (untouched_stop b b.flushTask).trans ((untouched_cancelPending _).trans ⟨rfl, rfl⟩)

theorem untouched_startPeriodic (b : Batcher) : Untouched b b.startPeriodic := by
  rw [startPeriodic]
  split
  · exact (untouched_startTask b _).trans ((untouched_stop _ _).trans ⟨rfl, rfl⟩)
  · exact .refl b

theorem untouched_trackAuth (b : Batcher) (e : Event) :
    Untouched { b with auth := b.auth ++ [⟨b.attributed e, false⟩] } (b.trackAuth e) := by
  rw [trackAuth]
  dsimp only
  split
  · exact untouched_start _ _
  · exact .refl _

theorem untouched_deferSend {now : Instant} (h : b.deferSend now = .ok b') : Untouched b b' := by
  rw [deferSend] at h
  split at h
  · cases h
    exact .refl b
  · cases hd : b.sendDelay now with
    | error e =>
        rw [hd] at h
        cases h
    | ok wait =>
        rw [hd] at h
        cases h
        exact (untouched_startTask b _).trans ⟨rfl, rfl⟩

theorem untouched_trackRequest {e : Event} {now : Instant} {r : Bool × Batcher}
    (h : b.trackRequest e now = .ok r) : Untouched b r.2 := by
  rw [trackRequest] at h
  split at h
  · cases h
    exact .refl b
  · dsimp only at h
    split at h
    · cases h
      exact ⟨rfl, rfl⟩
    · split at h
      · cases h
        exact ((untouched_cancelPending _).trans (untouched_startDelivery _ now)).of_same rfl rfl
      · revert h
        generalize hd : deferSend _ now = d
        intro h
        cases d with
        | error e => cases h
        | ok b' =>
            cases h
            exact (untouched_deferSend hd).of_same rfl rfl

theorem untouched_sendLast (b : Batcher) (batch : Batch) (now : Instant) :
    Untouched b (b.sendLast batch now).2 := by
  rw [sendLast]
  split
  · exact ⟨rfl, rfl⟩
  · split
    · exact ⟨rfl, rfl⟩
    · exact (untouched_start { b with serial := b.serial + 1 } _).of_same rfl rfl

theorem untouched_flushOnUnload (b : Batcher) (now : Instant) :
    Untouched b (b.flushOnUnload now).2 := by
  have h := (untouched_cancelPending b).trans (untouched_drainRequests b.cancelPending now)
  rw [flushOnUnload]
  split
  · rename_i b' hb
    rw [hb] at h
    exact h
  · rename_i batch b' hb
    rw [hb] at h
    exact h.trans (untouched_sendLast _ _ _)

end Untouched

/-! ## What each stretch does -/

/-- What a flush holds on to while it waits for the sink: the queue that it took, and how often
everything had been discarded then. -/
abbrev Memo := Option (List QueuedEvent × Nat)

/-- The stretch begins to send the queue. -/
structure Takes (i : Start Batcher) (w : Wait) (b : Batcher) (m : Memo) : Prop where
  some : i.state.auth ≠ []
  sends : w.Sends (i.state.auth.map (·.event))
  auth : b.auth = []
  generation : b.generation = i.state.generation
  memo : m = .some (i.state.auth, i.state.generation)

/-- What a stretch that pauses does. -/
def pact (work : Work Call BatchJob) : Pact Memo Batcher := fun m i p b m' =>
  match p with
  | .drops => b = i.state ∧ m' = m
  | .faults => work.isCall = true
  | .stays => False
  | .waits w => m = none ∧
    if (flushes work && w.isSink) = true then Takes i w b m' else Untouched i.state b ∧ m' = none

/-- What ended the wait is a success of the sink. -/
def succeeded : Option Cue → Bool
  | some ⟨.deliver _, .ok _⟩ => true
  | some ⟨.call _, .ok response⟩ => response.isSuccess
  | _ => false

/-- The send is over: if it failed and nothing has been discarded since, what it took returns to the
front of the queue as far as it was sent once. -/
structure Settles (queue : List QueuedEvent) (generation : Nat) (i : Start Batcher) (b : Batcher) :
    Prop where
  auth : b.auth = (if !succeeded i.cue && i.state.generation = generation then requeued queue
    else []) ++ i.state.auth
  generation : b.generation = i.state.generation

/-- What a stretch at the end of the work does. A flush that ends without having waited for the sink
was refused at once. -/
def outcome : Work Call BatchJob → Memo → Start Batcher → Batcher → Prop
  | work, some (queue, generation), i, b =>
    flushes work = true ∧ Settles queue generation i b
  | .call (.trackAuth e), none, i, b =>
    b.auth = i.state.auth ++ [⟨i.state.attributed e, false⟩] ∧ b.generation = i.state.generation
  | .call .clear, none, i, b => b.auth = [] ∧ b.generation = i.state.generation + 1
  | work, none, i, b =>
    if flushes work then b.auth = requeued i.state.auth ∧ b.generation = i.state.generation
    else Untouched i.state b

def rules : Rules Memo Batcher Call Answer BatchJob where
  memo := none
  pact := pact
  outcome work m i _ b := outcome work m i b

/-- Nothing has happened to the queue in this stretch, and nothing of it is held. -/
def Quiet (m : Memo) (i : Start Batcher) (b : Batcher) : Prop := m = none ∧ Untouched i.state b

section Work

variable {work : Work Call BatchJob}

theorem quiet_modify {f : Batcher → Batcher} (hf : ∀ b, Untouched b (f b)) :
    Maintains (pact work) Quiet (modify f : Activity Batcher PUnit) :=
  triple_modify fun _ _ b h => ⟨h.1, h.2.trans (hf b)⟩

theorem quiet_step {α : Type} {f : Instant → Batcher → α × Batcher}
    (hf : ∀ now b, Untouched b (f now b).2) : Maintains (pact work) Quiet (Activity.step f) :=
  triple_step fun _ i b h => ⟨h.1, h.2.trans (hf i.now b)⟩

/-- Nobody but a flush holds what it waits for the sink with. -/
theorem quiet_await {w : Wait} (hw : (flushes work && w.isSink) = false) :
    Maintains (pact work) Quiet (Activity.await w) := by
  refine triple_await fun m i b h => ⟨none, ⟨h.1, ?_⟩, fun _ _ => ⟨rfl, rfl⟩, fun _ _ b => ?_⟩
  · rw [if_neg (by rw [hw]; exact Bool.false_ne_true)]
    exact ⟨h.2, rfl⟩
  · exact ⟨rfl, .refl b⟩

theorem quiet_sleep (span : Span) : Maintains (pact work) Quiet (Activity.sleep span) :=
  Maintains.ite (quiet_await (Bool.and_false _)) (maintains_pure ())

theorem quiet_send (hwork : flushes work = false) (batch : Batch) :
    Maintains (pact work) Quiet (send batch) := by
  have hwait (w : Wait) : (flushes work && w.isSink) = false := by rw [hwork]; rfl
  refine Maintains.bind maintains_get fun b => ?_
  cases b.sink with
  | service accepts => exact quiet_await (hwait _)
  | ingest profile csrf =>
      refine Maintains.bind (quiet_step fun _ _ => ⟨rfl, rfl⟩) fun request => ?_
      cases request with
      | none => exact maintains_pure _
      | some r =>
          refine Maintains.bind (quiet_await (hwait _)) fun a => ?_
          cases a with
          | error f => exact maintains_pure _
          | ok response => exact maintains_pure _

theorem quiet_deliver (hwork : flushes work = false) (batch : Batch) :
    Maintains (pact work) Quiet (deliver batch) := by
  refine Maintains.bind (quiet_modify fun _ => ⟨rfl, rfl⟩) fun _ => ?_
  refine Maintains.bind (quiet_send hwork batch) fun result => ?_
  cases result <;> exact quiet_modify fun _ => ⟨rfl, rfl⟩

theorem quiet_flushRequests (hwork : flushes work = false) :
    Maintains (pact work) Quiet flushRequests := by
  refine Maintains.bind (quiet_modify untouched_cancelPending) fun _ => ?_
  refine Maintains.bind (quiet_step fun now b => untouched_drainRequests b now) fun batch => ?_
  cases batch with
  | none => exact maintains_pure _
  | some batch => exact quiet_deliver hwork batch

/-- A flush has taken the queue that it found in this stretch. -/
structure Taken (before : Batcher) (i : Start Batcher) (b : Batcher) : Prop where
  found : Untouched i.state before
  some : before.auth ≠ []
  auth : b.auth = []
  generation : b.generation = before.generation

/-- What the sink did: it refused at once, or it ended the wait with its answer. -/
def Sent (before : Batcher) (m : Memo) (i : Start Batcher) (r : Except SinkFailure Unit)
    (b : Batcher) : Prop :=
  (m = none ∧ Taken before i b ∧ r.isOk = false) ∨
    (m = some (before.auth, before.generation) ∧ Untouched i.state b ∧ succeeded i.cue = r.isOk)

/-- A flush that waits for the sink holds on to what it took. -/
theorem triple_awaitSink {before : Batcher} (hwork : flushes work = true) {w : Wait}
    (hw : w.isSink = true) (hsends : w.Sends (before.auth.map (·.event))) :
    Triple (pact work) (fun m i b => m = none ∧ Taken before i b) (Activity.await w)
      fun m i a b => m = some (before.auth, before.generation) ∧ Untouched i.state b ∧
        i.cue = some ⟨w, a⟩ := by
  refine triple_await fun m i b h => ⟨some (before.auth, before.generation), ⟨h.1, ?_⟩,
    fun _ _ => ⟨rfl, rfl⟩, fun _ _ b => ⟨rfl, .refl b, rfl⟩⟩
  obtain ⟨hfound, hsome, hauth, hgeneration⟩ := h.2
  rw [if_pos (by rw [hwork, hw]; rfl)]
  rw [hfound.auth] at hsome hsends
  exact ⟨hsome, hsends, hauth, hgeneration.trans hfound.generation,
    by rw [hfound.auth, hfound.generation]⟩

theorem body_ingestRequest? {profile : DeviceProfile} {csrf : Option String} {batch : Batch}
    {now : Instant} {serial : Nat} {r : Request}
    (h : ingestRequest? profile csrf batch now serial = some r) : r.body = batch.toJson? := by
  obtain ⟨body, hbody, rfl⟩ := Option.map_eq_some_iff.mp h
  exact (Request.alike_secure ..).body.trans hbody.symm

theorem triple_send {before : Batcher} (hwork : flushes work = true) {batch : Batch}
    (hbatch : batch.events = before.auth.map (·.event)) :
    Triple (pact work) (fun m i b => m = none ∧ Taken before i b) (send batch)
      (Sent before) := by
  refine Triple.bind (M := fun m i _ b => m = none ∧ Taken before i b)
    (triple_get fun _ _ _ h => h) fun b => ?_
  cases b.sink with
  | service accepts =>
      have hawait := triple_awaitSink hwork (w := .deliver batch) rfl hbatch
      refine hawait.conseq (fun _ _ _ h => h) fun m i a b h => ?_
      refine .inr ⟨h.1, h.2.1, ?_⟩
      rw [h.2.2]
      cases a <;> rfl
  | ingest profile csrf =>
      refine Triple.bind (M := fun m i request b => (m = none ∧ Taken before i b) ∧
        ∀ r, request = some r → r.body = batch.toJson?) (triple_step ?_) fun request => ?_
      · intro m i b h
        exact ⟨⟨h.1, h.2.found, h.2.some, h.2.auth, h.2.generation⟩,
          fun r hr => body_ingestRequest? hr⟩
      · cases request with
        | none => exact triple_pure fun m i b h => .inl ⟨h.1.1, h.1.2, rfl⟩
        | some r =>
            refine Triple.of_fact fun hr => ?_
            refine Triple.bind (triple_awaitSink hwork rfl ⟨batch, hbatch, hr r rfl⟩) fun a => ?_
            cases a with
            | error f =>
                refine triple_pure fun m i b h => .inr ⟨h.1, h.2.1, ?_⟩
                rw [h.2.2]
                rfl
            | ok response =>
                refine triple_pure fun m i b h => .inr ⟨h.1, h.2.1, ?_⟩
                rw [h.2.2, succeeded]
                cases response.isSuccess <;> rfl

/-- What a flush does in its last stretch. -/
def Flushed (m : Memo) (i : Start Batcher) (b : Batcher) : Prop :=
  match m with
  | some (queue, generation) => Settles queue generation i b
  | none => b.auth = requeued i.state.auth ∧ b.generation = i.state.generation

/-- What a flush does once its send has failed. -/
def giveBack (before b : Batcher) : Batcher :=
  let b := b.count .failure
  if b.generation = before.generation then { b with auth := requeued before.auth ++ b.auth } else b

theorem auth_giveBack (before b : Batcher) : (giveBack before b).auth =
    (if b.generation = before.generation then requeued before.auth else []) ++ b.auth := by
  have hcount : (b.count .failure).generation = b.generation := rfl
  rw [giveBack, hcount]
  split <;> rfl

theorem generation_giveBack (before b : Batcher) :
    (giveBack before b).generation = b.generation := by
  rw [giveBack]
  split <;> rfl

theorem Sent.flushed {before : Batcher} {m : Memo} {i : Start Batcher} {b : Batcher}
    {f : SinkFailure} (h : Sent before m i (.error f) b) : Flushed m i (giveBack before b) := by
  rcases h with ⟨rfl, htaken, -⟩ | ⟨rfl, hfound, hfailed⟩
  · -- Nothing can have been discarded in the one stretch.
    refine ⟨?_, (generation_giveBack before b).trans
      (htaken.generation.trans htaken.found.generation)⟩
    rw [auth_giveBack, if_pos htaken.generation, htaken.auth, htaken.found.auth, List.append_nil]
  · refine ⟨?_, (generation_giveBack before b).trans hfound.generation⟩
    rw [auth_giveBack, hfound.auth, hfound.generation, hfailed]
    simp [Except.isOk, Except.toBool]

theorem triple_flushAuth (hwork : flushes work = true) :
    Triple (pact work) Quiet flushAuth fun m i _ b => Flushed m i b := by
  refine Triple.bind (M := fun m i before b => Quiet m i before ∧ before = b)
    (triple_get fun _ _ _ h => ⟨h, rfl⟩) fun before => Triple.ite (fun hempty => ?_) fun hsome => ?_
  · refine triple_pure ?_
    rintro m i b ⟨⟨rfl, hfound⟩, rfl⟩
    have hnil : i.state.auth = [] := hfound.auth.symm.trans (List.isEmpty_iff.mp hempty)
    exact ⟨by rw [List.isEmpty_iff.mp hempty, hnil]; rfl, hfound.generation⟩
  · refine Triple.bind (M := fun m i batch b => (m = none ∧ Taken before i b) ∧
      batch.events = before.auth.map (·.event)) (triple_step ?_) fun batch => ?_
    · rintro m i b ⟨⟨rfl, hfound⟩, rfl⟩
      exact ⟨⟨rfl, hfound, fun hnil => hsome (List.isEmpty_iff.mpr hnil), rfl, rfl⟩, rfl⟩
    · refine Triple.bind (M := fun m i _ b => (m = none ∧ Taken before i b) ∧
        batch.events = before.auth.map (·.event)) (triple_modify ?_) fun _ => ?_
      · exact fun m i b h => ⟨⟨h.1.1, h.1.2.found, h.1.2.some, h.1.2.auth, h.1.2.generation⟩, h.2⟩
      · refine Triple.of_fact fun hbatch => Triple.bind (triple_send hwork hbatch) fun result => ?_
        cases result with
        | ok u =>
            refine triple_modify fun m i b h => ?_
            rcases h with ⟨-, -, hfail⟩ | ⟨rfl, hfound, hsucceeded⟩
            · cases hfail
            · refine ⟨?_, hfound.generation⟩
              rw [hsucceeded]
              exact hfound.auth
        | error f =>
            exact triple_modify fun m i b h => h.flushed

/-! ## All work -/

theorem Flushed.outcome {m : Memo} {i : Start Batcher} {b : Batcher} (h : Flushed m i b) :
    outcome (.call .flushAuth) m i b ∧ outcome (.job .flushAuth) m i b ∧
      ∀ task, outcome (.job (.periodicFlush task)) m i b := by
  cases m with
  | none => exact ⟨h, h, fun _ => h⟩
  | some held => exact ⟨⟨rfl, h⟩, ⟨rfl, h⟩, fun _ => ⟨rfl, h⟩⟩

/-- The work leaves session events alone. -/
def spares : Work Call BatchJob → Bool
  | .call (.trackAuth _) => false
  | .call .clear => false
  | work => !flushes work

theorem Quiet.outcome {m : Memo} {i : Start Batcher} {b : Batcher} (h : Quiet m i b)
    (hwork : spares work = true) : outcome work m i b := by
  obtain ⟨rfl, h⟩ := h
  cases work with
  | call k => cases k <;> first | exact h | cases hwork
  | job j => cases j <;> first | exact h | cases hwork

/-- The work begins. -/
def Begins (m : Memo) (i : Start Batcher) (b : Batcher) : Prop := m = none ∧ b = i.state

theorem Begins.quiet {m : Memo} {i : Start Batcher} {b : Batcher} (h : Begins m i b) :
    Quiet m i b := by
  obtain ⟨rfl, rfl⟩ := h
  exact ⟨rfl, .refl _⟩

/-- Work that leaves session events alone does no more than that. -/
theorem triple_spares {work : Work Call BatchJob} (hwork : spares work = true) {α : Type}
    {x : Activity Batcher α} (hx : Maintains (pact work) Quiet x) :
    Triple (pact work) Begins x fun m i _ b => outcome work m i b :=
  hx.conseq (fun _ _ _ h => h.quiet) fun _ _ _ _ h => h.outcome hwork

theorem triple_serve (k : Call) :
    Triple (pact (.call k)) Begins (serve k) fun m i _ b => outcome (.call k) m i b := by
  cases k with
  | trackAuth e =>
      refine Triple.map (triple_modify ?_)
      rintro m i b ⟨rfl, rfl⟩
      have htrack := untouched_trackAuth i.state e
      exact ⟨htrack.auth, htrack.generation⟩
  | trackRequest e =>
      refine triple_spares rfl (Triple.map (triple_attempt ?_ ?_))
      · exact fun _ _ _ _ => rfl
      · exact fun _ _ _ _ h hr => ⟨h.1, h.2.trans (untouched_trackRequest hr)⟩
  | flushAuth =>
      exact Triple.map ((triple_flushAuth rfl).conseq (fun _ _ _ h => h.quiet)
        fun _ _ _ _ h => h.outcome.1)
  | flushRequests =>
      exact triple_spares rfl (Maintains.bind (quiet_flushRequests rfl) fun _ => maintains_pure _)
  | flushOnUnload =>
      exact triple_spares rfl
        (Maintains.map (quiet_step fun now b => untouched_flushOnUnload b now))
  | startPeriodic =>
      exact triple_spares rfl
        (Maintains.bind (quiet_modify untouched_startPeriodic) fun _ => maintains_pure _)
  | shutdown =>
      exact triple_spares rfl
        (Maintains.bind (quiet_modify untouched_shutdown) fun _ => maintains_pure _)
  | clear =>
      refine Triple.map (triple_modify ?_)
      rintro m i b ⟨rfl, rfl⟩
      exact ⟨rfl, rfl⟩
  | setVisibility inBackground =>
      exact triple_spares rfl
        (Maintains.bind (quiet_modify fun _ => ⟨rfl, rfl⟩) fun _ => maintains_pure _)
  | setUser user =>
      exact triple_spares rfl
        (Maintains.bind (quiet_modify fun _ => ⟨rfl, rfl⟩) fun _ => maintains_pure _)

theorem triple_perform (j : BatchJob) :
    Triple (pact (.job j)) Begins (perform j) fun m i _ b => outcome (.job j) m i b := by
  cases j with
  | flushAuth =>
      exact Triple.map ((triple_flushAuth rfl).conseq (fun _ _ _ h => h.quiet)
        fun _ _ _ _ h => h.outcome.2.1)
  | deliver batch =>
      exact triple_spares rfl (Maintains.bind (quiet_deliver rfl batch) fun _ => maintains_pure _)
  | farewell request =>
      exact triple_spares rfl (Maintains.bind (quiet_await rfl) fun _ => maintains_pure _)
  | deferredSend task wait =>
      refine triple_spares rfl (Maintains.bind (quiet_sleep wait) fun _ =>
        Maintains.bind (triple_change ?_) fun _ =>
          Maintains.bind (quiet_modify fun b => ?_) fun _ => maintains_pure _)
      · exact fun _ i b h => ⟨h.1, h.2.trans (untouched_startDelivery b i.now)⟩
      · split <;> exact ⟨rfl, rfl⟩
  | periodicFlush task =>
      refine Triple.bind (M := fun m i _ b => Quiet m i b) ?_ fun period => ?_
      · exact triple_get fun _ _ _ h => h.quiet
      refine Triple.bind (quiet_sleep _) fun _ => ?_
      exact Triple.map ((triple_flushAuth rfl).conseq (fun _ _ _ h => h)
        fun _ _ _ _ h => h.outcome.2.2 task)

end Work

theorem rules_keptBy : rules.KeptBy workplace where
  drops _ _ _ := ⟨rfl, rfl⟩
  meets work now b := by
    cases work with
    | call k => exact (Triple.map (triple_serve k)).meets none ⟨none, now, b⟩ b ⟨rfl, rfl⟩
    | job j =>
        have hjob : Triple (pact (.job j)) Begins (workplace.carryOut (.job j))
            fun m i _ b => outcome (.job j) m i b := by
          refine Triple.bind (triple_perform j) fun next => ?_
          cases next <;> exact triple_pure fun _ _ _ h => h
        exact hjob.meets none ⟨none, now, b⟩ b ⟨rfl, rfl⟩

end Batcher

end ClientSession
