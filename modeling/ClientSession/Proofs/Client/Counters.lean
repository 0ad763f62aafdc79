import ClientSession.Proofs.Client.Expulsion
import ClientSession.Proofs.Client.Thrift

/-!
# What calls count

A call counts one request in its first stretch. It may wait for its turn under a limit, and then it
is made, once, or refused without being made. In its last stretch a call that fails counts one
failure, one that is refused also one short circuit, and one whose answer ends the session one
expiration. Nothing else that a client does changes these counts, but for the check of its token,
which is a call too.

- `Client.Tallying`, `Client.Tallied`: what each stretch of a call counts, given what the call has
  waited for so far.
- `Client.tallies_send`: so does every call.
- `Client.uncounted_serve`, `Client.uncounted_perform`: other work counts nothing.
-/

namespace ClientSession

open Activity

/-- The wait is for time to pass. -/
def Wait.isSleep : Wait → Bool
  | .sleep _ => true
  | _ => false

/-- Nothing was waited for but that time passes. -/
def OnlySleeps (ws : List Wait) : Prop := ∀ w ∈ ws, w.isSleep = true

/-- The last wait was for the server, and none before it was for anything but that time passes. -/
def EndsInCall (ws : List Wait) : Prop := ∃ us q, ws = us ++ [.call q] ∧ OnlySleeps us

theorem OnlySleeps.nil : OnlySleeps [] := fun _ hw => nomatch hw

theorem OnlySleeps.snoc {ws : List Wait} (h : OnlySleeps ws) {w : Wait} (hw : w.isSleep = true) :
    OnlySleeps (ws ++ [w]) :=
  List.forall_mem_append.mpr ⟨h, List.forall_mem_singleton.mpr hw⟩

theorem OnlySleeps.endsInCall {ws : List Wait} (h : OnlySleeps ws) (q : Request) :
    EndsInCall (ws ++ [.call q]) := ⟨ws, q, rfl, h⟩

theorem OnlySleeps.any_isCall {ws : List Wait} (h : OnlySleeps ws) : ws.any (·.isCall) = false := by
  refine List.any_eq_false.mpr fun w hw hcall => ?_
  have hsleep := h w hw
  cases w with
  | sleep span => cases hcall
  | _ => cases hsleep

theorem EndsInCall.any_isCall {ws : List Wait} (h : EndsInCall ws) :
    ws.any (·.isCall) = true := by
  obtain ⟨us, q, rfl, -⟩ := h
  rw [List.any_append, List.any_cons, Wait.isCall, Bool.true_or, Bool.or_true]

/-- No stretch waits for anything but that time passes, and none is resumed too early. -/
def Sleeping {σ : Type} : Pact Unit σ := fun _ _ p _ _ =>
  (∀ w, p = .waits w → w.isSleep = true) ∧ p ≠ .stays

theorem sleeping_sleep {σ : Type} (span : Span) :
    Maintains Sleeping (fun _ _ _ => True) (Activity.sleep span : Activity σ Unit) := by
  refine Maintains.ite (triple_await fun _ _ _ _ => ?_) (maintains_pure ())
  refine ⟨(), ⟨?_, nofun⟩, fun _ _ => ⟨nofun, nofun⟩, fun _ _ _ => trivial⟩
  intro w hw
  cases hw
  rfl

theorem sleeping_attempt {σ α : Type} (f : Instant → σ → Checked (α × σ)) :
    Maintains Sleeping (fun _ _ _ => True) (Activity.attempt f) :=
  triple_attempt (fun _ _ _ _ => ⟨nofun, nofun⟩) fun _ _ _ _ _ _ => trivial

theorem Limiter.sleeping_acquire (endpoint : String) (user : Option String) :
    Maintains Sleeping (fun _ _ _ => True) (acquire endpoint user) := by
  refine Maintains.bind maintains_get fun l => ?_
  cases l.limit? endpoint with
  | none => exact maintains_pure _
  | some limit =>
      refine Maintains.bind (sleeping_attempt _) fun wait => ?_
      cases wait with
      | none => exact maintains_pure _
      | some wait =>
          exact Maintains.bind (sleeping_sleep _) fun _ => Maintains.map (sleeping_attempt _)

theorem Client.sleeping_backOff (policy : RetryPolicy) (done : Nat) :
    Maintains Sleeping (fun _ _ _ => True) (Client.backOff policy done) := by
  refine Maintains.bind (triple_step fun _ _ _ h => h) fun jitter => ?_
  exact Maintains.bind (sleeping_attempt _) fun span => sleeping_sleep span

/-- The call was refused without being made. -/
def ApiError.isRefusal (e : ApiError) : Bool :=
  match e.raw with
  | .refused _ => true
  | _ => false

theorem raw_classify (raw : RawFailure) (now : Instant) : (classify raw now).raw = raw := by
  unfold classify
  split
  · rfl
  · rfl
  · rfl
  · split
    · rfl
    · split <;> rfl
  · split <;> rfl

theorem isRefusal_classify (raw : RawFailure) (now : Instant) :
    (classify raw now).isRefusal = match raw with
      | .refused _ => true
      | _ => false := by
  rw [ApiError.isRefusal, raw_classify]

/-- The counts after a call has begun, failed, been refused and ended the session, so far as it has.
-/
def CallCounts.after (n : CallCounts) (begins fails refused expels : Bool) : CallCounts where
  requests := n.requests + begins.toNat
  failures := n.failures + fails.toNat
  shortCircuits := n.shortCircuits + refused.toNat
  sessionExpirations := n.sessionExpirations + expels.toNat

namespace Client

variable {α σ : Type} {ws : List Wait} {i : Start Client} {c c' : Client}

@[simp] theorem counts_setTabs (c : Client) (w : Tabs) : (c.setTabs w).counts = c.counts := by
  unfold setTabs
  dsimp only
  split <;> rfl

@[simp] theorem counts_mapTabs (c : Client) (f : Tabs → Tabs) :
    (c.mapTabs f).counts = c.counts := counts_setTabs c _

/-! ## Calls -/

/-- The call has begun and has not been made: all it counts is a request. -/
structure Pending (ws : List Wait) (i : Start Client) (c : Client) : Prop where
  waited : OnlySleeps ws
  unexpelled : i.expelled = false
  counts : c.counts = i.state.counts.after ws.isEmpty false false false

/-- The call has been made, and this is its outcome. -/
structure Made (q : Request) (outcome : TransportOutcome) (ws : List Wait) (i : Start Client)
    (c : Client) : Prop where
  waited : EndsInCall ws
  cue : i.cue = some ⟨.call q, outcome⟩
  counts : c.counts = i.state.counts

/-- How a call ends. A failure may have been counted or may not. -/
inductive Tallied (failed : Bool) (ws : List Wait) (i : Start Client) :
    CallResult → Client → Prop where
  | answers (response : Response) (c : Client) (waited : EndsInCall ws)
      (unexpelled : i.expelled = false) (counts : c.counts = i.state.counts) :
      Tallied failed ws i (.ok response) c
  | refused (e : ApiError) (c : Client) (he : e.isRefusal = true) (waited : OnlySleeps ws)
      (unexpelled : i.expelled = false)
      (counts : c.counts = i.state.counts.after ws.isEmpty failed true false) :
      Tallied failed ws i (.error e) c
  | fails (e : ApiError) (c : Client) (he : e.isRefusal = false) (waited : EndsInCall ws)
      (counts : c.counts = i.state.counts.after false failed false i.expelled) :
      Tallied failed ws i (.error e) c

/-- What is asked of a stretch of a call that does not end it. The memo is what has been waited for.
-/
def Tallying : Pact (List Wait) Client := fun ws i p c ws' =>
  match p with
  | .waits w => Pending ws i c ∧ (w.isSleep = true ∨ w.isCall = true) ∧ ws' = ws ++ [w]
  | .drops => c.counts = i.state.counts ∧ i.expelled = false ∧ ws' = ws
  | .faults => True
  | .stays => False

theorem Pending.same (h : Pending ws i c) (hc : c'.counts = c.counts) : Pending ws i c' :=
  ⟨h.waited, h.unexpelled, hc.trans h.counts⟩

theorem Made.same {q : Request} {outcome : TransportOutcome} (h : Made q outcome ws i c)
    (hc : c'.counts = c.counts) : Made q outcome ws i c' :=
  ⟨h.waited, h.cue, hc.trans h.counts⟩

theorem Tallied.same {failed : Bool} {r : CallResult} (h : Tallied failed ws i r c)
    (hc : c'.counts = c.counts) : Tallied failed ws i r c' := by
  cases h with
  | answers response c hw hi h => exact .answers response c' hw hi (hc.trans h)
  | refused e c he hw hi h => exact .refused e c' he hw hi (hc.trans h)
  | fails e c he hw h => exact .fails e c' he hw (hc.trans h)

/-- What is known of the counts alone survives whatever leaves the counts. -/
def Unshaken (A : List Wait → Start Client → Client → Prop) : Prop :=
  ∀ ws i c c', A ws i c → c'.counts = c.counts → A ws i c'

theorem Unshaken.trackRequest {A : List Wait → Start Client → Client → Prop} (hA : Unshaken A)
    (e : Event) : Maintains Tallying A (Client.trackRequest e) := by
  refine triple_attempt (fun _ _ _ _ => trivial) fun ws i c r h hr => ?_
  obtain ⟨d, -, rfl⟩ := ok_of_bind hr
  exact hA ws i c _ h rfl

theorem Unshaken.reportFailure {A : List Wait → Start Client → Client → Prop} (hA : Unshaken A)
    (r : Request) (path : String) (status : Option Nat) (elapsed : Span) (e : ApiError) :
    Maintains Tallying A (Client.reportFailure r path status elapsed e) :=
  Maintains.bind maintains_now fun _ =>
    Maintains.ite (maintains_pure _) (hA.trackRequest _)

theorem tallies_reject (r : Request) (path : String) (failure : LocalFailure) :
    Triple Tallying Pending (Client.reject r path failure)
      fun ws i e c => Tallied false ws i (.error e) c := by
  refine Triple.bind (maintains_now (A := Pending)) fun now => ?_
  let e := classify (.refused failure) now
  have he : e.isRefusal = true := isRefusal_classify (.refused failure) now
  refine Triple.bind (M := fun ws i _ c => Tallied false ws i (.error e) c)
    (triple_modify fun ws i c h => ?_) fun _ => ?_
  · refine .refused e _ he h.waited h.unexpelled ?_
    show ({ c.counts with shortCircuits := c.counts.shortCircuits + 1 } : CallCounts) = _
    rw [h.counts]
    rfl
  · have hkept : Unshaken fun ws i c => Tallied false ws i (.error e) c :=
      fun _ _ _ _ h hc => h.same hc
    exact Triple.bind (hkept.trackRequest _) fun _ => triple_pure fun _ _ _ h => h

/-- What follows from the status of a failed call. -/
theorem tallies_heedStatus {r : Request} {path : String} (hpath : Route.normalize r.path = path)
    (response : Response) (elapsed : Span) :
    Triple Tallying (Made r (.ok response)) (Client.heedStatus r path response elapsed)
      fun ws i _ c => EndsInCall ws ∧
        c.counts = i.state.counts.after false false false i.expelled := by
  have hexpelled : ∀ ws i c, Made r (.ok response) ws i c → (i.expelled = true ↔
      response.status = 401 ∧ Route.requiresAuth path = true) := by
    intro ws i c h
    rw [expelled_call h.cue, hpath]
  -- Only where the answer expels is anything counted.
  have hquiet : ¬(response.status = 401 ∧ Route.requiresAuth path = true) →
      ∀ {x : Activity Client Unit}, Maintains Tallying (Made r (.ok response)) x →
        Triple Tallying (Made r (.ok response)) x fun ws i _ c => EndsInCall ws ∧
          c.counts = i.state.counts.after false false false i.expelled := by
    intro hstatus x hx
    refine hx.conseq (fun _ _ _ h => h) fun ws i _ c h => ⟨h.waited, ?_⟩
    rw [Bool.eq_false_iff.mpr fun hi => hstatus ((hexpelled ws i c h).mp hi)]
    exact h.counts
  have hmade : Unshaken (Made r (.ok response)) := fun _ _ _ _ h hc => h.same hc
  refine Triple.bind (maintains_now (A := Made r (.ok response))) fun now => ?_
  refine Triple.ite (fun h401 => Triple.ite (fun hauth => ?_) fun hpublic => ?_) fun h401 => ?_
  · refine Triple.bind (M := fun ws i _ c => Made r (.ok response) ws i c)
      (triple_modify fun ws i c h => h.same (counts_mapTabs c _)) fun _ => ?_
    refine Triple.bind (M := fun ws i _ c => EndsInCall ws ∧
      c.counts = i.state.counts.after false false false i.expelled)
        (triple_modify fun ws i c h => ⟨h.waited, ?_⟩) fun _ => triple_modify fun _ _ _ h => h
    rw [(hexpelled ws i c h).mpr ⟨h401, hauth⟩, ← h.counts]
    rfl
  · exact hquiet (fun h => hpublic h.2) (maintains_pure ())
  · have hother : ¬(response.status = 401 ∧ Route.requiresAuth path = true) := fun h => h401 h.1
    refine Triple.ite (fun _ => ?_) fun _ => Triple.ite (fun _ => ?_) fun _ => ?_
    · exact hquiet hother (triple_modify fun _ _ _ h => h.same rfl)
    · exact hquiet hother (hmade.trackRequest _)
    · exact hquiet hother (maintains_pure ())

/-- What is made of the outcome of a call. -/
theorem tallies_settleCall {r : Request} {path : String} (hpath : Route.normalize r.path = path)
    (outcome : TransportOutcome) :
    Triple Tallying (Made r outcome) (settleCall r path outcome) (Tallied false) := by
  have hmade : Unshaken (Made r outcome) := fun _ _ _ _ h hc => h.same hc
  refine Triple.bind (maintains_now (A := Made r outcome)) fun now => ?_
  refine Triple.bind (M := fun ws i _ c => Made r outcome ws i c)
    (triple_attempt (fun _ _ _ _ => trivial) fun ws i c p h hp => ?_) fun elapsed => ?_
  · obtain ⟨span, -, rfl⟩ := ok_of_bind hp
    exact h
  cases outcome with
  | error failure =>
      refine Triple.bind (hmade.reportFailure r path none elapsed _) fun _ =>
        triple_pure fun ws i c h => ?_
      refine .fails _ c (isRefusal_classify _ _) h.waited ?_
      rw [expelled_failed h.cue]
      exact h.counts
  | ok response =>
      refine Triple.bind (M := fun ws i _ c => Made r (.ok response) ws i c)
        (triple_modify fun ws i c h => h.same rfl) fun _ => ?_
      refine Triple.ite (fun hsuccess => ?_) fun _ => ?_
      · have hanswer : Triple Tallying (Made r (.ok response))
            (pure (.ok response) : Activity Client CallResult) (Tallied false) := by
          refine triple_pure fun ws i c h => ?_
          refine .answers response c h.waited (Bool.eq_false_iff.mpr fun hexpelled => ?_) h.counts
          rw [Response.isSuccess, ((expelled_call h.cue).mp hexpelled).1] at hsuccess
          cases hsuccess
        exact Triple.ite (fun _ => Triple.bind (hmade.trackRequest _) fun _ => hanswer)
          fun _ => hanswer
      · refine Triple.bind (tallies_heedStatus hpath response elapsed) fun _ => ?_
        have hheeded : Unshaken fun ws i c => EndsInCall ws ∧
            c.counts = i.state.counts.after false false false i.expelled :=
          fun _ _ _ _ h hc => ⟨h.1, hc.trans h.2⟩
        refine Triple.bind (hheeded.reportFailure r path _ elapsed _) fun _ =>
          triple_pure fun ws i c h => ?_
        exact .fails _ c (isRefusal_classify _ _) h.1 h.2

theorem tallies_exchange {r : Request} {path : String} (hpath : Route.normalize r.path = path) :
    Triple Tallying Pending (Client.exchange r path) (Tallied false) := by
  rw [exchange_eq]
  refine Triple.bind (M := fun ws i outcome c => Made r outcome ws i c)
    (triple_await fun ws i c h => ?_) fun outcome => tallies_settleCall hpath outcome
  exact ⟨_, ⟨h, .inr rfl, rfl⟩, fun _ _ => ⟨rfl, rfl, rfl⟩,
    fun _ _ _ => ⟨h.waited.endsInCall r, rfl, rfl⟩⟩

theorem tallies_authorize {r : Request} {path : String} (hpath : Route.normalize r.path = path)
    (started : Instant) :
    Triple Tallying Pending (Client.authorize r path started) (Tallied false) := by
  refine Triple.ite (fun _ => ?_) fun _ => tallies_exchange hpath
  refine Triple.bind (M := fun ws i _ c => Pending ws i c)
    (triple_step fun ws i c h => h.same (counts_setTabs c _)) fun token => ?_
  cases token with
  | none => exact Triple.bind (tallies_reject _ _ _) fun e => triple_pure fun _ _ _ h => h
  | some token =>
      refine Triple.bind (M := fun ws i _ c => Pending ws i c)
        (triple_modify fun ws i c h => h.same rfl) fun _ => ?_
      exact tallies_exchange (r := r.setHeader "authorization" token.authorization) hpath

/-- Work on a part that counts nothing. -/
theorem tallies_within {get : Client → σ} {put : Client → σ → Client}
    (hput : ∀ c s, (put c s).counts = c.counts) {x : Activity σ α}
    (hx : Maintains Sleeping (fun _ _ _ => True) x) :
    Maintains Tallying Pending (x.within get put) := by
  refine ⟨fun ws i c h => ?_⟩
  have hmeets := hx.meets () ⟨none, i.now, get c⟩ (get c) trivial
  show ((x i.now (get c)).within get put c).Meets _ _ _ _
  generalize x i.now (get c) = r at hmeets
  generalize (⟨none, i.now, get c⟩ : Start σ) = j at hmeets
  induction r generalizing ws i j c with
  | done s a => exact h.same (hput c s)
  | fault s e => trivial
  | stay s => exact absurd rfl hmeets.2
  | wait s w drop resume ih =>
      obtain ⟨_, ⟨hsleep, -⟩, -, hresume⟩ := hmeets
      have hw := hsleep w rfl
      refine ⟨ws ++ [w], ⟨h.same (hput c s), .inl hw, rfl⟩, fun now d => ⟨hput d _, rfl, rfl⟩,
        fun a now d => ?_⟩
      refine ih a now (get d) (ws ++ [w]) ⟨some ⟨w, a⟩, now, d⟩ d ⟨h.waited.snoc hw, ?_, ?_⟩
        ⟨some ⟨w, a⟩, now, get d⟩ (hresume a now (get d))
      · cases w with
        | sleep span => rfl
        | _ => cases hw
      · have hsome : (ws ++ [w]).isEmpty = false := by simp
        rw [hsome]
        rfl

/-- The wait for a turn under a limit. -/
theorem tallies_acquire (endpoint : String) (user : Option String) :
    Maintains Tallying Pending (Client.acquire endpoint user) := by
  refine tallies_within (fun c l => ?_) (Limiter.sleeping_acquire endpoint user)
  rfl

theorem tallies_remainingWait (endpoint : String) (user : Option String) :
    Maintains Tallying Pending (Client.remainingWait endpoint user) := by
  refine triple_attempt (fun _ _ _ _ => trivial) fun ws i c r h hr => ?_
  obtain ⟨d, -, rfl⟩ := ok_of_bind hr
  exact h.same rfl

/-- The work of a call is begun. -/
def Starting (ws : List Wait) (i : Start Client) (c : Client) : Prop :=
  ws = [] ∧ i.cue = none ∧ c.counts = i.state.counts

theorem tallies_dispatch (request : Request) :
    Triple Tallying Starting (Client.dispatch request) (Tallied false) := by
  refine Triple.bind (maintains_now (A := Starting)) fun started => ?_
  refine Triple.bind (M := fun ws i r c => Pending ws i c ∧ r.path = request.path)
    (triple_step fun ws i c h => ?_) fun r => Triple.of_fact fun hr => ?_
  · obtain ⟨rfl, hcue, hcounts⟩ := h
    refine ⟨⟨.nil, ?_, ?_⟩, path_prepare c request i.now⟩
    · rw [Start.expelled, hcue]
      rfl
    · rw [← hcounts]
      rfl
  have hauthorize := tallies_authorize (congrArg Route.normalize hr) started
  refine Triple.ite (fun _ => ?_) fun _ => hauthorize
  refine Triple.bind (tallies_acquire _ _) fun granted => ?_
  refine Triple.ite (fun _ => hauthorize) fun _ => ?_
  refine Triple.bind (tallies_remainingWait _ _) fun wait => ?_
  exact Triple.bind (tallies_reject _ _ _) fun e => triple_pure fun _ _ _ h => h

theorem counts_ite_announce (c : Client) (n : Notice) (now : Instant) :
    (if c.announces then c.announce n now else c).counts = c.counts := by
  split <;> rfl

/-- Every call counts what it should. -/
theorem tallies_send (request : Request) :
    Triple Tallying Starting (Client.send request) (Tallied true) := by
  refine Triple.bind (M := fun ws i _ c => Starting ws i c) (triple_modify fun _ _ _ h => h)
    fun _ => ?_
  refine Triple.bind (tallies_dispatch request) fun outcome => ?_
  cases outcome with
  | ok response =>
      refine Triple.bind (M := fun ws i _ c => Tallied true ws i (.ok response) c)
        (triple_modify fun ws i c h => ?_) fun _ => triple_pure fun _ _ _ h => h
      cases h with
      | answers _ _ hw hi hc => exact .answers response _ hw hi hc
  | error e =>
      refine Triple.bind (M := fun ws i _ c => Tallied false ws i (.error e) c)
        (triple_modify fun ws i c h => h.same rfl) fun _ => ?_
      refine Triple.bind (M := fun ws i _ c => Tallied true ws i (.error e) c)
        (triple_change fun ws i c h => ?_) fun _ => triple_pure fun _ _ _ h => h
      refine Tallied.same ?_ (counts_ite_announce _ _ i.now)
      cases h with
      | refused _ _ he hw hi hc =>
          refine .refused e _ he hw hi ?_
          show ({ c.counts with failures := c.counts.failures + 1 } : CallCounts) = _
          rw [hc]
          rfl
      | fails _ _ he hw hc =>
          refine .fails e _ he hw ?_
          show ({ c.counts with failures := c.counts.failures + 1 } : CallCounts) = _
          rw [hc]
          rfl

/-! ## Other work -/

/-- The counts are as they were. -/
def SameCounts (c c' : Client) : Prop := c'.counts = c.counts

/-- Every stretch leaves the counts as they are. -/
abbrev Uncounted (x : Activity Client α) : Prop := Moves (fun _ => True) SameCounts x

theorem uncounted_await (w : Wait) : Uncounted (Activity.await w) :=
  moves_await (I := SameCounts) (fun _ => rfl) trivial

theorem uncounted_modify {f : Client → Client} (hf : ∀ c, (f c).counts = c.counts) :
    Uncounted (modify f : Activity Client PUnit) :=
  moves_modify fun _ c h => (hf c).trans h

theorem uncounted_change {f : Instant → Client → Client}
    (hf : ∀ now c, (f now c).counts = c.counts) : Uncounted (Activity.change f) :=
  triple_change fun _ i c h => (hf i.now c).trans h

theorem uncounted_step {f : Instant → Client → α × Client}
    (hf : ∀ now c, (f now c).2.counts = c.counts) : Uncounted (Activity.step f) :=
  moves_step fun now _ c h => (hf now c).trans h

theorem uncounted_sleep (span : Span) : Uncounted (Activity.sleep span) :=
  moves_sleep (I := SameCounts) (fun _ => rfl) trivial

theorem uncounted_onTab (f : Tabs → Nat → Instant → α × Tabs) : Uncounted (onTab f) :=
  uncounted_step fun _ c => counts_setTabs c _

theorem uncounted_within {get : Client → σ} {put : Client → σ → Client}
    (hput : ∀ c s, (put c s).counts = c.counts) (x : Activity σ α) :
    Uncounted (x.within get put) :=
  moves_within (J := SameCounts) (fun _ => rfl) (fun _ c s h => (hput c s).trans h) x

theorem uncounted_batcher (x : Activity Batcher α) :
    Uncounted (x.within (·.batcher) setBatcher) := by
  refine uncounted_within (fun c b => ?_) x
  rfl

theorem uncounted_trackRequest (e : Event) : Uncounted (Client.trackRequest e) := by
  refine moves_attempt fun now c₀ c r h hr => ?_
  obtain ⟨d, -, rfl⟩ := ok_of_bind hr
  exact h

theorem uncounted_backOff (policy : RetryPolicy) (done : Nat) :
    Uncounted (Client.backOff policy done) := by
  refine Maintains.bind (uncounted_step fun now c => ?_) fun jitter => ?_
  · split <;> rfl
  refine Maintains.bind (moves_attempt fun now c₀ c r h hr => ?_) fun span => uncounted_sleep span
  obtain ⟨d, -, rfl⟩ := ok_of_bind hr
  exact h

theorem uncounted_fetchToken (supply : TokenSupply) : Uncounted (Client.fetchToken supply) := by
  cases supply with
  | provider => exact uncounted_await .token
  | nobody => exact maintains_pure _
  | interactive => exact maintains_pure _

theorem uncounted_renewToken : Uncounted Client.renewToken := by
  refine Maintains.bind maintains_get fun c => Maintains.bind (uncounted_fetchToken _) fun r => ?_
  cases r with
  | error e => exact maintains_pure _
  | ok issued =>
      refine Maintains.bind (uncounted_step fun now c => counts_setTabs c _) fun stored => ?_
      exact maintains_pure _

theorem uncounted_refreshInTurn (force : Bool) : Uncounted (Client.refreshInTurn force) := by
  refine Maintains.bind (uncounted_onTab _) fun needed => Maintains.ite (maintains_pure _) ?_
  refine Maintains.bind (uncounted_modify fun c => rfl) fun _ => ?_
  refine Maintains.bind uncounted_renewToken fun r => ?_
  cases r with
  | ok _ =>
      refine Maintains.bind (uncounted_modify fun c => rfl) fun _ => ?_
      refine Maintains.bind (uncounted_change fun now c => rfl) fun _ => ?_
      exact Maintains.bind (uncounted_modify fun c => rfl) fun _ => maintains_pure _
  | error e =>
      refine Maintains.bind (uncounted_modify fun c => rfl) fun _ => ?_
      exact Maintains.bind (uncounted_change fun now c => rfl) fun _ => maintains_pure _

theorem uncounted_refresh (force : Bool) : Uncounted (Client.refresh force) := by
  have htake : Uncounted Client.takeTurn := by
    refine uncounted_within (fun c t => ?_) Turn.take
    rfl
  refine Maintains.bind htake fun _ => ?_
  refine Maintains.bind (Triple.guarded (fun _ _ _ hd => hd) (uncounted_refreshInTurn force))
    fun r => ?_
  exact Maintains.bind (uncounted_modify fun c => rfl) fun _ => maintains_pure _

theorem uncounted_watch (job : WatchJob) : Uncounted (Client.watch job) := by
  cases job with
  | refreshTimer task =>
      refine Maintains.bind maintains_get fun c => Maintains.bind (uncounted_sleep _) fun _ => ?_
      refine Maintains.bind (uncounted_onTab _) fun stored => Maintains.ite ?_ (maintains_pure _)
      exact Maintains.bind (uncounted_refresh false) fun _ => maintains_pure _
  | expiryTimer task =>
      refine Maintains.bind maintains_get fun c => Maintains.bind (uncounted_onTab _) fun span => ?_
      refine Maintains.bind (uncounted_sleep _) fun _ => Maintains.bind maintains_now fun now => ?_
      refine Maintains.bind (uncounted_onTab _) fun e => Maintains.ite (maintains_pure _) ?_
      refine Maintains.bind (uncounted_modify fun c => counts_setTabs c _) fun _ => ?_
      exact Maintains.bind (uncounted_modify fun c => rfl) fun _ => maintains_pure _

/-- Work beside the callers counts nothing. -/
theorem uncounted_perform (j : Job) : Uncounted (Client.perform j) := by
  cases j with
  | telemetry job => exact Maintains.map (uncounted_batcher _)
  | supervision job => exact Maintains.map (uncounted_watch job)

theorem counts_start (c : Client) (now : Instant) : (c.start now).counts = c.counts := by
  unfold Client.start
  dsimp only
  split <;> exact counts_setTabs _ _

theorem counts_login (c : Client) (t : BearerToken) (e : Option Instant) (now : Instant) :
    (c.login t e now).2.counts = c.counts := by
  unfold Client.login
  have hinstall := counts_setTabs c (c.tabs.install c.own t e).2
  dsimp only
  split
  · generalize c.setTabs (c.tabs.install c.own t e).2 = d at hinstall
    have hread := counts_setTabs d (d.tabs.userId d.own now).2
    generalize d.setTabs (d.tabs.userId d.own now).2 = d' at hread
    exact hread.trans hinstall
  · exact hinstall

theorem counts_act (c : Client) (tab : Nat) (action : TabAction) (now : Instant) :
    (c.act tab action now).2.counts = c.counts := by
  unfold Client.act
  split
  · exact counts_setTabs c _
  · rfl

theorem uncounted_serve {k : Operation} (hs : sends (.call k) = false)
    (hc : checks (.call k) = false) : Uncounted (Client.serve k) := by
  have hdone : ∀ {x : Activity Client PUnit}, Uncounted x →
      Uncounted (do x; return Reply.done) :=
    fun hx => Maintains.bind hx fun _ => maintains_pure _
  cases k with
  | start => exact hdone (uncounted_change fun now c => counts_start c now)
  | login t e => exact Maintains.map (uncounted_step fun now c => counts_login c t e now)
  | logout => exact hdone (uncounted_modify fun c => counts_setTabs c _)
  | refresh force => exact Maintains.map (uncounted_refresh force)
  | validate => cases hc
  | validateSession => cases hc
  | send r => cases hs
  | sendWithRetry r => cases hs
  | armTimers => exact hdone (uncounted_modify fun c => rfl)
  | stopTimers => exact hdone (uncounted_modify fun c => rfl)
  | setVisibility inBackground => exact hdone (uncounted_modify fun c => rfl)
  | trackAuth e => exact hdone (uncounted_modify fun c => rfl)
  | trackRequest e => exact hdone (uncounted_trackRequest e)
  | flushAuth => exact hdone (uncounted_batcher _)
  | flushRequests => exact hdone (uncounted_batcher _)
  | teardown => exact Maintains.map (uncounted_step fun now c => rfl)
  | onTab tab action => exact uncounted_step fun now c => counts_act c tab action now

theorem uncounted_carryOut {work : Work Operation Job} (hs : sends work = false)
    (hc : checks work = false) : Uncounted (workplace.carryOut work) := by
  cases work with
  | call k => exact Maintains.map (uncounted_serve hs hc)
  | job j =>
      refine Maintains.bind (uncounted_perform j) fun next => ?_
      cases next with
      | some j' => exact maintains_pure _
      | none => exact maintains_pure _

/-- A moment of work that makes no calls counts nothing. -/
theorem counts_of_mem {ms : List Moment} {s : Scene} {x : Moment} (h : Course (scene c) ms s)
    (hx : x ∈ ms) (hs : sends x.work = false) (hc : checks x.work = false) :
    x.left.counts = x.start.state.counts := by
  have hquiet : ∀ work : Work Operation Job, (!sends work && !checks work) = true →
      Uncounted (workplace.carryOut work) := by
    intro work hwork
    rw [Bool.and_eq_true, Bool.not_eq_true', Bool.not_eq_true'] at hwork
    exact uncounted_carryOut hwork.1 hwork.2
  refine Rules.holds_of_leaving (A := fun _ i c => SameCounts i.state c) (fun _ _ => rfl)
    (fun work hwork => Rules.leaving_of_moves (hquiet work hwork) fun _ => True) h hx ?_
    fun _ _ => trivial
  rw [hs, hc]
  rfl

theorem counts_abandonJob (c : Client) (j : Job) : (c.abandonJob j).counts = c.counts := by
  unfold abandonJob
  split <;> first | split <;> rfl | rfl

/-- Between moments nothing is counted. -/
theorem Step.counts_eq {s : Scene} {x : Moment} (hx : Step s x) :
    x.after.state.counts = x.left.counts := by
  rcases hx.after_state with h | ⟨-, j, -, h⟩
  · rw [h]
    rfl
  · rw [h]
    exact counts_abandonJob x.left j

end Client

end ClientSession
