import ClientSession.Proofs.Client.Passes
import ClientSession.Proofs.Course
import ClientSession.Simulation.World

/-!
# What a client is asked for

Callers ask a client for operations, and its timers and its batcher work beside them. Operations on
a tab may be asked for on any open tab: on the client's own tab they are its session's, on the
others they are what other clients do with the shared storage. Every course of this workplace is an
interleaving of operations and tasks at the points at which they wait.
-/

namespace ClientSession

/-- What may be done with the session of a tab. -/
inductive TabAction where
  | install (token : BearerToken) (expiresAt : Option Instant)
  | clear
  | finish (reason : EndReason)
  | forget
  | token
  | hasToken
  | claims
  | userId
  | expiresAt
  | isExpired
  | needsRefresh

/-- What callers of a client ask for. -/
inductive Operation where
  | start
  | login (token : BearerToken) (expiresAt : Option Instant)
  | logout
  | refresh (force : Bool)
  | validate
  | validateSession
  | send (request : Request)
  | sendWithRetry (request : Request)
  | armTimers
  | stopTimers
  | setVisibility (inBackground : Bool)
  | trackAuth (event : Event)
  | trackRequest (event : Event)
  | flushAuth
  | flushRequests
  | teardown
  | onTab (tab : Nat) (action : TabAction)

/-- The operation may bring a session back: it signs in, or starts, renews or checks a session. -/
def Operation.revives : Operation → Bool
  | .start => true
  | .login _ _ => true
  | .refresh _ => true
  | .validate => true
  | .validateSession => true
  | .armTimers => true
  | _ => false

/-- What they get. -/
inductive Reply where
  | done
  | flag (b : Bool)
  | token (token : Option BearerToken)
  | claims (claims : Option Claims)
  | text (text : Option String)
  | instant (t : Option Instant)
  | refreshed (r : Client.RefreshResult)
  | validated (r : ValidationResult)
  | called (r : CallResult)

def TabAction.run (w : Tabs) (i : Nat) (now : Instant) : TabAction → Reply × Tabs
  | .install t e => (.flag (w.install i t e).1, (w.install i t e).2)
  | .clear => (.done, w.clearSession i)
  | .finish reason => (.done, w.endSession i reason)
  | .forget => (.done, w.forget i)
  | .token => (.token (w.token i now).1, (w.token i now).2)
  | .hasToken => (.flag (w.hasToken i).1, (w.hasToken i).2)
  | .claims => (.claims (w.claims i now).1, (w.claims i now).2)
  | .userId => (.text (w.userId i now).1, (w.userId i now).2)
  | .expiresAt => (.instant (w.expiresAt i).1, (w.expiresAt i).2)
  | .isExpired => (.flag (w.isExpired i now).1, (w.isExpired i now).2)
  | .needsRefresh => (.flag (w.needsRefresh i now).1, (w.needsRefresh i now).2)

namespace Client

/-- A client that has just been set up with the first tab over a backend. The end of its session
stops the work for it. -/
def gateway (config : Config) (profile : DeviceProfile) (csrf : Option String)
    (supply : TokenSupply) (hasWorkers : Bool) (b : Backend) : Client where
  own := 0
  tabs := (((Tabs.onBackend b).openTab (.opened ⟨config.storageNamespace, profile⟩
    config.session.refreshBuffer)).addReaction 0 .stopWork).2
  limiter := config.rateLimits.entries.foldl (fun l e => l.configure e.1 e.2) .withDefaults
  batcher := .new config.batcher (.ingest profile csrf) hasWorkers
  gate := .new config.notify
  validator := .new .tokenValidation supply
  supervisor := .new config.session supply hasWorkers
  profile := profile
  csrf := csrf
  retry := .generic
  announces := true
  counts := ⟨0, 0, 0, 0⟩
  tally := .zero
  latencies := []
  serial := 0
  draws := []
  agenda := []

/-- A client that has just been set up with the default settings over an empty backend, on a device
that tells nothing of itself. -/
def plain : Client :=
  gateway ⟨⟨"https".toList, some ⟨[], "api.test".toList, none⟩, .segments [[]], none, none⟩,
    Config.defaultNamespace, default, default, default, Table.empty, none⟩ ⟨"", "", "", ""⟩ none
    .provider true (.ofItems [])

/-- The client beside one more tab over the same backend. -/
def besides (c : Client) (t : Tab) : Client := { c with tabs := c.tabs.openTab t }

/-- The same client beside a second tab of its kind. -/
def plainPair : Client := plain.besides (.opened (plain.tabs.vault 0) (Span.ofSeconds 300))

/-- An action on a tab, if it is open. -/
def act (tab : Nat) (action : TabAction) (now : Instant) (c : Client) : Reply × Client :=
  if (c.tabs.tab? tab).isSome then
    ((action.run c.tabs tab now).1, c.setTabs (action.run c.tabs tab now).2)
  else (.done, c)

def serve : Operation → Activity Client Reply
  | .start => do
    Activity.change fun now c => c.start now
    return .done
  | .login t e => do return .flag (← Activity.step fun now c => c.login t e now)
  | .logout => do
    modify logout
    return .done
  | .refresh force => do return .refreshed (← refresh force)
  | .validate => do return .validated (← validate)
  | .validateSession => do return .validated (← validateSession)
  | .send r => do return .called (← send r)
  | .sendWithRetry r => do return .called (← sendWithRetry r)
  | .armTimers => do
    modify (·.mapSupervisor (·.start))
    return .done
  | .stopTimers => do
    modify (·.mapSupervisor (·.shutdown))
    return .done
  | .setVisibility inBackground => do
    modify (·.mapBatcher fun b => { b with inBackground := inBackground })
    return .done
  | .trackAuth e => do
    modify (·.trackAuth e)
    return .done
  | .trackRequest e => do
    trackRequest e
    return .done
  | .flushAuth => do
    Batcher.flushAuth.within (·.batcher) setBatcher
    return .done
  | .flushRequests => do
    Batcher.flushRequests.within (·.batcher) setBatcher
    return .done
  | .teardown => do return .flag (← Activity.step fun now c => c.teardown now)
  | .onTab tab action => Activity.step fun now c => c.act tab action now

/-- The work ends as a check that succeeded. -/
def confirms : Ending Reply Job → Bool
  | .answers (.validated (.ok _)) => true
  | _ => false

/-- A client, its callers and its tasks. -/
def workplace : Workplace Client Operation Reply Job TaskName where
  call := serve
  perform := perform
  goesBy j name := decide (Simulation.nameOf j = some name)
  orders c := c.agenda
  heeded c := { c with agenda := [] }
  abandon := abandonJob

/-- A moment of a client's course. -/
abbrev Moment := ClientSession.Moment Client Operation Reply Job

/-- A scene of a client's course. -/
abbrev Scene := ClientSession.Scene Client Operation Reply Job

/-- A client's course. -/
abbrev Course (s : Scene) (ms : List Moment) (s' : Scene) : Prop := workplace.Course s ms s'

/-- What may happen next to a client. -/
abbrev Step (s : Scene) (x : Moment) : Prop := workplace.Step s x

/-- What happens to a client, each thing at a reading of the clock. -/
abbrev Script := List (Instant × Move Operation)

/-- The scene in which a client has just been set up. -/
abbrev scene (c : Client) : Scene := Workplace.idle c

/-- Work begins. -/
def Opening (_ : Unit) (i : Start Client) (c : Client) : Prop := i.cue = none ∧ c = i.state

open Activity

theorem opening_of {α : Type} {P : Pact Unit Client} {A : Unit → Start Client → Client → Prop}
    {x : Activity Client α} {Q : Unit → Start Client → α → Client → Prop} (hx : Triple P A x Q)
    (hA : ∀ now c, A () ⟨none, now, c⟩ c) : Triple P Opening x Q := by
  refine hx.conseq ?_ fun _ _ _ _ hq => hq
  rintro _ ⟨_, now, _⟩ c ⟨rfl, rfl⟩
  exact hA now c

/-- All work keeps rules that operations and jobs keep. -/
theorem keptBy_workplace {L : Rules Unit Client Operation Reply Job}
    (hdrops : ∀ work now c, L.pact work () ⟨none, now, c⟩ .drops c ())
    (hserve : ∀ k, Triple (L.pact (.call k)) Opening (serve k)
      fun m i r c => L.outcome (.call k) m i (.answers r) c)
    (hperform : ∀ j, Triple (L.pact (.job j)) Opening (perform j)
      fun m i again c => L.outcome (.job j) m i (again.elim .leaves .again) c) :
    L.KeptBy workplace where
  drops := hdrops
  meets work now c := by
    cases work with
    | call k => exact (Triple.map (hserve k)).meets () ⟨none, now, c⟩ c ⟨rfl, rfl⟩
    | job j =>
        have hjob : Triple (L.pact (.job j)) Opening (workplace.carryOut (.job j))
            (L.outcome (.job j)) := by
          refine Triple.bind (hperform j) fun again => ?_
          cases again with
          | some j' => exact triple_pure fun m i c h => h
          | none => exact triple_pure fun m i c h => h
        exact hjob.meets () ⟨none, now, c⟩ c ⟨rfl, rfl⟩

/-- The moment is all of a call that did not have to wait. -/
structure Moment.Carries (x : Moment) (k : Operation) : Prop where
  work : x.work = .call k
  cue : x.start.cue = none
  ended : ∃ e, x.result = .ended e

/-- The client signs out in the moment. -/
def Moment.signsOut (x : Moment) : Bool :=
  match x.work, x.start.cue, x.result with
  | .call .logout, none, .ended _ => true
  | _, _, _ => false

theorem Moment.carries_logout {x : Moment} (h : x.signsOut = true) : x.Carries .logout := by
  unfold Moment.signsOut at h
  split at h
  · rename_i e hwork hcue hresult
    exact ⟨hwork, hcue, e, hresult⟩
  · cases h

theorem state_carryOut (k : Operation) (now : Instant) (c : Client) :
    (workplace.carryOut (.call k) now c).state = (serve k now c).state := by
  show ((serve k now c).bind _ now).state = _
  cases serve k now c <;> rfl

/-- Such a moment leaves what the operation makes of the state. -/
theorem Step.left_eq {s : Scene} {x : Moment} {k : Operation} (hx : Step s x) (h : x.Carries k) :
    x.left = (serve k x.start.now x.start.state).state := by
  obtain ⟨hwork, hcue, e, he⟩ := h
  cases hx with
  | call k' now s' hs =>
      cases hwork
      exact state_carryOut k now s.state
  | begin f now s' hf hstop hw hs =>
      show (workplace.carryOut f.work now s.state).state = _
      rw [show f.work = .call k from hwork]
      exact state_carryOut k now s.state
  | reply f y a now s' hf hstop hw hs => cases hcue
  | drop f now hf => cases he

end Client

end ClientSession
