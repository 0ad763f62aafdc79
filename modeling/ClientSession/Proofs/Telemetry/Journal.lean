import ClientSession.Proofs.Client.Thrift
import ClientSession.Proofs.Erasure

/-!
# What calls tell the batcher

A diary is a client together with all that its batcher has been told. The calls of a diary are the
calls of the client, each event being written down as it is passed to the batcher.

- `Batcher.Hears`: what becomes of a batcher that is told something.
- `Diary.keeps_send`: but for the diary its calls are those of the client, and all is written down
  that the batcher is told.
-/

namespace ClientSession

open Activity

/-- What a batcher is told. -/
inductive Report where
  | session (event : Event)
  | request (event : Event)

/-- A client, and what its batcher has been told. -/
structure Diary where
  client : Client
  told : List Report

namespace Diary

variable {α : Type}

def setClient (d : Diary) (c : Client) : Diary := { d with client := c }

/-- One more report. -/
def note (d : Diary) (report : Report) : Diary := { d with told := d.told ++ [report] }

/-- What a client does without telling the batcher anything. -/
def silently (x : Activity Client α) : Activity Diary α := x.within (·.client) setClient

def trackAuth (e : Event) : Activity Diary PUnit := do
  modify (·.note (.session e))
  silently (modify (·.trackAuth e))

def trackRequest (e : Event) : Activity Diary Unit := do
  modify (·.note (.request e))
  silently (Client.trackRequest e)

def reject (r : Request) (path : String) (failure : LocalFailure) : Activity Diary ApiError := do
  let now ← Activity.now
  let e := classify (.refused failure) now
  silently (modify fun c => ({ c with
    counts := { c.counts with shortCircuits := c.counts.shortCircuits + 1 } }).count .shortCircuit)
  trackRequest ((Client.failureEvent r path none Span.zero now e).withTag "stage" "request")
  return e

def reportFailure (r : Request) (path : String) (status : Option Nat) (elapsed : Span)
    (e : ApiError) : Activity Diary Unit := do
  let now ← Activity.now
  if e.kind = .auth || e.kind = .rateLimit || Route.isReportingExcluded path then return
  trackRequest (Client.failureEvent r path status elapsed now e)

def heedStatus (r : Request) (path : String) (response : Response) (elapsed : Span) :
    Activity Diary Unit := do
  let now ← Activity.now
  if response.status = 401 then
    if Route.requiresAuth path then
      silently (modify fun c => c.mapTabs fun w => w.endSession c.own .unauthorized)
      silently (modify fun c => { c with
        counts := { c.counts with sessionExpirations := c.counts.sessionExpirations + 1 } })
      trackAuth ((Event.auth "session_expired" false now).withTag "path" path)
  else if response.status = 403 then
    trackAuth (Client.denialEvent path response now)
  else if response.status = 429 then
    trackRequest (((Event.request r.method.name path (some 429) elapsed now).withError
      "rate_limited").withTag "kind" FailureKind.rateLimit.label)

def exchange (r : Request) (path : String) : Activity Diary CallResult := do
  let outcome ← Activity.await (.call r)
  let now ← Activity.now
  let elapsed ← silently (Activity.attempt fun now c => do
    return ((← r.elapsed now).getD Span.zero, c))
  let slow : Bool := decide (Client.slowThreshold < elapsed)
  match outcome with
  | .error failure =>
    let e := classify (.transport failure) now
    reportFailure r path none elapsed e
    return .error e
  | .ok response =>
    silently (modify fun c => { c with latencies := c.latencies ++ [⟨elapsed, slow⟩] })
    if response.isSuccess then
      if slow then
        trackRequest ((Event.request r.method.name path (some response.status) elapsed
          now).withTag "slow" "true")
      return .ok response
    else
      heedStatus r path response elapsed
      let e := classify (.response response) now
      reportFailure r path (some response.status) elapsed e
      return .error e

def authorize (r : Request) (path : String) (started : Instant) : Activity Diary CallResult := do
  if Route.requiresAuth path then
    match ← silently (Client.onTab Tabs.token) with
    | none => return .error (← reject r path .missingToken)
    | some token =>
      trackAuth ((Event.auth "token_used" true started).withTag "path" path)
      exchange (r.setHeader "authorization" token.authorization) path
  else exchange r path

def dispatch (request : Request) : Activity Diary CallResult := do
  let started ← Activity.now
  let path := Route.normalize request.path
  let r ← silently (Activity.step fun now c => c.prepare request now)
  if Route.isAuthFamily path then
    if ← silently (Client.acquire path none) then authorize r path started
    else
      let wait ← silently (Client.remainingWait path none)
      return .error (← reject r path (.rateLimited wait))
  else authorize r path started

/-- A call that is written down. -/
def send (request : Request) : Activity Diary CallResult := do
  silently (modify (·.count .attempt))
  match ← dispatch request with
  | .ok response =>
    silently (modify (·.count .success))
    return .ok response
  | .error e =>
    silently (modify (·.count .failure))
    silently (Activity.change fun now c =>
      let c := { c with counts := { c.counts with failures := c.counts.failures + 1 } }
      if c.announces then c.announce ⟨e.kind, e.userMessage⟩ now else c)
    return .error e

/-! ## Keeping the diary -/

end Diary

/-- The batcher is as it was but for the user that it names and the work that it has given away. -/
def Batcher.SameEvents (b b' : Batcher) : Prop :=
  ∃ user commands, b' = { b with user := user, commands := commands }

/-- What becomes of a batcher that is told these reports at one instant, whatever user it names
meanwhile. A report at which it faults changes nothing. -/
inductive Batcher.Hears (now : Instant) (b : Batcher) : List Report → Batcher → Prop
  | nothing : Hears now b [] b
  | aside {l : List Report} {b' b'' : Batcher} (h : Hears now b l b') (hb : b'.SameEvents b'') :
      Hears now b l b''
  | session {l : List Report} {b' : Batcher} (h : Hears now b l b') (e : Event) :
      Hears now b (l ++ [.session e]) (b'.trackAuth e)
  | request {l : List Report} {b' : Batcher} {r : Bool × Batcher} (h : Hears now b l b') (e : Event)
      (he : b'.trackRequest e now = .ok r) : Hears now b (l ++ [.request e]) r.2
  | lost {l : List Report} {b' : Batcher} {f : Fault} (h : Hears now b l b') (e : Event)
      (he : b'.trackRequest e now = .error f) : Hears now b (l ++ [.request e]) b'

theorem Batcher.SameEvents.trans {b b' b'' : Batcher} (h : b.SameEvents b')
    (h' : b'.SameEvents b'') : b.SameEvents b'' := by
  obtain ⟨user, commands, rfl⟩ := h
  obtain ⟨user', commands', rfl⟩ := h'
  exact ⟨user', commands', rfl⟩

namespace Diary

/-- The activities are the same but for the diary. -/
abbrev Erases (x : Activity Diary α) (y : Activity Client α) : Prop := x.ErasesTo (·.client) y

theorem erases_silently (x : Activity Client α) : Erases (silently x) x :=
  erases_within (fun _ _ => rfl) x

/-- What is written down first does not matter. -/
theorem erases_note {x : Activity Diary α} {y : Activity Client α} (h : Erases x y)
    (report : Report) : Erases (do modify (note · report); x) y :=
  ⟨fun now d => h.runs now (d.note report)⟩

/-- What the diary has got since the stretch began is what the batcher has been told since. -/
def Told (i : Start Diary) (d : Diary) : Prop :=
  ∃ l, d.told = i.state.told ++ l ∧ i.state.client.batcher.Hears i.now l d.client.batcher

/-- So it is at the end of every stretch. -/
def Telling : Pact Unit Diary := fun _ i _ d _ => Told i d

/-- The activity is that of a client, with a diary in which all is written that the batcher is told.
-/
structure Keeps (x : Activity Diary α) (y : Activity Client α) : Prop where
  erases : Erases x y
  tells : Maintains Telling (fun _ i d => Told i d) x

variable {β : Type} {i : Start Diary} {d : Diary}

/-- Nothing is told of the events. -/
def SameEvents (c c' : Client) : Prop := c.batcher.SameEvents c'.batcher

theorem SameEvents.refl (c : Client) : SameEvents c c := ⟨_, _, rfl⟩

theorem sameEvents_setTabs (c : Client) (w : Tabs) : SameEvents c (c.setTabs w) := by
  unfold Client.setTabs
  dsimp only
  split
  · exact ⟨none, [], rfl⟩
  · exact SameEvents.refl c

theorem told_refl (i : Start Diary) : Told i i.state := ⟨[], (List.append_nil _).symm, .nothing⟩

theorem Told.aside (h : Told i d) {c : Client} (hc : SameEvents d.client c) :
    Told i (d.setClient c) := by
  obtain ⟨l, htold, hears⟩ := h
  exact ⟨l, htold, hears.aside hc⟩

/-- What tells nothing need not be written down. -/
theorem keeps_silently {x : Activity Client α} (hx : Moves (fun _ => True) SameEvents x) :
    Keeps (silently x) x := by
  have hcarries : Carries Telling (fun _ i d => Told i d) (·.client) setClient (fun _ => True)
      SameEvents :=
    ⟨fun _ _ _ _ h hs => h.aside hs, fun _ _ _ h => h, fun _ _ _ h => h,
      fun _ _ _ _ h _ => ⟨(), h, fun now d _ hs => (told_refl ⟨none, now, d⟩).aside hs,
        fun _ _ _ => told_refl _⟩⟩
  exact ⟨erases_silently x, hcarries.within SameEvents.refl hx⟩

theorem keeps_modify {f : Client → Client} (hf : ∀ c, SameEvents c (f c)) :
    Keeps (silently (modify f)) (modify f) :=
  keeps_silently (moves_modify fun _ _ h => h.trans (hf _))

/-- A change of other parts. -/
theorem keeps_quiet {f : Client → Client} (hf : ∀ c, (f c).batcher = c.batcher) :
    Keeps (silently (modify f)) (modify f) :=
  keeps_modify fun c => ⟨c.batcher.user, c.batcher.commands, hf c⟩

theorem keeps_step {f : Instant → Client → α × Client} (hf : ∀ now c, SameEvents c (f now c).2) :
    Keeps (silently (Activity.step f)) (Activity.step f) :=
  keeps_silently (moves_step fun _ _ _ h => h.trans (hf _ _))

theorem keeps_attempt {f : Instant → Client → Checked (α × Client)}
    (hf : ∀ now c r, f now c = .ok r → SameEvents c r.2) :
    Keeps (silently (Activity.attempt f)) (Activity.attempt f) :=
  keeps_silently (moves_attempt fun _ _ _ _ h hr => h.trans (hf _ _ _ hr))

theorem keeps_pure (a : α) : Keeps (pure a) (pure a) := ⟨erases_pure a, maintains_pure a⟩

theorem keeps_now : Keeps Activity.now Activity.now := ⟨erases_now, maintains_now⟩

theorem Keeps.bind {x : Activity Diary α} {y : Activity Client α} {f : α → Activity Diary β}
    {g : α → Activity Client β} (h : Keeps x y) (hf : ∀ a, Keeps (f a) (g a)) :
    Keeps (x >>= f) (y >>= g) :=
  ⟨h.erases.bind fun a => (hf a).erases, h.tells.bind fun a => (hf a).tells⟩

theorem Keeps.map {x : Activity Diary α} {y : Activity Client α} {f : α → β} (h : Keeps x y) :
    Keeps (do return f (← x)) (do return f (← y)) :=
  h.bind fun a => keeps_pure (f a)

theorem Keeps.ite {p : Prop} [Decidable p] {x x' : Activity Diary α} {y y' : Activity Client α}
    (h : Keeps x y) (h' : Keeps x' y') : Keeps (if p then x else x') (if p then y else y') :=
  ⟨h.erases.ite h'.erases, h.tells.ite h'.tells⟩

theorem keeps_await (w : Wait) : Keeps (Activity.await w) (Activity.await w) :=
  ⟨erases_await w, triple_await fun _ _ _ h => ⟨(), h, fun _ _ => told_refl _,
    fun _ _ _ => told_refl _⟩⟩

/-- One more report, and what the batcher makes of it. -/
theorem Told.told (h : Told i d) {report : Report} {b : Batcher}
    (hb : ∀ l, i.state.client.batcher.Hears i.now l d.client.batcher →
      i.state.client.batcher.Hears i.now (l ++ [report]) b) {c : Client}
    (hc : b.SameEvents c.batcher) : Told i ((d.note report).setClient c) := by
  obtain ⟨l, htold, hears⟩ := h
  refine ⟨l ++ [report], ?_, (hb l hears).aside hc⟩
  rw [← List.append_assoc, ← htold]
  rfl

section

variable {P : Pact Unit Diary} {pre : Unit → Start Diary → Diary → Prop}

theorem triple_silently_modify {post : Unit → Start Diary → PUnit → Diary → Prop}
    {f : Client → Client} (h : ∀ m i d, pre m i d → post m i ⟨⟩ (d.setClient (f d.client))) :
    Triple P pre (silently (modify f)) post := ⟨h⟩

theorem triple_silently_attempt {post : Unit → Start Diary → α → Diary → Prop}
    {f : Instant → Client → Checked (α × Client)}
    (hf : ∀ m i d e, pre m i d → f i.now d.client = .error e →
      P m i .faults (d.setClient d.client) m)
    (h : ∀ m i d r, pre m i d → f i.now d.client = .ok r → post m i r.1 (d.setClient r.2)) :
    Triple P pre (silently (Activity.attempt f)) post := by
  refine ⟨fun m i d hd => ?_⟩
  show ((Activity.attempt f i.now d.client).within (·.client) setClient d).Meets _ _ _ _
  unfold Activity.attempt
  cases hr : f i.now d.client with
  | ok r => exact h m i d r hd hr
  | error e => exact hf m i d e hd hr

end

/-- It has been written down what the batcher is told next. -/
def Noted (report : Report) (i : Start Diary) (d : Diary) : Prop :=
  ∃ d', Told i d' ∧ d = d'.note report

theorem keeps_trackAuth (e : Event) : Keeps (trackAuth e) (modify (·.trackAuth e)) := by
  refine ⟨erases_note (erases_silently _) _, Triple.bind
    (M := fun _ i _ d => Noted (.session e) i d) (triple_modify fun _ _ d h => ⟨d, h, rfl⟩)
    fun _ => triple_silently_modify ?_⟩
  rintro _ i _ ⟨d, h, rfl⟩
  exact h.told (fun l hears => hears.session e) ⟨_, [], rfl⟩

theorem keeps_trackRequest (e : Event) : Keeps (trackRequest e) (Client.trackRequest e) := by
  refine ⟨erases_note (erases_silently _) _, Triple.bind
    (M := fun _ i _ d => Noted (.request e) i d) (triple_modify fun _ _ d h => ⟨d, h, rfl⟩)
    fun _ => triple_silently_attempt ?_ ?_⟩
  · rintro _ i _ f ⟨d, h, rfl⟩ hf
    exact h.told (fun l hears => hears.lost e (error_of_bind hf)) (SameEvents.refl d.client)
  · rintro _ i _ r ⟨d, h, rfl⟩ hr
    obtain ⟨b, hb, rfl⟩ := ok_of_bind hr
    exact h.told (fun l hears => hears.request e hb) ⟨_, [], rfl⟩

theorem keeps_reject (r : Request) (path : String) (failure : LocalFailure) :
    Keeps (reject r path failure) (Client.reject r path failure) :=
  keeps_now.bind fun _ => Keeps.bind (keeps_quiet fun _ => rfl) fun _ =>
    (keeps_trackRequest _).bind fun _ => keeps_pure _

theorem keeps_reportFailure (r : Request) (path : String) (status : Option Nat) (elapsed : Span)
    (e : ApiError) :
    Keeps (reportFailure r path status elapsed e) (Client.reportFailure r path status elapsed e) :=
  keeps_now.bind fun _ => (keeps_pure _).ite (keeps_trackRequest _)

theorem keeps_heedStatus (r : Request) (path : String) (response : Response) (elapsed : Span) :
    Keeps (heedStatus r path response elapsed) (Client.heedStatus r path response elapsed) := by
  refine keeps_now.bind fun now => Keeps.ite (Keeps.ite ?_ (keeps_pure _)) ?_
  · exact Keeps.bind (keeps_modify fun c => sameEvents_setTabs c _) fun _ =>
      Keeps.bind (keeps_quiet fun _ => rfl) fun _ => keeps_trackAuth _
  · exact (keeps_trackAuth _).ite ((keeps_trackRequest _).ite (keeps_pure _))

theorem keeps_exchange (r : Request) (path : String) :
    Keeps (exchange r path) (Client.exchange r path) := by
  refine Keeps.bind (keeps_await (.call r)) fun outcome => Keeps.bind keeps_now fun now =>
    Keeps.bind (keeps_attempt fun now c p hp => ?_) fun elapsed => ?_
  · obtain ⟨s, -, rfl⟩ := ok_of_bind hp
    exact SameEvents.refl c
  cases outcome with
  | error failure => exact (keeps_reportFailure _ _ _ _ _).bind fun _ => keeps_pure _
  | ok response =>
      refine Keeps.bind (keeps_quiet fun _ => rfl) fun _ => Keeps.ite ?_ ?_
      · refine Keeps.ite ?_ (keeps_pure _)
        exact (keeps_trackRequest _).bind fun _ => keeps_pure _
      · exact (keeps_heedStatus _ _ _ _).bind fun _ =>
          (keeps_reportFailure _ _ _ _ _).bind fun _ => keeps_pure _

theorem keeps_authorize (r : Request) (path : String) (started : Instant) :
    Keeps (authorize r path started) (Client.authorize r path started) := by
  refine Keeps.ite (Keeps.bind (keeps_step fun now c => sameEvents_setTabs c _) fun token => ?_)
    (keeps_exchange r path)
  cases token with
  | none => exact (keeps_reject _ _ _).map
  | some token => exact (keeps_trackAuth _).bind fun _ => keeps_exchange _ _

theorem keeps_acquire (endpoint : String) (user : Option String) :
    Keeps (silently (Client.acquire endpoint user)) (Client.acquire endpoint user) := by
  refine keeps_silently (moves_within (J := SameEvents) SameEvents.refl (fun _ _ _ h => ?_) _)
  exact h

theorem keeps_dispatch (request : Request) :
    Keeps (dispatch request) (Client.dispatch request) := by
  refine Keeps.bind keeps_now fun started => Keeps.bind (keeps_step fun now c => SameEvents.refl c)
    fun r => Keeps.ite ?_ (keeps_authorize _ _ _)
  refine Keeps.bind (keeps_acquire _ _) fun granted => Keeps.ite (keeps_authorize _ _ _) ?_
  refine Keeps.bind (keeps_attempt fun now c p hp => ?_) fun wait => (keeps_reject _ _ _).map
  obtain ⟨s, -, rfl⟩ := ok_of_bind hp
  exact SameEvents.refl c

/-- A call that is written down is a call, and all is written that its batcher is told. -/
theorem keeps_send (request : Request) : Keeps (send request) (Client.send request) := by
  refine Keeps.bind (keeps_quiet fun _ => rfl) fun _ => Keeps.bind (keeps_dispatch request)
    fun outcome => ?_
  cases outcome with
  | ok response => exact Keeps.bind (keeps_quiet fun _ => rfl) fun _ => keeps_pure _
  | error e =>
      refine Keeps.bind (keeps_quiet fun _ => rfl) fun _ => Keeps.bind ?_ fun _ => keeps_pure _
      refine keeps_silently (triple_change fun _ i c h => ?_)
      dsimp only
      split <;> exact h

end Diary

end ClientSession
