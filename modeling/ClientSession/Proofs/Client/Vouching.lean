import ClientSession.Proofs.Client.Admission
import ClientSession.Proofs.Client.Credentials
import ClientSession.Proofs.Flights

/-!
# Calls with a token

In all courses of a client, whatever its session goes through while calls wait: a call that needs a
session is made only with the token that the session has then, and else it is refused. Every request
that is handed over has the stamps of where its call began, and an id of its own.

- `Client.Careful`: what is asked of a stretch before the call is made.
- `Client.serials_of_course`: the numbers of calls that began apart are different.
- `Client.careful_of_course`: calls are careful in every scene, also those that have waited.
-/

namespace ClientSession

open Activity

namespace Client

/-! ## Rules -/

/-- The request that the work is a call with, if it is one. -/
def sent? : Work Operation Job → Option Request
  | .call (.send r) => some r
  | _ => none

/-- The rules of calls. -/
def vouching : Rules Phase Client Operation Reply Job where
  memo := .opening
  pact work m i p c m' :=
    match sent? work with
    | some r => vouch r m i p c m'
    | none => m' = m
  outcome work m i e c := ∀ r, sent? work = some r → Vouched r i (.ended e) c m

variable {request r q : Request} {m m' : Phase} {first i : Start Client} {c : Client}
  {res : Result (Ending Reply Job)} {ms : List Moment} {s : Scene} {x y : Moment}

theorem eq_of_sent? {work : Work Operation Job} (h : sent? work = some r) :
    work = .call (.send r) := by
  unfold sent? at h
  split at h
  · rw [Option.some.inj h]
  · cases h

theorem vouches_carryOut {work : Work Operation Job} (h : sent? work = some r) :
    Triple (vouch r) (fun m i c => m = .opening ∧ i.cue = none ∧ c = i.state)
      (workplace.carryOut work) fun m i e c => Vouched r i (.ended e) c m := by
  obtain rfl := eq_of_sent? h
  exact Triple.map (Triple.map (vouches_send r))

theorem vouching_keptBy : vouching.KeptBy workplace where
  drops work now c := by
    show match sent? work with
      | some r => vouch r .opening ⟨none, now, c⟩ .drops c .opening
      | none => Phase.opening = .opening
    split
    · exact ⟨rfl, fun hd => absurd rfl hd⟩
    · rfl
  meets work now c := by
    cases hsent : sent? work with
    | none =>
        refine Run.meets_trivial (fun m i p c => ?_) fun m i e c r hr => ?_
        · simp only [vouching, hsent]
        · rw [hsent] at hr
          cases hr
    | some r =>
        refine ((vouches_carryOut hsent).begins now c).mono
          (fun m i p c m' h => ?_) fun m i e c h r' hr => ?_
        · simpa only [vouching, hsent] using h
        · obtain rfl := Option.some.inj (hsent.symm.trans hr)
          exact h

/-- A stretch is vouched for however it ends. -/
theorem vouched_of_meets {run : Run Client (Ending Reply Job)}
    (h : run.Meets (vouch request) (fun m i e c => Vouched request i (.ended e) c m) m i) :
    Vouched request i run.result run.state m := by
  cases run with
  | done c e => exact h
  | fault c f => exact h.2 nofun
  | stay c => exact h.2 nofun
  | wait c w drop resume =>
      obtain ⟨m', hp, -⟩ := h
      exact hp.2 nofun

/-- So is a call that begins. -/
theorem vouched_of_begin {work : Work Operation Job} (h : sent? work = some request)
    (now : Instant) (c : Client) : Vouched request ⟨none, now, c⟩
      (workplace.carryOut work now c).result (workplace.carryOut work now c).state .opening :=
  vouched_of_meets ((vouches_carryOut h).begins now c)

/-! ## Where calls began -/

/-- A call began in the moment, and took a number. -/
structure Moment.Begins (x : Moment) : Prop where
  cue : x.start.cue = none
  serial : x.start.state.serial < x.left.serial

/-- A parked call began in a moment of its own, under the limit that it holds on to. -/
def Began (ms : List Moment) (n : Nat) (m : Phase) : Prop :=
  ∀ held first, m = .parked held first → ∃ x ∈ ms, x.number = n ∧ Moment.Begins x ∧
    x.start = first ∧ first.state.limiter.limit? held.1 = some held.2

theorem Began.of_made {n : Nat} : Began ms n .made := fun _ _ hm => nomatch hm

theorem Began.of_opening {n : Nat} : Began ms n .opening := fun _ _ hm => nomatch hm

theorem Began.snoc {n : Nat} (h : Began ms n m) (x : Moment) : Began (ms ++ [x]) n m := by
  intro held first hm
  obtain ⟨y, hy, hbegan⟩ := h held first hm
  exact ⟨y, List.mem_append_left _ hy, hbegan⟩

theorem Began.next {p : Pause} {path : String} (h : Began ms x.number m)
    (hp : p ≠ .drops → Vouched request x.start (.paused p) x.left m) :
    Began (ms ++ [x]) x.number (m.next path x.start p) := by
  by_cases hd : p = .drops
  · subst hd
    cases m <;> exact h.snoc x
  cases hp hd with
  | settles hmade hres =>
      rw [show Phase.made.next path x.start p = .made by cases p <;> rfl]
      exact .of_made
  | asks hphase hmade hopening hserial hfate =>
      cases hfate with
      | handed q hq => cases m <;> exact .of_made
      | strained limit hfamily hheld hstrained => cases m <;> exact h.snoc x
      | unreported hs => cases m <;> exact h.snoc x
      | parked span hfamily hcue =>
          have hnext : m.next path x.start (.waits (.sleep span)) = .ofHeld x.start
              ((x.start.state.limiter.limit? path).map fun limit => (path, limit)) := by
            cases m with
            | made => exact absurd rfl hphase
            | _ => rfl
          intro held first hm
          rw [hnext] at hm
          cases hl : x.start.state.limiter.limit? path with
          | none =>
              rw [hl] at hm
              cases hm
          | some limit =>
              rw [hl] at hm
              cases hm
              exact ⟨x, by simp, rfl, ⟨hcue, hserial hcue⟩, rfl, hl⟩

theorem course_vouching (h : Course (scene c) ms s) :
    (∀ before x after, ms = before ++ x :: after →
      ∃ m m', Began before x.number m ∧ vouching.Keeps m m' x) ∧ vouching.HeldIn (Began ms) s := by
  refine vouching_keptBy.course (R := Began) (fun _ _ => .of_opening) (fun _ x _ _ hm => hm.snoc x)
    (fun ms x m p m' hm hp hpact => ?_) (.idle c) h
  simp only [vouching] at hpact
  split at hpact
  · obtain ⟨rfl, hvouched⟩ := hpact
    exact hm.next hvouched
  · rw [hpact]
    exact hm.snoc x

/-- A request that was handed over in a moment has the stamps of the moment in which its call
began. -/
theorem presented_of_mem (h : Course (scene c) ms s) (hx : x ∈ ms)
    (hwork : x.work = .call (.send request)) (hres : x.result = .paused (.waits (.call q))) :
    ∃ y ∈ ms, y.number = x.number ∧ Moment.Begins y ∧ Presented request y.start x.start q := by
  obtain ⟨before, after, rfl⟩ := List.append_of_mem hx
  obtain ⟨m, m', hbegan, hkeeps⟩ := (course_vouching h).1 before x after rfl
  simp only [Rules.Keeps, hres, vouching, hwork, sent?] at hkeeps
  have hpauses : Pause.waits (.call q) ≠ .drops := by
    intro h
    cases h
  cases hkeeps.2 hpauses with
  | settles hmade hres => exact absurd rfl (hres _)
  | asks hphase hmade hopening hserial hfate =>
      cases hfate with
      | handed q hq =>
          cases m with
          | made => exact absurd rfl hphase
          | opening => exact ⟨x, hx, rfl, ⟨hopening rfl, hserial (hopening rfl)⟩, hq⟩
          | parked held first =>
              obtain ⟨y, hy, hnumber, hbegins, rfl, -⟩ := hbegan held first rfl
              exact ⟨y, List.mem_append_left _ hy, hnumber, hbegins, hq⟩

/-! ## Numbers -/

/-- Requests are counted on and on. -/
theorem serials_of_course (h : Course (scene c) ms s) :
    (∀ x ∈ ms, x.left.serial ≤ s.state.serial) ∧
      ms.Pairwise fun x y => x.left.serial ≤ y.start.state.serial := by
  induction h with
  | nil => exact ⟨fun _ hx => (nomatch hx), .nil⟩
  | @snoc ms t x hbefore hx ih =>
      obtain ⟨hall, hpairs⟩ := ih
      have hstart : x.start.state.serial = t.state.serial := by rw [hx.start_state]
      have hleft : x.start.state.serial ≤ x.left.serial :=
        (thrift_of_mem (hbefore.snoc hx) (by simp) "").serial
      have hafter : x.after.state.serial = x.left.serial :=
        congrArg (·.2.2.2) (Step.kept_eq hx)
      refine ⟨fun y hy => ?_, List.pairwise_append.mpr
        ⟨hpairs, List.pairwise_singleton .., fun y hy z hz => ?_⟩⟩
      · rw [hafter]
        rcases List.mem_append.mp hy with hy | hy
        · exact Nat.le_trans (hall y hy) (hstart ▸ hleft)
        · obtain rfl := List.mem_singleton.mp hy
          exact Nat.le_refl _
      · rw [List.mem_singleton.mp hz, hstart]
        exact hall y hy

/-- Calls that began in different moments took different numbers. -/
theorem serial_ne_of_begins (h : Course (scene c) ms s) (hx : x ∈ ms) (hy : y ∈ ms)
    (hne : x.number ≠ y.number) (hxb : Moment.Begins x) (hyb : Moment.Begins y) :
    x.start.state.serial ≠ y.start.state.serial := by
  have hpairs := (serials_of_course h).2
  obtain ⟨before, after, rfl⟩ := List.append_of_mem hx
  obtain ⟨-, hlater, hacross⟩ := List.pairwise_append.mp hpairs
  rcases List.mem_append.mp hy with hmem | hmem
  · have hle := hacross y hmem x (List.mem_cons_self ..)
    exact Nat.ne_of_gt (Nat.lt_of_lt_of_le hyb.serial hle)
  · rcases List.mem_cons.mp hmem with rfl | hmem
    · exact absurd rfl hne
    · have hle := (List.pairwise_cons.mp hlater).1 y hmem
      exact Nat.ne_of_lt (Nat.lt_of_lt_of_le hxb.serial hle)

/-! ## Courses -/

/-- The refusal of a call stays within the calendar: its route does not have to wait beyond it, nor
does the report of its failure. -/
structure Refusable (path : String) (i : Start Client) : Prop where
  unstrained : ∀ limit, i.state.limiter.limit? path = some limit →
    ¬i.state.limiter.Strained path limit i.now
  sendable : i.state.batcher.Sendable

/-- The call gets the error that there is no token. -/
def ToldNoToken (res : Result (Ending Reply Job)) : Prop :=
  ∃ e : ApiError, res = .ended (.answers (.called (.error e))) ∧ e.kind = .auth ∧
    e.status = .noToken

/-- A call that began at `first` is made with what it needs. Otherwise it is turned away by the
limit of its route, or told that there is no token where it needs one and there is none. -/
structure Careful (request : Request) (first i : Start Client) (res : Result (Ending Reply Job)) :
    Prop where
  presented : ∀ q, res = .paused (.waits (.call q)) → Presented request first i q
  otherwise : (∀ q, res ≠ .paused (.waits (.call q))) →
    Refusable (Route.normalize request.path) i →
      Route.isAuthFamily request.path = true ∧ TurnedAway i res ∨
        Route.requiresAuth request.path = true ∧
          (i.state.tabs.token i.state.own i.now).1 = none ∧ ToldNoToken res

theorem Fate.careful (h : Fate request m i res)
    (hheld : ∀ limit, m.held = some (Route.normalize request.path, limit) →
      i.state.limiter.limit? (Route.normalize request.path) = some limit) :
    Careful request (m.first i) i res := by
  refine ⟨fun q hq => ?_, fun hnot hrefusable => ?_⟩
  · cases h with
    | handed q' h =>
        cases hq
        exact h
    | _ => cases hq
  · cases h with
    | handed q h => exact absurd rfl (hnot q)
    | parked span hfamily hcue => exact .inl ⟨hfamily, .inl ⟨hcue, span, rfl⟩⟩
    | limited wait hfamily => exact .inl ⟨hfamily, .inr ⟨_, rfl, rfl, rfl⟩⟩
    | tokenless hauth hnone => exact .inr ⟨hauth, hnone, _, rfl, rfl, rfl⟩
    | unreported hs => exact absurd hrefusable.sendable hs
    | strained limit hfamily hheldTo hstrained =>
        have hstands : i.state.limiter.limit? (Route.normalize request.path) = some limit := by
          cases hheldTo with
          | begins hcue hl => exact hl
          | resumes hcue hm => exact hheld limit hm
        exact absurd (hstrained hstands) (hrefusable.unstrained limit hstands)

/-- The request was handed over for a call in the moment. -/
def HandsOver (x : Moment) (q : Request) : Prop :=
  (∃ r, x.work = .call (.send r)) ∧ x.result = .paused (.waits (.call q))

/-- Requests that are handed over for different calls have different ids. -/
theorem id_ne_of_handsOver (h : Course (scene c) ms s)
    (hserial : s.state.serial ≤ SecurityHeaders.idCount) (hx : x ∈ ms) (hy : y ∈ ms)
    {q q' : Request} (hq : HandsOver x q) (hq' : HandsOver y q') (hne : x.number ≠ y.number) :
    q.header? SecurityHeaders.requestId ≠ q'.header? SecurityHeaders.requestId := by
  obtain ⟨⟨r, hwork⟩, hres⟩ := hq
  obtain ⟨⟨r', hwork'⟩, hres'⟩ := hq'
  obtain ⟨b, hb, hnumber, hbegins, hpresented⟩ := presented_of_mem h hx hwork hres
  obtain ⟨b', hb', hnumber', hbegins', hpresented'⟩ := presented_of_mem h hy hwork' hres'
  have hbound : ∀ z ∈ ms, Moment.Begins z → z.start.state.serial < SecurityHeaders.idCount :=
    fun z hz hbegins =>
      Nat.lt_of_lt_of_le hbegins.serial (Nat.le_trans ((serials_of_course h).1 z hz) hserial)
  rw [hpresented.stamped.requestId, hpresented'.stamped.requestId]
  intro hid
  refine serial_ne_of_begins h hb hb' (by rwa [hnumber, hnumber']) hbegins hbegins' ?_
  exact SecurityHeaders.idText_injective (hbound b hb hbegins) (hbound b' hb' hbegins')
    (Option.some.inj hid)

/-- A call that waits is vouched for when it goes on. -/
theorem vouched_of_flight (h : Course (scene c) ms s) {f : Flight Client Operation Reply Job}
    (hf : f ∈ s.flights) (hwork : f.work = .call (.send request))
    {w : Waiting Client (Ending Reply Job)} (hw : f.waiting = some w) (a : w.wait.Answer)
    (now : Instant) : ∃ m, Began ms f.number m ∧
      Vouched request ⟨some ⟨w.wait, a⟩, now, s.state⟩ (w.resume a now s.state).result
        (w.resume a now s.state).state m := by
  obtain ⟨m, hbegan, hawaits⟩ := (course_vouching h).2 f hf w hw
  refine ⟨m, hbegan, vouched_of_meets ((hawaits.meets a now s.state).mono ?_ ?_)⟩
  · intro m i p c m' hpact
    rw [hwork] at hpact
    exact hpact
  · intro m i e c hout
    rw [hwork] at hout
    exact hout request rfl

/-- Calls are careful in the scene that a course has come to: those that begin, and those that wait
since a moment of the course. They are made once, and of the requests handed over no two calls' have
an id in common, as long as there are new ones. Calls that are part of other work, of a retry or of
a check of the token, are vouched for wherever they begin and go on; they take their numbers from
the same count, which does not go back. -/
structure CarefulIn (ms : List Moment) (s : Scene) : Prop where
  anywhere : ∀ request, Triple (vouch request)
    (fun m i c => m = .opening ∧ i.cue = none ∧ c = i.state) (Client.send request) (Answers request)
  begins : ∀ request now, Careful request ⟨none, now, s.state⟩ ⟨none, now, s.state⟩
    (workplace.carryOut (.call (.send request)) now s.state).result
  goesOn : ∀ f ∈ s.flights, ∀ request, f.work = .call (.send request) → ∀ w, f.waiting = some w →
    w.wait.isCall = false → ∀ a now, ∃ x ∈ ms, x.number = f.number ∧ x.start.cue = none ∧
      Careful request x.start ⟨some ⟨w.wait, a⟩, now, s.state⟩ (w.resume a now s.state).result
  settles : ∀ f ∈ s.flights, ∀ request, f.work = .call (.send request) → ∀ w, f.waiting = some w →
    w.wait.isCall = true → ∀ a now v, (w.resume a now s.state).result ≠ .paused (.waits v)
  fresh : s.state.serial ≤ SecurityHeaders.idCount → ∀ x ∈ ms, ∀ y ∈ ms, ∀ q q', HandsOver x q →
    HandsOver y q' → x.number ≠ y.number →
      q.header? SecurityHeaders.requestId ≠ q'.header? SecurityHeaders.requestId
  counted : ms.Pairwise fun x y => x.left.serial ≤ y.start.state.serial

theorem careful_of_course (h : Course (scene c) ms s) : CarefulIn ms s := by
  refine ⟨vouches_send, fun request now => ?_, fun f hf request hwork w hw hcall a now => ?_,
    fun f hf request hwork w hw hcall a now v => ?_, fun hserial x hx y hy q q' hq hq' hne =>
      id_ne_of_handsOver h hserial hx hy hq hq' hne, (serials_of_course h).2⟩
  · have hsent : sent? (.call (.send request)) = some request := rfl
    cases vouched_of_begin hsent now s.state with
    | asks hphase hmade hopening hserial hfate => exact hfate.careful nofun
  · obtain ⟨m, hbegan, hvouched⟩ := vouched_of_flight h hf hwork hw a now
    cases hvouched with
    | settles hmade hres => exact absurd (hcall.symm.trans hmade) Bool.false_ne_true
    | asks hphase hmade hopening hserial hfate =>
        cases m with
        | made => exact absurd rfl hphase
        | opening => cases hopening rfl
        | parked held first =>
            -- No limit has changed since the call began, so it holds on to the one that stands.
            obtain ⟨x, hx, hnumber, hbegins, rfl, hlimit⟩ := hbegan held first rfl
            refine ⟨x, hx, hnumber, hbegins.cue, hfate.careful fun limit hm => ?_⟩
            obtain rfl := Option.some.inj hm
            obtain ⟨hstands, hall⟩ := limit?_of_course h (Route.normalize request.path)
            exact hstands.trans ((hall x hx).symm.trans hlimit)
  · obtain ⟨m, hbegan, hvouched⟩ := vouched_of_flight h hf hwork hw a now
    cases hvouched with
    | settles hmade hres => exact hres v
    | asks hphase hmade hopening hserial hfate =>
        exact absurd (hmade.symm.trans hcall) Bool.false_ne_true

/-- The request that is handed over in the moment, if one is. -/
def handed? (x : Moment) : Option Request :=
  match x.result with
  | .paused (.waits (.call q)) => some q
  | _ => none

/-- The plain client with a limit on calls to sign out at the server, which need a session. -/
def signingOut (limit : EndpointLimit) : Client :=
  { plain with limiter := Limiter.empty.configure "/auth/logout" limit }

/-- A second call waits for a token of its route, and the session gets another token meanwhile. -/
def tokenReplaced : Script :=
  let lasts : Option Instant := some ⟨1748782800000000000⟩
  let second : Request := (Request.new .post "auth/logout/").setHeader "AUTHORIZATION" "mine"
  [(⟨1748779200000000000⟩, .ask (.onTab 0 (.install ⟨"old"⟩ lasts))),
    (⟨1748779200000000000⟩, .ask (.send (.new .post "/auth/logout"))),
    (⟨1748779200400000000⟩, .ask (.send second)),
    (⟨1748779200500000000⟩, .ask (.onTab 0 (.install ⟨"new"⟩ lasts))),
    (⟨1748779201000000000⟩, .reply 2 (Wait.answer (.ok ⟨200, Table.empty, ""⟩)
      (.error .loginRequired)))]

/-- The second call is made with the new token in place of what the caller had set, and with the
instant at which it began. -/
theorem careful_of_course_tokenReplaced : ∃ (ms : List Moment) (s : Scene),
    Course (scene (signingOut (.new 1 1000 600))) ms s ∧
      ((ms.filterMap handed?).map fun q => (q.header? "authorization", q.header? "x-request-start"))
        = [(some "Bearer old", some "1748779200000"), (some "Bearer new", some "1748779200400")] ∧
      CarefulIn ms s := by
  have hpasses : workplace.passes (scene (signingOut (.new 1 1000 600))) tokenReplaced 0
      (fun ms x ms' _ => decide ((((ms ++ x :: ms').filterMap handed?).map fun q =>
        (q.header? "authorization", q.header? "x-request-start")) =
          [(some "Bearer old", some "1748779200000"), (some "Bearer new", some "1748779200400")])) =
            true := by
    decide +kernel
  obtain ⟨ms, x, ms', s, h, htest⟩ := Workplace.exists_course hpasses
  exact ⟨_, s, h, of_decide_eq_true htest, careful_of_course h⟩

/-- The plain client whose batches of request events keep a distance. -/
def spaced (secs : Nat) : Client :=
  { plain with batcher := { plain.batcher with
      config := { plain.batcher.config with minSendIntervalSecs := secs } } }

/-- A call that needs a session where there is none faults, and gets no error, if the report of its
failure would be put off out of the calendar. -/
theorem not_told_unreported : ¬∀ (c : Client) (ms : List Moment) (s : Scene),
    Course (scene c) ms s → ∀ (request : Request) (now : Instant), now.InCalendar →
      (∀ x ∈ ms, x.start.now ≤ now) → Route.requiresAuth request.path = true →
      (s.state.tabs.token s.state.own now).1 = none →
        TurnedAway ⟨none, now, s.state⟩
            (workplace.carryOut (.call (.send request)) now s.state).result ∨
          ToldNoToken (workplace.carryOut (.call (.send request)) now s.state).result := by
  intro hclaim
  let request : Request := .new .get "/words"
  let now : Instant := ⟨1748779203000000000⟩
  have hpasses : workplace.passes (scene (spaced 1000000000000))
      [(⟨1748779200000000000⟩, .ask (.send request)), (⟨1748779200000000000⟩, .begin 1)] 0
      (fun ms x ms' s => decide ((∀ y ∈ ms ++ x :: ms', y.start.now ≤ now) ∧
        (s.state.tabs.token s.state.own now).1 = none ∧
        (workplace.carryOut (.call (.send request)) now s.state).result.isFault = true)) =
          true := by
    decide +kernel
  obtain ⟨ms, x, ms', s, h, htest⟩ := Workplace.exists_course hpasses
  obtain ⟨hnow, hnone, hfaults⟩ := of_decide_eq_true htest
  have htold := hclaim (spaced 1000000000000) _ s h request now (by decide +kernel) hnow
    (by decide +kernel) hnone
  generalize (workplace.carryOut (.call (.send request)) now s.state).result = res at htold hfaults
  rcases htold with (⟨-, span, rfl⟩ | ⟨e, rfl, -⟩) | ⟨e, rfl, -⟩ <;> cases hfaults

end Client

end ClientSession
