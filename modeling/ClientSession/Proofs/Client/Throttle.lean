import ClientSession.Proofs.Client.Thrift
import ClientSession.Proofs.Limit.Calls

/-!
# Calls under a limit

A call of the sign-in family asks for a token of its route, and waits for one if the limit allows,
before it is made. Without a token it is not made: it is held back once, or refused with an error.
Once it has been made it no longer touches the bucket, and it is made only once.

- `Client.Verdict`: what becomes of a call in a stretch in which it asks for a token.
- `Client.triple_send`: every stretch of a call comes to a verdict, or settles a call that was made.
-/

namespace ClientSession

/-- A look at a bucket that has refused a token changes nothing for it. -/
theorem Limiter.Uses.look {l l' l'' : Limiter} {name : String} {limit : EndpointLimit}
    {now : Instant} {granted : Bool} (h : l.Uses name limit now true false l')
    (h' : l'.Uses name limit now false granted l'') : l.Uses name limit now true false l'' := by
  have hsame : (Bucket.ready (l.buckets.find? name) limit now).draw true =
      (false, Bucket.ready (l.buckets.find? name) limit now) := if_pos h.tokens_eq_zero
  refine ⟨h'.limits.trans h.limits, h.granted_eq, ?_, fun n hn => ?_⟩
  · rw [h'.own, h.ready_eq, hsame]
    rfl
  · rw [h'.other n hn, h.other n hn]

namespace Batcher

/-- The next batch can be put off until batches have kept their distance. -/
def Sendable (b : Batcher) : Prop :=
  ∀ last, b.lastSend = some last →
    (⟨last.nanos + b.config.minSendInterval.nanos⟩ : Instant).InCalendar

variable {b : Batcher}

theorem exists_deferSend (h : b.Sendable) (now : Instant) : ∃ b', b.deferSend now = .ok b' := by
  have hdelay : ∃ span, b.sendDelay now = .ok span := by
    unfold sendDelay
    split
    · exact ⟨_, rfl⟩
    · rename_i last hlast
      have hplus : last.plus b.config.minSendInterval =
          .ok ⟨last.nanos + b.config.minSendInterval.nanos⟩ := by
        rw [Instant.plus, Instant.plus?, if_pos (h last hlast)]
      rw [hplus]
      exact ⟨_, rfl⟩
  unfold deferSend
  split
  · exact ⟨_, rfl⟩
  · obtain ⟨span, hspan⟩ := hdelay
    rw [hspan]
    exact ⟨_, rfl⟩

/-- Then every report of a call is taken. -/
theorem exists_trackRequest (h : b.Sendable) (e : Event) (now : Instant) :
    ∃ r, b.trackRequest e now = .ok r := by
  unfold trackRequest
  split
  · exact ⟨_, rfl⟩
  · dsimp only
    split
    · exact ⟨_, rfl⟩
    · split
      · exact ⟨_, rfl⟩
      · obtain ⟨b', hb'⟩ := exists_deferSend (b := { b.forgetOld now with
          recent := (b.forgetOld now).recent.insert (b.attributed e).dedupKey now
          requests := (b.forgetOld now).requests ++ [b.attributed e] }) h now
        rw [hb']
        exact ⟨_, rfl⟩

end Batcher

/-- The stretch goes on with the answer to a call that was made. -/
def Start.isMade {σ : Type} (i : Start σ) : Bool := i.cue.any fun q => q.1.isCall

open Activity

namespace Client

/-- How far a call has come: it asks for a token, holding on to a limit once it has waited, or it
has been made. -/
inductive Stage where
  | asking (held : Limiter.Memo)
  | made

/-- Of the results of a stretch that asks for a token, those in which one was given. -/
def admits : Result (Ending Reply Job) → Bool
  | .paused (.waits (.call _)) => true
  | .ended (.answers (.called (.error e))) => decide (e.kind ≠ .rateLimit)
  | _ => false

/-- What becomes of a call in a stretch in which it asks for a token under a limit: the result, and
the limiter that is left. It faults where the limiter has left the calendar, and where its failure
cannot be reported. -/
inductive Verdict (path : String) (limit : EndpointLimit) (i : Start Client) :
    Result (Ending Reply Job) → Limiter → Prop where
  | admitted {res : Result (Ending Reply Job)} {l : Limiter} (hres : admits res = true)
      (huses : i.state.limiter.Uses path limit i.now true true l) : Verdict path limit i res l
  | held {l : Limiter} (span : Span) (hcue : i.cue = none)
      (huses : i.state.limiter.Uses path limit i.now true false l) :
      Verdict path limit i (.paused (.waits (.sleep span))) l
  | refused {l : Limiter} (wait : Span)
      (huses : i.state.limiter.Uses path limit i.now true false l) :
      Verdict path limit i
        (.ended (.answers (.called (.error (classify (.refused (.rateLimited wait)) i.now))))) l
  | strained {l : Limiter} (h : i.state.limiter.Strained path limit i.now) :
      Verdict path limit i (.paused .faults) l
  | unreported {l : Limiter} (h : i.state.batcher.Sendable →
      ∃ l, i.state.limiter.Uses path limit i.now true true l) :
      Verdict path limit i (.paused .faults) l

/-- A stretch in which a call asks for a token comes to a verdict, unless its route has no limit. -/
inductive Asks (path : String) (held : Limiter.Memo) (i : Start Client)
    (res : Result (Ending Reply Job)) (l : Limiter) : Prop where
  | free (hcue : i.cue = none) (hl : i.state.limiter.limit? path = none)
  | under (limit : EndpointLimit) (hheld : Limiter.HeldTo held (i.of (·.limiter)) path limit)
      (hverdict : i.state.limiter.limit? path = some limit → Verdict path limit i res l)

/-- A stretch after the call has been made leaves the bucket of the route alone. -/
structure Settles (path : String) (i : Start Client) (l : Limiter) : Prop where
  made : i.isMade = true
  spared : Limiter.Spared path True i.state.limiter l

/-- How far the call has come after a stretch. -/
def Stage.next (path : String) (i : Start Client) : Stage → Pause → Stage
  | .asking _, .waits (.call _) => .made
  | .asking _, .waits _ => .asking ((i.state.limiter.limit? path).map fun limit => (path, limit))
  | m, _ => m

/-- What a stretch of a call that pauses does. Once the call has been made it waits no more. -/
def throttle (path : String) : Pact Stage Client := fun m i p c m' =>
  m' = m.next path i p ∧
    match p, m with
    | .drops, _ => c.limiter = i.state.limiter
    | p, .asking held => i.isMade = false ∧ Asks path held i (.paused p) c.limiter
    | p, .made => Settles path i c.limiter ∧ ∀ w, p ≠ .waits w

/-- What a stretch of a call that ends does. -/
def Concludes (path : String) (m : Stage) (i : Start Client) (r : CallResult) (c : Client) : Prop :=
  match m with
  | .asking held => i.isMade = false ∧ Asks path held i (.ended (.answers (.called r))) c.limiter
  | .made => Settles path i c.limiter

variable {path : String} {limit : EndpointLimit} {m : Stage} {i : Start Client} {c c' : Client}
  {α : Type}

theorem concludes_same {r : CallResult} (h : Concludes path m i r c)
    (hc : c'.limiter = c.limiter) : Concludes path m i r c' := by
  unfold Concludes at h ⊢
  rw [hc]
  exact h

/-! ## Asking for a token -/

/-- The call has not yet touched the limiter nor the batcher. -/
structure Opens (m : Stage) (i : Start Client) (c : Client) : Prop where
  stage : m = .asking none
  cue : i.cue = none
  limiter : c.limiter = i.state.limiter
  batcher : c.batcher = i.state.batcher

/-- The call has asked for a token, and was given one or not. -/
def Tries (path : String) (granted : Bool) (m : Stage) (i : Start Client) (c : Client) : Prop :=
  ∃ held, m = .asking held ∧ i.isMade = false ∧
    Limiter.Acts path none .acquire held (i.of (·.limiter)) granted c.limiter

theorem isMade_of_after (h : After (fun w => ∃ span, w = .sleep span) i) : i.isMade = false := by
  unfold Start.isMade
  cases hcue : i.cue with
  | none => rfl
  | some q =>
      obtain ⟨span, hspan⟩ := h q hcue
      show q.1.isCall = false
      rw [hspan]
      rfl

theorem throttle_of_acquire {held held' : Limiter.Memo} {p : Pause}
    (h : Awaiting (fun w => ∃ span, w = .sleep span) (Limiter.Call.on path none .acquire).pact held
      (i.of (·.limiter)) p c.limiter held') :
    throttle path (.asking held) i p c (.asking held') := by
  obtain ⟨⟨hpact, hw⟩, hafter⟩ := h
  have hmade : i.isMade = false := isMade_of_after hafter
  cases p with
  | waits w =>
      obtain ⟨span, rfl⟩ := hw w rfl
      obtain ⟨-, hcue, hacts, rfl⟩ := hpact
      refine ⟨rfl, hmade, ?_⟩
      cases hacts with
      | free hcue hl hleft hgranted => cases hgranted
      | held limit hheld hpurpose huses => exact .under limit hheld fun _ => .held span hcue huses
  | faults =>
      obtain ⟨rfl, limit, hheld, hstrained⟩ := hpact
      exact ⟨rfl, hmade, .under limit hheld fun _ => .strained hstrained⟩
  | stays => exact hpact.elim
  | drops =>
      obtain ⟨hl, rfl⟩ := hpact
      exact ⟨rfl, hl⟩

theorem triple_acquire : Triple (throttle path) Opens (Client.acquire path none)
    fun m i granted c => Tries path granted m i c ∧ c.batcher = i.state.batcher := by
  have hmoves : Moves (fun w => ∃ span, w = .sleep span) (Limiter.Spared path False)
      (Limiter.acquire path none) := Limiter.moves_acquire False.elim
  have hacquire := Limiter.triple_acquire.awaiting hmoves Limiter.Spared.refl
  unfold Client.acquire
  refine (Triple.within (F := fun i c => c.batcher = i.state.batcher) ?_ ?_ (fun _ _ => rfl)
    (fun _ _ _ _ _ _ h => throttle_of_acquire h) hacquire).conseq ?_ ?_
  · exact fun c l => rfl
  · exact fun i c l h => h
  · rintro m i c ⟨rfl, hcue, hl, hb⟩
    refine ⟨none, rfl, ⟨⟨rfl, hcue, hl⟩, fun q hq => ?_⟩, hb⟩
    rw [show i.cue = some q from hq] at hcue
    cases hcue
  · rintro m i granted c ⟨held, rfl, ⟨hacts, hafter⟩, hb⟩
    exact ⟨⟨held, rfl, isMade_of_after hafter, hacts⟩, hb⟩

/-! ## Making the call -/

theorem tries_same {granted : Bool} (h : Tries path granted m i c)
    (hc : c'.limiter = c.limiter) : Tries path granted m i c' := by
  unfold Tries at h ⊢
  rw [hc]
  exact h

/-- What becomes of a call that was given a token is asked for under the limit that gave it. -/
theorem asks_of_granted {held : Limiter.Memo} {res : Result (Ending Reply Job)} {l : Limiter}
    (h : Limiter.Acts path none .acquire held (i.of (·.limiter)) true l)
    (hverdict : ∀ limit, i.state.limiter.Uses path limit i.now true true l →
      Verdict path limit i res l) : Asks path held i res l := by
  cases h with
  | free hcue hl hleft hgranted => exact .free hcue hl
  | held limit hheld hpurpose huses => exact .under limit hheld fun _ => hverdict limit huses

theorem faults_of_granted (h : Tries path true m i c) : throttle path m i .faults c m := by
  obtain ⟨held, rfl, hmade, hacts⟩ := h
  exact ⟨rfl, hmade, asks_of_granted hacts fun _ huses => .unreported fun _ => ⟨_, huses⟩⟩

/-- A refusal is reported; that faults only where the next batch cannot be put off. -/
theorem triple_reject {μ : Type} {P : Pact μ Client} {A B : μ → Start Client → Client → Prop}
    (hA : ∀ m i c c', A m i c → c'.kept = c.kept → c'.batcher = c.batcher → A m i c')
    (hP : ∀ m i c, A m i c → ¬c.batcher.Sendable → P m i .faults c m)
    (hB : ∀ m i c b, A m i c → B m i (c.setBatcher b)) (r : Request) (failure : LocalFailure) :
    Triple P A (Client.reject r path failure)
      fun m i e c => B m i c ∧ e = classify (.refused failure) i.now := by
  refine Triple.bind (M := fun m i now c => A m i c ∧ now = i.now)
    (triple_now fun m i c h => ⟨h, rfl⟩) fun now => ?_
  refine Triple.bind (M := fun m i _ c => A m i c ∧ now = i.now)
    (triple_modify fun m i c h => ⟨hA m i c _ h.1 rfl rfl, h.2⟩) fun _ => ?_
  refine Triple.bind (M := fun m i _ c => B m i c ∧ now = i.now)
    (triple_attempt_of_error ?_ ?_) fun _ => triple_pure ?_
  · rintro m i c f ⟨h, -⟩ hf
    refine hP m i c h fun hs => ?_
    obtain ⟨r', hr'⟩ := Batcher.exists_trackRequest hs _ i.now
    rw [hr'] at hf
    cases hf
  · rintro m i c r' ⟨h, hnow⟩ hr'
    obtain ⟨d, -, rfl⟩ := ok_of_bind hr'
    exact ⟨hB m i c _ h, hnow⟩
  · rintro m i c ⟨h, rfl⟩
    exact ⟨h, rfl⟩

/-- A call is made, and settled without another wait. -/
theorem triple_made {μ : Type} {P : Pact μ Client} {made : μ}
    {pre : μ → Start Client → Client → Prop} {Q : μ → Start Client → CallResult → Client → Prop}
    {r : Request} (hmakes : ∀ m i c, pre m i c → P m i (.waits (.call r)) c made)
    (hdrops : ∀ now c, P made ⟨none, now, c⟩ .drops c made)
    (hpauses : ∀ i p c, Settles path i c.limiter → p = .faults ∨ p = .stays → P made i p c made)
    (hends : ∀ i a c, Settles path i c.limiter → Q made i a c) :
    Triple P pre (Client.exchange r path) Q := by
  rw [exchange_eq]
  refine Triple.bind (M := fun m i _ c => m = made ∧ i.isMade = true ∧ c = i.state)
    (triple_await fun m i c h => ?_) fun outcome => ⟨fun m i c h => ?_⟩
  · exact ⟨made, hmakes m i c h, hdrops, fun a now c => ⟨rfl, rfl, rfl⟩⟩
  obtain ⟨rfl, hmade, rfl⟩ := h
  have hsettles : ThriftyIn (fun _ => False) path True (settleCall r path outcome) :=
    thrifty_settleCall r path outcome
  have hmoves := hsettles.meets () i i.state (.refl _)
  cases hrun : settleCall r path outcome i.now i.state with
  | done c' a =>
      rw [hrun] at hmoves
      exact hends i a c' ⟨hmade, Unaltered.limiter hmoves⟩
  | fault c' f =>
      rw [hrun] at hmoves
      exact hpauses i .faults c' ⟨hmade, hmoves.2.limiter⟩ (.inl rfl)
  | stay c' =>
      rw [hrun] at hmoves
      exact hpauses i .stays c' ⟨hmade, hmoves.2.limiter⟩ (.inr rfl)
  | wait c' w drop resume =>
      rw [hrun] at hmoves
      obtain ⟨_, ⟨hw, -⟩, -⟩ := hmoves
      exact (hw w rfl).elim

theorem throttle_of_settles {p : Pause} (h : Settles path i c.limiter)
    (hp : p = .faults ∨ p = .stays) : throttle path .made i p c .made := by
  rcases hp with rfl | rfl <;> exact ⟨rfl, h, nofun⟩

theorem triple_exchange (r : Request) : Triple (throttle path) (Tries path true)
    (Client.exchange r path) (Concludes path) := by
  refine triple_made ?_ (fun _ _ => ⟨rfl, rfl⟩) (fun _ _ _ => throttle_of_settles)
    fun _ _ _ h => h
  rintro m i c ⟨held, rfl, hmade, hacts⟩
  exact ⟨rfl, hmade, asks_of_granted hacts fun _ huses => .admitted rfl huses⟩

theorem triple_authorize (r : Request) (started : Instant) :
    Triple (throttle path) (Tries path true) (Client.authorize r path started)
      (Concludes path) := by
  refine Triple.ite (fun _ => ?_) fun _ => triple_exchange r
  refine Triple.bind (M := fun m i _ c => Tries path true m i c)
    (triple_step fun m i c h => tries_same h (limiter_setTabs c _)) fun token => ?_
  cases token with
  | none =>
      refine Triple.bind (triple_reject (P := throttle path) (A := Tries path true)
        (B := Tries path true) (fun _ _ _ _ h hkept _ => tries_same h (congrArg (·.1) hkept))
          (fun _ _ _ h _ => faults_of_granted h) (fun _ _ _ _ h => tries_same h rfl) r
            .missingToken) fun e => triple_pure ?_
      rintro m i c ⟨⟨held, rfl, hmade, hacts⟩, rfl⟩
      exact ⟨hmade, asks_of_granted hacts fun _ huses => .admitted rfl huses⟩
  | some token =>
      refine Triple.bind (M := fun m i _ c => Tries path true m i c)
        (triple_modify fun m i c h => tries_same h rfl) fun _ => triple_exchange _

/-! ## Refusing the call -/

/-- A call to which a token was refused has looked how long it has to wait. -/
def Refuses (path : String) (m : Stage) (i : Start Client) (c : Client) : Prop :=
  ∃ held limit, m = .asking held ∧ i.isMade = false ∧
    Limiter.HeldTo held (i.of (·.limiter)) path limit ∧
      (i.state.limiter.limit? path = some limit →
        i.state.limiter.Uses path limit i.now true false c.limiter)

/-- The look at how long to wait faults only where the bucket of the limit is strained, for it is
under the limit that stands, which need not be the one that is held on to. -/
theorem strained_of_remainingWait {held : Limiter.Memo} {j : Start Limiter} {l : Limiter}
    {f : Fault} (h : Limiter.Acts path none .acquire held j false l)
    (hf : l.remainingWait path none j.now = .error f) :
    ∃ limit, Limiter.HeldTo held j path limit ∧
      (j.state.limit? path = some limit → j.state.Strained path limit j.now) := by
  cases h with
  | free hcue hl hleft hgranted => cases hgranted
  | held limit hheld hpurpose huses =>
      refine ⟨limit, hheld, fun hstands => ?_⟩
      obtain ⟨limit', hlimit', hstrained⟩ := Limiter.evaluate_error (error_of_bind hf)
      have hleft := (huses.limit?_eq path).symm.trans hlimit'
      obtain rfl := Option.some.inj (hleft.symm.trans hstands)
      exact huses.strained_iff.mp hstrained

theorem triple_remainingWait : Triple (throttle path)
    (fun m i c => Tries path false m i c ∧ c.batcher = i.state.batcher)
    (Client.remainingWait path none)
    fun m i _ c => Refuses path m i c ∧ c.batcher = i.state.batcher := by
  refine triple_attempt_of_error ?_ ?_
  · rintro m i c f ⟨⟨held, rfl, hmade, hacts⟩, hb⟩ hf
    obtain ⟨limit, hheld, hstrained⟩ := strained_of_remainingWait hacts (error_of_bind hf)
    exact ⟨rfl, hmade, .under limit hheld fun hstands => .strained (hstrained hstands)⟩
  · rintro m i c r ⟨⟨held, rfl, hmade, hacts⟩, hb⟩ hr
    obtain ⟨d, hd, rfl⟩ := ok_of_bind hr
    obtain ⟨d', hd', rfl⟩ := ok_of_bind hd
    cases hacts with
    | free hcue hl hleft hgranted => cases hgranted
    | held limit hheld hpurpose huses =>
        refine ⟨⟨held, limit, rfl, hmade, hheld, fun hstands => ?_⟩, hb⟩
        rcases Limiter.evaluate_uses hd' with ⟨-, hsame⟩ | ⟨limit', hlimit', hlook⟩
        · rw [hsame]
          exact huses
        · obtain rfl :=
            Option.some.inj (((huses.limit?_eq path).symm.trans hlimit').symm.trans hstands)
          exact huses.look hlook

theorem triple_refusal (r : Request) : Triple (throttle path)
    (fun m i c => Tries path false m i c ∧ c.batcher = i.state.batcher)
    (do
      let wait ← Client.remainingWait path none
      return .error (← Client.reject r path (.rateLimited wait)))
    (Concludes path) := by
  refine Triple.bind triple_remainingWait fun wait => Triple.bind (triple_reject
    (P := throttle path) (A := fun m i c => Refuses path m i c ∧ c.batcher = i.state.batcher)
      (B := Refuses path) ?_ ?_ ?_ r (.rateLimited wait)) fun e => triple_pure ?_
  · rintro m i c c' ⟨h, hb⟩ hkept hb'
    refine ⟨?_, hb'.trans hb⟩
    have hlimiter : c'.limiter = c.limiter := congrArg (·.1) hkept
    unfold Refuses at h ⊢
    rw [hlimiter]
    exact h
  · rintro m i c ⟨⟨held, limit, rfl, hmade, hheld, -⟩, hb⟩ hs
    refine ⟨rfl, hmade, .under limit hheld fun _ => .unreported fun hs' => ?_⟩
    rw [hb] at hs
    exact absurd hs' hs
  · exact fun m i c b h => h.1
  · rintro m i c ⟨⟨held, limit, rfl, hmade, hheld, huses⟩, rfl⟩
    exact ⟨hmade, .under limit hheld fun hstands => .refused wait (huses hstands)⟩

/-! ## The whole call -/

theorem triple_dispatch {request : Request} (hpath : Route.normalize request.path = path)
    (hfamily : Route.isAuthFamily path = true) :
    Triple (throttle path) Opens (Client.dispatch request) (Concludes path) := by
  subst hpath
  refine Triple.bind (M := fun m i _ c => Opens m i c) (triple_now fun _ _ _ h => h)
    fun started => ?_
  refine Triple.bind (M := fun m i _ c => Opens m i c) (triple_step fun m i c h => ?_) fun r => ?_
  · exact ⟨h.stage, h.cue, h.limiter, h.batcher⟩
  refine Triple.ite (fun _ => ?_) fun hnot => absurd hfamily hnot
  refine Triple.bind triple_acquire fun granted => ?_
  refine Triple.ite (fun hgranted => ?_) fun hrefused => ?_
  · subst hgranted
    exact (triple_authorize r started).conseq (fun _ _ _ h => h.1) fun _ _ _ _ h => h
  · obtain rfl := Bool.eq_false_iff.mpr hrefused
    exact triple_refusal r

/-- What is known of a call from what it does to the limiter and takes of the numbers is known of it
with all that is counted and made known of its outcome. -/
theorem triple_counted {μ : Type} {P : Pact μ Client} {A B : μ → Start Client → Client → Prop}
    {Q : μ → Start Client → CallResult → Client → Prop} {request : Request}
    (hA : ∀ m i c, A m i c → B m i (c.count .attempt))
    (hQ : ∀ m i r c c', Q m i r c → c'.kept = c.kept → Q m i r c')
    (h : Triple P B (Client.dispatch request) Q) : Triple P A (Client.send request) Q := by
  refine Triple.bind (M := fun m i _ c => B m i c) (triple_modify hA) fun _ => ?_
  refine Triple.bind h fun outcome => ?_
  cases outcome with
  | ok response =>
      exact Triple.bind (M := fun m i _ c => Q m i (.ok response) c)
        (triple_modify fun m i c h => hQ m i _ c _ h rfl) fun _ => triple_pure fun _ _ _ h => h
  | error e =>
      refine Triple.bind (M := fun m i _ c => Q m i (.error e) c)
        (triple_modify fun m i c h => hQ m i _ c _ h rfl) fun _ => ?_
      exact Triple.bind (M := fun m i _ c => Q m i (.error e) c)
        (triple_change fun m i c h => hQ m i _ c _ h (kept_ite_announce _ _ _)) fun _ =>
          triple_pure fun _ _ _ h => h

/-- Every stretch of a call comes to a verdict, or settles a call that was made. -/
theorem triple_send {request : Request} (hpath : Route.normalize request.path = path)
    (hfamily : Route.isAuthFamily path = true) :
    Triple (throttle path) Opens (Client.send request) (Concludes path) :=
  triple_counted (fun _ _ _ h => ⟨h.stage, h.cue, h.limiter, h.batcher⟩)
    (fun _ _ _ _ _ h hkept => concludes_same h (congrArg (·.1) hkept))
    (triple_dispatch hpath hfamily)

end Client

end ClientSession
