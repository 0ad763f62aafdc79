import ClientSession.Proofs.Course
import ClientSession.Proofs.Limit.Uses

/-!
# Callers of a limiter

Any number of callers ask a limiter for tokens, look at its buckets, configure endpoints and drop
buckets. Only a caller that asks for a token waits, and it holds on to the limit that it began
with: what it does afterwards is done under that limit, whatever has been configured meanwhile.

- `Limiter.Acts`: what each stretch on a pair of endpoint and user does, and under which limit.
- `Limiter.rules_keptBy`: so does every stretch of all work.
- `Limiter.course_induction`: what each moment of a course preserves with its effect.
-/

namespace ClientSession

namespace Limiter

variable {l l' : Limiter} {endpoint : String} {user : Option String} {limit : EndpointLimit}

/-! ## Calls -/

/-- What is asked about a pair of endpoint and user. -/
inductive Purpose where
  | acquire
  | mayCall
  | evaluate
  | remainingWait
  | available
deriving DecidableEq

inductive Call where
  | on (endpoint : String) (user : Option String) (purpose : Purpose)
  | configure (endpoint : String) (limit : EndpointLimit)
  | reset (endpoint : String) (user : Option String)
  | resetAll
deriving DecidableEq

inductive Answer where
  | granted (granted : Bool)
  | may (may : Bool)
  | decided (decision : Decision)
  | wait (span : Span)
  | tokens (tokens : Option Nat)
  | done
deriving DecidableEq

/-- Only `acquire` asks for a token. -/
def Purpose.asks (p : Purpose) : Bool := decide (p = .acquire)

def Answer.grants : Answer → Bool
  | .granted given => given
  | _ => false

def respond (endpoint : String) (user : Option String) : Purpose → Activity Limiter Answer
  | .acquire => do return .granted (← acquire endpoint user)
  | .mayCall => do return .may (← Activity.attempt fun now l => l.mayCall endpoint user now)
  | .evaluate => do
    return .decided (← Activity.attempt fun now l => l.evaluate endpoint user now)
  | .remainingWait => do
    return .wait (← Activity.attempt fun now l => l.remainingWait endpoint user now)
  | .available => do
    return .tokens (← Activity.step fun now l => l.available endpoint user now)

def serve : Call → Activity Limiter Answer
  | .on endpoint user purpose => respond endpoint user purpose
  | .configure endpoint limit => do
    modify (·.configure endpoint limit)
    return .done
  | .reset endpoint user => do
    modify (·.reset endpoint user)
    return .done
  | .resetAll => do
    modify (·.resetAll)
    return .done

/-- Callers of one limiter; no tasks run beside them. -/
def workplace : Workplace Limiter Call Answer Empty Empty where
  call := serve
  perform := nofun
  goesBy := nofun
  orders _ := []
  heeded := id
  abandon l _ := l

/-! ## What each stretch does -/

/-- What a caller holds on to while it waits: its endpoint, and the limit that it began with. -/
abbrev Memo := Option (String × EndpointLimit)

/-- The limit under which a stretch acts: the one that is configured when it begins, and the one
that was held on to when it goes on. -/
inductive HeldTo (m : Memo) (i : Start Limiter) (endpoint : String) (limit : EndpointLimit) :
    Prop where
  | begins (hcue : i.cue = none) (hl : i.state.limit? endpoint = some limit)
  | resumes (hcue : i.cue ≠ none) (hm : m = some (endpoint, limit))

/-- What a stretch on a pair does: without a limit nothing, else one use of the bucket. -/
inductive Acts (endpoint : String) (user : Option String) (purpose : Purpose) (m : Memo)
    (i : Start Limiter) (granted : Bool) (l' : Limiter) : Prop where
  | free (hcue : i.cue = none) (hl : i.state.limit? endpoint = none) (hleft : l' = i.state)
      (hgranted : granted = purpose.asks)
  | held (limit : EndpointLimit) (hlimit : HeldTo m i endpoint limit)
      (hpurpose : i.cue ≠ none → purpose = .acquire)
      (huses : i.state.Uses (bucketName endpoint user) limit i.now purpose.asks granted l')

namespace Call

/-- What a stretch of the call that pauses does. Only a first stretch of `acquire` waits. -/
def pact : Call → Pact Memo Limiter
  | .on endpoint user purpose, m, i, .waits _, l', m' =>
    purpose = .acquire ∧ i.cue = none ∧ Acts endpoint user purpose m i false l' ∧
      m' = (i.state.limit? endpoint).map fun limit => (endpoint, limit)
  | .on endpoint user _, m, i, .faults, _, m' =>
    m' = m ∧ ∃ limit, HeldTo m i endpoint limit ∧
      i.state.Strained (bucketName endpoint user) limit i.now
  | _, m, i, .drops, l', m' => l' = i.state ∧ m' = m
  | _, _, _, _, _, _ => False

/-- What a stretch of the call that ends does. -/
def outcome : Call → Memo → Start Limiter → Answer → Limiter → Prop
  | .on endpoint user purpose, m, i, a, l' => Acts endpoint user purpose m i a.grants l'
  | .configure endpoint limit, _, i, _, l' => l' = i.state.configure endpoint limit
  | .reset endpoint user, _, i, _, l' => l' = i.state.reset endpoint user
  | .resetAll, _, i, _, l' => l' = i.state.resetAll

end Call

def rules : Rules Memo Limiter Call Answer Empty where
  memo := none
  pact
    | .call k => k.pact
    | .job j => nomatch j
  outcome
    | .call k, m, i, e, l' => ∃ a, e = .answers a ∧ k.outcome m i a l'
    | .job j, _, _, _, _ => nomatch j

/-- The start of a call. -/
def Fresh (m : Memo) (i : Start Limiter) (l : Limiter) : Prop :=
  m = none ∧ i.cue = none ∧ l = i.state

open Activity

/-- The limiter after the first use of a call that asks for a token. -/
structure Tried (endpoint : String) (user : Option String) (limit : EndpointLimit)
    (granted : Bool) (i : Start Limiter) (l : Limiter) : Prop where
  cue : i.cue = none
  configured : i.state.limit? endpoint = some limit
  uses : i.state.Uses (bucketName endpoint user) limit i.now true granted l

/-- The limiter before the second use: either no time has passed, or the caller has waited. -/
def Retries (endpoint : String) (user : Option String) (limit : EndpointLimit) (m : Memo)
    (i : Start Limiter) (l : Limiter) : Prop :=
  Tried endpoint user limit false i l ∨
    (i.cue ≠ none ∧ m = some (endpoint, limit) ∧ l = i.state)

namespace Retries

variable {m : Memo} {i : Start Limiter} (h : Retries endpoint user limit m i l)

include h

theorem heldTo : HeldTo m i endpoint limit := by
  rcases h with h | ⟨hcue, hm, -⟩
  · exact .begins h.cue h.configured
  · exact .resumes hcue hm

theorem uses {granted : Bool}
    (huses : l.Uses (bucketName endpoint user) limit i.now true granted l') :
    i.state.Uses (bucketName endpoint user) limit i.now true granted l' := by
  rcases h with h | ⟨-, -, rfl⟩
  · exact h.uses.again huses
  · exact huses

theorem strained (hs : l.Strained (bucketName endpoint user) limit i.now) :
    i.state.Strained (bucketName endpoint user) limit i.now := by
  rcases h with h | ⟨-, -, rfl⟩
  · exact h.uses.strained_iff.mp hs
  · exact hs

end Retries

theorem triple_sleep (span : Span) : Triple (Call.on endpoint user .acquire).pact
    (fun _ i l => Tried endpoint user limit false i l) (Activity.sleep span)
    fun m i _ l => Retries endpoint user limit m i l := by
  refine Triple.ite (fun _ => triple_await fun m i l h => ?_) fun _ => triple_pure ?_
  · refine ⟨some (endpoint, limit), ⟨rfl, h.cue, ?_, ?_⟩, fun _ _ => ⟨rfl, rfl⟩, fun _ _ _ => ?_⟩
    · exact .held limit (.begins h.cue h.configured) (fun _ => rfl) h.uses
    · rw [h.configured]
      rfl
    · exact .inr ⟨nofun, rfl, rfl⟩
  · exact fun _ _ _ h => .inl h

theorem triple_acquire : Triple (Call.on endpoint user .acquire).pact Fresh
    (acquire endpoint user)
    fun m i granted l' => Acts endpoint user .acquire m i granted l' := by
  refine Triple.bind (M := fun m i l s => Fresh m i s ∧ l = s)
    (triple_get fun _ _ _ h => ⟨h, rfl⟩) fun l => ?_
  cases hlimit : l.limit? endpoint with
  | none =>
      refine triple_pure ?_
      rintro m i s ⟨⟨rfl, hcue, rfl⟩, rfl⟩
      exact .free hcue hlimit rfl rfl
  | some limit =>
      refine Triple.bind (M := fun _ i r s => Tried endpoint user limit r.isNone i s) ?_ fun r => ?_
      · refine triple_attempt_of_error ?_ ?_
        · rintro m i s f ⟨⟨rfl, hcue, rfl⟩, rfl⟩ hf
          exact ⟨rfl, limit, .begins hcue hlimit, tryTake_error hf⟩
        · rintro m i s r ⟨⟨rfl, hcue, rfl⟩, rfl⟩ hr
          exact ⟨hcue, hlimit, tryTake_uses hr⟩
      cases r with
      | none =>
          refine triple_pure fun m i s h => ?_
          exact .held limit (.begins h.cue h.configured) (fun _ => rfl) h.uses
      | some wait =>
          refine Triple.bind (triple_sleep _) fun _ => Triple.map (triple_attempt_of_error ?_ ?_)
          · intro m i s f h hf
            exact ⟨rfl, limit, h.heldTo, h.strained (tryTake_error hf)⟩
          · intro m i s r h hr
            exact .held limit h.heldTo (fun _ => rfl) (h.uses (tryTake_uses hr))

/-- Steps that look at a bucket as `evaluate` does. -/
theorem triple_look {α : Type} {purpose : Purpose} (hp : purpose.asks = false)
    {f : Instant → Limiter → Checked (α × Limiter)} {g : α → Answer}
    (hg : ∀ a, (g a).grants = false)
    (hok : ∀ now l r, f now l = .ok r → ∃ d, l.evaluate endpoint user now = .ok (d, r.2))
    (herror : ∀ now l e, f now l = .error e → l.evaluate endpoint user now = .error e) :
    Triple (Call.on endpoint user purpose).pact Fresh
      (do return g (← Activity.attempt f)) (Call.on endpoint user purpose).outcome := by
  refine Triple.map (triple_attempt_of_error ?_ ?_)
  · rintro m i s e ⟨rfl, hcue, rfl⟩ he
    obtain ⟨limit, hlimit, hs⟩ := evaluate_error (herror _ _ _ he)
    exact ⟨rfl, limit, .begins hcue hlimit, hs⟩
  · rintro m i s r ⟨rfl, hcue, rfl⟩ hr
    obtain ⟨d, hd⟩ := hok _ _ _ hr
    rcases evaluate_uses hd with ⟨hlimit, hsame⟩ | ⟨limit, hlimit, huses⟩
    · exact .free hcue hlimit hsame (by rw [hg, hp])
    · refine .held limit (.begins hcue hlimit) (fun h => absurd hcue h) ?_
      rw [hp, hg]
      exact huses

theorem ok_of_evaluate {α : Type} {g : Decision → α} {x : Checked (Decision × Limiter)}
    {r : α × Limiter} (h : (do let d ← x; return (g d.1, d.2)) = Except.ok r) :
    ∃ d, x = .ok (d, r.2) := by
  cases x with
  | error f => cases h
  | ok d =>
      cases h
      exact ⟨d.1, rfl⟩

theorem error_of_evaluate {α : Type} {g : Decision → α} {x : Checked (Decision × Limiter)}
    {f : Fault} (h : (do let d ← x; return (g d.1, d.2)) = Except.error f) : x = .error f := by
  cases x with
  | error f' =>
      cases h
      rfl
  | ok d => cases h

/-- The wait that a decision tells. -/
def waitOf : Decision → Span
  | .allow => Span.zero
  | .delay _ wait => wait

theorem triple_respond (purpose : Purpose) : Triple (Call.on endpoint user purpose).pact Fresh
    (respond endpoint user purpose) (Call.on endpoint user purpose).outcome := by
  cases purpose with
  | acquire => exact Triple.map triple_acquire
  | mayCall =>
      let g : Decision → Bool := fun d => decide (d = .allow)
      exact triple_look rfl (fun _ => rfl) (fun _ _ _ h => ok_of_evaluate (g := g) h)
        fun _ _ _ h => error_of_evaluate (g := g) h
  | evaluate =>
      exact triple_look rfl (fun _ => rfl) (fun _ _ r h => ⟨r.1, h⟩) fun _ _ _ h => h
  | remainingWait =>
      exact triple_look rfl (fun _ => rfl) (fun _ _ _ h => ok_of_evaluate (g := waitOf) h)
        fun _ _ _ h => error_of_evaluate (g := waitOf) h
  | available =>
      refine Triple.map (triple_step ?_)
      rintro m i s ⟨rfl, hcue, rfl⟩
      cases hlimit : i.state.limit? endpoint with
      | none =>
          refine .free hcue hlimit ?_ rfl
          rw [available, hlimit]
      | some limit =>
          refine .held limit (.begins hcue hlimit) (fun h => absurd hcue h) ?_
          rw [available, hlimit]
          exact uses_store

theorem triple_serve (k : Call) : Triple k.pact Fresh (serve k) k.outcome := by
  -- A call on no pair changes the limiter at once.
  have hchange : ∀ {f : Limiter → Limiter} {P : Pact Memo Limiter},
      Triple P Fresh (do modify f; return Answer.done) fun _ i _ l' => l' = f i.state := by
    intro f P
    refine Triple.bind (M := fun _ i _ l' => l' = f i.state) (triple_modify ?_) fun _ =>
      triple_pure fun _ _ _ h => h
    rintro m i s ⟨-, -, rfl⟩
    rfl
  cases k with
  | on endpoint user purpose => exact triple_respond purpose
  | configure endpoint limit => exact hchange
  | reset endpoint user => exact hchange
  | resetAll => exact hchange

theorem rules_keptBy : rules.KeptBy workplace where
  meets work now l := by
    cases work with
    | call k =>
        have hserve : Triple k.pact Fresh (workplace.carryOut (.call k)) fun m i e l' =>
            ∃ a, e = .answers a ∧ k.outcome m i a l' :=
          Triple.map ((triple_serve k).conseq (fun _ _ _ h => h) fun _ _ a _ h => ⟨a, rfl, h⟩)
        exact hserve.meets none ⟨none, now, l⟩ l ⟨rfl, rfl, rfl⟩
    | job j => exact nomatch j
  drops work now l := by
    cases work with
    | call k => cases k <;> exact ⟨rfl, rfl⟩
    | job j => exact nomatch j

/-! ## Courses of callers -/

/-- The caller got a token in the stretch. -/
def granted (x : Moment Limiter Call Answer Empty) : Bool :=
  match x.result with
  | .ended (.answers a) => a.grants
  | _ => false

def dropped (x : Moment Limiter Call Answer Empty) : Bool :=
  match x.result with
  | .paused .drops => true
  | _ => false

/-- A moment of the caller of this number in which it began to wait for a token under the limit. -/
structure HoldsOn (number : Nat) (endpoint : String) (limit : EndpointLimit)
    (x : Moment Limiter Call Answer Empty) : Prop where
  number_eq : x.number = number
  work : ∃ user, x.work = .call (.on endpoint user .acquire)
  cue : x.start.cue = none
  waits : ∃ w, x.result = .paused (.waits w)
  limit : x.start.state.limit? endpoint = some limit

/-- What a caller holds on to it was given in a moment before. -/
def Remembered (ms : List (Moment Limiter Call Answer Empty)) (n : Nat) (m : Memo) : Prop :=
  ∀ endpoint limit, m = some (endpoint, limit) → ∃ x ∈ ms, HoldsOn n endpoint limit x

theorem remembered_none (ms : List (Moment Limiter Call Answer Empty)) (n : Nat) :
    Remembered ms n none := fun _ _ h => absurd h.symm (Option.some_ne_none _)

variable {s s' : Scene Limiter Call Answer Empty} {x : Moment Limiter Call Answer Empty}
  {ms : List (Moment Limiter Call Answer Empty)} {m m' : Memo}

theorem after_state (h : workplace.Step s x) : x.after.state = x.left := by
  rcases h.after_state with h | ⟨-, j, -⟩
  · exact h
  · exact nomatch j

theorem not_faults (h : workplace.Step s x) : x.result ≠ .paused .faults := by
  refine h.not_faults ?_
  cases x.work with
  | call k => rfl
  | job j => exact nomatch j

theorem Remembered.snoc {n : Nat} (h : Remembered ms n m)
    (x : Moment Limiter Call Answer Empty) : Remembered (ms ++ [x]) n m := by
  intro endpoint limit heq
  obtain ⟨y, hy, hholds⟩ := h endpoint limit heq
  exact ⟨y, List.mem_append_left _ hy, hholds⟩

/-- Only a call that asks for a token begins to wait, and it holds on to the limit that it found. -/
theorem Remembered.paused {p : Pause} (h : Remembered ms x.number m) (hp : x.result = .paused p)
    (hpact : rules.pact x.work m x.start p x.left m') :
    Remembered (ms ++ [x]) x.number m' := by
  have hsame : m' = m → Remembered (ms ++ [x]) x.number m' := fun heq => heq ▸ h.snoc x
  cases hwork : x.work with
  | job j => exact nomatch j
  | call k =>
      rw [hwork] at hpact
      cases k with
      | on endpoint user purpose =>
          cases p with
          | waits w =>
              obtain ⟨rfl, hcue, -, rfl⟩ := hpact
              intro endpoint' limit heq
              obtain ⟨_, hlimit, hpair⟩ := Option.map_eq_some_iff.mp heq
              cases hpair
              exact ⟨x, by simp, rfl, ⟨user, hwork⟩, hcue, ⟨w, hp⟩, hlimit⟩
          | stays => exact hpact.elim
          | faults => exact hsame hpact.1
          | drops => exact hsame hpact.2
      | configure endpoint limit =>
          cases p with
          | drops => exact hsame hpact.2
          | _ => exact hpact.elim
      | reset endpoint user =>
          cases p with
          | drops => exact hsame hpact.2
          | _ => exact hpact.elim
      | resetAll =>
          cases p with
          | drops => exact hsame hpact.2
          | _ => exact hpact.elim

theorem course_keeps {l : Limiter} (h : workplace.Course (Workplace.idle l) ms s) :
    (∀ before x after, ms = before ++ x :: after →
      ∃ m m', Remembered before x.number m ∧ rules.Keeps m m' x) ∧
        rules.HeldIn (Remembered ms) s :=
  rules_keptBy.course remembered_none (fun _ x _ _ hm => hm.snoc x)
    (fun _ _ _ _ _ hm hp hpact => hm.paused hp hpact) (.idle l) h

/-- No caller is resumed too early. -/
theorem not_stays (hk : rules.Keeps m m' x) : x.result ≠ .paused .stays := by
  intro hstays
  rw [Rules.Keeps, hstays] at hk
  cases hwork : x.work with
  | job j => exact nomatch j
  | call k =>
      rw [hwork] at hk
      cases k <;> exact hk.elim

theorem course_not_stays {l : Limiter} (h : workplace.Course (Workplace.idle l) ms s) :
    ∀ x ∈ ms, x.result ≠ .paused .stays := by
  intro x hx
  obtain ⟨before, after, heq⟩ := List.append_of_mem hx
  obtain ⟨m, m', -, hk⟩ := (course_keeps h).1 before x after heq
  exact not_stays hk

/-- What a moment of each call does to the limiter, unless the call is dropped. -/
inductive Effect (m : Memo) (x : Moment Limiter Call Answer Empty) : Prop where
  | dropped (hd : dropped x = true) (hcue : x.start.cue = none) (hleft : x.left = x.start.state)
  | on (endpoint : String) (user : Option String) (purpose : Purpose)
      (hwork : x.work = .call (.on endpoint user purpose)) (hd : Limiter.dropped x = false)
      (hacts : Acts endpoint user purpose m x.start (granted x) x.left)
  | configure (endpoint : String) (limit : EndpointLimit)
      (hwork : x.work = .call (.configure endpoint limit))
      (hleft : x.left = x.start.state.configure endpoint limit)
  | reset (endpoint : String) (user : Option String)
      (hwork : x.work = .call (.reset endpoint user))
      (hleft : x.left = x.start.state.reset endpoint user)
  | resetAll (hwork : x.work = .call .resetAll) (hleft : x.left = x.start.state.resetAll)

theorem cue_of_drops (hx : workplace.Step s x) (hr : x.result = .paused .drops) :
    x.start.cue = none := by
  cases hx with
  | call k now s' hs => rfl
  | begin f now s' hf hstop hw hs => rfl
  | reply f y a now s' hf hstop hw hs =>
      -- A stretch that goes on is not a drop.
      dsimp only at hr
      cases hy : y.resume a now s.state <;> rw [hy] at hr <;> cases hr
  | drop f now hf => rfl

theorem effect (hx : workplace.Step s x) (hk : rules.Keeps m m' x) : Effect m x := by
  have hfaults := not_faults hx
  have hstays := not_stays hk
  unfold Rules.Keeps at hk
  cases hwork : x.work with
  | job j => exact nomatch j
  | call k =>
      rw [hwork] at hk
      cases hresult : x.result with
      | ended e =>
          rw [hresult] at hk
          obtain ⟨⟨a, rfl, hout⟩, -⟩ := hk
          have hd : Limiter.dropped x = false := by rw [Limiter.dropped, hresult]
          have hgranted : granted x = a.grants := by rw [granted, hresult]
          cases k with
          | on endpoint user purpose =>
              refine .on endpoint user purpose hwork hd ?_
              rw [hgranted]
              exact hout
          | configure endpoint limit => exact .configure endpoint limit hwork hout
          | reset endpoint user => exact .reset endpoint user hwork hout
          | resetAll => exact .resetAll hwork hout
      | paused p =>
          rw [hresult] at hk hfaults hstays
          cases p with
          | faults => exact absurd rfl hfaults
          | stays => exact absurd rfl hstays
          | drops =>
              refine .dropped (by rw [Limiter.dropped, hresult]) (cue_of_drops hx hresult) ?_
              cases k <;> exact hk.1
          | waits w =>
              cases k with
              | on endpoint user purpose =>
                  refine .on endpoint user purpose hwork (by rw [Limiter.dropped, hresult]) ?_
                  have hgranted : granted x = false := by rw [granted, hresult]
                  rw [hgranted]
                  exact hk.2.2.1
              | configure endpoint limit => exact hk.elim
              | reset endpoint user => exact hk.elim
              | resetAll => exact hk.elim

/-- What each moment preserves with its effect is so at the end of a course. -/
theorem course_induction {l : Limiter}
    {A : List (Moment Limiter Call Answer Empty) → Limiter → Prop}
    (h : workplace.Course (Workplace.idle l) ms s) (hstart : A [] l)
    (hstep : ∀ before x after m, ms = before ++ x :: after → Remembered before x.number m →
      Effect m x → A before x.start.state → A (before ++ [x]) x.left) : A ms s.state := by
  -- The induction is over the moments up to one of the course.
  suffices hpart : ∀ part rest t, ms = part ++ rest → workplace.Course (Workplace.idle l) part t →
      A part t.state from hpart ms [] s (List.append_nil _).symm h
  intro part rest t heq hcourse
  induction hcourse generalizing rest with
  | nil => exact hstart
  | @snoc before u x hbefore hx ih =>
      have heq' : ms = before ++ x :: rest := by rw [heq, List.append_assoc]; rfl
      obtain ⟨m, m', hm, hk⟩ := (course_keeps h).1 before x rest heq'
      have hbegin := ih (x :: rest) heq'
      rw [← hx.start_state] at hbegin
      rw [after_state hx]
      exact hstep before x rest m heq' hm (effect hx hk) hbegin

end Limiter

end ClientSession
