import ClientSession.Proofs.Limit.Calls

/-!
# What callers are told

What a call on a pair of endpoint and user is told depends on the limit that it acts under and on
the bucket that it finds ready, and on nothing else in the limiter. A call that begins acts under
the limit that is configured. One that has waited tries once more, under the limit that it holds on
to, and ends.

- `Limiter.evaluate_eq`, `Limiter.tryTake_eq`: looking and taking in terms of the bucket alone.
- `Limiter.begins_result`, `Limiter.retry_result`: what is told where two limiters look the same.
- `Limiter.course_resumes`: all that waits in a course waits to try once more.
-/

namespace ClientSession

namespace Bucket

/-- Whether a call may be made, and else when. -/
def decision (b : Bucket) (limit : EndpointLimit) (now : Instant) : Checked Decision :=
  if 0 < b.tokens then .ok .allow
  else do
    let wait ← b.timeToNext limit now
    return .delay (← now.plus wait) wait

/-- How long to wait for a token, unless there is one. -/
def shortage (b : Bucket) (limit : EndpointLimit) (now : Instant) : Checked (Option Span) :=
  if 0 < b.tokens then .ok none
  else do return some (← b.timeToNext limit now)

end Bucket

namespace Limiter

variable {l l' : Limiter} {endpoint : String} {user : Option String} {limit : EndpointLimit}
  {now : Instant}

theorem evaluate_eq (h : l.limit? endpoint = some limit) : l.evaluate endpoint user now = do
    let b := Bucket.ready (l.buckets.find? (bucketName endpoint user)) limit now
    return (← b.decision limit now, l.store (bucketName endpoint user) b) := by
  unfold evaluate
  rw [h]
  dsimp only [bucket, Bucket.decision, Bucket.ready]
  split
  · rfl
  · cases hwait : Bucket.timeToNext _ limit now with
    | error f => rfl
    | ok wait =>
        cases hnext : now.plus wait with
        | error f => simp only [bind, Except.bind, hnext]
        | ok next => simp only [bind, Except.bind, hnext]; rfl

theorem tryTake_eq : l.tryTake endpoint user limit now = do
    let b := Bucket.ready (l.buckets.find? (bucketName endpoint user)) limit now
    return (← b.shortage limit now, l.store (bucketName endpoint user) (b.draw true).2) := by
  unfold tryTake
  dsimp only [bucket, Bucket.shortage, Bucket.ready, Bucket.draw]
  rw [if_pos rfl]
  generalize (((l.buckets.find? (bucketName endpoint user)).getD (.full limit now)).refill limit
    now) = b
  by_cases hempty : b.tokens = 0
  · have htake : b.take = (false, b) := if_pos hempty
    rw [htake, hempty]
    cases b.timeToNext limit now <;> rfl
  · have htake : b.take = (true, { b with tokens := b.tokens - 1 }) := if_neg hempty
    rw [htake, if_pos (Nat.pos_of_ne_zero hempty)]
    rfl

/-! ## Beginning -/

/-- What a caller that has waited goes on with. -/
def takeAgain (endpoint : String) (user : Option String) (limit : EndpointLimit) :
    Activity Limiter Bool := do
  return (← Activity.attempt fun now l => l.tryTake endpoint user limit now).isNone

/-- What asks for a token, as the work of a caller. -/
def asWork (x : Activity Limiter Bool) : Activity Limiter (Ending Answer Empty) := do
  return .answers (← (do return .granted (← x) : Activity Limiter Answer))

theorem carryOut_acquire :
    workplace.carryOut (.call (.on endpoint user .acquire)) = asWork (acquire endpoint user) := rfl

theorem get_bind {α : Type} (g : Limiter → Activity Limiter α) :
    ((get : Activity Limiter Limiter) >>= g) now l = g l now l := rfl

theorem acquire_free (h : l.limit? endpoint = none) :
    acquire endpoint user now l = .done l true := by
  unfold acquire
  rw [get_bind, h]
  rfl

/-- What is done with the outcome of the first attempt. -/
def afterTry (endpoint : String) (user : Option String) (limit : EndpointLimit) :
    Option Span → Activity Limiter Bool
  | none => pure true
  | some wait => do
    Activity.sleep (min wait limit.maxWait)
    takeAgain endpoint user limit

theorem attempt_bind {α β : Type} (f : Instant → Limiter → Checked (α × Limiter))
    (g : α → Activity Limiter β) : (Activity.attempt f >>= g) now l =
      match f now l with
      | .error e => .fault l e
      | .ok r => g r.1 now r.2 := by
  show Run.bind g (Activity.attempt f now l) now = _
  unfold Activity.attempt
  cases f now l <;> rfl

theorem acquire_limited (h : l.limit? endpoint = some limit) : acquire endpoint user now l =
    match l.tryTake endpoint user limit now with
    | .error f => .fault l f
    | .ok r => afterTry endpoint user limit r.1 now r.2 := by
  have hbegin : acquire endpoint user now l =
      (Activity.attempt (fun now l => l.tryTake endpoint user limit now) >>=
        afterTry endpoint user limit) now l := by
    unfold acquire
    rw [get_bind, h]
    rfl
  rw [hbegin, attempt_bind]
  cases l.tryTake endpoint user limit now <;> rfl

theorem takeAgain_eq : takeAgain endpoint user limit now l =
    match l.tryTake endpoint user limit now with
    | .error f => .fault l f
    | .ok r => .done r.2 r.1.isNone := by
  unfold takeAgain
  rw [attempt_bind]
  cases l.tryTake endpoint user limit now <;> rfl

theorem afterTry_waits {wait : Span} (h : (min wait limit.maxWait).isPositive = true) :
    afterTry endpoint user limit (some wait) now l =
      .wait l (.sleep (min wait limit.maxWait)) id
        fun _ now l => takeAgain endpoint user limit now l := by
  have hsleep : (Activity.sleep (min wait limit.maxWait) : Activity Limiter Unit) =
      Activity.await (.sleep (min wait limit.maxWait)) := if_pos h
  show (Activity.sleep (min wait limit.maxWait) >>= fun _ => takeAgain endpoint user limit) now l =
    _
  rw [hsleep]
  rfl

theorem afterTry_goesOn {wait : Span} (h : ¬(min wait limit.maxWait).isPositive = true) :
    afterTry endpoint user limit (some wait) now l = takeAgain endpoint user limit now l := by
  have hsleep : (Activity.sleep (min wait limit.maxWait) : Activity Limiter Unit) = pure () :=
    if_neg h
  show (Activity.sleep (min wait limit.maxWait) >>= fun _ => takeAgain endpoint user limit) now l =
    _
  rw [hsleep]
  rfl

/-! ## Views -/

/-- Two limiters look the same from a pair: its limit is the same, and the bucket that a use under
it finds. -/
structure LooksAs (endpoint : String) (user : Option String) (now : Instant) (l l' : Limiter) :
    Prop where
  limit : l.limit? endpoint = l'.limit? endpoint
  bucket : ∀ limit, l.limit? endpoint = some limit →
    Bucket.ready (l.buckets.find? (bucketName endpoint user)) limit now =
      Bucket.ready (l'.buckets.find? (bucketName endpoint user)) limit now

/-- What is done with an answer does not change how the work ends. -/
theorem result_map {α β : Type} {x y : Activity Limiter α} (f : α → β)
    (h : (x now l).result = (y now l').result) :
    ((do return f (← x) : Activity Limiter β) now l).result =
      ((do return f (← y) : Activity Limiter β) now l').result := by
  show (Run.bind _ (x now l) now).result = (Run.bind _ (y now l') now).result
  cases hx : x now l <;> cases hy : y now l' <;> rw [hx, hy] at h <;> cases h <;> rfl

theorem asWork_result {x y : Activity Limiter Bool} (h : (x now l).result = (y now l').result) :
    (asWork x now l).result = (asWork y now l').result :=
  result_map _ (result_map _ h)

theorem attempt_result {α : Type} {f : Instant → Limiter → Checked (α × Limiter)}
    (h : (f now l).map (·.1) = (f now l').map (·.1)) :
    (Activity.attempt f now l).result = (Activity.attempt f now l').result := by
  unfold Activity.attempt
  cases hf : f now l with
  | error e =>
      rw [hf] at h
      cases hf' : f now l' with
      | error e' => rfl
      | ok r' =>
          rw [hf'] at h
          cases h
  | ok r =>
      rw [hf] at h
      cases hf' : f now l' with
      | error e' =>
          rw [hf'] at h
          cases h
      | ok r' =>
          rw [hf'] at h
          have hsame : r.1 = r'.1 := Except.ok.inj h
          exact congrArg Result.ended hsame

section Ready

variable (h : Bucket.ready (l.buckets.find? (bucketName endpoint user)) limit now =
  Bucket.ready (l'.buckets.find? (bucketName endpoint user)) limit now)

include h

theorem tryTake_told : (l.tryTake endpoint user limit now).map (·.1) =
    (l'.tryTake endpoint user limit now).map (·.1) := by
  rw [tryTake_eq, tryTake_eq, h]
  dsimp only
  cases Bucket.shortage _ limit now <;> rfl

theorem takeAgain_result : (takeAgain endpoint user limit now l).result =
    (takeAgain endpoint user limit now l').result :=
  result_map _ (attempt_result (tryTake_told h))

end Ready

theorem evaluate_told (h : LooksAs endpoint user now l l') :
    (l.evaluate endpoint user now).map (·.1) = (l'.evaluate endpoint user now).map (·.1) := by
  cases hlimit : l.limit? endpoint with
  | none =>
      have hlimit' : l'.limit? endpoint = none := h.limit.symm.trans hlimit
      unfold evaluate
      rw [hlimit, hlimit']
      rfl
  | some limit =>
      rw [evaluate_eq hlimit, evaluate_eq (h.limit.symm.trans hlimit), h.bucket limit hlimit]
      dsimp only
      cases Bucket.decision _ limit now <;> rfl

theorem available_told (h : LooksAs endpoint user now l l') :
    (l.available endpoint user now).1 = (l'.available endpoint user now).1 := by
  unfold available
  rw [← h.limit]
  cases hlimit : l.limit? endpoint with
  | none => rfl
  | some limit => exact congrArg (fun b : Bucket => some b.tokens) (h.bucket limit hlimit)

/-- What is told by a decision is told alike. -/
theorem told_of_evaluate {α : Type} (g : Decision → α)
    (h : (l.evaluate endpoint user now).map (·.1) = (l'.evaluate endpoint user now).map (·.1)) :
    (do let d ← l.evaluate endpoint user now; return (g d.1, d.2) :
      Checked (α × Limiter)).map (·.1) =
    (do let d ← l'.evaluate endpoint user now; return (g d.1, d.2) :
      Checked (α × Limiter)).map (·.1) := by
  have hmap : ∀ x : Checked (Decision × Limiter),
      (do let d ← x; return (g d.1, d.2) : Checked (α × Limiter)).map (·.1) =
        (x.map (·.1)).map g := fun x => by cases x <;> rfl
  rw [hmap, hmap, h]

/-- A first attempt that is refused is told alike, and so is the second one that follows at once. -/
theorem afterTry_result {r : Option Span} {l₁ l₁' : Limiter}
    (h : r ≠ none → Bucket.ready (l₁.buckets.find? (bucketName endpoint user)) limit now =
      Bucket.ready (l₁'.buckets.find? (bucketName endpoint user)) limit now) :
    (afterTry endpoint user limit r now l₁).result =
      (afterTry endpoint user limit r now l₁').result := by
  cases r with
  | none => rfl
  | some wait =>
      have hagain := takeAgain_result (h (Option.some_ne_none _))
      by_cases hpositive : (min wait limit.maxWait).isPositive = true
      · rw [afterTry_waits hpositive, afterTry_waits hpositive]
        rfl
      · rw [afterTry_goesOn hpositive, afterTry_goesOn hpositive]
        exact hagain

theorem acquire_result (h : LooksAs endpoint user now l l') :
    (acquire endpoint user now l).result = (acquire endpoint user now l').result := by
  cases hlimit : l.limit? endpoint with
  | none => rw [acquire_free hlimit, acquire_free (h.limit.symm.trans hlimit)]; rfl
  | some limit =>
      have hready := h.bucket limit hlimit
      have htold := tryTake_told hready
      rw [acquire_limited hlimit, acquire_limited (h.limit.symm.trans hlimit)]
      cases htry : l.tryTake endpoint user limit now with
      | error f =>
          rw [htry] at htold
          cases htry' : l'.tryTake endpoint user limit now with
          | error f' => rfl
          | ok r' =>
              rw [htry'] at htold
              cases htold
      | ok r =>
          rw [htry] at htold
          cases htry' : l'.tryTake endpoint user limit now with
          | error f' =>
              rw [htry'] at htold
              cases htold
          | ok r' =>
              rw [htry'] at htold
              have hsame : r.1 = r'.1 := Except.ok.inj htold
              have huses := tryTake_uses htry
              have huses' := tryTake_uses htry'
              dsimp only
              rw [← hsame] at huses' ⊢
              refine afterTry_result fun hne => ?_
              have hrefused : r.1.isNone = false := by
                rw [Option.isNone_eq_false_iff, Option.isSome_iff_ne_none]
                exact hne
              rw [hrefused] at huses huses'
              rw [huses.ready_eq, huses'.ready_eq, hready]

/-- A call that begins is told the same where two limiters look the same from its pair. -/
theorem begins_result (h : LooksAs endpoint user now l l') (purpose : Purpose) :
    (workplace.carryOut (.call (.on endpoint user purpose)) now l).result =
      (workplace.carryOut (.call (.on endpoint user purpose)) now l').result := by
  refine result_map _ ?_
  cases purpose with
  | acquire => exact result_map _ (acquire_result h)
  | mayCall =>
      let g : Decision → Bool := fun d => decide (d = .allow)
      exact result_map _ (attempt_result (told_of_evaluate g (evaluate_told h)))
  | evaluate => exact result_map _ (attempt_result (evaluate_told h))
  | remainingWait => exact result_map _ (attempt_result (told_of_evaluate waitOf (evaluate_told h)))
  | available =>
      refine result_map _ ?_
      exact congrArg Result.ended (available_told h)

/-! ## Waiting -/

/-- A call that waits asks for a token under a limit, and will try once more. -/
theorem waits_of_begins {k : Call} {l₁ : Limiter} {w : Wait} {drop : Limiter → Limiter}
    {resume : w.Answer → Instant → Limiter → Run Limiter (Ending Answer Empty)}
    (h : workplace.carryOut (.call k) now l = .wait l₁ w drop resume) :
    ∃ endpoint user limit, k = .on endpoint user .acquire ∧ l.limit? endpoint = some limit ∧
      (∀ c, drop c = c) ∧
        ∀ a now c, resume a now c = asWork (takeAgain endpoint user limit) now c := by
  have hprompt : ∀ {α : Type} (f : Instant → Limiter → Checked (α × Limiter)) (g : α → Answer),
      (do return .answers (← (do return g (← Activity.attempt f) : Activity Limiter Answer)) :
        Activity Limiter (Ending Answer Empty)) now l ≠ .wait l₁ w drop resume := by
    intro α f g heq
    have hrun : Run.bind (fun a => (pure (.answers a) : Activity Limiter (Ending Answer Empty)))
        ((Activity.attempt f >>= fun a => pure (g a)) now l) now = .wait l₁ w drop resume := heq
    rw [attempt_bind] at hrun
    cases hf : f now l <;> rw [hf] at hrun <;> cases hrun
  cases k with
  | configure endpoint limit => cases h
  | reset endpoint user => cases h
  | resetAll => cases h
  | on endpoint user purpose =>
      cases purpose with
      | mayCall => exact absurd h (hprompt _ _)
      | evaluate => exact absurd h (hprompt _ _)
      | remainingWait => exact absurd h (hprompt _ _)
      | available => cases h
      | acquire =>
          have hrun : Run.bind _ (Run.bind _ (acquire endpoint user now l) now) now = _ := h
          cases hlimit : l.limit? endpoint with
          | none =>
              rw [acquire_free hlimit] at hrun
              cases hrun
          | some limit =>
              rw [acquire_limited hlimit] at hrun
              cases htry : l.tryTake endpoint user limit now with
              | error f =>
                  rw [htry] at hrun
                  cases hrun
              | ok r =>
                  obtain ⟨_ | wait, l₂⟩ := r
                  · rw [htry] at hrun
                    cases hrun
                  · rw [htry] at hrun
                    dsimp only at hrun
                    by_cases hpositive : (min wait limit.maxWait).isPositive = true
                    · rw [afterTry_waits hpositive] at hrun
                      cases hrun
                      exact ⟨endpoint, user, limit, rfl, hlimit, fun _ => rfl, fun _ _ _ => rfl⟩
                    · rw [afterTry_goesOn hpositive, takeAgain_eq] at hrun
                      cases hagain : l₂.tryTake endpoint user limit now <;>
                        rw [hagain] at hrun <;> cases hrun

/-- The moment in which a caller began to wait for a token of a pair under a limit. -/
structure WaitsFor (number : Nat) (endpoint : String) (user : Option String)
    (limit : EndpointLimit) (x : Moment Limiter Call Answer Empty) : Prop where
  holdsOn : HoldsOn number endpoint limit x
  work : x.work = .call (.on endpoint user .acquire)

/-- What a caller that waits keeps in mind: its pair, and the limit that it holds on to. -/
abbrev Errand := Option (String × Option String × EndpointLimit)

/-- A stretch that goes on tries once more, under the limit that is held on to. -/
def TriesAgain (work : Work Call Empty) (m : Errand) (i : Start Limiter)
    (r : Result (Ending Answer Empty)) : Prop :=
  i.cue ≠ none → ∃ endpoint user limit, m = some (endpoint, user, limit) ∧
    work = .call (.on endpoint user .acquire) ∧
      r = (asWork (takeAgain endpoint user limit) i.now i.state).result

/-- Calls wait at most once, and then try once more. -/
def errands : Rules Errand Limiter Call Answer Empty where
  memo := none
  pact work m i p _ m' :=
    (p ≠ .drops → TriesAgain work m i (.paused p)) ∧
      match p with
      | .waits _ => ∃ endpoint user limit, m' = some (endpoint, user, limit) ∧ i.cue = none ∧
          work = .call (.on endpoint user .acquire) ∧ i.state.limit? endpoint = some limit
      | _ => m' = m
  outcome work m i e _ := TriesAgain work m i (.ended e)

/-- The second attempt ends at once. -/
theorem meets_takeAgain {a : Cue} :
    (asWork (takeAgain endpoint user limit) now l).Meets
      (errands.pact (.call (.on endpoint user .acquire)))
      (errands.outcome (.call (.on endpoint user .acquire))) (some (endpoint, user, limit))
      ⟨some a, now, l⟩ := by
  have htold : ∀ r, r = (asWork (takeAgain endpoint user limit) now l).result →
      TriesAgain (.call (.on endpoint user .acquire)) (some (endpoint, user, limit))
        ⟨some a, now, l⟩ r := fun r hr _ => ⟨endpoint, user, limit, rfl, rfl, hr⟩
  have hrun : asWork (takeAgain endpoint user limit) now l =
      Run.bind _ (Run.bind _ (takeAgain endpoint user limit now l) now) now := rfl
  rw [takeAgain_eq] at hrun
  cases htry : l.tryTake endpoint user limit now with
  | error f =>
      rw [htry] at hrun
      rw [hrun] at htold ⊢
      exact ⟨fun _ => htold _ rfl, rfl⟩
  | ok r =>
      rw [htry] at hrun
      rw [hrun] at htold ⊢
      exact htold _ rfl

theorem errands_keptBy : errands.KeptBy workplace where
  drops work now l := ⟨fun h => absurd rfl h, rfl⟩
  meets work now l := by
    have hfirst : ∀ r, TriesAgain work none ⟨none, now, l⟩ r := fun _ h => absurd rfl h
    cases work with
    | job j => exact nomatch j
    | call k =>
        cases hrun : workplace.carryOut (.call k) now l with
        | done l₁ e => exact hfirst _
        | fault l₁ f => exact ⟨fun _ => hfirst _, rfl⟩
        | stay l₁ => exact ⟨fun _ => hfirst _, rfl⟩
        | wait l₁ w drop resume =>
            obtain ⟨endpoint, user, limit, rfl, hlimit, hdrop, hresume⟩ := waits_of_begins hrun
            refine ⟨some (endpoint, user, limit),
              ⟨fun _ => hfirst _, endpoint, user, limit, rfl, rfl, rfl, hlimit⟩,
              fun now c => ⟨fun h => absurd rfl h, rfl⟩, fun a now c => ?_⟩
            rw [hresume]
            exact meets_takeAgain

/-- What a caller keeps in mind it was given in a moment before. -/
def Sent (ms : List (Moment Limiter Call Answer Empty)) (n : Nat) (m : Errand) : Prop :=
  ∀ endpoint user limit, m = some (endpoint, user, limit) →
    ∃ x ∈ ms, WaitsFor n endpoint user limit x

variable {ms : List (Moment Limiter Call Answer Empty)} {s : Scene Limiter Call Answer Empty}
  {x : Moment Limiter Call Answer Empty}

theorem course_errands (h : workplace.Course (Workplace.idle l) ms s) :
    (∀ before x after, ms = before ++ x :: after →
      ∃ m m', Sent before x.number m ∧ errands.Keeps m m' x) ∧ errands.HeldIn (Sent ms) s := by
  have hgrow : ∀ ms x n m, Sent ms n m → Sent (ms ++ [x]) n m := by
    intro ms x n m hm endpoint user limit heq
    obtain ⟨y, hy, hwaits⟩ := hm endpoint user limit heq
    exact ⟨y, List.mem_append_left _ hy, hwaits⟩
  refine errands_keptBy.course (fun _ _ _ _ _ h => absurd h.symm (Option.some_ne_none _)) hgrow ?_
    (.idle l) h
  intro ms x m p m' hm hp hpact
  cases p with
  | waits w =>
      obtain ⟨-, endpoint, user, limit, rfl, hcue, hwork, hlimit⟩ := hpact
      intro endpoint' user' limit' heq
      cases heq
      exact ⟨x, by simp, ⟨rfl, ⟨user, hwork⟩, hcue, ⟨w, hp⟩, hlimit⟩, hwork⟩
  | stays => exact hpact.2 ▸ hgrow ms x _ m hm
  | faults => exact hpact.2 ▸ hgrow ms x _ m hm
  | drops => exact hpact.2 ▸ hgrow ms x _ m hm

/-- What waits in a course waits to try once more, under the limit that it began with. -/
theorem course_resumes (h : workplace.Course (Workplace.idle l) ms s)
    {f : Flight Limiter Call Answer Empty} {y : Waiting Limiter (Ending Answer Empty)}
    (hf : f ∈ s.flights) (hy : f.waiting = some y) :
    ∃ endpoint user limit, f.work = .call (.on endpoint user .acquire) ∧
      (∃ x ∈ ms, WaitsFor f.number endpoint user limit x) ∧ ∀ a now c,
        (y.resume a now c).result = (asWork (takeAgain endpoint user limit) now c).result := by
  obtain ⟨m, hm, hawaits⟩ := (course_errands h).2 f hf y hy
  have hagain : ∀ a now c, TriesAgain f.work m ⟨some ⟨y.wait, a⟩, now, c⟩
      (y.resume a now c).result := by
    intro a now c
    have hmeets := hawaits.meets a now c
    cases hrun : y.resume a now c with
    | done l e => rw [hrun] at hmeets; exact hmeets
    | fault l e => rw [hrun] at hmeets; exact hmeets.1 nofun
    | stay l => rw [hrun] at hmeets; exact hmeets.1 nofun
    | wait l w drop resume =>
        rw [hrun] at hmeets
        obtain ⟨m', hpact, -⟩ := hmeets
        exact hpact.1 nofun
  -- Every wait can end, so there is an errand.
  let answer := Wait.answer (.ok ⟨200, Table.empty, ""⟩) (.error .loginRequired) y.wait
  obtain ⟨endpoint, user, limit, hmemo, hwork, -⟩ :=
    hagain answer ⟨0⟩ Limiter.empty (Option.some_ne_none _)
  refine ⟨endpoint, user, limit, hwork, hm _ _ _ hmemo, fun a now c => ?_⟩
  obtain ⟨endpoint', user', limit', hmemo', -, hresult⟩ := hagain a now c (Option.some_ne_none _)
  cases hmemo.symm.trans hmemo'
  exact hresult

/-- What a moment is told: a drop nothing, a call that begins what it is told by the limiter as it
stands, and one that goes on what the second attempt is told. -/
inductive Told (ms : List (Moment Limiter Call Answer Empty))
    (x : Moment Limiter Call Answer Empty) : Prop where
  | dropped (hresult : x.result = .paused .drops)
  | begins (k : Call) (hwork : x.work = .call k) (hcue : x.start.cue = none)
      (hresult : x.result = (workplace.carryOut (.call k) x.start.now x.start.state).result)
  | resumes (endpoint : String) (user : Option String) (limit : EndpointLimit)
      (hwork : x.work = .call (.on endpoint user .acquire)) (hcue : x.start.cue ≠ none)
      (hwaits : ∃ y ∈ ms, WaitsFor x.number endpoint user limit y)
      (hresult : x.result =
        (asWork (takeAgain endpoint user limit) x.start.now x.start.state).result)

theorem told_of_step (h : workplace.Course (Workplace.idle l) ms s) (hx : workplace.Step s x) :
    Told ms x := by
  cases hx with
  | call k now s' hs => exact .begins k rfl rfl rfl
  | begin f now s' hf hstop hw hs =>
      cases hwork : f.work with
      | job j => exact nomatch j
      | call k => exact .begins k rfl rfl rfl
  | reply f y a now s' hf hstop hw hs =>
      obtain ⟨endpoint, user, limit, hwork, hwaits, hresult⟩ := course_resumes h hf hw
      exact .resumes endpoint user limit hwork (Option.some_ne_none _) hwaits (hresult a now _)
  | drop f now hf => exact .dropped rfl

end Limiter

end ClientSession
