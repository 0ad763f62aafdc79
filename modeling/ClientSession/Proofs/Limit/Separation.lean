import ClientSession.Proofs.Limit.SideBySide
import Mathlib.Data.List.TakeWhile

/-!
# Pairs kept apart

Each pair of endpoint and user is meant to have a bucket of its own. Calls that have nothing to do
with the bucket of a pair are never seen in what is told about it. Since a bucket goes by a name,
the calls on one pair are seen at another one if and only if the two have the same name, and
configuring another endpoint is seen at a pair if and only if the name is one of that endpoint's.
Endpoints without a colon keep all their pairs apart.

- `Limiter.unseen_of_not_bears`: calls that leave a bucket alone are not seen there.
- `Limiter.bucketName_injective`: names of pairs of endpoints without a colon.
- `Limiter.unseen_iff`: which calls on one pair, or configuring which endpoint, are seen at another.
-/

namespace ClientSession

namespace Limiter

variable {endpoint endpoint' : String} {user user' : Option String} {limit : EndpointLimit}
  {l l' : Limiter} {now : Instant} {n : String} {k : Call}
  {ms ms' : List (Moment Limiter Call Answer Empty)} {s s' : Scene Limiter Call Answer Empty}

/-! ## Names -/

theorem toList_bucketName (endpoint user : String) :
    (bucketName endpoint (some user)).toList = endpoint.toList ++ ':' :: user.toList := by
  simp [bucketName]

theorem takeWhile_colon {xs ys : List Char} (h : ':' ∉ xs) :
    (xs ++ ':' :: ys).takeWhile (· ≠ ':') = xs := by
  have hbefore : ∀ c ∈ xs, decide (c ≠ ':') = true := fun c hc =>
    decide_eq_true fun hcolon => h (hcolon ▸ hc)
  rw [List.takeWhile_append_of_pos hbefore, List.takeWhile_cons_of_neg (by simp), List.append_nil]

/-- The name of a pair begins with its endpoint, up to the first colon. -/
theorem takeWhile_bucketName (user : Option String) (h : ':' ∉ endpoint.toList) :
    (bucketName endpoint user).toList.takeWhile (· ≠ ':') = endpoint.toList := by
  cases user with
  | none => exact List.takeWhile_eq_self_iff.mpr fun c hc =>
      decide_eq_true fun hcolon => h (hcolon ▸ hc)
  | some u => rw [toList_bucketName, takeWhile_colon h]

/-- The names of an endpoint tell its users apart. -/
theorem bucketName_user_injective (h : bucketName endpoint user = bucketName endpoint user') :
    user = user' := by
  have hchars := congrArg String.toList h
  cases user with
  | none =>
      cases user' with
      | none => rfl
      | some u' =>
          rw [toList_bucketName] at hchars
          exact absurd hchars (by simp [bucketName])
  | some u =>
      rw [toList_bucketName] at hchars
      cases user' with
      | none => exact absurd hchars (by simp [bucketName])
      | some u' =>
          rw [toList_bucketName, List.append_cancel_left_eq, List.cons_inj_right] at hchars
          rw [String.toList_inj.mp hchars]

/-- Endpoints without a colon keep their pairs apart. -/
theorem bucketName_injective (h : ':' ∉ endpoint.toList) (h' : ':' ∉ endpoint'.toList)
    (hname : bucketName endpoint user = bucketName endpoint' user') :
    endpoint = endpoint' ∧ user = user' := by
  have hendpoint : endpoint = endpoint' := by
    rw [← String.toList_inj, ← takeWhile_bucketName user h, hname,
      takeWhile_bucketName user' h']
  subst hendpoint
  exact ⟨rfl, bucketName_user_injective hname⟩

/-- The names of an endpoint without a colon are those of its own pairs. -/
theorem belongsTo_eq_false (h : ':' ∉ endpoint.toList) (h' : ':' ∉ endpoint'.toList)
    (hne : endpoint ≠ endpoint') : belongsTo (bucketName endpoint user) endpoint' = false := by
  unfold belongsTo
  rw [Bool.or_eq_false_iff, decide_eq_false_iff_not, Bool.eq_false_iff]
  constructor
  · intro hname
    have hname' : bucketName endpoint user = bucketName endpoint' none := hname
    exact hne (bucketName_injective h h' hname').1
  · intro hprefix
    obtain ⟨rest, hrest⟩ := List.isPrefixOf_iff_prefix.mp hprefix
    have hbegins := takeWhile_bucketName user h
    rw [← hrest, List.append_assoc, List.singleton_append, takeWhile_colon h'] at hbegins
    exact hne (String.toList_inj.mp hbegins.symm)

/-! ## Calls that are not seen -/

/-- The moment bears on the bucket, and is not one of a call that is set aside. -/
def bearsBut (n : String) (aside : Call → Bool) (x : Moment Limiter Call Answer Empty) : Bool :=
  match x.work with
  | .call k => k.bears n && !aside k
  | .job j => nomatch j

/-- Whoever comes next to a bucket is told the same in two scenes, a fault included: callers that
begin, and callers that wait in both. -/
structure NextAlike (n : String) (renumber : Nat → Nat)
    (s s' : Scene Limiter Call Answer Empty) : Prop where
  begins : ∀ endpoint user purpose now, bucketName endpoint user = n →
    (workplace.carryOut (.call (.on endpoint user purpose)) now s.state).result =
      (workplace.carryOut (.call (.on endpoint user purpose)) now s'.state).result
  goesOn : ∀ f ∈ s.flights, ∀ g ∈ s'.flights, g.number = renumber f.number → g.work = f.work →
    ∀ endpoint user, f.work = .call (.on endpoint user .acquire) → bucketName endpoint user = n →
      ∀ y z, f.waiting = some y → g.waiting = some z → ∀ a b now,
        (y.resume a now s.state).result = (z.resume b now s'.state).result

/-- Calls are not seen at a pair: two courses from one limiter that match in all other calls that
bear on its bucket are told the same there, and so is whoever comes next. -/
def Unseen (endpoint : String) (user : Option String) (aside : Call → Bool) : Prop :=
  ∀ (renumber : Nat → Nat) (l : Limiter) (ms ms' : List (Moment Limiter Call Answer Empty))
    (s s' : Scene Limiter Call Answer Empty),
    workplace.Course (Workplace.idle l) ms s → workplace.Course (Workplace.idle l) ms' s' →
    List.Forall₂ (Moment.Matches renumber) (ms.filter (bearsBut (bucketName endpoint user) aside))
      (ms'.filter (bearsBut (bucketName endpoint user) aside)) →
    List.Forall₂ (fun x y => x.result = y.result)
      (ms.filter (bearsBut (bucketName endpoint user) aside))
      (ms'.filter (bearsBut (bucketName endpoint user) aside)) ∧
    NextAlike (bucketName endpoint user) renumber s s'

/-- Nothing is pending on a bucket if all that bears on it is kept. -/
theorem pending_bears (n : String) (ms : List (Moment Limiter Call Answer Empty)) :
    pending (bears n) n ms = [] := by
  induction ms using List.reverseRecOn with
  | nil => rfl
  | append_singleton ms x ih =>
      rw [pending_snoc, ih]
      cases bears n x with
      | false => rfl
      | true => simp

theorem clear_bears (ms : List (Moment Limiter Call Answer Empty)) :
    Clear (bears n) ms n limit now := by
  intro y hy
  rw [pending_bears] at hy
  cases hy

theorem side_of_course (h : workplace.Course (Workplace.idle l) ms s) (n : String) :
    Side (· = n) (bears n) l ms s where
  course := h
  leftOut x _ hk := .inr fun n' hn => hn ▸ hk
  watched x _ hk e u purpose hwork := by
    rw [bears, hwork] at hk
    exact of_decide_eq_true hk
  clear before x after heq hk e u purpose limit hwork hunder := by
    rw [bears, hwork] at hk
    obtain rfl : bucketName e u = n := of_decide_eq_true hk
    exact clear_bears before

/-- Calls that have nothing to do with a bucket are not seen in what is told about it. -/
theorem unseen_of_not_bears {aside : Call → Bool}
    (h : ∀ k, aside k = true → k.bears (bucketName endpoint user) = false) :
    Unseen endpoint user aside := by
  have hsame : bearsBut (bucketName endpoint user) aside = bears (bucketName endpoint user) := by
    funext x
    cases hwork : x.work with
    | job j => exact nomatch j
    | call k =>
        rw [bearsBut, bears, hwork]
        dsimp only
        cases haside : aside k with
        | false => simp
        | true => rw [h k haside]; rfl
  intro renumber l ms ms' s s' hc hc' hmatch
  rw [hsame] at hmatch ⊢
  have hbeside := sides_agree hmatch (side_of_course hc _) (side_of_course hc' _)
  refine ⟨hbeside.agree.imp fun _ _ hagrees => hagrees.result, ?_, ?_⟩
  · intro e u purpose now hn
    exact hbeside.begins hn purpose fun limit _ => hn ▸ ⟨clear_bears ms, clear_bears ms'⟩
  · intro f hf g hg hnumber hwork e u hacquire hn y z hy hz a b now
    exact hbeside.goesOn hf hg hy hz hnumber hwork hacquire hn
      (fun limit _ => hn ▸ ⟨clear_bears ms, clear_bears ms'⟩) a b

/-! ## Calls that are seen -/

/-- A moment in which a caller asks for something and gets an answer at once. -/
structure Answered (s : Scene Limiter Call Answer Empty) (now : Instant) (k : Call) (a : Answer)
    (x : Moment Limiter Call Answer Empty) : Prop where
  number : x.number = s.next
  work : x.work = .call k
  start : x.start = ⟨none, now, s.state⟩
  result : x.result = .ended (.answers a)

/-- A course goes on with a call that gets an answer. -/
theorem exists_answered {a : Answer} (h : workplace.Course (Workplace.idle l) ms s)
    (hrun : workplace.carryOut (.call k) now s.state = .done l' (.answers a)) :
    ∃ x s', workplace.Course (Workplace.idle l) (ms ++ [x]) s' ∧ Answered s now k a x ∧
      s'.next = s.next + 1 ∧ s'.state = l' := by
  have hsettle : workplace.settle { s with next := s.next + 1 } ⟨s.next, .call k, false, none⟩
      (workplace.carryOut (.call k) now s.state) =
        some ⟨l', s.flights.filter fun f => f.number ≠ s.next, s.next + 1⟩ := by
    rw [hrun]
    rfl
  have hstep := Workplace.Step.call k now _ hsettle
  exact ⟨_, _, h.snoc hstep, ⟨rfl, rfl, rfl, by rw [hrun]; rfl⟩, rfl, rfl⟩

theorem Answered.matches {renumber : Nat → Nat} {t : Scene Limiter Call Answer Empty}
    {a b : Answer} {x y : Moment Limiter Call Answer Empty} (hx : Answered s now k a x)
    (hy : Answered t now k b y) (hn : t.next = renumber s.next) : x.Matches renumber y where
  number := by rw [hx.number, hy.number, hn]
  work := by rw [hx.work, hy.work]
  now := by rw [hx.start, hy.start]
  begins := by rw [hx.start, hy.start]
  drops := by
    rw [hx.result, hy.result]
    exact iff_of_false nofun nofun

theorem Answered.bearsBut_eq {aside : Call → Bool} {a : Answer}
    {x : Moment Limiter Call Answer Empty} (hx : Answered s now k a x) (n : String) :
    bearsBut n aside x = (k.bears n && !aside k) := by
  rw [bearsBut, hx.work]

theorem configure_run (now : Instant) (endpoint : String) (limit : EndpointLimit) :
    workplace.carryOut (.call (.configure endpoint limit)) now l =
      .done (l.configure endpoint limit) (.answers .done) := rfl

/-- A token is taken from a bucket that has one. -/
theorem acquire_run (user : Option String) (now : Instant) (hl : l.limit? endpoint = some limit)
    (htoken : 0 < (Bucket.ready (l.buckets.find? (bucketName endpoint user)) limit now).tokens) :
    workplace.carryOut (.call (.on endpoint user .acquire)) now l =
      .done (l.store (bucketName endpoint user)
        ((Bucket.ready (l.buckets.find? (bucketName endpoint user)) limit now).draw true).2)
          (.answers (.granted true)) := by
  have htry : l.tryTake endpoint user limit now = _ := tryTake_eq
  dsimp only at htry
  rw [Bucket.shortage, if_pos htoken] at htry
  rw [carryOut_acquire]
  show Run.bind _ (Run.bind _ (acquire endpoint user now l) now) now = _
  rw [acquire_limited hl, htry]
  rfl

theorem available_run (user : Option String) (now : Instant) (hl : l.limit? endpoint = some limit) :
    workplace.carryOut (.call (.on endpoint user .available)) now l =
      .done (l.store (bucketName endpoint user)
        (Bucket.ready (l.buckets.find? (bucketName endpoint user)) limit now))
          (.answers (.tokens (some (Bucket.ready (l.buckets.find? (bucketName endpoint user)) limit
            now).tokens))) := by
  show Run.done (l.available endpoint user now).2
    (Ending.answers (Answer.tokens (l.available endpoint user now).1)) = _
  unfold available
  rw [hl]
  rfl

/-- The calls on a pair. -/
def onPair (endpoint : String) (user : Option String) : Call → Bool
  | .on e u _ => decide (e = endpoint ∧ u = user)
  | .reset e u => decide (e = endpoint ∧ u = user)
  | _ => false

/-- The calls that configure an endpoint. -/
def configures (endpoint : String) : Call → Bool
  | .configure e _ => decide (e = endpoint)
  | _ => false

/-- Two endpoints that may be called once a minute. -/
def bothLimited (endpoint endpoint' : String) : Limiter :=
  ⟨(Table.empty.insert endpoint oneAMinute).insert endpoint' oneAMinute, Table.empty⟩

theorem limit?_bothLimited (endpoint endpoint' : String) :
    (bothLimited endpoint endpoint').limit? endpoint = some oneAMinute ∧
      (bothLimited endpoint endpoint').limit? endpoint' = some oneAMinute := by
  simp only [limit?, bothLimited, Table.find?_insert, if_true, ite_self, and_self]

/-- A bucket that is made, and one that its token has been taken from at once. -/
theorem tokens_oneAMinute (t : Instant) : (Bucket.ready none oneAMinute t).tokens = 1 ∧
    (Bucket.ready (some ((Bucket.ready none oneAMinute t).draw true).2) oneAMinute t).tokens =
      0 := by
  have hfull : Bucket.ready none oneAMinute t = .full oneAMinute t := Bucket.refill_full _ _
  have htaken : ((Bucket.full oneAMinute t).draw true).2 = ⟨0, t⟩ := rfl
  rw [hfull, htaken]
  have hnot : ¬Bucket.Due ⟨0, t⟩ oneAMinute t := fun h => Int.lt_irrefl _ h.1
  refine ⟨rfl, ?_⟩
  rw [Bucket.ready, Option.getD_some, Bucket.refill_of_not_due hnot]

theorem find?_store (l : Limiter) (n : String) (b : Bucket) :
    (l.store n b).buckets.find? n = some b := by
  rw [store, Table.find?_insert, if_pos rfl]

/-- A token that is taken for one pair is missing at another one of the same name. -/
theorem not_unseen_onPair (hpair : ¬(endpoint = endpoint' ∧ user = user'))
    (hname : bucketName endpoint user = bucketName endpoint' user') :
    ¬Unseen endpoint user (onPair endpoint' user') := by
  intro hunseen
  let l := bothLimited endpoint endpoint'
  obtain ⟨hl, hl'⟩ := limit?_bothLimited endpoint endpoint'
  obtain ⟨hone, hzero⟩ := tokens_oneAMinute ⟨0⟩
  -- In one course the bucket is looked at, in the other one a token is taken before.
  obtain ⟨x, s, hs, hx, -⟩ := exists_answered (l := l) .nil
    (available_run user ⟨0⟩ hl)
  obtain ⟨z, t, ht, hz, hnumber, hstate⟩ := exists_answered (l := l) .nil
    (acquire_run user' ⟨0⟩ hl' (Nat.lt_of_lt_of_eq Nat.one_pos hone.symm))
  obtain ⟨y, t', ht', hy, -⟩ := exists_answered ht
    (available_run user ⟨0⟩ (show t.state.limit? endpoint = _ by rw [hstate]; exact hl))
  have hx' : bearsBut (bucketName endpoint user) (onPair endpoint' user') x = true := by
    rw [hx.bearsBut_eq]
    simp [Call.bears, onPair, hpair]
  have hy' : bearsBut (bucketName endpoint user) (onPair endpoint' user') y = true := by
    rw [hy.bearsBut_eq]
    simp [Call.bears, onPair, hpair]
  have hz' : bearsBut (bucketName endpoint user) (onPair endpoint' user') z = false := by
    rw [hz.bearsBut_eq]
    simp [onPair]
  have htold := hunseen (· + 1) l _ _ _ _ hs ht'
  rw [filter_concat_of_pos _ hx', filter_concat_of_pos _ hy', filter_concat_of_neg _ hz'] at htold
  obtain ⟨hsame, -⟩ := forall₂_concat
    (htold (.cons (hx.matches hy hnumber) .nil)).1
  rw [hx.result, hy.result, hstate, hname, find?_store] at hsame
  simp only [Result.ended.injEq, Ending.answers.injEq, Answer.tokens.injEq, Option.some.injEq]
    at hsame
  exact absurd (hone.symm.trans (hsame.trans hzero)) (by decide)

/-- A bucket of another endpoint is dropped when an endpoint is configured that its name belongs to.
-/
theorem not_unseen_configures (hne : endpoint ≠ endpoint')
    (hname : belongsTo (bucketName endpoint user) endpoint' = true) :
    ¬Unseen endpoint user (configures endpoint') := by
  intro hunseen
  let l := bothLimited endpoint endpoint'
  obtain ⟨hl, -⟩ := limit?_bothLimited endpoint endpoint'
  obtain ⟨hone, hzero⟩ := tokens_oneAMinute ⟨0⟩
  -- In both courses the token is taken, and in one the other endpoint is configured then.
  obtain ⟨z, s, hs, hz, hnumber, hstate⟩ := exists_answered (l := l) .nil
    (acquire_run user ⟨0⟩ hl (Nat.lt_of_lt_of_eq Nat.one_pos hone.symm))
  obtain ⟨x, s', hs', hx, -⟩ := exists_answered hs
    (available_run user ⟨0⟩ (show s.state.limit? endpoint = _ by rw [hstate]; exact hl))
  obtain ⟨w, t, ht, hw, hnumber', hstate'⟩ := exists_answered hs
    (configure_run ⟨0⟩ endpoint' oneAMinute)
  have hlater : t.state.limit? endpoint = some oneAMinute := by
    rw [hstate', hstate, limit?_configure, if_neg hne.symm]
    exact hl
  obtain ⟨y, t', ht', hy, -⟩ := exists_answered ht
    (available_run user ⟨0⟩ hlater)
  have hz' : bearsBut (bucketName endpoint user) (configures endpoint') z = true := by
    rw [hz.bearsBut_eq]
    simp [Call.bears, configures]
  have hx' : bearsBut (bucketName endpoint user) (configures endpoint') x = true := by
    rw [hx.bearsBut_eq]
    simp [Call.bears, configures]
  have hy' : bearsBut (bucketName endpoint user) (configures endpoint') y = true := by
    rw [hy.bearsBut_eq]
    simp [Call.bears, configures]
  have hw' : bearsBut (bucketName endpoint user) (configures endpoint') w = false := by
    rw [hw.bearsBut_eq]
    simp [configures]
  have htold := hunseen (2 * ·) l _ _ _ _ hs' ht'
  rw [filter_concat_of_pos _ hx', filter_concat_of_pos _ hy', filter_concat_of_neg _ hw',
    filter_concat_of_pos _ hz'] at htold
  obtain ⟨hsame, -⟩ := forall₂_concat
    (htold (.cons (hz.matches hz rfl)
      (.cons (hx.matches hy (by rw [hnumber', hnumber]; rfl)) .nil))).1
  rw [hx.result, hy.result, hstate', hstate, find?_store, configure,
    Table.find?_filter _ fun name => !belongsTo name endpoint', hname] at hsame
  simp only [Bool.not_true, Bool.false_eq_true, if_false, Result.ended.injEq, Ending.answers.injEq,
    Answer.tokens.injEq, Option.some.injEq] at hsame
  exact absurd (hzero.symm.trans (hsame.trans hone)) (by decide)

/-- The calls on a pair are seen at another one if and only if both have one bucket, and
configuring an endpoint is seen at a pair of another one if and only if the bucket of the pair goes
by a name of that endpoint. -/
theorem unseen_iff (hpair : ¬(endpoint = endpoint' ∧ user = user')) :
    (Unseen endpoint user (onPair endpoint' user') ↔
      bucketName endpoint user ≠ bucketName endpoint' user') ∧
    (endpoint ≠ endpoint' → (Unseen endpoint user (configures endpoint') ↔
      belongsTo (bucketName endpoint user) endpoint' = false)) := by
  refine ⟨⟨fun hunseen hname => not_unseen_onPair hpair hname hunseen, fun hname => ?_⟩,
    fun hne => ⟨fun hunseen => ?_, fun hname => ?_⟩⟩
  · refine unseen_of_not_bears fun k hk => ?_
    cases k with
    | on e u purpose =>
        obtain ⟨rfl, rfl⟩ := of_decide_eq_true hk
        exact decide_eq_false hname.symm
    | reset e u =>
        obtain ⟨rfl, rfl⟩ := of_decide_eq_true hk
        exact decide_eq_false hname.symm
    | configure e limit => cases hk
    | resetAll => cases hk
  · exact Bool.eq_false_iff.mpr fun hname => not_unseen_configures hne hname hunseen
  · refine unseen_of_not_bears fun k hk => ?_
    cases k with
    | configure e limit =>
        obtain rfl := of_decide_eq_true hk
        exact hname
    | on e u purpose => cases hk
    | reset e u => cases hk
    | resetAll => cases hk

theorem unseen_apart : ¬("/x" = "/y" ∧ (none : Option String) = some "u") ∧
    Unseen "/x" none (onPair "/y" (some "u")) ∧ Unseen "/x" none (configures "/y") := by
  have hpair : ¬("/x" = "/y" ∧ (none : Option String) = some "u") := by decide
  obtain ⟨hcalls, hconfigures⟩ := unseen_iff hpair
  exact ⟨hpair, hcalls.mpr (by decide +kernel),
    (hconfigures (by decide)).mpr (by decide +kernel)⟩

/-- The bucket of an endpoint with a colon in it is the one of a user of another endpoint. -/
theorem not_unseen_colon : ¬∀ endpoint user endpoint' user',
    ¬(endpoint = endpoint' ∧ user = user') → Unseen endpoint user (onPair endpoint' user') ∧
      (endpoint ≠ endpoint' → Unseen endpoint user (configures endpoint')) := by
  intro hclaim
  obtain ⟨hcalls, -⟩ := hclaim "/x:u" none "/x" (some "u") (by decide)
  exact not_unseen_onPair (by decide) (by decide +kernel) hcalls

end Limiter

end ClientSession
