import ClientSession.Proofs.Limit.Calls
import ClientSession.Proofs.Flights

/-!
# Buckets under reconfiguration

When an endpoint is configured its buckets are dropped, so a bucket is made again under the limit
that stands. A caller that waits meanwhile is the exception: it goes on under the limit that it
holds on to, and may fill a bucket up to the capacity of that one.

- `Limiter.bounded_step`: what one moment does to a limiter whose buckets are within their limits.
- `Limiter.bounded_iff`: the buckets stay within their limits if and only if no caller that is
  outdated finds its bucket due or missing.
-/

namespace ClientSession

namespace Limiter

/-- Every bucket of an endpoint is within the capacity that is configured for it. -/
def Bounded (l : Limiter) : Prop :=
  ∀ endpoint user limit b, l.limit? endpoint = some limit →
    l.buckets.find? (bucketName endpoint user) = some b → b.tokens ≤ limit.capacity

/-- The endpoint has a limit, or is given one in a course. -/
def Known (l : Limiter) (ms : List (Moment Limiter Call Answer Empty)) (endpoint : String) : Prop :=
  (∃ limit, l.limit? endpoint = some limit) ∨
    ∃ x ∈ ms, ∃ limit, x.work = .call (.configure endpoint limit)

/-- No two endpoints with limits have a bucket in common. -/
def Apart (l : Limiter) (ms : List (Moment Limiter Call Answer Empty)) : Prop :=
  ∀ e e' u u', Known l ms e → Known l ms e' → bucketName e u = bucketName e' u' → e = e'

/-- A caller goes on under a limit whose capacity exceeds the one that stands by more than the token
it takes, and finds its bucket due to be filled up, or missing. -/
structure Overfills (ms : List (Moment Limiter Call Answer Empty)) (endpoint : String)
    (user : Option String) (limit limit' : EndpointLimit) (x : Moment Limiter Call Answer Empty) :
    Prop where
  work : x.work = .call (.on endpoint user .acquire)
  cue : x.start.cue ≠ none
  held : ∃ y ∈ ms, HoldsOn x.number endpoint limit y
  stands : x.start.state.limit? endpoint = some limit'
  exceeds : limit'.capacity + 1 < limit.capacity
  refills : ∀ b, x.start.state.buckets.find? (bucketName endpoint user) = some b →
    b.Due limit x.start.now

/-- After the moments before it, a caller fills a bucket above the capacity that stands. -/
def Outdated (ms : List (Moment Limiter Call Answer Empty))
    (x : Moment Limiter Call Answer Empty) : Prop :=
  ∃ endpoint user limit limit', Overfills ms endpoint user limit limit' x

theorem belongsTo_bucketName (endpoint : String) (user : Option String) :
    belongsTo (bucketName endpoint user) endpoint = true := by
  cases user with
  | none => simp [belongsTo, bucketName]
  | some user => simp [belongsTo, bucketName]

variable {l l' : Limiter} {ms before after : List (Moment Limiter Call Answer Empty)}
  {s : Scene Limiter Call Answer Empty} {x : Moment Limiter Call Answer Empty} {m : Memo}
  {endpoint : String} {user : Option String} {limit limit' : EndpointLimit} {now : Instant}
  {asks granted : Bool}

/-- Fewer buckets under the same limits are still within them. -/
theorem Bounded.of_sub (h : Bounded l) (hlimits : ∀ e, l'.limit? e = l.limit? e)
    (hsub : ∀ n b, l'.buckets.find? n = some b → l.buckets.find? n = some b) : Bounded l' := by
  intro e u limit b hlimit hb
  rw [hlimits] at hlimit
  exact h e u limit b hlimit (hsub _ _ hb)

theorem Bounded.configure (h : Bounded l) (endpoint : String) (limit : EndpointLimit) :
    Bounded (l.configure endpoint limit) := by
  intro e u limit' b hlimit hb
  rw [limit?_configure] at hlimit
  rw [find?_configure] at hb
  split at hb
  · cases hb
  · rename_i hkept
    by_cases he : endpoint = e
    · -- The buckets of the endpoint have been dropped.
      rw [he] at hkept
      exact absurd (belongsTo_bucketName e u) hkept
    · rw [if_neg he] at hlimit
      exact h e u limit' b hlimit hb

theorem Bounded.reset (h : Bounded l) (endpoint : String) (user : Option String) :
    Bounded (l.reset endpoint user) := by
  refine h.of_sub (fun _ => rfl) fun n b hb => ?_
  rw [Limiter.reset, Table.find?_erase] at hb
  split at hb
  · cases hb
  · exact hb

theorem Bounded.resetAll (h : Bounded l) : Bounded l.resetAll :=
  h.of_sub (fun _ => rfl) fun _ _ hb => by cases hb

/-- A use leaves the buckets within their limits if it does so with its own. -/
theorem Bounded.of_uses (h : Bounded l)
    (huses : l.Uses (bucketName endpoint user) limit now asks granted l')
    (hapart : ∀ e u limit', l.limit? e = some limit' →
      bucketName e u = bucketName endpoint user → e = endpoint)
    (hown : ∀ limit', l.limit? endpoint = some limit' →
      ((Bucket.ready (l.buckets.find? (bucketName endpoint user)) limit now).draw asks).2.tokens ≤
        limit'.capacity) : Bounded l' := by
  intro e u limit' b hlimit hb
  rw [huses.limit?_eq] at hlimit
  by_cases hname : bucketName e u = bucketName endpoint user
  · obtain rfl := hapart e u limit' hlimit hname
    rw [hname, huses.own] at hb
    obtain rfl := Option.some.inj hb
    exact hown limit' hlimit
  · rw [huses.other _ hname] at hb
    exact h e u limit' b hlimit hb

theorem draw_tokens_le (b : Bucket) (asks : Bool) : (b.draw asks).2.tokens ≤ b.tokens := by
  have htokens := b.draw_tokens asks
  omega

theorem ready_tokens_le {b : Option Bucket} (h : ∀ c, b = some c → c.tokens ≤ limit.capacity) :
    (Bucket.ready b limit now).tokens ≤ limit.capacity := by
  refine Bucket.tokens_refill_le ?_ now
  cases b with
  | none => exact Nat.le_refl _
  | some c => exact h c rfl

/-- A bucket that is due or missing is found full; another one is found as it is. -/
theorem ready_eq (b : Option Bucket) (limit : EndpointLimit) (now : Instant) :
    ((∀ c, b = some c → c.Due limit now) ∧
      (Bucket.ready b limit now).tokens = limit.capacity) ∨
        ∃ c, b = some c ∧ ¬c.Due limit now ∧ Bucket.ready b limit now = c := by
  cases b with
  | none =>
      refine .inl ⟨nofun, ?_⟩
      rw [Bucket.ready, Option.getD_none, Bucket.refill_full]
      rfl
  | some c =>
      by_cases hdue : c.Due limit now
      · refine .inl ⟨fun c' hc => Option.some.inj hc ▸ hdue, ?_⟩
        rw [Bucket.ready, Option.getD_some, Bucket.refill_of_due hdue]
      · exact .inr ⟨c, rfl, hdue, Bucket.refill_of_not_due hdue⟩

/-- A token is taken under one limit: the bucket is within another one, if it was before, unless it
is filled up to a capacity that is too large. -/
theorem draw_tokens_le_iff {b : Option Bucket} (h : ∀ c, b = some c → c.tokens ≤ limit'.capacity) :
    ((Bucket.ready b limit now).draw true).2.tokens ≤ limit'.capacity ↔
      ¬(limit'.capacity + 1 < limit.capacity ∧ ∀ c, b = some c → c.Due limit now) := by
  have htokens : ((Bucket.ready b limit now).draw true).2.tokens =
      (Bucket.ready b limit now).tokens - 1 := by
    rw [Bucket.draw, if_pos rfl, Bucket.take]
    split
    · rename_i hempty
      dsimp only
      omega
    · rfl
  rcases ready_eq b limit now with ⟨hdue, hfull⟩ | ⟨c, hc, hdue, hsame⟩
  · rw [htokens, hfull]
    constructor
    · intro hle hover
      omega
    · intro hnot
      by_contra hgt
      exact hnot ⟨by omega, hdue⟩
  · rw [htokens, hsame]
    have hle := h c hc
    exact iff_of_true (by omega) fun hover => hdue (hover.2 c hc)

section Step

variable (hb : Bounded x.start.state) (hapart : Apart l ms)
  (hknown : ∀ e limit, x.start.state.limit? e = some limit → Known l ms e)
  (hheld : ∀ y ∈ before, ∀ e limit, y.start.state.limit? e = some limit → Known l ms e)
  (hone : ∀ e limit limit', (∃ y ∈ before, HoldsOn x.number e limit y) →
    (∃ y ∈ before, HoldsOn x.number e limit' y) → limit = limit')

theorem not_outdated_of_cue (h : x.start.cue = none) : ¬Outdated before x := by
  rintro ⟨_, _, _, _, ho⟩
  exact ho.cue h

include hb hapart hknown hheld hone

/-- A caller that goes on leaves its bucket within the limit that stands, unless it is outdated. -/
theorem bounded_resumed (hwork : x.work = .call (.on endpoint user .acquire))
    (hcue : x.start.cue ≠ none) (hholds : ∃ y ∈ before, HoldsOn x.number endpoint limit y)
    (huses : x.start.state.Uses (bucketName endpoint user) limit x.start.now true granted x.left) :
    Bounded x.left ↔ ¬Outdated before x := by
  have hsingle : ∀ e u limit', x.start.state.limit? e = some limit' →
      bucketName e u = bucketName endpoint user → e = endpoint := by
    intro e u limit' hlimit hname
    obtain ⟨y, hy, hy'⟩ := hholds
    exact hapart e endpoint u user (hknown e limit' hlimit)
      (hheld y hy endpoint limit hy'.limit) hname
  constructor
  · rintro hleft ⟨_, _, held, stands, ho⟩
    have hpair := hwork.symm.trans ho.work
    cases hpair
    obtain rfl := hone endpoint limit held hholds ho.held
    have hown := hleft endpoint user stands _ ((huses.limit?_eq endpoint).trans ho.stands)
      huses.own
    rw [draw_tokens_le_iff fun c hc => hb endpoint user stands c ho.stands hc] at hown
    exact hown ⟨ho.exceeds, ho.refills⟩
  · intro hnot
    refine hb.of_uses huses hsingle fun limit' hlimit => ?_
    rw [draw_tokens_le_iff fun c hc => hb endpoint user limit' c hlimit hc]
    rintro ⟨hexceeds, hdue⟩
    exact hnot ⟨endpoint, user, limit, limit', hwork, hcue, hholds, hlimit, hexceeds, hdue⟩

/-- What a moment does to a limiter whose buckets are within their limits. -/
theorem bounded_step (hm : Remembered before x.number m) (hx : Effect m x) :
    Bounded x.left ↔ ¬Outdated before x := by
  have hother : ∀ k, x.work = .call k → (∀ e u, k ≠ .on e u .acquire) → ¬Outdated before x := by
    rintro k hk hne ⟨e, u, limit, limit', ho⟩
    have hwork := ho.work
    rw [hk] at hwork
    cases hwork
    exact hne e u rfl
  cases hx with
  | dropped hd hcue hleft =>
      exact iff_of_true (by rw [hleft]; exact hb) (not_outdated_of_cue hcue)
  | on e u purpose hwork hd hacts =>
      cases hacts with
      | free hcue hl hleft hgranted =>
          exact iff_of_true (by rw [hleft]; exact hb) (not_outdated_of_cue hcue)
      | held limit hlimit hpurpose huses =>
          cases hlimit with
          | begins hcue hl =>
              refine iff_of_true (hb.of_uses huses ?_ ?_) (not_outdated_of_cue hcue)
              · intro e' u' limit' hlimit' hname
                exact hapart e' e u' u (hknown e' limit' hlimit') (hknown e limit hl) hname
              · intro limit' hlimit'
                obtain rfl := Option.some.inj (hl.symm.trans hlimit')
                exact le_trans (draw_tokens_le _ _)
                  (ready_tokens_le fun c hc => hb e u limit c hl hc)
          | resumes hcue hm' =>
              obtain rfl := hpurpose hcue
              exact bounded_resumed hb hapart hknown hheld hone hwork hcue (hm e limit hm') huses
  | configure e limit hwork hleft =>
      refine iff_of_true ?_ (hother _ hwork nofun)
      rw [hleft]
      exact hb.configure e limit
  | reset e u hwork hleft =>
      refine iff_of_true ?_ (hother _ hwork nofun)
      rw [hleft]
      exact hb.reset e u
  | resetAll hwork hleft =>
      refine iff_of_true ?_ (hother _ hwork nofun)
      rw [hleft]
      exact hb.resetAll

end Step

/-! ## Courses -/

theorem Known.mono {ms' : List (Moment Limiter Call Answer Empty)} {e : String}
    (h : Known l ms e) (hsub : ∀ x ∈ ms, x ∈ ms') : Known l ms' e := by
  rcases h with h | ⟨x, hx, hwork⟩
  · exact .inl h
  · exact .inr ⟨x, hsub x hx, hwork⟩

/-- An endpoint has a limit only if it had one or was given one. -/
theorem known_of_course (h : workplace.Course (Workplace.idle l) ms s) :
    ∀ e limit, s.state.limit? e = some limit → Known l ms e := by
  refine course_induction (A := fun _ l' => ∀ e limit, l'.limit? e = some limit → Known l ms e) h
    (fun e limit he => .inl ⟨limit, he⟩) fun before x after m heq hm hx hknown e limit he => ?_
  cases hx with
  | dropped hd hcue hleft => exact hknown e limit (hleft ▸ he)
  | on e' u purpose hwork hd hacts =>
      cases hacts with
      | free hcue hl hleft hgranted => exact hknown e limit (hleft ▸ he)
      | held limit' hlimit hpurpose huses =>
          rw [huses.limit?_eq] at he
          exact hknown e limit he
  | configure e' limit' hwork hleft =>
      rw [hleft, limit?_configure] at he
      split at he
      · rename_i hsame
        subst hsame
        exact .inr ⟨x, by rw [heq]; simp, limit', hwork⟩
      · exact hknown e limit he
  | reset e' u hwork hleft =>
      rw [hleft] at he
      exact hknown e limit he
  | resetAll hwork hleft =>
      rw [hleft] at he
      exact hknown e limit he

theorem known_of_mem (h : workplace.Course (Workplace.idle l) ms s) (hx : x ∈ ms) :
    ∀ e limit, x.start.state.limit? e = some limit → Known l ms e := by
  obtain ⟨before, after, rfl⟩ := List.append_of_mem hx
  obtain ⟨t, hbefore, hstep, -⟩ := h.split
  intro e limit he
  rw [hstep.start_state] at he
  exact (known_of_course hbefore e limit he).mono fun y hy => List.mem_append_left _ hy

/-- A caller holds on to one limit. -/
theorem HoldsOn.limit_unique {n : Nat} {e : String} (h : workplace.Course (Workplace.idle l) ms s)
    (hy : ∃ y ∈ ms, HoldsOn n e limit y) (hy' : ∃ y ∈ ms, HoldsOn n e limit' y) :
    limit = limit' := by
  obtain ⟨y, hmem, hy⟩ := hy
  obtain ⟨y', hmem', hy'⟩ := hy'
  have hopens : ∀ {limit : EndpointLimit} {y : Moment Limiter Call Answer Empty},
      HoldsOn n e limit y → y.Opens := by
    intro limit y hy
    obtain ⟨u, hwork⟩ := hy.work
    obtain ⟨w, hw⟩ := hy.waits
    refine ⟨by rw [hwork]; rfl, hy.cue, ?_⟩
    rw [hw]
    exact nofun
  obtain rfl := h.eq_of_opens (course_not_stays h) hmem hmem' (hopens hy) (hopens hy')
    (hy.number_eq.trans hy'.number_eq.symm)
  exact Option.some.inj (hy.limit.symm.trans hy'.limit)

theorem bounded_moment (h : workplace.Course (Workplace.idle l) ms s) (hapart : Apart l ms)
    (heq : ms = before ++ x :: after) (hm : Remembered before x.number m) (hx : Effect m x)
    (hb : Bounded x.start.state) : Bounded x.left ↔ ¬Outdated before x := by
  have hsub : ∀ y ∈ before, y ∈ ms := fun y hy => by rw [heq]; exact List.mem_append_left _ hy
  refine bounded_step hb hapart (known_of_mem h (by rw [heq]; simp))
    (fun y hy => known_of_mem h (hsub y hy)) ?_ hm hx
  rintro e limit limit' ⟨y, hy, hheld⟩ ⟨y', hy', hheld'⟩
  exact HoldsOn.limit_unique h ⟨y, hsub y hy, hheld⟩ ⟨y', hsub y' hy', hheld'⟩

theorem bounded_of_course (h : workplace.Course (Workplace.idle l) ms s) (hl : Bounded l)
    (hapart : Apart l ms)
    (hnot : ∀ before x after, ms = before ++ x :: after → ¬Outdated before x) :
    Bounded s.state :=
  course_induction (A := fun _ l' => Bounded l') h hl fun before x after _ heq hm hx hb =>
    (bounded_moment h hapart heq hm hx hb).mpr (hnot before x after heq)

/-- Where no two endpoints have a bucket in common, all buckets stay within the capacities that are
configured if and only if no caller goes on that is outdated. -/
theorem bounded_iff (h : workplace.Course (Workplace.idle l) ms s) (hl : Bounded l)
    (hapart : Apart l ms) : (∀ x ∈ ms, Bounded x.after.state) ↔
      ∀ before x after, ms = before ++ x :: after → ¬Outdated before x := by
  constructor
  · rintro hall before x after rfl
    obtain ⟨t, hbefore, hstep, -⟩ := h.split
    obtain ⟨m, m', hm, hk⟩ := (course_keeps h).1 before x after rfl
    have hstart : Bounded x.start.state := by
      rw [hstep.start_state]
      cases hbefore with
      | nil => exact hl
      | snoc _ hy => exact hall _ (by simp)
    have hafter := hall x (by simp)
    rw [after_state hstep] at hafter
    exact (bounded_moment h hapart rfl hm (effect hstep hk) hstart).mp hafter
  · intro hnot x hx
    obtain ⟨before, after, rfl⟩ := List.append_of_mem hx
    obtain ⟨t, hbefore, hstep, -⟩ := h.split
    have hsub : ∀ y ∈ before ++ [x], y ∈ before ++ x :: after := by
      intro y hy
      rcases List.mem_append.mp hy with hy | hy
      · exact List.mem_append_left _ hy
      · obtain rfl := List.mem_singleton.mp hy
        exact hx
    refine bounded_of_course (hbefore.snoc hstep) hl ?_ ?_
    · exact fun e e' u u' he he' => hapart e e' u u' (he.mono hsub) (he'.mono hsub)
    · intro first y rest heq
      refine hnot first y (rest ++ after) ?_
      have hrest := congrArg (· ++ after) heq
      simpa using hrest

/-- Three calls a minute. -/
def threeAMinute : EndpointLimit := .new 3 60000 60000

/-- One call a minute. -/
def oneAMinute : EndpointLimit := .new 1 60000 0

/-- Three callers use up the tokens of a minute and a fourth one waits. After a second the endpoint
is configured, and then the wait ends. -/
def configuredMeanwhile (limit : EndpointLimit) : List (Instant × Move Call) :=
  [(⟨0⟩, .ask (.configure "/x" threeAMinute)),
    (⟨0⟩, .ask (.on "/x" none .acquire)), (⟨0⟩, .ask (.on "/x" none .acquire)),
    (⟨0⟩, .ask (.on "/x" none .acquire)), (⟨0⟩, .ask (.on "/x" none .acquire)),
    (⟨1000000000⟩, .ask (.configure "/x" limit)),
    (⟨60000000000⟩, .reply 4 (Wait.answer (.ok ⟨200, Table.empty, ""⟩) (.error .loginRequired)))]

/-- Endpoints are only given one of these limits, and only this endpoint is. -/
def configuresOnly (endpoint : String) (limits : List EndpointLimit)
    (x : Moment Limiter Call Answer Empty) : Bool :=
  match x.work with
  | .call (.configure e limit) => decide (e = endpoint ∧ limit ∈ limits)
  | _ => true

theorem configuresOnly_iff {limits : List EndpointLimit} :
    configuresOnly endpoint limits x = true ↔
      ∀ e limit, x.work = .call (.configure e limit) → e = endpoint ∧ limit ∈ limits := by
  unfold configuresOnly
  split
  · rename_i e limit hwork
    rw [decide_eq_true_eq, hwork]
    exact ⟨fun h e' limit' heq => by cases heq; exact h, fun h => h e limit rfl⟩
  · rename_i hwork
    exact iff_of_true rfl fun e limit h => absurd h (hwork e limit)

/-- One endpoint shares no bucket with another. -/
theorem apart_of_single {limits : List EndpointLimit}
    (h : ∀ x ∈ ms, configuresOnly endpoint limits x = true) : Apart empty ms := by
  have hsingle : ∀ e, Known empty ms e → e = endpoint := by
    rintro e (⟨limit, hlimit⟩ | ⟨x, hx, limit, hwork⟩)
    · cases hlimit
    · exact (configuresOnly_iff.mp (h x hx) e limit hwork).1
  intro e e' u u' he he' _
  rw [hsingle e he, hsingle e' he']

theorem bounded_empty : Bounded empty := fun _ _ _ _ h => by cases h

/-- A caller that goes on under a limit as large as the one that stands keeps within it. -/
theorem bounded_iff_threeAMinute : ∃ (ms : List (Moment Limiter Call Answer Empty))
    (s : Scene Limiter Call Answer Empty), workplace.Course (Workplace.idle empty) ms s ∧
      ms.length = 7 ∧ Bounded empty ∧ Apart empty ms ∧
        ((∀ x ∈ ms, Bounded x.after.state) ↔
          ∀ before x after, ms = before ++ x :: after → ¬Outdated before x) := by
  have hpasses : workplace.passes (Workplace.idle empty) (configuredMeanwhile threeAMinute) 6
      (fun ms x ms' _ => decide ((ms ++ x :: ms').length = 7) &&
        (ms ++ x :: ms').all (configuresOnly "/x" [threeAMinute])) = true := by
    decide +kernel
  obtain ⟨ms, x, ms', s, hcourse, htest⟩ := Workplace.exists_course hpasses
  rw [Bool.and_eq_true, decide_eq_true_eq, List.all_eq_true] at htest
  have hapart := apart_of_single htest.2
  exact ⟨_, s, hcourse, htest.1, bounded_empty, hapart, bounded_iff hcourse bounded_empty hapart⟩

/-- The fourth caller goes on under the limit that it began with: it makes the bucket anew with
three tokens, takes one, and leaves two where one is allowed. -/
theorem not_bounded_configuredMeanwhile : ¬∀ (ms : List (Moment Limiter Call Answer Empty))
    (s : Scene Limiter Call Answer Empty), workplace.Course (Workplace.idle empty) ms s →
      Apart empty ms →
      (∀ x ∈ ms, ∀ e limit, x.work = .call (.configure e limit) →
        ∃ capacity intervalMs maxWaitMs, limit = .new capacity intervalMs maxWaitMs) →
          ∀ x ∈ ms, Bounded x.after.state := by
  intro hclaim
  have hpasses : workplace.passes (Workplace.idle empty) (configuredMeanwhile oneAMinute) 6
      (fun ms x ms' _ => decide (x.after.state.limit? "/x" = some oneAMinute ∧
          (x.after.state.buckets.find? (bucketName "/x" none)).map (·.tokens) = some 2) &&
        (ms ++ x :: ms').all (configuresOnly "/x" [threeAMinute, oneAMinute])) = true := by
    decide +kernel
  obtain ⟨ms, x, ms', s, hcourse, htest⟩ := Workplace.exists_course hpasses
  rw [Bool.and_eq_true, decide_eq_true_eq, List.all_eq_true] at htest
  obtain ⟨⟨hlimit, htokens⟩, hconfigures⟩ := htest
  obtain ⟨b, hb, htwo⟩ := Option.map_eq_some_iff.mp htokens
  have hnew : ∀ y ∈ ms ++ x :: ms', ∀ e limit, y.work = .call (.configure e limit) →
      ∃ capacity intervalMs maxWaitMs, limit = .new capacity intervalMs maxWaitMs := by
    intro y hy e limit hwork
    have hmem := (configuresOnly_iff.mp (hconfigures y hy) e limit hwork).2
    rcases List.mem_cons.mp hmem with rfl | hmem
    · exact ⟨3, 60000, 60000, rfl⟩
    · obtain rfl := List.mem_singleton.mp hmem
      exact ⟨1, 60000, 0, rfl⟩
  have hbounded := hclaim _ s hcourse (apart_of_single hconfigures) hnew x (by simp)
  have hle := hbounded "/x" none oneAMinute b hlimit hb
  rw [htwo] at hle
  exact absurd hle (by decide)

end Limiter

end ClientSession
