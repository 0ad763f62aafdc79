import ClientSession.Proofs.Limit.Hints
import ClientSession.Proofs.Limit.Separation
import ClientSession.Proofs.Limit.Strain

/-!
# Pairs that recover

A pair of endpoint and user that was given no token for an interval should be allowed a call, since
its bucket is full again. It is, if the limit lets any call through at all and no other endpoint
draws on the bucket. A limit without capacity shuts its endpoint for ever, and callers of another
endpoint whose bucket has the same name can use the tokens up.

- `Bucket.Owes`: a bucket lacks tokens only if one was taken since its last refill.
- `Limiter.course_upheld`: so it is with the bucket of a pair in every course.
- `Limiter.recovers_iff`: the pairs that recover.
-/

namespace ClientSession

namespace Bucket

/-- The bucket is full, unless one of the uses took a token since the last refill. -/
def Owes (l : EndpointLimit) (ds : List Draw) (b : Bucket) : Prop :=
  l.capacity ≤ b.tokens ∨ ∃ d ∈ ds, d.granted = true ∧ b.lastRefill ≤ d.reading

variable {b : Bucket} {found : Option Bucket} {l : EndpointLimit} {a now : Instant}
  {ds ds' : List Draw}

theorem Owes.mono (h : b.Owes l ds) (hsub : ∀ d ∈ ds, d ∈ ds') : b.Owes l ds' := by
  rcases h with h | ⟨d, hd, hgiven⟩
  · exact .inl h
  · exact .inr ⟨d, hsub d hd, hgiven⟩

/-- A bucket that is found ready was last refilled before now, and owes as before. -/
theorem Owes.ready (h : ∀ b ∈ found, b.Owes l ds ∧ b.lastRefill ≤ now) :
    (Bucket.ready found l now).Owes l ds ∧ (Bucket.ready found l now).lastRefill ≤ now := by
  cases found with
  | none =>
      have hfull : Bucket.ready none l now = full l now := refill_full l now
      rw [hfull]
      exact ⟨.inl (Nat.le_refl _), Int.le_refl _⟩
  | some b =>
      rw [Bucket.ready, Option.getD_some, refill_eq]
      split
      · exact ⟨.inl (Nat.le_refl _), (lastStart_between ‹b.Due l now›).2⟩
      · exact h b rfl

/-- A use that takes a token is one since the last refill. -/
theorem Owes.draw {asks : Bool} (h : b.Owes l ds) (hlast : b.lastRefill ≤ now) :
    (b.draw asks).2.Owes l (ds ++ [⟨now, asks, (b.draw asks).1⟩]) := by
  have htokens := b.draw_tokens asks
  cases hgiven : (b.draw asks).1 with
  | true => exact .inr ⟨⟨now, asks, true⟩, by simp, rfl, by rwa [draw_lastRefill]⟩
  | false =>
      rw [hgiven] at htokens
      have hsame : (b.draw asks).2.tokens = b.tokens := htokens
      rcases h with h | ⟨d, hd, hd'⟩
      · exact .inl (hsame ▸ h)
      · exact .inr ⟨d, List.mem_append_left _ hd, by rwa [draw_lastRefill]⟩

/-- Once an interval has passed since the last token that was taken, there are tokens again. -/
theorem Owes.tokens_pos (h : ∀ b ∈ found, b.Owes l ds) (hcapacity : 0 < l.capacity)
    (hl : 0 < l.intervalMs) (hds : ∀ d ∈ ds, d.granted = true → d.reading ≤ a)
    (hnow : a.nanos + l.interval.nanos ≤ now.nanos) : 0 < (Bucket.ready found l now).tokens := by
  cases found with
  | none =>
      have hfull : Bucket.ready none l now = full l now := refill_full l now
      rw [hfull]
      exact hcapacity
  | some b =>
      rw [Bucket.ready, Option.getD_some, refill_eq]
      split
      · exact hcapacity
      · rename_i hdue
        rcases h b rfl with hfull | ⟨d, hd, hgiven, hlast⟩
        · exact Nat.lt_of_lt_of_le hcapacity hfull
        · have hpositive := l.nanos_interval_pos hl
          have hsince : b.lastRefill.nanos ≤ a.nanos := Int.le_trans hlast (hds d hd hgiven)
          have hlt : b.lastRefill.nanos < now.nanos := by omega
          exact absurd ⟨hlt, by omega⟩ hdue

end Bucket

namespace Limiter

/-- The call changes no limit at a bucket. -/
def Call.Upholds (l : Limiter) (name : String) : Call → Prop
  | .configure e limit => belongsTo name e = true → l.limit? e = some limit
  | _ => True

/-- No other endpoint with a limit draws on the bucket of the pair. -/
def Alone (l : Limiter) (endpoint : String) (user : Option String) : Prop :=
  ∀ e u limit, l.limit? e = some limit → bucketName e u = bucketName endpoint user → e = endpoint

/-- A pair without a user whose endpoint has no colon is alone. -/
theorem alone_of_no_colon {l : Limiter} {endpoint : String} (h : ':' ∉ endpoint.toList) :
    l.Alone endpoint none := by
  intro e u limit hlimit hname
  cases u with
  | none => exact hname
  | some u =>
      have hcolon : ':' ∈ (bucketName e (some u)).toList := by
        rw [toList_bucketName]
        simp
      rw [hname] at hcolon
      exact absurd hcolon h

/-- In all that may be asked of the limiter without changing a limit at the pair's bucket, while the
clock does not go back: a call on the pair may be made whenever an interval has passed in which the
pair was given no token. -/
def Recovers (l : Limiter) (endpoint : String) (user : Option String) (limit : EndpointLimit) :
    Prop :=
  ∀ (ms : List (Moment Limiter Call Answer Empty)) (s : Scene Limiter Call Answer Empty),
    workplace.Course (Workplace.idle l) ms s →
    (∀ x ∈ ms, ∀ k, x.work = .call k → k.Upholds l (bucketName endpoint user)) →
    ms.Pairwise (fun x y => x.start.now ≤ y.start.now) →
    ∀ a now : Instant, (∀ x ∈ ms, x.start.now ≤ now) →
      (∀ d ∈ draws endpoint user ms, d.granted = true → d.reading ≤ a) →
      a.nanos + limit.interval.nanos ≤ now.nanos →
        (s.state.mayCall endpoint user now).map (·.1) = .ok true

variable {l l' : Limiter} {endpoint e : String} {user u : Option String}
  {limit limit' : EndpointLimit} {now : Instant}
  {ms : List (Moment Limiter Call Answer Empty)} {s : Scene Limiter Call Answer Empty}
  {x : Moment Limiter Call Answer Empty} {m : Memo}

/-- A call may be made if and only if there is a token. -/
theorem mayCall_iff (h : l.limit? endpoint = some limit) :
    (l.mayCall endpoint user now).map (·.1) = .ok true ↔
      0 < (Bucket.ready (l.buckets.find? (bucketName endpoint user)) limit now).tokens := by
  rw [map_mayCall, map_evaluate h, ← Bucket.decision_eq_allow_iff limit now]
  cases Bucket.decision _ limit now with
  | error f => exact iff_of_false nofun nofun
  | ok d =>
      refine ⟨fun hmay => congrArg _ ?_, fun hd => by rw [hd]; rfl⟩
      exact of_decide_eq_true (Except.ok.inj hmay)

/-! ## What a course upholds -/

/-- The limits at the pair's bucket stand and have stood, and the bucket lacks tokens only if the
pair was given one since the last refill. -/
structure Upheld (l₀ : Limiter) (endpoint : String) (user : Option String) (limit : EndpointLimit)
    (ms : List (Moment Limiter Call Answer Empty)) (l : Limiter) : Prop where
  stands : ∀ e, belongsTo (bucketName endpoint user) e = true → l.limit? e = l₀.limit? e
  stood : ∀ x ∈ ms, ∀ e, belongsTo (bucketName endpoint user) e = true →
    x.start.state.limit? e = l₀.limit? e
  owes : ∀ b ∈ l.buckets.find? (bucketName endpoint user),
    b.Owes limit (draws endpoint user ms) ∧ ∃ x ∈ ms, b.lastRefill ≤ x.start.now

namespace Upheld

variable {l₀ : Limiter} (h : Upheld l₀ endpoint user limit ms x.start.state)
include h

theorem stood_snoc : ∀ y ∈ ms ++ [x], ∀ e, belongsTo (bucketName endpoint user) e = true →
    y.start.state.limit? e = l₀.limit? e := by
  intro y hy
  rcases List.mem_append.mp hy with hy | hy
  · exact h.stood y hy
  · obtain rfl := List.mem_singleton.mp hy
    exact h.stands

/-- A moment that leaves the bucket as it is, or drops it. -/
theorem aside (hlimits : ∀ e, belongsTo (bucketName endpoint user) e = true →
      l'.limit? e = x.start.state.limit? e)
    (hbucket : l'.buckets.find? (bucketName endpoint user) = none ∨
      l'.buckets.find? (bucketName endpoint user) =
        x.start.state.buckets.find? (bucketName endpoint user)) :
    Upheld l₀ endpoint user limit (ms ++ [x]) l' where
  stands e he := (hlimits e he).trans (h.stands e he)
  stood := h.stood_snoc
  owes b hb := by
    rcases hbucket with hnone | hsame
    · rw [hnone] at hb
      cases hb
    · rw [hsame] at hb
      obtain ⟨howes, y, hy, hlast⟩ := h.owes b hb
      refine ⟨howes.mono fun d hd => ?_, y, List.mem_append_left _ hy, hlast⟩
      rw [draws_append]
      exact List.mem_append_left _ hd

/-- The limit under which a stretch draws on the bucket is the one of the pair. -/
theorem heldTo_eq {n : Nat} (hm : Remembered ms n m) (hlimit : l₀.limit? endpoint = some limit)
    (halone : l₀.Alone endpoint user) (hname : bucketName e u = bucketName endpoint user)
    (hheld : HeldTo m x.start e limit') : e = endpoint ∧ u = user ∧ limit' = limit := by
  have hbelongs : belongsTo (bucketName endpoint user) e = true := by
    rw [← hname]
    exact belongsTo_bucketName e u
  have hstands : l₀.limit? e = some limit' := by
    cases hheld with
    | begins hcue hl => exact (h.stands e hbelongs).symm.trans hl
    | resumes hcue hm' =>
        obtain ⟨y, hy, hholds⟩ := hm e limit' hm'
        exact (h.stood y hy e hbelongs).symm.trans hholds.limit
  obtain rfl := halone e u limit' hstands hname
  exact ⟨rfl, bucketName_user_injective hname, Option.some.inj (hstands.symm.trans hlimit)⟩

/-- A use of the bucket. -/
theorem own {purpose : Purpose} (hclock : ∀ y ∈ ms, y.start.now ≤ x.start.now)
    (hwork : x.work = .call (.on endpoint user purpose)) (hd : dropped x = false)
    (huses : x.start.state.Uses (bucketName endpoint user) limit x.start.now purpose.asks
      (granted x) x.left) : Upheld l₀ endpoint user limit (ms ++ [x]) x.left where
  stands e he := (huses.limit?_eq e).trans (h.stands e he)
  stood := h.stood_snoc
  owes b hb := by
    have hdraw : draw? endpoint user x = some ⟨x.start.now, purpose.asks, granted x⟩ := by
      simp only [draw?, hwork, hd, and_self, if_true]
    have hfound : ∀ b ∈ x.start.state.buckets.find? (bucketName endpoint user),
        b.Owes limit (draws endpoint user ms) ∧ b.lastRefill ≤ x.start.now := by
      intro b hb
      obtain ⟨howes, y, hy, hbefore⟩ := h.owes b hb
      exact ⟨howes, Int.le_trans hbefore (hclock y hy)⟩
    obtain ⟨hready, hlast⟩ := Bucket.Owes.ready hfound
    rw [huses.own] at hb
    obtain rfl := Option.some.inj hb
    rw [draws_snoc_of_some hdraw, huses.granted_eq, Bucket.draw_lastRefill]
    exact ⟨hready.draw hlast, x, by simp, hlast⟩

theorem step (hclock : ∀ y ∈ ms, y.start.now ≤ x.start.now)
    (hlimit : l₀.limit? endpoint = some limit) (halone : l₀.Alone endpoint user)
    (hm : Remembered ms x.number m) (hx : Effect m x)
    (hupholds : ∀ k, x.work = .call k → k.Upholds l₀ (bucketName endpoint user)) :
    Upheld l₀ endpoint user limit (ms ++ [x]) x.left := by
  cases hx with
  | dropped hd hcue hleft =>
      rw [hleft]
      exact h.aside (fun _ _ => rfl) (.inr rfl)
  | on e u purpose hwork hd hacts =>
      cases hacts with
      | free hcue hl hleft hgranted =>
          rw [hleft]
          exact h.aside (fun _ _ => rfl) (.inr rfl)
      | held limit' hheld hpurpose huses =>
          by_cases hname : bucketName e u = bucketName endpoint user
          · obtain ⟨rfl, rfl, rfl⟩ := h.heldTo_eq hm hlimit halone hname hheld
            exact h.own hclock hwork hd huses
          · exact h.aside (fun e' _ => huses.limit?_eq e') (.inr (huses.other _ (Ne.symm hname)))
  | configure e limit' hwork hleft =>
      have hsets : belongsTo (bucketName endpoint user) e = true → l₀.limit? e = some limit' :=
        hupholds _ hwork
      rw [hleft]
      refine h.aside (fun e' he' => ?_) ?_
      · rw [limit?_configure]
        split
        · rename_i heq
          subst heq
          rw [h.stands e he', hsets he']
        · rfl
      · rw [find?_configure]
        split
        · exact .inl rfl
        · exact .inr rfl
  | reset e u hwork hleft =>
      rw [hleft]
      refine h.aside (fun _ _ => rfl) ?_
      rw [Limiter.reset, Table.find?_erase]
      split
      · exact .inl rfl
      · exact .inr rfl
  | resetAll hwork hleft =>
      rw [hleft]
      exact h.aside (fun _ _ => rfl) (.inl rfl)

end Upheld

theorem course_upheld (h : workplace.Course (Workplace.idle l) ms s)
    (hlimit : l.limit? endpoint = some limit) (halone : l.Alone endpoint user)
    (hnew : ∀ name, l.buckets.find? name = none)
    (hupholds : ∀ x ∈ ms, ∀ k, x.work = .call k → k.Upholds l (bucketName endpoint user))
    (hclock : ms.Pairwise fun x y => x.start.now ≤ y.start.now) :
    Upheld l endpoint user limit ms s.state := by
  refine course_induction h ⟨fun _ _ => rfl, fun _ hx => (nomatch hx), fun b hb => ?_⟩ ?_
  · rw [hnew] at hb
    cases hb
  · rintro before x after m rfl hm hx hu
    have hbefore := (List.pairwise_append.mp hclock).2.2
    exact hu.step (fun y hy => hbefore y hy x List.mem_cons_self) hlimit halone hm hx
      (hupholds x (by simp))

/-! ## Pairs that recover -/

theorem recovers_of_alone (hlimit : l.limit? endpoint = some limit) (hl : 0 < limit.intervalMs)
    (hnew : ∀ name, l.buckets.find? name = none) (hcapacity : 0 < limit.capacity)
    (halone : l.Alone endpoint user) : l.Recovers endpoint user limit := by
  intro ms s h hupholds hclock a now hnow hgiven hinterval
  have hu := course_upheld h hlimit halone hnew hupholds hclock
  have hstands : s.state.limit? endpoint = some limit :=
    (hu.stands endpoint (belongsTo_bucketName endpoint user)).trans hlimit
  rw [mayCall_iff hstands]
  exact Bucket.Owes.tokens_pos (fun b hb => (hu.owes b hb).1) hcapacity hl hgiven hinterval

/-- After calls at one instant, none of which was given a token for the pair, a call may be made. -/
theorem Recovers.at_once (h : l.Recovers endpoint user limit)
    (hs : workplace.Course (Workplace.idle l) ms s)
    (hms : ∀ x ∈ ms, x.start.now = now ∧ ∃ e u purpose, x.work = .call (.on e u purpose))
    (hnone : ∀ d ∈ draws endpoint user ms, d.granted = false) :
    (s.state.mayCall endpoint user now).map (·.1) = .ok true := by
  refine h ms s hs ?_ ?_ ⟨now.nanos - limit.interval.nanos⟩ now ?_ ?_
    (Int.le_of_eq (Int.sub_add_cancel _ _))
  · intro x hx k hk
    obtain ⟨-, e, u, purpose, hwork⟩ := hms x hx
    cases hk.symm.trans hwork
    trivial
  · refine List.pairwise_iff_forall_sublist.mpr fun {x y} hxy => ?_
    have hx := (hms x (hxy.subset (by simp))).1
    have hy := (hms y (hxy.subset (by simp))).1
    rw [hx, hy]
    exact Int.le_refl _
  · intro x hx
    rw [(hms x hx).1]
    exact Int.le_refl _
  · intro d hd hgiven
    exact absurd hgiven (Bool.eq_false_iff.mp (hnone d hd))

/-- Without capacity not even the first call may be made. -/
theorem capacity_pos_of_recovers (hlimit : l.limit? endpoint = some limit)
    (hnew : ∀ name, l.buckets.find? name = none) (h : l.Recovers endpoint user limit) :
    0 < limit.capacity := by
  have hmay : (l.mayCall endpoint user ⟨0⟩).map (·.1) = .ok true :=
    h.at_once .nil (fun _ hx => (nomatch hx)) fun _ hd => (nomatch hd)
  have hfull : Bucket.ready none limit ⟨0⟩ = .full limit ⟨0⟩ := Bucket.refill_full limit ⟨0⟩
  rw [mayCall_iff hlimit, hnew, hfull] at hmay
  exact hmay

/-- A bucket that has just been refilled gives what it has. -/
theorem ready_refilled (limit : EndpointLimit) (tokens : Nat) (now : Instant) :
    Bucket.ready (some ⟨tokens, now⟩) limit now = ⟨tokens, now⟩ :=
  Bucket.refill_of_not_due fun h => Int.lt_irrefl _ h.1

/-- Callers of one endpoint can take all that is left in a bucket. -/
theorem exists_drained {tokens : Nat} (h : workplace.Course (Workplace.idle l) ms s)
    (hlimit : s.state.limit? e = some limit)
    (hb : s.state.buckets.find? (bucketName e u) = some ⟨tokens, now⟩) :
    ∃ (ms' : List (Moment Limiter Call Answer Empty)) (s' : Scene Limiter Call Answer Empty),
      workplace.Course (Workplace.idle l) (ms ++ ms') s' ∧
      (∀ x ∈ ms', x.work = .call (.on e u .acquire) ∧ x.start.now = now) ∧
      s'.state.limits = s.state.limits ∧
      s'.state.buckets.find? (bucketName e u) = some ⟨0, now⟩ := by
  induction tokens generalizing ms s with
  | zero => exact ⟨[], s, by rwa [List.append_nil], fun _ hx => (nomatch hx), rfl, hb⟩
  | succ n ih =>
      have hready := ready_refilled limit (n + 1) now
      have hrun := acquire_run u now hlimit (by rw [hb, hready]; exact Nat.succ_pos n)
      obtain ⟨x, t, ht, hx, -, hstate⟩ := exists_answered h hrun
      have hleft : t.state.buckets.find? (bucketName e u) = some ⟨n, now⟩ := by
        rw [hstate, find?_store, hb, hready]
        rfl
      obtain ⟨ms', s', hs', hms', hlimits, hzero⟩ := ih ht (by rw [hstate]; exact hlimit) hleft
      refine ⟨x :: ms', s', by rwa [List.append_assoc] at hs', ?_, ?_, hzero⟩
      · exact List.forall_mem_cons.mpr ⟨⟨hx.work, congrArg Start.now hx.start⟩, hms'⟩
      · rw [hlimits, hstate]
        rfl

/-- Callers of another endpoint can leave nothing in the pair's bucket. -/
theorem alone_of_recovers (hlimit : l.limit? endpoint = some limit)
    (hnew : ∀ name, l.buckets.find? name = none) (h : l.Recovers endpoint user limit) :
    l.Alone endpoint user := by
  intro e u limit' hlimit' hname
  by_contra hne
  obtain ⟨x, t, ht, hx, -, hstate⟩ := exists_answered (l := l) .nil (available_run user ⟨0⟩ hlimit)
  have hfull : t.state.buckets.find? (bucketName e u) = some (.full limit ⟨0⟩) := by
    have hmade : Bucket.ready none limit ⟨0⟩ = .full limit ⟨0⟩ := Bucket.refill_full limit ⟨0⟩
    have hstart : (Workplace.idle l : Scene Limiter Call Answer Empty).state = l := rfl
    rw [hstate, hname, find?_store, hstart, hnew, hmade]
  obtain ⟨ms', s, hs, hms', hlimits, hzero⟩ :=
    exists_drained ht (by rw [hstate]; exact hlimit') hfull
  have hall : ∀ y ∈ [x] ++ ms', y.start.now = ⟨0⟩ ∧
      ∃ e u purpose, y.work = .call (.on e u purpose) := by
    refine List.forall_mem_cons.mpr
      ⟨⟨congrArg Start.now hx.start, _, _, _, hx.work⟩, fun y hy => ?_⟩
    exact ⟨(hms' y hy).2, _, _, _, (hms' y hy).1⟩
  -- The pair only looks, and the other endpoint is not the pair's.
  have hnone : ∀ d ∈ draws endpoint user ([x] ++ ms'), d.granted = false := by
    intro d hd
    obtain ⟨y, hy, hdraw⟩ := List.mem_filterMap.mp hd
    rcases List.mem_cons.mp hy with rfl | hy
    · rw [granted_of_draw? hdraw, granted, hx.result]
      rfl
    · rw [draw?, (hms' y hy).1] at hdraw
      exact absurd hdraw (by simp [hne])
  have hstands : s.state.limit? endpoint = some limit := by
    rw [limit?, hlimits, hstate]
    exact hlimit
  have hmay := (mayCall_iff hstands).mp (h.at_once hs hall hnone)
  rw [← hname, hzero, ready_refilled] at hmay
  exact Nat.lt_irrefl _ hmay

/-- A pair recovers if and only if its limit lets calls through and no other endpoint with a limit
draws on its bucket. -/
theorem recovers_iff (hlimit : l.limit? endpoint = some limit) (hl : 0 < limit.intervalMs)
    (hnew : ∀ name, l.buckets.find? name = none) :
    l.Recovers endpoint user limit ↔ 0 < limit.capacity ∧ l.Alone endpoint user :=
  ⟨fun h => ⟨capacity_pos_of_recovers hlimit hnew h, alone_of_recovers hlimit hnew h⟩,
    fun h => recovers_of_alone hlimit hl hnew h.1 h.2⟩

end Limiter

end ClientSession
