import ClientSession.Proofs.Limit.Alike

/-!
# Courses side by side

Two courses of callers start from one limiter, and what is kept of them matches: moment by moment
the same is asked for at the same reading. What is left out of either looks at a bucket or has
nothing to do with it. As long as no look that was left out shows in a use that is kept, whoever is
kept is told the same in both.

- `Limiter.Side`: one of the courses, what is kept of it, and the buckets that are watched.
- `Limiter.sides_agree`: what matches is told the same.
- `Limiter.SetBeside.begins`, `Limiter.SetBeside.goesOn`: so is whoever comes next, even if it
  faults.
-/

namespace ClientSession

/-- What is in a list has a match in another one. -/
theorem exists_of_mem_forall₂ {α β : Type} {R : α → β → Prop} {xs : List α} {ys : List β} {x : α}
    (h : List.Forall₂ R xs ys) (hx : x ∈ xs) : ∃ y ∈ ys, R x y := by
  induction h with
  | nil => cases hx
  | @cons a b as bs hab hrest ih =>
      rcases List.mem_cons.mp hx with rfl | hx
      · exact ⟨b, List.mem_cons_self, hab⟩
      · obtain ⟨y, hy, hxy⟩ := ih hx
        exact ⟨y, List.mem_cons_of_mem _ hy, hxy⟩

namespace Limiter

variable {l l' : Limiter} {endpoint : String} {user : Option String} {limit limit' : EndpointLimit}
  {now : Instant} {n : String} {ms ms' : List (Moment Limiter Call Answer Empty)}
  {s s' : Scene Limiter Call Answer Empty} {x y : Moment Limiter Call Answer Empty}
  {m m' : Memo} {N : String → Prop} {kept kept' : Moment Limiter Call Answer Empty → Bool}
  {renumber : Nat → Nat}

/-- The limit under which a moment on a pair acts: the one that is configured when the call begins,
and the one that it began to wait under when it goes on. -/
inductive ActsUnder (ms : List (Moment Limiter Call Answer Empty))
    (x : Moment Limiter Call Answer Empty) (endpoint : String) (user : Option String)
    (limit : EndpointLimit) : Prop where
  | begins (hcue : x.start.cue = none) (hdrops : x.result ≠ .paused .drops)
      (hl : x.start.state.limit? endpoint = some limit)
  | resumes (hcue : x.start.cue ≠ none) (hwaits : ∃ y ∈ ms, WaitsFor x.number endpoint user limit y)

/-- No look that was left out shows in a use that is kept. -/
def Undisturbed (kept : Moment Limiter Call Answer Empty → Bool)
    (ms : List (Moment Limiter Call Answer Empty)) : Prop :=
  ∀ before x after, ms = before ++ x :: after → kept x = true →
    ∀ endpoint user purpose limit, x.work = .call (.on endpoint user purpose) →
      ActsUnder before x endpoint user limit →
        Clear kept before (bucketName endpoint user) limit x.start.now

/-- A course in which the buckets of some names are watched: what is left out looks at them or has
nothing to do with them, and no look that is left out shows in a use that is kept. -/
structure Side (N : String → Prop) (kept : Moment Limiter Call Answer Empty → Bool) (l : Limiter)
    (ms : List (Moment Limiter Call Answer Empty)) (s : Scene Limiter Call Answer Empty) :
    Prop where
  course : workplace.Course (Workplace.idle l) ms s
  leftOut : ∀ x ∈ ms, kept x = false → Looks x ∨ ∀ n, N n → bears n x = false
  watched : ∀ x ∈ ms, kept x = true → ∀ endpoint user purpose,
    x.work = .call (.on endpoint user purpose) → N (bucketName endpoint user)
  clear : Undisturbed kept ms

/-- What is known of the last moment of a course. -/
structure Last (N : String → Prop) (kept : Moment Limiter Call Answer Empty → Bool)
    (l : Limiter) (ms : List (Moment Limiter Call Answer Empty))
    (x : Moment Limiter Call Answer Empty) (s : Scene Limiter Call Answer Empty) (m : Memo)
    (t : Scene Limiter Call Answer Empty) : Prop where
  side : Side N kept l ms t
  start : x.start.state = t.state
  left : s.state = x.left
  remembered : Remembered ms x.number m
  effect : Effect m x
  drops : x.result = .paused .drops → x.left = x.start.state
  told : Told ms x

theorem Side.last (h : Side N kept l (ms ++ [x]) s) : ∃ m t, Last N kept l ms x s m t := by
  obtain ⟨t, hcourse, hstep, rfl⟩ := h.course.last
  obtain ⟨m, m', hm, hk⟩ := (course_keeps h.course).1 ms x [] rfl
  refine ⟨m, t, ⟨hcourse, fun y hy => ?_, fun y hy => ?_, ?_⟩, hstep.start_state,
    after_state hstep, hm, effect hstep hk, left_of_drops hk, told_of_step hcourse hstep⟩
  · exact h.leftOut y (List.mem_append_left _ hy)
  · exact h.watched y (List.mem_append_left _ hy)
  · rintro before y after rfl
    exact h.clear before y (after ++ [x]) (by simp)

/-- What matches is told the same, under the same limit. -/
structure AgreesWith (renumber : Nat → Nat) (x y : Moment Limiter Call Answer Empty) : Prop where
  is : x.Matches renumber y
  result : x.result = y.result
  limit : ∀ endpoint user purpose, x.work = .call (.on endpoint user purpose) →
    x.start.state.limit? endpoint = y.start.state.limit? endpoint

theorem AgreesWith.waitsFor {number : Nat} (h : AgreesWith renumber x y)
    (hx : WaitsFor number endpoint user limit x) :
    WaitsFor (renumber number) endpoint user limit y := by
  have hwork := h.is.work.trans hx.work
  obtain ⟨w, hw⟩ := hx.holdsOn.waits
  refine ⟨⟨?_, ⟨user, hwork⟩, h.is.begins.mp hx.holdsOn.cue, ⟨w, h.result ▸ hw⟩, ?_⟩, hwork⟩
  · rw [h.is.number, hx.holdsOn.number_eq]
  · rw [← h.limit _ _ _ hx.work]
    exact hx.holdsOn.limit

/-- Two courses, and what is kept of them, agree so far. -/
structure SetBeside (N : String → Prop) (kept kept' : Moment Limiter Call Answer Empty → Bool)
    (renumber : Nat → Nat) (l : Limiter) (ms ms' : List (Moment Limiter Call Answer Empty))
    (s s' : Scene Limiter Call Answer Empty) : Prop where
  side : Side N kept l ms s
  side' : Side N kept' l ms' s'
  alike : ∀ n, N n → Alike n kept kept' ms ms' s.state s'.state
  agree : List.Forall₂ (AgreesWith renumber) (ms.filter kept) (ms'.filter kept')

/-- A caller holds on to one limit. -/
theorem ActsUnder.limit_unique (h : workplace.Course (Workplace.idle l) ms s)
    (hx : ActsUnder ms x endpoint user limit) (hx' : ActsUnder ms x endpoint user limit') :
    limit = limit' := by
  cases hx with
  | begins hcue hdrops hl =>
      cases hx' with
      | begins _ _ hl' => exact Option.some.inj (hl.symm.trans hl')
      | resumes hcue' _ => exact absurd hcue hcue'
  | resumes hcue hwaits =>
      cases hx' with
      | begins hcue' _ _ => exact absurd hcue' hcue
      | resumes _ hwaits' =>
          obtain ⟨y, hy, hyw⟩ := hwaits
          obtain ⟨z, hz, hzw⟩ := hwaits'
          exact HoldsOn.limit_unique h ⟨y, hy, hyw.holdsOn⟩ ⟨z, hz, hzw.holdsOn⟩

/-- Whoever waits on a bucket that is watched is kept. -/
theorem Side.kept_of_waitsFor {number : Nat} (h : Side N kept l ms s)
    (hn : N (bucketName endpoint user)) (hx : x ∈ ms)
    (hwaits : WaitsFor number endpoint user limit x) : kept x = true := by
  by_contra hk
  rcases h.leftOut x hx (Bool.eq_false_iff.mpr hk) with ⟨e, u, purpose, hwork, hasks⟩ | hnot
  · cases hwaits.work.symm.trans hwork
    cases hasks
  · have hbears := hnot _ hn
    rw [bears, hwaits.work] at hbears
    exact absurd rfl (of_decide_eq_false hbears)

/-- The limit that a caller holds on to is the one that its moments act under. -/
theorem Last.actsUnder {t : Scene Limiter Call Answer Empty} {purpose : Purpose}
    (h : Last N kept l ms x s m t) (hwork : x.work = .call (.on endpoint user purpose))
    (hr : x.result ≠ .paused .drops) (hheld : HeldTo m x.start endpoint limit) :
    ActsUnder ms x endpoint user limit := by
  cases hheld with
  | begins hcue hl => exact .begins hcue hr hl
  | resumes hcue hm =>
      cases h.told with
      | dropped hresult => exact absurd hresult hr
      | begins k hwork' hcue' hresult => exact absurd hcue' hcue
      | resumes e u limit' hwork' _ hwaits hresult =>
          cases hwork.symm.trans hwork'
          obtain ⟨z, hz, hzw⟩ := hwaits
          obtain rfl := HoldsOn.limit_unique h.side.course (h.remembered endpoint limit hm)
            ⟨z, hz, hzw.holdsOn⟩
          exact .resumes hcue ⟨z, hz, hzw⟩

/-- Who waits in the one course waits in the other, under the same limit. -/
theorem SetBeside.waitsFor {number : Nat} (h : SetBeside N kept kept' renumber l ms ms' s s')
    (hn : N (bucketName endpoint user))
    (hx : ∃ x ∈ ms, WaitsFor number endpoint user limit x) :
    ∃ y ∈ ms', WaitsFor (renumber number) endpoint user limit y := by
  obtain ⟨x, hx, hwaits⟩ := hx
  have hkept := List.mem_filter.mpr ⟨hx, h.side.kept_of_waitsFor hn hx hwaits⟩
  obtain ⟨y, hy, hagrees⟩ := exists_of_mem_forall₂ h.agree hkept
  exact ⟨y, (List.mem_filter.mp hy).1, hagrees.waitsFor hwaits⟩

/-! ## Who comes next -/

/-- A call that begins is told the same in both courses, if no look that was left out shows. -/
theorem SetBeside.begins (h : SetBeside N kept kept' renumber l ms ms' s s')
    (hn : N (bucketName endpoint user)) (purpose : Purpose)
    (hclear : ∀ limit, s.state.limit? endpoint = some limit →
      Clear kept ms (bucketName endpoint user) limit now ∧
        Clear kept' ms' (bucketName endpoint user) limit now) :
    (workplace.carryOut (.call (.on endpoint user purpose)) now s.state).result =
      (workplace.carryOut (.call (.on endpoint user purpose)) now s'.state).result := by
  have halike := h.alike _ hn
  refine begins_result ⟨halike.limits endpoint user rfl, fun limit hl => ?_⟩ purpose
  obtain ⟨hc, hc'⟩ := hclear limit hl
  exact halike.ready limit now hc hc'

/-- So is a caller that goes on. -/
theorem SetBeside.resumes (h : SetBeside N kept kept' renumber l ms ms' s s')
    (hn : N (bucketName endpoint user)) (hc : Clear kept ms (bucketName endpoint user) limit now)
    (hc' : Clear kept' ms' (bucketName endpoint user) limit now) :
    (asWork (takeAgain endpoint user limit) now s.state).result =
      (asWork (takeAgain endpoint user limit) now s'.state).result :=
  asWork_result (takeAgain_result ((h.alike _ hn).ready limit now hc hc'))

/-- So is a caller that waits in both courses. -/
theorem SetBeside.goesOn (h : SetBeside N kept kept' renumber l ms ms' s s')
    {f g : Flight Limiter Call Answer Empty} {y z : Waiting Limiter (Ending Answer Empty)}
    (hf : f ∈ s.flights) (hg : g ∈ s'.flights) (hy : f.waiting = some y) (hz : g.waiting = some z)
    (hnumber : g.number = renumber f.number) (hsame : g.work = f.work)
    (hwork : f.work = .call (.on endpoint user .acquire)) (hn : N (bucketName endpoint user))
    (hclear : ∀ limit, (∃ x ∈ ms, WaitsFor f.number endpoint user limit x) →
      Clear kept ms (bucketName endpoint user) limit now ∧
        Clear kept' ms' (bucketName endpoint user) limit now) (a : y.wait.Answer)
    (b : z.wait.Answer) :
    (y.resume a now s.state).result = (z.resume b now s'.state).result := by
  obtain ⟨e, u, limit, hwork₁, hwaits, htold⟩ := course_resumes h.side.course hf hy
  cases hwork.symm.trans hwork₁
  obtain ⟨e', u', limit', hwork₂, hwaits', htold'⟩ := course_resumes h.side'.course hg hz
  cases (hsame.trans hwork).symm.trans hwork₂
  have hwaits₁ := h.waitsFor hn hwaits
  rw [← hnumber] at hwaits₁
  obtain ⟨x, hx, hxw⟩ := hwaits₁
  obtain ⟨x', hx', hxw'⟩ := hwaits'
  obtain rfl := HoldsOn.limit_unique h.side'.course ⟨x, hx, hxw.holdsOn⟩ ⟨x', hx', hxw'.holdsOn⟩
  obtain ⟨hc, hc'⟩ := hclear limit hwaits
  rw [htold, htold']
  exact h.resumes hn hc hc'

/-! ## Moments that match -/

section Match

variable {t t' : Scene Limiter Call Answer Empty}
  (h : SetBeside N kept kept' renumber l ms ms' t t') (hmatch : x.Matches renumber y)
  (hx : Last N kept l ms x s m t) (hy : Last N kept' l ms' y s' m' t')

include h hx hy

theorem SetBeside.limit_eq (hn : N (bucketName endpoint user)) :
    x.start.state.limit? endpoint = y.start.state.limit? endpoint := by
  rw [hx.start, hy.start]
  exact (h.alike _ hn).limits endpoint user rfl

include hmatch

/-- Moments that match act under one limit. -/
theorem SetBeside.actsUnder (hn : N (bucketName endpoint user))
    (hunder : ActsUnder ms x endpoint user limit) : ActsUnder ms' y endpoint user limit := by
  cases hunder with
  | begins hcue hdrops hl =>
      refine .begins (hmatch.begins.mp hcue) (fun hr => hdrops (hmatch.drops.mpr hr)) ?_
      rw [← h.limit_eq hx hy hn]
      exact hl
  | resumes hcue hwaits =>
      refine .resumes (fun hr => hcue (hmatch.begins.mpr hr)) ?_
      rw [hmatch.number]
      exact h.waitsFor hn hwaits

variable (hwatched : ∀ endpoint user purpose, x.work = .call (.on endpoint user purpose) →
    N (bucketName endpoint user))
  (hclear : ∀ endpoint user purpose limit, x.work = .call (.on endpoint user purpose) →
    ActsUnder ms x endpoint user limit → Clear kept ms (bucketName endpoint user) limit x.start.now)
  (hclear' : ∀ endpoint user purpose limit, y.work = .call (.on endpoint user purpose) →
    ActsUnder ms' y endpoint user limit →
      Clear kept' ms' (bucketName endpoint user) limit y.start.now)

include hwatched hclear hclear'

/-- No look that was left out shows in what two moments do that match. -/
theorem SetBeside.clear_both {purpose : Purpose}
    (hwork : x.work = .call (.on endpoint user purpose))
    (hunder : ActsUnder ms x endpoint user limit) :
    Clear kept ms (bucketName endpoint user) limit x.start.now ∧
      Clear kept' ms' (bucketName endpoint user) limit x.start.now := by
  refine ⟨hclear _ _ _ _ hwork hunder, ?_⟩
  rw [← hmatch.now]
  exact hclear' _ _ _ _ (hmatch.work.trans hwork)
    (h.actsUnder hmatch hx hy (hwatched _ _ _ hwork) hunder)

/-- Moments that match are told the same. -/
theorem SetBeside.result_eq : x.result = y.result := by
  by_cases hr : x.result = .paused .drops
  · rw [hr, hmatch.drops.mp hr]
  have hr' : y.result ≠ .paused .drops := fun h => hr (hmatch.drops.mpr h)
  cases hx.told with
  | dropped hresult => exact absurd hresult hr
  | begins k hwork hcue hresult =>
      cases hy.told with
      | dropped hresult' => exact absurd hresult' hr'
      | resumes e u limit hwork' hcue' hwaits' hresult' =>
          exact absurd (hmatch.begins.mp hcue) hcue'
      | begins k' hwork' hcue' hresult' =>
          cases hwork'.symm.trans (hmatch.work.trans hwork)
          rw [hresult, hresult', hmatch.now, hx.start, hy.start]
          cases k with
          | on e u purpose =>
              refine h.begins (hwatched e u purpose hwork) purpose fun limit hl => ?_
              exact h.clear_both hmatch hx hy hwatched hclear hclear' hwork
                (.begins hcue hr (hx.start ▸ hl))
          | configure e limit => rfl
          | reset e u => rfl
          | resetAll => rfl
  | resumes e u limit hwork hcue hwaits hresult =>
      cases hy.told with
      | dropped hresult' => exact absurd hresult' hr'
      | begins k' hwork' hcue' hresult' => exact absurd (hmatch.begins.mpr hcue') hcue
      | resumes e' u' limit' hwork' hcue' hwaits' hresult' =>
          cases hwork'.symm.trans (hmatch.work.trans hwork)
          have hn := hwatched e u _ hwork
          have hunder : ActsUnder ms x e u limit := .resumes hcue hwaits
          obtain rfl := (h.actsUnder hmatch hx hy hn hunder).limit_unique hy.side.course
            (.resumes hcue' hwaits')
          obtain ⟨hc, hc'⟩ := h.clear_both hmatch hx hy hwatched hclear hclear' hwork hunder
          rw [hresult, hresult', hmatch.now, hx.start, hy.start]
          exact h.resumes hn hc hc'

/-- Moments that match leave the buckets alike. -/
theorem SetBeside.alike_both (hn : N n) :
    Alike n kept kept' (ms ++ [x]) (ms' ++ [y]) x.left y.left := by
  have halike := h.alike n hn
  rw [← hx.start, ← hy.start] at halike
  cases hb : bears n x with
  | false =>
      have hb' : bears n y = false := by rw [← hb, bears, bears, hmatch.work]
      exact ((halike.elsewhere hx.effect hb).symm.elsewhere hy.effect hb').symm
  | true =>
      refine halike.both hx.effect hy.effect hx.drops hy.drops hmatch hb ?_
      intro e u purpose limit limit' hwork hr hheld hheld'
      have hunder := hx.actsUnder hwork hr hheld
      have hunder' := hy.actsUnder (hmatch.work.trans hwork)
        (fun h => hr (hmatch.drops.mpr h)) hheld'
      have hsame := h.actsUnder hmatch hx hy (hwatched e u purpose hwork) hunder
      exact ⟨hunder'.limit_unique hy.side.course hsame,
        h.clear_both hmatch hx hy hwatched hclear hclear' hwork hunder⟩

end Match

/-- A moment that is left out leaves the buckets alike that are watched. -/
theorem Last.alike_left {t : Scene Limiter Call Answer Empty} {l' : Limiter}
    (hx : Last N kept l ms x s m t) (hk : kept x = false)
    (hout : Looks x ∨ ∀ n, N n → bears n x = false) (hn : N n)
    (h : Alike n kept kept' ms ms' t.state l') :
    Alike n kept kept' (ms ++ [x]) ms' s.state l' := by
  rw [hx.left]
  rw [← hx.start] at h
  cases hb : bears n x with
  | false => exact h.elsewhere hx.effect hb
  | true =>
      rcases hout with hlooks | hnot
      · exact h.look hx.effect hk hlooks hb
      · rw [hnot n hn] at hb
        cases hb

/-- Two courses agree in what is kept of them. -/
theorem sides_agree
    (hmatch : List.Forall₂ (Moment.Matches renumber) (ms.filter kept) (ms'.filter kept'))
    (h : Side N kept l ms s) (h' : Side N kept' l ms' s') :
    SetBeside N kept kept' renumber l ms ms' s s' := by
  revert s s'
  refine forall₂_filter_induction (C := fun ms ms' => ∀ {s s'}, Side N kept l ms s →
    Side N kept' l ms' s' → SetBeside N kept kept' renumber l ms ms' s s') ?_ ?_ ?_ ?_ ms ms' hmatch
  · intro s s' h h'
    refine ⟨h, h', fun n hn => .of_eq (fun e u _ => ?_) ?_, .nil⟩
    · rw [h.course.eq_of_nil, h'.course.eq_of_nil]
    · rw [h.course.eq_of_nil, h'.course.eq_of_nil]
  · intro ms x ms' hk ih s s' h h'
    obtain ⟨m, t, hx⟩ := h.last
    have hbeside := ih hx.side h'
    refine ⟨h, h', fun n hn => ?_, ?_⟩
    · exact hx.alike_left hk (h.leftOut x (by simp) hk) hn (hbeside.alike n hn)
    · rw [filter_concat_of_neg ms hk]
      exact hbeside.agree
  · intro ms ms' y hk ih s s' h h'
    obtain ⟨m, t, hy⟩ := h'.last
    have hbeside := ih h hy.side
    refine ⟨h, h', fun n hn => ?_, ?_⟩
    · exact (hy.alike_left hk (h'.leftOut y (by simp) hk) hn (hbeside.alike n hn).symm).symm
    · rw [filter_concat_of_neg ms' hk]
      exact hbeside.agree
  · intro ms x ms' y hk hk' hmatch ih s s' h h'
    obtain ⟨m, t, hx⟩ := h.last
    obtain ⟨m', t', hy⟩ := h'.last
    have hbeside := ih hx.side hy.side
    have hwatched := h.watched x (by simp) hk
    have hclear := h.clear ms x [] rfl hk
    have hclear' := h'.clear ms' y [] rfl hk'
    refine ⟨h, h', fun n hn => ?_, ?_⟩
    · rw [hx.left, hy.left]
      exact hbeside.alike_both hmatch hx hy hwatched hclear hclear' hn
    · have hresult := hbeside.result_eq hmatch hx hy hwatched hclear hclear'
      have hagrees : AgreesWith renumber x y := ⟨hmatch, hresult, fun e u purpose hwork =>
        hbeside.limit_eq hx hy (hwatched e u purpose hwork)⟩
      rw [filter_concat_of_pos ms hk, filter_concat_of_pos ms' hk']
      exact List.rel_append hbeside.agree (.cons hagrees .nil)

end Limiter

end ClientSession
