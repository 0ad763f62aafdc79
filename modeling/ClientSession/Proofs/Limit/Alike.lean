import ClientSession.Proofs.Limit.Reconfiguration
import ClientSession.Proofs.Limit.Told
import Mathlib.Data.List.Forall2

/-!
# Courses side by side

Two courses of callers of a limiter are set side by side. Some moments of both match: they ask for
the same at the same reading. The others are left out: they look at a bucket, or have nothing to do
with it. What matches is told the same as long as the bucket is alike, that is, as long as a use
would find it the same in both courses. A look that is left out keeps the bucket alike until the
next use of it, if it acts under the limit of that use and either finds the bucket there or comes a
whole number of intervals before.

- `Limiter.Alike.elsewhere`, `Limiter.Alike.look`, `Limiter.Alike.both`: what a moment of one
  course, or of both, does to a bucket that is alike.
- `Limiter.sides_agree`: what matches in two courses is told the same.
- `Limiter.sides_goOn`: so is whoever comes next.
-/

namespace ClientSession

/-- The last entries of two lists that match do, and so do the lists without them. -/
theorem forall₂_concat {α β : Type} {R : α → β → Prop} {xs : List α} {x : α} {ys : List β} {y : β}
    (h : List.Forall₂ R (xs ++ [x]) (ys ++ [y])) : R x y ∧ List.Forall₂ R xs ys := by
  have hreverse := List.forall₂_reverse_iff.mpr h
  rw [List.reverse_append, List.reverse_append] at hreverse
  obtain ⟨hlast, hinit⟩ := List.forall₂_cons.mp hreverse
  exact ⟨hlast, List.forall₂_reverse_iff.mp hinit⟩

theorem filter_concat_of_pos {α : Type} {p : α → Bool} {x : α} (xs : List α) (h : p x = true) :
    (xs ++ [x]).filter p = xs.filter p ++ [x] := by
  rw [List.filter_append, List.filter_cons_of_pos h, List.filter_nil]

theorem filter_concat_of_neg {α : Type} {p : α → Bool} {x : α} (xs : List α) (h : p x = false) :
    (xs ++ [x]).filter p = xs.filter p := by
  rw [List.filter_append, List.filter_cons_of_neg (by simp [h]), List.filter_nil, List.append_nil]

/-- What holds of two empty lists, and goes on when an entry of either is left out and when two
entries match, holds of two lists that match but for what is left out. -/
theorem forall₂_filter_induction {α β : Type} {R : α → β → Prop} {p : α → Bool} {q : β → Bool}
    {C : List α → List β → Prop} (nil : C [] [])
    (left : ∀ xs x ys, p x = false → C xs ys → C (xs ++ [x]) ys)
    (right : ∀ xs ys y, q y = false → C xs ys → C xs (ys ++ [y]))
    (both : ∀ xs x ys y, p x = true → q y = true → R x y → C xs ys → C (xs ++ [x]) (ys ++ [y])) :
    ∀ xs ys, List.Forall₂ R (xs.filter p) (ys.filter q) → C xs ys := by
  intro xs
  induction xs using List.reverseRecOn with
  | nil =>
      intro ys h
      induction ys using List.reverseRecOn with
      | nil => exact nil
      | append_singleton ys y ih =>
          cases hy : q y with
          | false => exact right _ _ _ hy (ih (filter_concat_of_neg ys hy ▸ h))
          | true =>
              rw [filter_concat_of_pos ys hy, List.filter_nil, List.forall₂_nil_left_iff] at h
              simp at h
  | append_singleton xs x ihx =>
      intro ys h
      cases hx : p x with
      | false => exact left _ _ _ hx (ihx ys (filter_concat_of_neg xs hx ▸ h))
      | true =>
          -- The last entry of the first list matches the last one that is kept of the second.
          induction ys using List.reverseRecOn with
          | nil =>
              rw [filter_concat_of_pos xs hx, List.filter_nil, List.forall₂_nil_right_iff] at h
              simp at h
          | append_singleton ys y ihy =>
              cases hy : q y with
              | false => exact right _ _ _ hy (ihy (filter_concat_of_neg ys hy ▸ h))
              | true =>
                  rw [filter_concat_of_pos xs hx, filter_concat_of_pos ys hy] at h
                  obtain ⟨hlast, hinit⟩ := forall₂_concat h
                  exact both _ _ _ _ hx hy hlast (ihx ys hinit)

/-- Two moments in which the same is asked for at the same reading, by callers whose numbers
correspond. -/
structure Moment.Matches {σ κ ρ ι : Type} (renumber : Nat → Nat) (x y : Moment σ κ ρ ι) :
    Prop where
  number : y.number = renumber x.number
  work : y.work = x.work
  now : y.start.now = x.start.now
  begins : x.start.cue = none ↔ y.start.cue = none
  drops : x.result = .paused .drops ↔ y.result = .paused .drops

namespace Limiter

variable {l l' : Limiter} {endpoint : String} {user : Option String} {limit : EndpointLimit}
  {now : Instant} {n : String} {ms ms' before : List (Moment Limiter Call Answer Empty)}
  {s s' : Scene Limiter Call Answer Empty} {x y : Moment Limiter Call Answer Empty} {m m' : Memo}
  {kept kept' : Moment Limiter Call Answer Empty → Bool}

/-! ## What is left out -/

/-- The call is one on the bucket of this name, or may drop it. -/
def Call.bears (n : String) : Call → Bool
  | .on e u _ => decide (bucketName e u = n)
  | .configure e _ => belongsTo n e
  | .reset e u => decide (bucketName e u = n)
  | .resetAll => true

def bears (n : String) (x : Moment Limiter Call Answer Empty) : Bool :=
  match x.work with
  | .call k => k.bears n
  | .job j => nomatch j

/-- A moment of a call that takes no token. -/
def Looks (x : Moment Limiter Call Answer Empty) : Prop :=
  ∃ endpoint user purpose, x.work = .call (.on endpoint user purpose) ∧ purpose.asks = false

/-- The moment uses the bucket under a limit, or drops it. -/
def settles (n : String) (x : Moment Limiter Call Answer Empty) : Bool :=
  bears n x && !dropped x &&
    match x.work with
    | .call (.on e _ _) => x.start.cue.isSome || (x.start.state.limit? e).isSome
    | _ => true

/-- What has been left out on a bucket since a moment that is kept settled it. -/
def pending (kept : Moment Limiter Call Answer Empty → Bool) (n : String)
    (ms : List (Moment Limiter Call Answer Empty)) : List (Moment Limiter Call Answer Empty) :=
  ms.foldl (fun out x =>
    if kept x then if settles n x then [] else out
    else if bears n x then out ++ [x] else out) []

/-- A look does not show in a use of the bucket under a limit at a reading: it acted under that
limit and not later, and it found the bucket or came a whole number of intervals before. -/
def Unnoticed (n : String) (limit : EndpointLimit) (now : Instant)
    (x : Moment Limiter Call Answer Empty) : Prop :=
  match x.work with
  | .call (.on endpoint _ _) => ∀ limit' ∈ x.start.state.limit? endpoint,
    limit' = limit ∧ x.start.now ≤ now ∧
      (x.start.state.buckets.find? n ≠ none ∨ limit.interval.nanos = 0 ∨
        limit.interval.nanos ∣ now.nanos - x.start.now.nanos)
  | _ => True

instance (n : String) (limit : EndpointLimit) (now : Instant)
    (x : Moment Limiter Call Answer Empty) : Decidable (Unnoticed n limit now x) :=
  match h : x.work with
  | .call (.on endpoint _ _) => decidable_of_iff (∀ limit' ∈ x.start.state.limit? endpoint,
      limit' = limit ∧ x.start.now ≤ now ∧
        (x.start.state.buckets.find? n ≠ none ∨ limit.interval.nanos = 0 ∨
          limit.interval.nanos ∣ now.nanos - x.start.now.nanos)) (by rw [Unnoticed, h])
  | .call (.configure _ _) => isTrue (by rw [Unnoticed, h]; trivial)
  | .call (.reset _ _) => isTrue (by rw [Unnoticed, h]; trivial)
  | .call .resetAll => isTrue (by rw [Unnoticed, h]; trivial)
  | .job j => nomatch j

/-- No look that was left out shows in a use of the bucket. -/
def Clear (kept : Moment Limiter Call Answer Empty → Bool)
    (ms : List (Moment Limiter Call Answer Empty)) (n : String) (limit : EndpointLimit)
    (now : Instant) : Prop :=
  ∀ x ∈ pending kept n ms, Unnoticed n limit now x

instance (ms : List (Moment Limiter Call Answer Empty)) (n : String) (limit : EndpointLimit)
    (now : Instant) : Decidable (Clear kept ms n limit now) :=
  inferInstanceAs (Decidable (∀ _ ∈ _, _))

theorem pending_snoc : pending kept n (ms ++ [x]) =
    if kept x then if settles n x then [] else pending kept n ms
    else if bears n x then pending kept n ms ++ [x] else pending kept n ms := by
  rw [pending, List.foldl_append]
  rfl

theorem settles_of_not_bears (h : bears n x = false) : settles n x = false := by
  rw [settles, h]
  rfl

/-- What is pending stays so unless a moment that is kept settles it. -/
theorem Clear.init (h : Clear kept (ms ++ [x]) n limit now)
    (hx : kept x = true → settles n x = false) : Clear kept ms n limit now := by
  intro y hy
  refine h y ?_
  rw [pending_snoc]
  by_cases hk : kept x = true
  · rw [if_pos hk, hx hk]
    exact hy
  · rw [if_neg hk]
    split
    · exact List.mem_append_left _ hy
    · exact hy

theorem Clear.last (h : Clear kept (ms ++ [x]) n limit now) (hk : kept x = false)
    (hb : bears n x = true) : Unnoticed n limit now x := by
  refine h x ?_
  rw [pending_snoc, hk, hb]
  simp

/-! ## A bucket that is alike -/

/-- After the moments of two courses a bucket is alike: its endpoints have the same limits, and a use
in which no look shows that was left out finds it the same. -/
structure Alike (n : String) (kept kept' : Moment Limiter Call Answer Empty → Bool)
    (ms ms' : List (Moment Limiter Call Answer Empty)) (l l' : Limiter) : Prop where
  limits : ∀ endpoint user, bucketName endpoint user = n → l.limit? endpoint = l'.limit? endpoint
  ready : ∀ limit now, Clear kept ms n limit now → Clear kept' ms' n limit now →
    Bucket.ready (l.buckets.find? n) limit now = Bucket.ready (l'.buckets.find? n) limit now

theorem Alike.symm (h : Alike n kept kept' ms ms' l l') : Alike n kept' kept ms' ms l' l where
  limits e u hn := (h.limits e u hn).symm
  ready limit now hc hc' := (h.ready limit now hc' hc).symm

/-- A moment that leaves the bucket and the limits of its endpoints alone. -/
theorem Alike.of_same {l₁ : Limiter} (h : Alike n kept kept' ms ms' x.start.state l')
    (hx : kept x = true → settles n x = false)
    (hlimits : ∀ e u, bucketName e u = n → l₁.limit? e = x.start.state.limit? e)
    (hbucket : l₁.buckets.find? n = x.start.state.buckets.find? n) :
    Alike n kept kept' (ms ++ [x]) ms' l₁ l' where
  limits e u hn := (hlimits e u hn).trans (h.limits e u hn)
  ready limit now hc hc' := by
    rw [hbucket]
    exact h.ready limit now (hc.init hx) hc'

/-- A moment that has nothing to do with the bucket leaves it alike. -/
theorem Alike.elsewhere (h : Alike n kept kept' ms ms' x.start.state l') (hx : Effect m x)
    (hb : bears n x = false) : Alike n kept kept' (ms ++ [x]) ms' x.left l' := by
  have hsettles : kept x = true → settles n x = false := fun _ => settles_of_not_bears hb
  cases hx with
  | dropped hd hcue hleft =>
      exact h.of_same hsettles (fun _ _ _ => by rw [hleft]) (by rw [hleft])
  | on e u purpose hwork hd hacts =>
      rw [bears, hwork] at hb
      have hname : bucketName e u ≠ n := of_decide_eq_false hb
      cases hacts with
      | free hcue hl hleft hgranted =>
          exact h.of_same hsettles (fun _ _ _ => by rw [hleft]) (by rw [hleft])
      | held limit hlimit hpurpose huses =>
          exact h.of_same hsettles (fun e' _ _ => huses.limit?_eq e') (huses.other n hname.symm)
  | configure e limit hwork hleft =>
      rw [bears, hwork] at hb
      have hother : belongsTo n e = false := hb
      refine h.of_same hsettles (fun e' u hn => ?_) ?_
      · have hne : e ≠ e' := by
          rintro rfl
          rw [← hn, belongsTo_bucketName] at hother
          cases hother
        rw [hleft, limit?_configure, if_neg hne]
      · rw [hleft, find?_configure, if_neg (Bool.eq_false_iff.mp hother)]
  | reset e u hwork hleft =>
      rw [bears, hwork] at hb
      have hname : bucketName e u ≠ n := of_decide_eq_false hb
      refine h.of_same hsettles (fun _ _ _ => by rw [hleft]; rfl) ?_
      rw [hleft, reset, Table.find?_erase, if_neg hname]
  | resetAll hwork hleft =>
      rw [bears, hwork] at hb
      cases hb

/-- A bucket that a look has left is found by a use in which the look does not show as if the look
had not been. -/
theorem ready_of_look {b : Option Bucket} {t : Instant} (ht : t ≤ now)
    (hb : b ≠ none ∨ limit.interval.nanos = 0 ∨
      limit.interval.nanos ∣ now.nanos - t.nanos) :
    Bucket.ready (some (Bucket.ready b limit t)) limit now = Bucket.ready b limit now := by
  cases b with
  | none =>
      have hwhole := hb.resolve_left fun h => h rfl
      show ((Bucket.full limit t).refill limit t).refill limit now =
        (Bucket.full limit now).refill limit now
      rw [Bucket.refill_full, Bucket.refill_full, Bucket.refill_full_of_dvd ht hwhole]
  | some b => exact Bucket.refill_refill_of_le b limit ht

/-- A look that is left out leaves the bucket alike. -/
theorem Alike.look (h : Alike n kept kept' ms ms' x.start.state l') (hx : Effect m x)
    (hk : kept x = false) (hlooks : Looks x) (hb : bears n x = true) :
    Alike n kept kept' (ms ++ [x]) ms' x.left l' := by
  have hsettles : kept x = true → settles n x = false := fun h => by rw [hk] at h; cases h
  obtain ⟨e, u, purpose, hwork, hasks⟩ := hlooks
  have hname : bucketName e u = n := by
    rw [bears, hwork] at hb
    exact of_decide_eq_true hb
  cases hx with
  | dropped hd hcue hleft =>
      exact h.of_same hsettles (fun _ _ _ => by rw [hleft]) (by rw [hleft])
  | on e' u' purpose' hwork' hd hacts =>
      cases hwork.symm.trans hwork'
      cases hacts with
      | free hcue hl hleft hgranted =>
          exact h.of_same hsettles (fun _ _ _ => by rw [hleft]) (by rw [hleft])
      | held limit hlimit hpurpose huses =>
          have hl : x.start.state.limit? e = some limit := by
            cases hlimit with
            | begins hcue hl => exact hl
            | resumes hcue hm =>
                rw [hpurpose hcue] at hasks
                cases hasks
          rw [hasks, hname] at huses
          refine ⟨fun e' u' hn => ?_, fun limit' now hc hc' => ?_⟩
          · rw [huses.limit?_eq]
            exact h.limits e' u' hn
          · have hlast := hc.last hk hb
            rw [Unnoticed, hwork] at hlast
            obtain ⟨rfl, ht, hfound⟩ := hlast limit hl
            rw [huses.own, ← h.ready limit now (hc.init hsettles) hc']
            exact ready_of_look ht hfound
  | configure e' limit hwork' hleft => cases hwork.symm.trans hwork'
  | reset e' u' hwork' hleft => cases hwork.symm.trans hwork'
  | resetAll hwork' hleft => cases hwork.symm.trans hwork'

/-- A bucket that is the same in both courses is alike. -/
theorem Alike.of_eq
    (hlimits : ∀ e u, bucketName e u = n → l.limit? e = l'.limit? e)
    (hbucket : l.buckets.find? n = l'.buckets.find? n) : Alike n kept kept' ms ms' l l' :=
  ⟨hlimits, fun _ _ _ _ => by rw [hbucket]⟩

theorem dropped_iff : dropped x = true ↔ x.result = .paused .drops := by
  unfold dropped
  split
  · rename_i hresult
    exact iff_of_true rfl hresult
  · rename_i hresult
    exact iff_of_false Bool.false_ne_true hresult

/-- A call that is dropped leaves the limiter as it was. -/
theorem left_of_drops (hk : rules.Keeps m m' x) (hr : x.result = .paused .drops) :
    x.left = x.start.state := by
  rw [Rules.Keeps, hr] at hk
  cases hwork : x.work with
  | job j => cases j
  | call k =>
      rw [hwork] at hk
      cases k <;> exact hk.1

theorem Effect.acts (h : Effect m x) {purpose : Purpose}
    (hwork : x.work = .call (.on endpoint user purpose)) (hd : Limiter.dropped x = false) :
    Acts endpoint user purpose m x.start (granted x) x.left := by
  cases h with
  | dropped hd' hcue hleft =>
      rw [hd] at hd'
      cases hd'
  | on e u purpose' hwork' hd' hacts =>
      cases hwork.symm.trans hwork'
      exact hacts
  | configure e limit hwork' hleft => cases hwork.symm.trans hwork'
  | reset e u hwork' hleft => cases hwork.symm.trans hwork'
  | resetAll hwork' hleft => cases hwork.symm.trans hwork'

/-- What a call on no pair leaves. -/
def Call.leaves : Call → Limiter → Limiter
  | .on _ _ _, l => l
  | .configure endpoint limit, l => l.configure endpoint limit
  | .reset endpoint user, l => l.reset endpoint user
  | .resetAll, l => l.resetAll

theorem Effect.leaves (h : Effect m x) {k : Call} (hwork : x.work = .call k)
    (hk : ∀ e u purpose, k ≠ .on e u purpose) (hd : Limiter.dropped x = false) :
    x.left = k.leaves x.start.state := by
  cases h with
  | dropped hd' hcue hleft =>
      rw [hd] at hd'
      cases hd'
  | on e u purpose hwork' hd' hacts =>
      cases hwork.symm.trans hwork'
      exact absurd rfl (hk e u purpose)
  | configure e limit hwork' hleft =>
      cases hwork.symm.trans hwork'
      exact hleft
  | reset e u hwork' hleft =>
      cases hwork.symm.trans hwork'
      exact hleft
  | resetAll hwork' hleft =>
      cases hwork.symm.trans hwork'
      exact hleft

/-- A call that may drop the bucket leaves none, and the limits of its endpoints alike. -/
theorem Alike.leaves (h : Alike n kept kept' ms ms' l l') {k : Call} (hb : k.bears n = true)
    (hk : ∀ e u purpose, k ≠ .on e u purpose) {ms₁ ms₁' : List (Moment Limiter Call Answer Empty)} :
    Alike n kept kept' ms₁ ms₁' (k.leaves l) (k.leaves l') := by
  cases k with
  | on e u purpose => exact absurd rfl (hk e u purpose)
  | configure e limit =>
      refine .of_eq (fun e' u hn => ?_) ?_
      · simp only [Call.leaves, limit?_configure]
        split
        · rfl
        · exact h.limits e' u hn
      · have hdropped : belongsTo n e = true := hb
        simp only [Call.leaves, find?_configure, if_pos hdropped]
  | reset e u =>
      have hname : bucketName e u = n := of_decide_eq_true hb
      refine .of_eq h.limits ?_
      simp only [Call.leaves, reset, Table.find?_erase, if_pos hname]
  | resetAll => exact .of_eq h.limits rfl

/-- Two uses of the bucket under one limit, in which no look shows, leave it alike. -/
theorem Alike.uses (h : Alike n kept kept' ms ms' l l') {l₁ l₁' : Limiter}
    {asks given given' : Bool}
    (hc : Clear kept ms n limit now) (hc' : Clear kept' ms' n limit now)
    (huses : l.Uses n limit now asks given l₁) (huses' : l'.Uses n limit now asks given' l₁')
    {ms₁ ms₁' : List (Moment Limiter Call Answer Empty)} :
    Alike n kept kept' ms₁ ms₁' l₁ l₁' := by
  refine .of_eq (fun e u hn => ?_) ?_
  · rw [huses.limit?_eq, huses'.limit?_eq]
    exact h.limits e u hn
  · rw [huses.own, huses'.own, h.ready limit now hc hc']

/-- Two moments that leave both buckets as they are. -/
theorem Alike.untouched (h : Alike n kept kept' ms ms' x.start.state y.start.state)
    (hx : settles n x = false) (hy : settles n y = false) (hleft : x.left = x.start.state)
    (hleft' : y.left = y.start.state) :
    Alike n kept kept' (ms ++ [x]) (ms' ++ [y]) x.left y.left := by
  have hfirst : Alike n kept kept' (ms ++ [x]) ms' x.left y.start.state :=
    h.of_same (fun _ => hx) (fun _ _ _ => by rw [hleft]) (by rw [hleft])
  have hsecond : Alike n kept' kept (ms' ++ [y]) (ms ++ [x]) y.left x.left :=
    hfirst.symm.of_same (fun _ => hy) (fun _ _ _ => by rw [hleft']) (by rw [hleft'])
  exact hsecond.symm

theorem settles_of_drops (h : x.result = .paused .drops) : settles n x = false := by
  rw [settles, dropped_iff.mpr h, Bool.not_true, Bool.and_false, Bool.false_and]

theorem settles_of_free {purpose : Purpose} (hwork : x.work = .call (.on endpoint user purpose))
    (hcue : x.start.cue = none) (hl : x.start.state.limit? endpoint = none) :
    settles n x = false := by
  simp only [settles, hwork, hcue, hl, Option.isSome_none, Bool.or_self, Bool.and_false]

/-- Two moments on one pair leave its bucket alike, if they act under one limit and no look shows in
what they do. -/
theorem Alike.acts {renumber : Nat → Nat} {purpose : Purpose}
    (h : Alike (bucketName endpoint user) kept kept' ms ms' x.start.state y.start.state)
    (hwork : x.work = .call (.on endpoint user purpose)) (hmatch : x.Matches renumber y)
    (hacts : Acts endpoint user purpose m x.start (granted x) x.left)
    (hacts' : Acts endpoint user purpose m' y.start (granted y) y.left)
    (hlimit : ∀ limit limit', HeldTo m x.start endpoint limit → HeldTo m' y.start endpoint limit' →
      limit' = limit ∧ Clear kept ms (bucketName endpoint user) limit x.start.now ∧
        Clear kept' ms' (bucketName endpoint user) limit x.start.now) :
    Alike (bucketName endpoint user) kept kept' (ms ++ [x]) (ms' ++ [y]) x.left y.left := by
  have hwork' := hmatch.work.trans hwork
  have hlimits := h.limits endpoint user rfl
  cases hacts with
  | free hcue hl hleft hgranted =>
      have hcue' := hmatch.begins.mp hcue
      have hl' := hlimits.symm.trans hl
      cases hacts' with
      | free _ _ hleft' hgranted' =>
          exact h.untouched (settles_of_free hwork hcue hl) (settles_of_free hwork' hcue' hl') hleft
            hleft'
      | held limit' hheld' hpurpose' huses' =>
          cases hheld' with
          | begins _ hl₁ =>
              rw [hl'] at hl₁
              cases hl₁
          | resumes hcue₁ hm => exact absurd hcue' hcue₁
  | held limit hheld hpurpose huses =>
      cases hacts' with
      | free hcue' hl' hleft' hgranted' =>
          cases hheld with
          | begins _ hl =>
              rw [hlimits, hl'] at hl
              cases hl
          | resumes hcue₁ hm => exact absurd (hmatch.begins.mpr hcue') hcue₁
      | held limit' hheld' hpurpose' huses' =>
          obtain ⟨rfl, hc, hc'⟩ := hlimit limit limit' hheld hheld'
          rw [hmatch.now] at huses'
          exact h.uses hc hc' huses huses'

/-- Two moments that match leave the bucket alike, if they act under one limit and no look shows in
what they do. -/
theorem Alike.both {renumber : Nat → Nat}
    (h : Alike n kept kept' ms ms' x.start.state y.start.state) (hx : Effect m x)
    (hy : Effect m' y) (hdx : x.result = .paused .drops → x.left = x.start.state)
    (hdy : y.result = .paused .drops → y.left = y.start.state)
    (hmatch : x.Matches renumber y) (hb : bears n x = true)
    (hlimit : ∀ e u purpose limit limit', x.work = .call (.on e u purpose) →
      x.result ≠ .paused .drops → HeldTo m x.start e limit → HeldTo m' y.start e limit' →
        limit' = limit ∧ Clear kept ms (bucketName e u) limit x.start.now ∧
          Clear kept' ms' (bucketName e u) limit x.start.now) :
    Alike n kept kept' (ms ++ [x]) (ms' ++ [y]) x.left y.left := by
  by_cases hr : x.result = .paused .drops
  · have hr' := hmatch.drops.mp hr
    exact h.untouched (settles_of_drops hr) (settles_of_drops hr') (hdx hr) (hdy hr')
  have hd : dropped x = false := Bool.eq_false_iff.mpr fun h => hr (dropped_iff.mp h)
  have hd' : dropped y = false :=
    Bool.eq_false_iff.mpr fun h => hr (hmatch.drops.mpr (dropped_iff.mp h))
  cases hwork : x.work with
  | job j => exact nomatch j
  | call k =>
      have hwork' : y.work = .call k := hmatch.work.trans hwork
      have hbears : k.bears n = true := by rw [← hb, bears, hwork]
      by_cases hon : ∃ e u purpose, k = .on e u purpose
      · obtain ⟨e, u, purpose, rfl⟩ := hon
        obtain rfl : bucketName e u = n := of_decide_eq_true hbears
        exact h.acts hwork hmatch (hx.acts hwork hd) (hy.acts hwork' hd')
          fun limit limit' => hlimit e u purpose limit limit' hwork hr
      · have hk : ∀ e u purpose, k ≠ .on e u purpose := fun e u purpose heq =>
          hon ⟨e, u, purpose, heq⟩
        rw [hx.leaves hwork hk hd, hy.leaves hwork' hk hd']
        exact h.leaves hbears hk

end Limiter

end ClientSession
