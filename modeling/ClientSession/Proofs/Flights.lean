import ClientSession.Proofs.Course

/-!
# What is in flight

The number of a flight was given when its work was asked for, and is not given again. A call that
is in flight waits and is not stopped, as long as no stretch was resumed too early.

- `Step.each`, `Course.each`: what all flights have, by what each moment leaves of its own.
- `Course.sound`: so it is in every scene of a course.
- `Course.number_lt`: a call that begins has a number above all before it.
- `Course.lasts`: the last wait of a call has not ended while the call is in flight.
- `Course.unanswered`, `Course.before_call`: a call that is in flight has not been answered, and its
  number has been no other's.
- `Course.numbered`: no two flights have a number in common.
-/

namespace ClientSession

variable {σ κ ρ ι ν : Type}

/-- The number of the flight has been given, and a call has begun and is not stopped. -/
structure Flight.Sound (f : Flight σ κ ρ ι) (next : Nat) : Prop where
  numbered : f.number < next
  underway : f.work.isCall = true → f.stopped = false ∧ f.waiting.isSome = true

/-- The stretch ended in a wait of a kind. -/
def Moment.waitsFor (φ : Wait → Bool) (x : Moment σ κ ρ ι) : Bool :=
  match x.result with
  | .paused (.waits w) => φ w
  | _ => false

theorem Moment.waitsFor_iff {φ : Wait → Bool} {x : Moment σ κ ρ ι} :
    x.waitsFor φ = true ↔ ∃ w, x.result = .paused (.waits w) ∧ φ w = true := by
  unfold Moment.waitsFor
  split
  · rename_i w hw
    refine ⟨fun h => ⟨w, hw, h⟩, fun ⟨w', hw', h⟩ => ?_⟩
    cases hw.symm.trans hw'
    exact h
  · rename_i hnone
    exact ⟨nofun, fun ⟨w, hw, _⟩ => absurd hw (hnone w)⟩

/-- The first stretch of a call. -/
def Moment.Opens (x : Moment σ κ ρ ι) : Prop :=
  x.work.isCall = true ∧ x.start.cue = none ∧ x.result ≠ .paused .drops

namespace Workplace

variable {W : Workplace σ κ ρ ι ν} {s s' : Scene σ κ ρ ι}

/-! ## What a moment leaves in flight -/

section Moments

variable {ms : List (Moment σ κ ρ ι)} {x : Moment σ κ ρ ι}

/-- What a moment is a stretch of, as it was before, and the number that came next then: a call that
begins, or a flight that is not stopped and has not waited or does so no longer. -/
inductive Took (s : Scene σ κ ρ ι) (x : Moment σ κ ρ ι) : Flight σ κ ρ ι → Nat → Prop where
  | call (k : κ) : Took s x ⟨s.next, .call k, false, none⟩ (s.next + 1)
  | flight (f : Flight σ κ ρ ι) (hf : f ∈ s.flights) (hstop : f.stopped = false)
      (hcue : ∀ y, f.waiting = some y → ∃ a, x.start.cue = some ⟨y.wait, a⟩) : Took s x f s.next

/-- What all flights have after a moment, by what the others had and what it leaves of its own. -/
theorem Step.each {A : Flight σ κ ρ ι → Nat → Prop} (hA : W.Standing A) (hx : W.Step s x)
    (hothers : ∀ g ∈ s.flights, g.number ≠ x.number → A g s.next)
    (hown : ∀ f n r g, Took s x f n → x.number = f.number → x.work = f.work →
      x.result = r.result → f.left? r = some g → A g n) :
    Each A x.after ∧ s.next ≤ x.after.next ∧
      ((∀ f ∈ s.flights, f.number < s.next) → x.number < x.after.next) := by
  cases hx with
  | call k now s' hs =>
      obtain ⟨heach, hnext⟩ := Each.settle (s := { s with next := s.next + 1 }) hA
        (fun g hg hne => hA.later g s.next (hothers g hg hne))
        (fun g => hown _ _ _ g (.call k) rfl rfl rfl) hs
      exact ⟨heach, Nat.le_of_succ_le hnext, fun _ => hnext⟩
  | begin f now s' hf hstop hw hs =>
      have hcue : ∀ y, f.waiting = some y → ∃ a, none = some (⟨y.wait, a⟩ : Cue) :=
        fun y hy => absurd (hw.symm.trans hy) (Option.some_ne_none y).symm
      obtain ⟨heach, hnext⟩ := Each.settle hA hothers
        (fun g => hown f _ _ g (.flight f hf hstop hcue) rfl rfl rfl) hs
      exact ⟨heach, hnext, fun hbelow => Nat.lt_of_lt_of_le (hbelow f hf) hnext⟩
  | reply f y a now s' hf hstop hw hs =>
      have hcue : ∀ z, f.waiting = some z → ∃ b, some (⟨y.wait, a⟩ : Cue) = some ⟨z.wait, b⟩ := by
        intro z hz
        obtain rfl := Option.some.inj (hw.symm.trans hz)
        exact ⟨a, rfl⟩
      obtain ⟨heach, hnext⟩ := Each.settle hA hothers
        (fun g => hown f _ _ g (.flight f hf hstop hcue) rfl rfl rfl) hs
      exact ⟨heach, hnext, fun hbelow => Nat.lt_of_lt_of_le (hbelow f hf) hnext⟩
  | drop f now hf =>
      have hnext := next_le_heed (W := W) (land s f.number) (f.undo s.state)
      exact ⟨Each.heed hA (Each.land hothers) _, hnext,
        fun hbelow => Nat.lt_of_lt_of_le (hbelow f hf) hnext⟩

/-- What every stretch leaves true of its flight, which is not stopped, is so of all flights. -/
theorem Each.step {A : Flight σ κ ρ ι → Nat → Prop} (hA : W.Standing A) (h : Each A s)
    (hleft : ∀ (f g : Flight σ κ ρ ι) n r, f.stopped = false → f.left? r = some g → A g n)
    (hx : W.Step s x) : Each A x.after := by
  refine (hx.each hA (fun g hg _ => h g hg) fun f n r g htook _ _ _ hg => ?_).1
  cases htook with
  | call k => exact hleft _ g _ r rfl hg
  | flight f hf hstop hcue => exact hleft f g _ r hstop hg

/-- What all flights have after a course, by what each of its moments leaves. -/
theorem Course.each {A : List (Moment σ κ ρ ι) → Flight σ κ ρ ι → Nat → Prop} {c : σ}
    (h : W.Course (idle c) ms s')
    (hstep : ∀ l u x, W.Step u x → x ∈ ms → Each (A l) u → (∀ y ∈ l, y.number < u.next) →
      Each (A (l ++ [x])) x.after ∧ u.next ≤ x.after.next ∧ x.number < x.after.next) :
    Each (A ms) s' ∧ ∀ x ∈ ms, x.number < s'.next := by
  induction h with
  | nil => exact ⟨fun _ hf => (nomatch hf), fun _ hx => (nomatch hx)⟩
  | @snoc l t x _ hx ih =>
      obtain ⟨heach, hnumbers⟩ := ih fun l u y hy hmem =>
        hstep l u y hy (List.mem_append_left _ hmem)
      obtain ⟨heach', hnext, hnumber⟩ := hstep l t x hx (by simp) heach hnumbers
      refine ⟨heach', fun y hy => ?_⟩
      rcases List.mem_append.mp hy with hy | hy
      · exact Nat.lt_of_lt_of_le (hnumbers y hy) hnext
      · obtain rfl := List.mem_singleton.mp hy
        exact hnumber

end Moments

/-! ## Sound flights -/

/-- All flights of the scene are sound. -/
def Sound (s : Scene σ κ ρ ι) : Prop := ∀ f ∈ s.flights, f.Sound s.next

theorem standing_sound : W.Standing (Flight.Sound : Flight σ κ ρ ι → Nat → Prop) where
  later _ _ h := ⟨Nat.lt_succ_of_lt h.numbered, h.underway⟩
  starts _ _ := ⟨Nat.lt_succ_self _, nofun⟩
  halts f _ name h := by
    obtain ⟨hnumber, hwork, hwaiting, hstopped⟩ := halt_same (W := W) name f
    refine ⟨hnumber.symm ▸ h.numbered, fun hcall => ?_⟩
    rw [hwork] at hcall
    rw [hstopped hcall, hwaiting]
    exact h.underway hcall

/-- A flight that a stretch leaves, not having been resumed too early, is sound. -/
theorem sound_left {f g : Flight σ κ ρ ι} {n : Nat} (hn : f.number < n) (hstop : f.stopped = false)
    {r : Run σ (Ending ρ ι)} (hr : r.result ≠ .paused .stays) (hleft : f.left? r = some g) :
    g.Sound n := by
  cases r with
  | done c e =>
      cases e <;> cases hleft
      exact ⟨hn, nofun⟩
  | fault c e => cases hleft
  | stay c => exact absurd rfl hr
  | wait c w drop resume =>
      obtain rfl := Option.some.inj hleft
      exact ⟨hn, fun _ => ⟨hstop, rfl⟩⟩

theorem Step.sound (h : Sound s) {x : Moment σ κ ρ ι} (hx : W.Step s x)
    (hr : x.result ≠ .paused .stays) :
    Sound x.after ∧ s.next ≤ x.after.next ∧ x.number < x.after.next := by
  have hown : ∀ f n r g, Took s x f n → x.result = r.result → f.left? r = some g → g.Sound n := by
    intro f n r g htook hresult hleft
    rw [hresult] at hr
    cases htook with
    | call k => exact sound_left (Nat.lt_succ_self _) rfl hr hleft
    | flight f hf hstop hcue => exact sound_left (h f hf).numbered hstop hr hleft
  obtain ⟨heach, hnext, hnumber⟩ := hx.each standing_sound (fun g hg _ => h g hg)
    fun f n r g htook _ _ => hown f n r g htook
  exact ⟨heach, hnext, hnumber fun f hf => (h f hf).numbered⟩

theorem Course.sound {c : σ} {ms : List (Moment σ κ ρ ι)} (h : W.Course (idle c) ms s')
    (hr : ∀ x ∈ ms, x.result ≠ .paused .stays) : Sound s' ∧ ∀ x ∈ ms, x.number < s'.next :=
  h.each (A := fun _ => Flight.Sound) fun _ _ x hx hmem hu _ => hx.sound hu (hr x hmem)

/-- A call that begins is given a number above all before it. -/
theorem Course.number_lt {c : σ} {before after : List (Moment σ κ ρ ι)} {x : Moment σ κ ρ ι}
    (h : W.Course (idle c) (before ++ x :: after) s')
    (hr : ∀ y ∈ before, y.result ≠ .paused .stays) (hx : x.Opens) :
    ∀ y ∈ before, y.number < x.number := by
  obtain ⟨t, hbefore, hstep, -⟩ := h.split
  obtain ⟨hsound, hnumbers⟩ := hbefore.sound hr
  obtain ⟨hcall, hcue, hdrop⟩ := hx
  cases hstep with
  | call k now s' hs => exact hnumbers
  | begin f now s' hf hstop hw hs =>
      have hwaits := ((hsound f hf).underway hcall).2
      rw [hw] at hwaits
      cases hwaits
  | reply f y a now s' hf hstop hw hs => cases hcue
  | drop f now hf => exact absurd rfl hdrop

/-- So two calls that begin with one number are one. -/
theorem Course.eq_of_opens {c : σ} {ms : List (Moment σ κ ρ ι)} {x y : Moment σ κ ρ ι}
    (h : W.Course (idle c) ms s') (hr : ∀ z ∈ ms, z.result ≠ .paused .stays) (hx : x ∈ ms)
    (hy : y ∈ ms) (hxo : x.Opens) (hyo : y.Opens) (hn : x.number = y.number) : x = y := by
  obtain ⟨before, after, rfl⟩ := List.append_of_mem hx
  rcases List.mem_append.mp hy with hmem | hmem
  · have hlt := h.number_lt (fun z hz => hr z (List.mem_append_left _ hz)) hxo y hmem
    exact absurd hn (Nat.ne_of_gt hlt)
  · rcases List.mem_cons.mp hmem with rfl | hmem
    · rfl
    · obtain ⟨between, rest, rfl⟩ := List.append_of_mem hmem
      rw [← List.cons_append, ← List.append_assoc] at h hr
      have hlt := h.number_lt (fun z hz => hr z (List.mem_append_left _ hz)) hyo x (by simp)
      exact absurd hn (Nat.ne_of_lt hlt)

/-! ## The last wait of a call -/

section Waits

variable {selected : Work κ ι → Bool} {φ : Wait → Bool} {ms : List (Moment σ κ ρ ι)}
  {x : Moment σ κ ρ ι} {f g : Flight σ κ ρ ι} {n : Nat}

/-- The number of the flight has been given, and a wait of a kind that it came to has not ended. -/
structure Lasts (selected : Work κ ι → Bool) (φ : Wait → Bool) (ms : List (Moment σ κ ρ ι))
    (f : Flight σ κ ρ ι) (n : Nat) : Prop where
  numbered : f.number < n
  waits : selected f.work = true → (∃ x ∈ ms, x.number = f.number ∧ x.waitsFor φ = true) →
    ∃ y, f.waiting = some y ∧ φ y.wait = true

theorem standing_lasts (hjobs : ∀ j, selected (.job j) = false) :
    W.Standing (Lasts selected φ ms) where
  later _ _ h := ⟨Nat.lt_succ_of_lt h.numbered, h.waits⟩
  starts n j := ⟨Nat.lt_succ_self _, fun hs => absurd hs (Bool.eq_false_iff.mp (hjobs j))⟩
  halts f _ name h := by
    obtain ⟨hnumber, hwork, hwaiting, -⟩ := halt_same (W := W) name f
    refine ⟨hnumber.symm ▸ h.numbered, ?_⟩
    rw [hnumber, hwork, hwaiting]
    exact h.waits

/-- A moment of another flight does not matter. -/
theorem Lasts.other (h : Lasts selected φ ms g n) (hne : g.number ≠ x.number) :
    Lasts selected φ (ms ++ [x]) g n := by
  refine ⟨h.numbered, fun hs hz => ?_⟩
  obtain ⟨z, hz, hn, hwaits⟩ := hz
  rcases List.mem_append.mp hz with hz | hz
  · exact h.waits hs ⟨z, hz, hn, hwaits⟩
  · obtain rfl := List.mem_singleton.mp hz
    exact absurd hn.symm hne

/-- What a stretch leaves of a flight, if a stretch after such a wait does not wait again. -/
theorem lasts_left (hjobs : ∀ j, selected (.job j) = false) {r : Run σ (Ending ρ ι)}
    (hnumber : f.number < n) (hresult : x.result = r.result)
    (hold : selected f.work = true → (∃ y ∈ ms, y.number = f.number ∧ y.waitsFor φ = true) →
      (∀ w, r.result ≠ .paused (.waits w)) ∧ ∃ y, f.waiting = some y ∧ φ y.wait = true)
    (hleft : f.left? r = some g) : Lasts selected φ (ms ++ [x]) g n := by
  cases r with
  | done c e =>
      cases e <;> cases hleft
      exact ⟨hnumber, fun hs => absurd hs (Bool.eq_false_iff.mp (hjobs _))⟩
  | fault c e => cases hleft
  | stay c =>
      obtain rfl := Option.some.inj hleft
      refine ⟨hnumber, fun hs hz => ?_⟩
      obtain ⟨z, hz, hn, hwaits⟩ := hz
      rcases List.mem_append.mp hz with hz | hz
      · exact (hold hs ⟨z, hz, hn, hwaits⟩).2
      · obtain rfl := List.mem_singleton.mp hz
        rw [Moment.waitsFor, hresult] at hwaits
        cases hwaits
  | wait c w drop resume =>
      obtain rfl := Option.some.inj hleft
      refine ⟨hnumber, fun hs hz => ⟨_, rfl, ?_⟩⟩
      obtain ⟨z, hz, hn, hwaits⟩ := hz
      rcases List.mem_append.mp hz with hz | hz
      · exact absurd rfl ((hold hs ⟨z, hz, hn, hwaits⟩).1 w)
      · obtain rfl := List.mem_singleton.mp hz
        rw [Moment.waitsFor, hresult] at hwaits
        exact hwaits

theorem Step.lasts (hjobs : ∀ j, selected (.job j) = false) (h : Each (Lasts selected φ ms) s)
    (hnumbers : ∀ y ∈ ms, y.number < s.next) (hx : W.Step s x)
    (hlast : selected x.work = true → (x.start.cue.any fun q => φ q.1) = true →
      ∀ w, x.result ≠ .paused (.waits w)) :
    Each (Lasts selected φ (ms ++ [x])) x.after ∧ s.next ≤ x.after.next ∧
      x.number < x.after.next := by
  have hown : ∀ f n r g, Took s x f n → x.work = f.work → x.result = r.result →
      f.left? r = some g → Lasts selected φ (ms ++ [x]) g n := by
    intro f n r g htook hwork hresult hleft
    cases htook with
    | call k =>
        -- The number has not been given before.
        refine lasts_left hjobs (Nat.lt_succ_self _) hresult (fun _ hz => ?_) hleft
        obtain ⟨z, hz, hn, -⟩ := hz
        exact absurd hn (Nat.ne_of_lt (hnumbers z hz))
    | flight f hf hstop hcue =>
        refine lasts_left hjobs (h f hf).numbered hresult (fun hsel hz => ?_) hleft
        obtain ⟨y, hy, hφ⟩ := (h f hf).waits hsel hz
        obtain ⟨a, hstart⟩ := hcue y hy
        rw [← hwork] at hsel
        refine ⟨fun w hw => hlast hsel ?_ w (hresult.trans hw), y, hy, hφ⟩
        rw [hstart]
        exact hφ
  obtain ⟨heach, hnext, hnumber⟩ := hx.each (standing_lasts hjobs)
    (fun g hg hne => (h g hg).other hne) fun f n r g htook _ => hown f n r g htook
  exact ⟨heach, hnext, hnumber fun f hf => (h f hf).numbered⟩

/-- In a course in which no stretch after a wait of a kind waits again, such a wait has not ended
while the flight goes on. -/
theorem Course.lasts (hjobs : ∀ j, selected (.job j) = false) {c : σ}
    (h : W.Course (idle c) ms s')
    (hlast : ∀ x ∈ ms, selected x.work = true → (x.start.cue.any fun q => φ q.1) = true →
      ∀ w, x.result ≠ .paused (.waits w)) :
    Each (Lasts selected φ ms) s' ∧ ∀ x ∈ ms, x.number < s'.next :=
  h.each fun _ _ x hx hmem hu hnumbers => hx.lasts hjobs hu hnumbers (hlast x hmem)

/-- So work that does not go on after such a wait has not come to one. -/
theorem Course.not_waitsFor (hjobs : ∀ j, selected (.job j) = false) {c : σ}
    {before after : List (Moment σ κ ρ ι)} (h : W.Course (idle c) (before ++ x :: after) s')
    (hlast : ∀ y ∈ before, selected y.work = true → (y.start.cue.any fun q => φ q.1) = true →
      ∀ w, y.result ≠ .paused (.waits w)) (hs : selected x.work = true)
    (hcue : (x.start.cue.any fun q => φ q.1) = false) (hd : x.result ≠ .paused .drops) :
    ∀ y ∈ before, y.number = x.number → y.waitsFor φ = false := by
  obtain ⟨t, hbefore, hx, -⟩ := h.split
  obtain ⟨heach, hnumbers⟩ := hbefore.lasts hjobs hlast
  intro y hy hn
  refine Bool.eq_false_iff.mpr fun hwaits => ?_
  have hy' : ∃ y ∈ before, y.number = x.number ∧ y.waitsFor φ = true := ⟨y, hy, hn, hwaits⟩
  cases hx with
  | call k now s' hs => exact absurd hn (Nat.ne_of_lt (hnumbers y hy))
  | begin f now s' hf hstop hw =>
      obtain ⟨z, hz, -⟩ := (heach f hf).waits hs hy'
      rw [hw] at hz
      cases hz
  | reply f z a now s' hf hstop hw =>
      obtain ⟨z', hz', hφ⟩ := (heach f hf).waits hs hy'
      obtain rfl := Option.some.inj (hw.symm.trans hz')
      exact absurd hφ (Bool.eq_false_iff.mp hcue)
  | drop f now hf => exact absurd rfl hd

end Waits

/-! ## Answers -/

section Answers

variable {ms : List (Moment σ κ ρ ι)} {x : Moment σ κ ρ ι} {f g : Flight σ κ ρ ι} {n : Nat}

/-- The number of the flight has been given, and if it is a call, all stretches of that number were
of it and have not answered it. -/
structure Unanswered (ms : List (Moment σ κ ρ ι)) (f : Flight σ κ ρ ι) (n : Nat) : Prop where
  numbered : f.number < n
  same : f.work.isCall = true → ∀ x ∈ ms, x.number = f.number → x.work = f.work
  unanswered : f.work.isCall = true → ∀ x ∈ ms, x.number = f.number → ∀ e, x.result ≠ .ended e

theorem standing_unanswered : W.Standing (Unanswered ms) where
  later _ _ h := ⟨Nat.lt_succ_of_lt h.numbered, h.same, h.unanswered⟩
  starts _ _ := ⟨Nat.lt_succ_self _, nofun, nofun⟩
  halts f _ name h := by
    obtain ⟨hnumber, hwork, -, -⟩ := halt_same (W := W) name f
    refine ⟨hnumber.symm ▸ h.numbered, ?_, ?_⟩
    · rw [hnumber, hwork]
      exact h.same
    · rw [hnumber, hwork]
      exact h.unanswered

theorem Unanswered.snoc (h : Unanswered ms g n)
    (hx : x.number = g.number → x.work = g.work ∧ ∀ e, x.result ≠ .ended e) :
    Unanswered (ms ++ [x]) g n := by
  refine ⟨h.numbered, fun hcall y hy hn => ?_, fun hcall y hy hn => ?_⟩
  · rcases List.mem_append.mp hy with hy | hy
    · exact h.same hcall y hy hn
    · obtain rfl := List.mem_singleton.mp hy
      exact (hx hn).1
  · rcases List.mem_append.mp hy with hy | hy
    · exact h.unanswered hcall y hy hn
    · obtain rfl := List.mem_singleton.mp hy
      exact (hx hn).2

/-- A stretch that leaves a call in flight has not answered it. -/
theorem Unanswered.left {r : Run σ (Ending ρ ι)} (h : Unanswered ms f n) (hwork : x.work = f.work)
    (hresult : x.result = r.result) (hleft : f.left? r = some g) :
    Unanswered (ms ++ [x]) g n := by
  cases r with
  | done c e =>
      cases e <;> cases hleft
      exact ⟨h.numbered, nofun, nofun⟩
  | fault c e => cases hleft
  | stay c =>
      obtain rfl := Option.some.inj hleft
      exact h.snoc fun _ => ⟨hwork, fun e he => nomatch hresult.symm.trans he⟩
  | wait c w drop resume =>
      obtain rfl := Option.some.inj hleft
      have hsame : Unanswered ms { f with waiting := some ⟨w, drop, resume⟩ } n :=
        ⟨h.numbered, h.same, h.unanswered⟩
      exact hsame.snoc fun _ => ⟨hwork, fun e he => nomatch hresult.symm.trans he⟩

theorem Step.unanswered (h : Each (Unanswered ms) s) (hnumbers : ∀ y ∈ ms, y.number < s.next)
    (hx : W.Step s x) :
    Each (Unanswered (ms ++ [x])) x.after ∧ s.next ≤ x.after.next ∧ x.number < x.after.next := by
  have hown : ∀ f n r g, Took s x f n → x.work = f.work → x.result = r.result →
      f.left? r = some g → Unanswered (ms ++ [x]) g n := by
    intro f n r g htook hwork hresult hleft
    cases htook with
    | call k =>
        -- The number has not been given before.
        have hfresh : Unanswered ms (⟨s.next, .call k, false, none⟩ : Flight σ κ ρ ι)
            (s.next + 1) :=
          ⟨Nat.lt_succ_self _, fun _ y hy hn => absurd hn (Nat.ne_of_lt (hnumbers y hy)),
            fun _ y hy hn => absurd hn (Nat.ne_of_lt (hnumbers y hy))⟩
        exact hfresh.left hwork hresult hleft
    | flight f hf hstop hcue => exact (h f hf).left hwork hresult hleft
  obtain ⟨heach, hnext, hnumber⟩ := hx.each standing_unanswered
    (fun g hg hne => (h g hg).snoc fun hn => absurd hn.symm hne)
    fun f n r g htook _ => hown f n r g htook
  exact ⟨heach, hnext, hnumber fun f hf => (h f hf).numbered⟩

/-- A call that is in flight has not been answered. -/
theorem Course.unanswered {c : σ} (h : W.Course (idle c) ms s') :
    Each (Unanswered ms) s' ∧ ∀ x ∈ ms, x.number < s'.next :=
  h.each fun _ _ _ hx _ hu hnumbers => hx.unanswered hu hnumbers

/-- Nor has it been where one more stretch of it is to come, and what had its number before was the
same call. -/
theorem Course.before_call {c : σ} {before after : List (Moment σ κ ρ ι)}
    (h : W.Course (idle c) (before ++ x :: after) s') (hcall : x.work.isCall = true) :
    ∀ y ∈ before, y.number = x.number → y.work = x.work ∧ ∀ e, y.result ≠ .ended e := by
  obtain ⟨t, hbefore, hx, -⟩ := h.split
  obtain ⟨heach, hnumbers⟩ := hbefore.unanswered
  have hflight : ∀ f ∈ t.flights, f.work.isCall = true → ∀ y ∈ before, y.number = f.number →
      y.work = f.work ∧ ∀ e, y.result ≠ .ended e := fun f hf hcall y hy hn =>
    ⟨(heach f hf).same hcall y hy hn, (heach f hf).unanswered hcall y hy hn⟩
  cases hx with
  | call k now s' hs => exact fun y hy hn => absurd hn (Nat.ne_of_lt (hnumbers y hy))
  | begin f now s' hf hstop hw hs => exact hflight f hf hcall
  | reply f z a now s' hf hstop hw hs => exact hflight f hf hcall
  | drop f now hf => exact hflight f hf hcall

end Answers

/-! ## Numbers -/

/-- The numbers of the flights have been given, each to one of them. -/
structure Numbered (s : Scene σ κ ρ ι) : Prop where
  below : ∀ f ∈ s.flights, f.number < s.next
  apart : (s.flights.map (·.number)).Nodup

/-- Two flights with one number are one. -/
theorem Numbered.eq_of_number {f g : Flight σ κ ρ ι} (h : Numbered s) (hf : f ∈ s.flights)
    (hg : g ∈ s.flights) (hn : f.number = g.number) : f = g := by
  have hapart := h.apart
  generalize s.flights = fs at hf hg hapart
  induction fs with
  | nil => cases hf
  | cons e fs ih =>
      rw [List.map_cons, List.nodup_cons] at hapart
      rcases List.mem_cons.mp hf with rfl | hf' <;> rcases List.mem_cons.mp hg with rfl | hg'
      · rfl
      · exact absurd (List.mem_map.mpr ⟨g, hg', hn.symm⟩) hapart.1
      · exact absurd (List.mem_map.mpr ⟨f, hf', hn⟩) hapart.1
      · exact ih hf' hg' hapart.2

theorem Numbered.obey (h : Numbered s) (o : Command ι ν) : Numbered (W.obey s o) := by
  cases o with
  | start j =>
      refine ⟨fun f hf => ?_, ?_⟩
      · rcases List.mem_append.mp hf with hf | hf
        · exact Nat.lt_succ_of_lt (h.below f hf)
        · obtain rfl := List.mem_singleton.mp hf
          exact Nat.lt_succ_self _
      · rw [Workplace.obey, List.map_append, List.map_singleton]
        refine List.nodup_append.mpr ⟨h.apart, List.pairwise_singleton _ _, fun a ha b hb => ?_⟩
        obtain ⟨f, hf, rfl⟩ := List.mem_map.mp ha
        obtain rfl := List.mem_singleton.mp hb
        exact Nat.ne_of_lt (h.below f hf)
  | stop name =>
      refine ⟨fun f hf => ?_, ?_⟩
      · obtain ⟨g, hg, rfl⟩ := List.mem_map.mp hf
        rw [(halt_same (W := W) name g).1]
        exact h.below g hg
      · have hsame : (s.flights.map (W.halt name)).map (·.number) = s.flights.map (·.number) := by
          rw [List.map_map]
          exact List.map_congr_left fun g _ => (halt_same (W := W) name g).1
        rw [Workplace.obey, hsame]
        exact h.apart

theorem Numbered.heed (h : Numbered s) (c : σ) : Numbered (W.heed s c) := by
  have h' : Numbered { s with state := W.heeded c } := ⟨h.below, h.apart⟩
  unfold Workplace.heed
  generalize { s with state := W.heeded c } = t at h'
  induction W.orders c generalizing t with
  | nil => exact h'
  | cons o orders ih => exact ih _ (h'.obey o)

theorem Numbered.land (h : Numbered s) (n : Nat) : Numbered (land s n) where
  below f hf := h.below f (List.mem_filter.mp hf).1
  apart := h.apart.sublist (List.filter_sublist.map _)

theorem Numbered.keep (h : Numbered s) {f : Flight σ κ ρ ι} (hf : f.number < s.next) :
    Numbered (keep s f) := by
  refine ⟨fun g hg => ?_, ?_⟩
  · rcases List.mem_append.mp hg with hg | hg
    · exact (h.land f.number).below g hg
    · obtain rfl := List.mem_singleton.mp hg
      exact hf
  · rw [Workplace.keep, List.map_append, List.map_singleton]
    refine List.nodup_append.mpr
      ⟨(h.land f.number).apart, List.pairwise_singleton _ _, fun a ha b hb => ?_⟩
    obtain ⟨g, hg, rfl⟩ := List.mem_map.mp ha
    obtain rfl := List.mem_singleton.mp hb
    exact of_decide_eq_true (List.mem_filter.mp hg).2

theorem Numbered.settle (h : Numbered s) {f : Flight σ κ ρ ι} (hf : f.number < s.next)
    {r : Run σ (Ending ρ ι)} (hs : W.settle s f r = some s') : Numbered s' := by
  cases r with
  | done c e =>
      cases e with
      | answers a =>
          obtain rfl := Option.some.inj hs
          exact (h.land _).heed c
      | leaves =>
          obtain rfl := Option.some.inj hs
          exact (h.land _).heed c
      | again j =>
          obtain rfl := Option.some.inj hs
          exact (h.keep (f := { f with work := .job j, waiting := none }) hf).heed c
  | fault c e =>
      rw [Workplace.settle] at hs
      split at hs
      · cases hs
      · obtain rfl := Option.some.inj hs
        exact (h.land _).heed _
  | stay c =>
      obtain rfl := Option.some.inj hs
      exact (h.keep hf).heed c
  | wait c w drop resume =>
      obtain rfl := Option.some.inj hs
      exact (h.keep (f := { f with waiting := some ⟨w, drop, resume⟩ }) hf).heed c

theorem Step.numbered (h : Numbered s) {x : Moment σ κ ρ ι} (hx : W.Step s x) :
    Numbered x.after := by
  cases hx with
  | call k now s' hs =>
      have hcalled : Numbered { s with next := s.next + 1 } :=
        ⟨fun f hf => Nat.lt_succ_of_lt (h.below f hf), h.apart⟩
      exact hcalled.settle (Nat.lt_succ_self _) hs
  | begin f now s' hf hstop hw hs => exact h.settle (h.below f hf) hs
  | reply f y a now s' hf hstop hw hs => exact h.settle (h.below f hf) hs
  | drop f now hf => exact (h.land _).heed _

theorem Course.numbered {c : σ} {ms : List (Moment σ κ ρ ι)} (h : W.Course (idle c) ms s') :
    Numbered s' := by
  induction h with
  | nil => exact ⟨fun _ hf => (nomatch hf), List.nodup_nil⟩
  | snoc _ hx ih => exact hx.numbered ih

/-- A flight of the scene is the same but that it may be stopped. -/
def InFlight (s : Scene σ κ ρ ι) (f : Flight σ κ ρ ι) : Prop :=
  ∃ g ∈ s.flights, g.number = f.number ∧ g.work = f.work ∧ g.waiting = f.waiting

/-- What is in flight stays so when orders are heeded, though it may be stopped. -/
theorem inFlight_heed {f : Flight σ κ ρ ι} (hf : f ∈ s.flights) (c : σ) :
    InFlight (W.heed s c) f := by
  have hf' : InFlight { s with state := W.heeded c } f := ⟨f, hf, rfl, rfl, rfl⟩
  unfold Workplace.heed
  generalize { s with state := W.heeded c } = t at hf'
  induction W.orders c generalizing t with
  | nil => exact hf'
  | cons o orders ih =>
      refine ih _ ?_
      obtain ⟨g, hg, hnumber, hwork, hwaiting⟩ := hf'
      cases o with
      | start j => exact ⟨g, List.mem_append_left _ hg, hnumber, hwork, hwaiting⟩
      | stop name =>
          obtain ⟨hn, hw, hx, -⟩ := halt_same (W := W) name g
          exact ⟨W.halt name g, List.mem_map.mpr ⟨g, hg, rfl⟩, hn.trans hnumber, hw.trans hwork,
            hx.trans hwaiting⟩

/-- After a stretch the other flights are there still, and so is what it left of its own. -/
theorem inFlight_settle {f g : Flight σ κ ρ ι} {r : Run σ (Ending ρ ι)}
    (hs : W.settle s f r = some s')
    (hg : g ∈ s.flights ∧ g.number ≠ f.number ∨ f.left? r = some g) : InFlight s' g := by
  have hland (c : σ) (hg : g ∈ s.flights ∧ g.number ≠ f.number) :
      InFlight (W.heed (Workplace.land s f.number) c) g :=
    inFlight_heed (List.mem_filter.mpr ⟨hg.1, decide_eq_true hg.2⟩) c
  have hkeep (e : Flight σ κ ρ ι) (c : σ) (hn : e.number = f.number)
      (hg : g ∈ s.flights ∧ g.number ≠ f.number ∨ some e = some g) :
      InFlight (W.heed (Workplace.keep s e) c) g := by
    refine inFlight_heed (List.mem_append.mpr ?_) c
    rcases hg with ⟨hg, hne⟩ | hg
    · rw [← hn] at hne
      exact .inl (List.mem_filter.mpr ⟨hg, decide_eq_true hne⟩)
    · exact .inr (List.mem_singleton.mpr (Option.some.inj hg).symm)
  have hnone : (none : Option (Flight σ κ ρ ι)) ≠ some g := (Option.some_ne_none g).symm
  cases r with
  | done c e =>
      cases e with
      | answers a =>
          obtain rfl := Option.some.inj hs
          exact hland c (hg.resolve_right hnone)
      | leaves =>
          obtain rfl := Option.some.inj hs
          exact hland c (hg.resolve_right hnone)
      | again j =>
          obtain rfl := Option.some.inj hs
          exact hkeep _ c rfl hg
  | fault c e =>
      rw [Workplace.settle] at hs
      split at hs
      · cases hs
      · obtain rfl := Option.some.inj hs
        exact hland _ (hg.resolve_right hnone)
  | stay c =>
      obtain rfl := Option.some.inj hs
      exact hkeep _ c rfl hg
  | wait c w drop resume =>
      obtain rfl := Option.some.inj hs
      exact hkeep _ c rfl hg

end Workplace

end ClientSession
