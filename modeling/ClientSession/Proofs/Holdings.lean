import ClientSession.Proofs.Course
import Mathlib.Logic.Function.Basic

/-!
# Holdings

Work that waits may rely on a part of the state that is its own. Its memo says what it relies on; a
memo fits a state in which that is as it was left, and two memos are apart that rely on different
parts. If every stretch leaves what its own memo says then, and nothing else that is relied on is
changed, then in every scene of a course all that waits finds what it relies on.

- `Tenure`: what fits a memo, and which memos are apart.
- `Tenure.Respects`: a change that is no matter to others.
- `Tenure.Held.course`: so in a course of work whose stretches are such changes all is found as it
  was left.
-/

namespace ClientSession

variable {μ σ κ ρ ι ν : Type}

/-- What is relied on by work that waits. -/
structure Tenure (μ σ : Type) where
  /-- The memo of work that relies on nothing. -/
  nothing : μ
  fits : μ → σ → Prop
  apart : μ → μ → Prop
  symm : ∀ {m k}, apart m k → apart k m
  free : ∀ m, apart m nothing
  fits_nothing : ∀ {m s}, fits m s → fits nothing s

namespace Tenure

variable {T : Tenure μ σ} {m m' m'' : μ} {s s' s'' : σ}

/-- A change by work with one memo, which has another one then, is no matter to others. -/
def Respects (T : Tenure μ σ) (m m' : μ) (s s' : σ) : Prop :=
  T.fits m s → T.fits m' s' ∧ ∀ k, T.fits k s → T.apart k m → T.fits k s' ∧ T.apart k m'

theorem Respects.refl (m : μ) (s : σ) : T.Respects m m s s :=
  fun h => ⟨h, fun _ hk hapart => ⟨hk, hapart⟩⟩

theorem Respects.trans (h : T.Respects m m' s s') (h' : T.Respects m' m'' s' s'') :
    T.Respects m m'' s s'' := by
  intro hm
  obtain ⟨hm', hothers⟩ := h hm
  obtain ⟨hm'', hothers'⟩ := h' hm'
  refine ⟨hm'', fun k hk hapart => ?_⟩
  obtain ⟨hk', hapart'⟩ := hothers k hk hapart
  exact hothers' k hk' hapart'

/-- What changes nothing that anybody relies on respects all. -/
theorem Respects.of_same (h : ∀ k, T.fits k s → T.fits k s') : T.Respects m m s s' :=
  fun hm => ⟨h m hm, fun k hk hapart => ⟨h k hk, hapart⟩⟩

end Tenure

variable {W : Workplace σ κ ρ ι ν} {L : Rules μ σ κ ρ ι} {T : Tenure μ σ}
  {selected : Work κ ι → Bool}

/-- The rules ask of the stretches of selected work that they respect what others rely on. Work that
has ended or faulted relies on nothing. -/
structure Rules.Respectful (L : Rules μ σ κ ρ ι) (T : Tenure μ σ) (W : Workplace σ κ ρ ι ν)
    (selected : Work κ ι → Bool) : Prop where
  memo : L.memo = T.nothing
  waits : ∀ work m i w c m', selected work = true → L.pact work m i (.waits w) c m' →
    T.Respects m m' i.state c
  stays : ∀ work m i c, selected work = true → L.pact work m i .stays c m →
    T.Respects m m i.state c
  drops : ∀ work m i c, selected work = true → L.pact work m i .drops c m →
    T.Respects m T.nothing i.state c
  faults : ∀ j m i c, selected (.job j) = true → L.pact (.job j) m i .faults c m →
    T.Respects m T.nothing i.state (W.abandon c j)
  ends : ∀ work m i e c, selected work = true → L.outcome work m i e c →
    T.Respects m T.nothing i.state c
  heeds : ∀ k c, T.fits k c → T.fits k (W.heeded c)

namespace Tenure

/-- Each number has a memo: with it all that waits under that number will keep the rules, it fits
the state, and the memos of different numbers are apart. -/
structure Held (T : Tenure μ σ) (L : Rules μ σ κ ρ ι) (M : Nat → μ) (s : Scene σ κ ρ ι) : Prop where
  held : L.HeldIn (fun n m => m = M n) s
  fits : ∀ n, T.fits (M n) s.state
  apart : ∀ n n', n ≠ n' → T.apart (M n) (M n')

theorem Held.idle {c : σ} (hc : T.fits T.nothing c) :
    T.Held L (fun _ => T.nothing) (Workplace.idle c) :=
  ⟨Rules.HeldIn.idle c, fun _ => hc, fun _ _ _ => T.free _⟩

variable {M : Nat → μ} {s s' : Scene σ κ ρ ι} {f : Flight σ κ ρ ι} {m m' : μ}

theorem Held.awaits (h : T.Held L M s) (hf : f ∈ s.flights) {x : Waiting σ (Ending ρ ι)}
    (hx : f.waiting = some x) : L.Awaits f.work (M f.number) x := by
  obtain ⟨_, rfl, ha⟩ := h.held f hf x hx
  exact ha

/-- A change by one number, after which it has another memo. -/
theorem Held.update (h : T.Held L M s) (m' : μ) {n : Nat} (hm : T.fits m s.state)
    (happart : ∀ n', n' ≠ n → T.apart (M n') m) (hr : T.Respects m m' s.state s'.state)
    (hheld : L.HeldIn (fun k k' => k' = Function.update M n m' k) s') :
    T.Held L (Function.update M n m') s' := by
  obtain ⟨hm', hothers⟩ := hr hm
  have hothers' : ∀ n', n' ≠ n → T.fits (M n') s'.state ∧ T.apart (M n') m' :=
    fun n' hne => hothers (M n') (h.fits n') (happart n' hne)
  refine ⟨hheld, fun k => ?_, fun k k' hne => ?_⟩
  · by_cases hk : k = n
    · rw [hk, Function.update_self]
      exact hm'
    · rw [Function.update_of_ne hk]
      exact (hothers' k hk).1
  · by_cases hk : k = n
    · rw [hk] at hne ⊢
      rw [Function.update_self, Function.update_of_ne (Ne.symm hne)]
      exact T.symm (hothers' k' (Ne.symm hne)).2
    · rw [Function.update_of_ne hk]
      by_cases hk' : k' = n
      · rw [hk', Function.update_self]
        exact (hothers' k hk).2
      · rw [Function.update_of_ne hk']
        exact h.apart k k' hne

/-- What a stretch leaves keeps the rules with a memo to which the stretch has moved. -/
theorem exists_memo (hT : L.Respectful T W selected) (hsel : selected f.work = true)
    (hown : ∀ x, f.waiting = some x → L.Awaits f.work m x) {i : Start σ} (hi : i.state = s.state)
    {r : Run σ (Ending ρ ι)} (hr : r.Meets (L.pact f.work) (L.outcome f.work) m i)
    (hs : W.settle s f r = some s') : ∃ m', T.Respects m m' s.state s'.state ∧
      ∀ g, f.left? r = some g → ∀ x, g.waiting = some x → L.Awaits g.work m' x := by
  have hheeded : ∀ {k c}, T.Respects m k s.state c → T.Respects m k s.state (W.heeded c) :=
    fun h => h.trans (.of_same fun k => hT.heeds k _)
  rw [← hi] at hheeded ⊢
  cases r with
  | done c e =>
      have hstate : s'.state = W.heeded c := Workplace.settle_state_of_isFault_eq_false hs rfl
      refine ⟨T.nothing, hstate ▸ hheeded (hT.ends _ _ _ _ _ hsel hr), fun g hg x hx => ?_⟩
      -- A job that starts over has not begun, so nothing of it waits.
      cases e <;> cases hg
      cases hx
  | fault c e =>
      rw [Workplace.settle] at hs
      cases hwork : f.work with
      | call k =>
          rw [hwork] at hs
          cases hs
      | job j =>
          rw [hwork] at hsel hr hs
          obtain rfl := Option.some.inj hs
          rw [Workplace.heed_state]
          refine ⟨T.nothing, hheeded (hT.faults _ _ _ _ hsel hr), fun g hg => ?_⟩
          cases hg
  | stay c =>
      have hstate : s'.state = W.heeded c := Workplace.settle_state_of_isFault_eq_false hs rfl
      refine ⟨m, hstate ▸ hheeded (hT.stays _ _ _ _ hsel hr), fun g hg x hx => ?_⟩
      obtain rfl := Option.some.inj hg
      exact hown x hx
  | wait c w drop resume =>
      obtain ⟨m', hp, hd, hresume⟩ := hr
      have hstate : s'.state = W.heeded c := Workplace.settle_state_of_isFault_eq_false hs rfl
      refine ⟨m', hstate ▸ hheeded (hT.waits _ _ _ _ _ _ hsel hp), fun g hg x hx => ?_⟩
      obtain rfl := Option.some.inj hg
      obtain rfl := Option.some.inj hx
      exact ⟨hd, hresume⟩

theorem Held.settle (h : T.Held L M s) (hT : L.Respectful T W selected)
    (hsel : selected f.work = true) (hm : T.fits m s.state)
    (hapart : ∀ n, n ≠ f.number → T.apart (M n) m)
    (hown : ∀ x, f.waiting = some x → L.Awaits f.work m x) {i : Start σ} (hi : i.state = s.state)
    {r : Run σ (Ending ρ ι)} (hr : r.Meets (L.pact f.work) (L.outcome f.work) m i)
    (hs : W.settle s f r = some s') : ∃ M', T.Held L M' s' := by
  obtain ⟨m', hrespects, hleft⟩ := exists_memo hT hsel hown hi hr hs
  refine ⟨_, h.update m' hm hapart hrespects ?_⟩
  refine (Workplace.Each.settle
    (Rules.standing L fun k k' => k' = Function.update M f.number m' k) (fun g hg hne x hx => ?_)
    (fun g hg x hx => ?_) hs).1
  · exact ⟨_, (Function.update_of_ne hne _ _).symm, h.awaits hg hx⟩
  · have hnumber : g.number = f.number := by
      cases r with
      | done c e =>
          cases e <;> cases hg
          rfl
      | fault c e => cases hg
      | stay c =>
          obtain rfl := Option.some.inj hg
          rfl
      | wait c w drop resume =>
          obtain rfl := Option.some.inj hg
          rfl
    exact ⟨m', by rw [hnumber, Function.update_self], hleft g hg x hx⟩

/-- After a moment of selected work, too, each number has its memo. -/
theorem Held.step (h : T.Held L M s) (hL : L.KeptBy W) (hT : L.Respectful T W selected)
    {x : Moment σ κ ρ ι} (hx : W.Step s x) (hsel : selected x.work = true) :
    (∃ M', T.Held L M' x.after) ∧ ∃ m m', T.fits m x.start.state ∧ L.Keeps m m' x := by
  have hfits : T.fits L.memo s.state := by
    rw [hT.memo]
    exact T.fits_nothing (h.fits 0)
  have hfree : ∀ n, T.apart (M n) L.memo := by
    rw [hT.memo]
    exact fun n => T.free (M n)
  cases hx with
  | call k now s' hs =>
      have hmeets := hL.meets (.call k) now s.state
      obtain ⟨m', hk⟩ := Rules.keeps_of_meets hmeets
      refine ⟨?_, L.memo, m', hfits, hk⟩
      have hcalled : T.Held L M { s with next := s.next + 1 } := ⟨h.held, h.fits, h.apart⟩
      exact hcalled.settle hT hsel hfits (fun n _ => hfree n) (fun x hx => by cases hx) rfl hmeets
        hs
  | begin f now s' hf hstop hw hs =>
      have hmeets := hL.meets f.work now s.state
      obtain ⟨m', hk⟩ := Rules.keeps_of_meets hmeets
      refine ⟨?_, L.memo, m', hfits, hk⟩
      refine h.settle hT hsel hfits (fun n _ => hfree n) (fun x hx => ?_) rfl hmeets hs
      rw [hw] at hx
      cases hx
  | reply f y a now s' hf hstop hw hs =>
      have hmeets := (h.awaits hf hw).meets a now s.state
      obtain ⟨m', hk⟩ := Rules.keeps_of_meets hmeets
      refine ⟨?_, M f.number, m', h.fits _, hk⟩
      refine h.settle hT hsel (h.fits _) (fun n hne => h.apart _ _ hne) (fun x hx => ?_) rfl hmeets
        hs
      exact h.awaits hf hx
  | drop f now hf =>
      obtain ⟨m, hm, hapart, hpact⟩ : ∃ m, T.fits m s.state ∧
          (∀ n, n ≠ f.number → T.apart (M n) m) ∧
          L.pact f.work m ⟨none, now, s.state⟩ .drops (f.undo s.state) m := by
        cases hw : f.waiting with
        | none =>
            have hundo : f.undo s.state = s.state := by rw [Flight.undo, hw]
            rw [hundo]
            exact ⟨L.memo, hfits, fun n _ => hfree n, hL.drops f.work now s.state⟩
        | some y =>
            have hundo : f.undo s.state = y.drop s.state := by rw [Flight.undo, hw]
            rw [hundo]
            exact ⟨M f.number, h.fits _, fun n hne => h.apart _ _ hne,
              (h.awaits hf hw).drops now s.state⟩
      refine ⟨⟨_, h.update T.nothing hm hapart ?_ ?_⟩, m, m, hm, hpact⟩
      · rw [Workplace.heed_state]
        exact (hT.drops _ _ _ _ hsel hpact).trans (.of_same fun k => hT.heeds k _)
      · refine Workplace.Each.heed
          (Rules.standing L fun k k' => k' = Function.update M f.number T.nothing k)
          (Workplace.Each.land fun g hg hne x hx => ?_) _
        exact ⟨_, (Function.update_of_ne hne _ _).symm, h.awaits hg hx⟩

/-- So it is after every course of selected work, each moment of which kept the rules with a memo
that fitted. -/
theorem Held.course (h : T.Held L M s) (hL : L.KeptBy W) (hT : L.Respectful T W selected)
    {ms : List (Moment σ κ ρ ι)} (hrun : W.Course s ms s')
    (hsel : ∀ x ∈ ms, selected x.work = true) : (∃ M', T.Held L M' s') ∧
      ∀ x ∈ ms, ∃ m m', T.fits m x.start.state ∧ L.Keeps m m' x := by
  induction hrun with
  | nil => exact ⟨⟨M, h⟩, fun _ hx => nomatch hx⟩
  | @snoc ms t x _ hx ih =>
      obtain ⟨⟨M', h'⟩, hkept⟩ := ih fun y hy => hsel y (List.mem_append_left _ hy)
      obtain ⟨hafter, hlast⟩ := h'.step hL hT hx (hsel x (by simp))
      refine ⟨hafter, List.forall_mem_append.mpr ⟨hkept, List.forall_mem_singleton.mpr hlast⟩⟩

end Tenure

end ClientSession
