import ClientSession.Activity

/-!
# Stretches

A run goes on in stretches. A stretch begins when the run is started or when a wait of it ends, and
lasts to the next wait or to the end of the run. Between two stretches anything may happen to the
state. A pact says what each stretch may do, given where it began; a run may also keep a memo from
one stretch to the next.

- `Run.Meets`: every stretch keeps the pact, whatever state it finds and whatever answer it gets.
- `Activity.Triple`: so does every stretch of an activity that goes on from a state, and what is
  known of the state then is known of the answer at the end.
- `Activity.Maintains`: one thing is known throughout.
-/

namespace ClientSession

/-- The end of a wait: what was waited for, and the answer. -/
abbrev Cue := (w : Wait) × w.Answer

/-- What a stretch begins from. The first stretch of a run has no cue, nor has a drop. -/
structure Start (σ : Type) where
  cue : Option Cue
  now : Instant
  state : σ

/-- The start as a part finds it. -/
def Start.of {σ τ : Type} (get : τ → σ) (i : Start τ) : Start σ := ⟨i.cue, i.now, get i.state⟩

/-- How a stretch ends if not with an answer. -/
inductive Pause where
  | waits (wait : Wait)
  | stays
  | faults
  | drops

/-- What is asked of a stretch that pauses: the memo before, the start, the pause, the state that is
left, and the memo for the next stretch. -/
abbrev Pact (μ σ : Type) := μ → Start σ → Pause → σ → μ → Prop

variable {μ σ τ α β : Type}

namespace Run

/-- Every stretch of the run keeps the pact, and the last one leaves what is asked of the answer. -/
def Meets (P : Pact μ σ) (Q : μ → Start σ → α → σ → Prop) : Run σ α → μ → Start σ → Prop
  | .done s a, m, i => Q m i a s
  | .fault s _, m, i => P m i .faults s m
  | .stay s, m, i => P m i .stays s m
  | .wait s w drop resume, m, i =>
    ∃ m', P m i (.waits w) s m' ∧ (∀ now c, P m' ⟨none, now, c⟩ .drops (drop c) m') ∧
      ∀ a now c, (resume a now c).Meets P Q m' ⟨some ⟨w, a⟩, now, c⟩

theorem Meets.mono {P P' : Pact μ σ} {Q Q' : μ → Start σ → α → σ → Prop}
    (hP : ∀ m i p s m', P m i p s m' → P' m i p s m')
    (hQ : ∀ m i a s, Q m i a s → Q' m i a s) {r : Run σ α} {m : μ} {i : Start σ}
    (h : r.Meets P Q m i) : r.Meets P' Q' m i := by
  induction r generalizing m i with
  | done s a => exact hQ _ _ _ _ h
  | fault s f => exact hP _ _ _ _ _ h
  | stay s => exact hP _ _ _ _ _ h
  | wait s w drop resume ih =>
      obtain ⟨m', hp, hd, hr⟩ := h
      refine ⟨m', hP _ _ _ _ _ hp, fun now c => hP _ _ _ _ _ (hd now c), fun a now c => ?_⟩
      exact ih a now c (hr a now c)

/-- A run keeps a pact with other memos for its own. -/
theorem Meets.along {μ' : Type} (memo : μ → μ') {P : Pact μ σ} {P' : Pact μ' σ}
    {Q : μ → Start σ → α → σ → Prop} {Q' : μ' → Start σ → α → σ → Prop}
    (hP : ∀ m i p s m', P m i p s m' → P' (memo m) i p s (memo m'))
    (hQ : ∀ m i a s, Q m i a s → Q' (memo m) i a s) {r : Run σ α} {m : μ} {i : Start σ}
    (h : r.Meets P Q m i) : r.Meets P' Q' (memo m) i := by
  induction r generalizing m i with
  | done s a => exact hQ _ _ _ _ h
  | fault s e => exact hP _ _ _ _ _ h
  | stay s => exact hP _ _ _ _ _ h
  | wait s w drop resume ih =>
      obtain ⟨m', hp, hd, hr⟩ := h
      exact ⟨memo m', hP _ _ _ _ _ hp, fun now c => hP _ _ _ _ _ (hd now c),
        fun a now c => ih a now c (hr a now c)⟩

/-- So it does where its first stretch began earlier, if that is so of what is left of the stretch.
-/
theorem Meets.rebase {ν : Type} {P : Pact μ σ} {P' : Pact ν σ} {Q : μ → Start σ → α → σ → Prop}
    {Q' : ν → Start σ → α → σ → Prop} (e : μ → ν)
    (hP : ∀ m i p s m', P m i p s m' → P' (e m) i p s (e m'))
    (hQ : ∀ m i a s, Q m i a s → Q' (e m) i a s) {r : Run σ α} {m : μ} {i j : Start σ}
    (hPfirst : ∀ p s m', P m j p s m' → P' (e m) i p s (e m'))
    (hQfirst : ∀ a s, Q m j a s → Q' (e m) i a s) (h : r.Meets P Q m j) :
    r.Meets P' Q' (e m) i := by
  cases r with
  | done s a => exact hQfirst _ _ h
  | fault s f => exact hPfirst _ _ _ h
  | stay s => exact hPfirst _ _ _ h
  | wait s w drop resume =>
      obtain ⟨m', hp, hd, hr⟩ := h
      exact ⟨e m', hPfirst _ _ _ hp, fun now c => hP _ _ _ _ _ (hd now c),
        fun a now c => (hr a now c).along e hP hQ⟩

/-- A pact is kept that asks for nothing where the memo stays. -/
theorem meets_trivial {P : Pact μ σ} {Q : μ → Start σ → α → σ → Prop}
    (hP : ∀ m i p s, P m i p s m) (hQ : ∀ m i a s, Q m i a s) {r : Run σ α} {m : μ}
    {i : Start σ} : r.Meets P Q m i := by
  induction r generalizing m i with
  | done s a => exact hQ _ _ _ _
  | fault s f => exact hP _ _ _ _
  | stay s => exact hP _ _ _ _
  | wait s w drop resume ih =>
      exact ⟨m, hP _ _ _ _, fun now c => hP _ _ _ _, fun a now c => ih a now c⟩

theorem Meets.bind {P : Pact μ σ} {Q : μ → Start σ → α → σ → Prop}
    {Q' : μ → Start σ → β → σ → Prop} {f : α → Instant → σ → Run σ β}
    (hf : ∀ m i a s, Q m i a s → (f a i.now s).Meets P Q' m i)
    {r : Run σ α} {m : μ} {i : Start σ} (h : r.Meets P Q m i) :
    (r.bind f i.now).Meets P Q' m i := by
  induction r generalizing m i with
  | done s a => exact hf _ _ _ _ h
  | fault s e => exact h
  | stay s => exact h
  | wait s w drop resume ih =>
      obtain ⟨m', hp, hd, hr⟩ := h
      exact ⟨m', hp, hd, fun a now c => ih a now c (i := ⟨some ⟨w, a⟩, now, c⟩) (hr a now c)⟩

theorem Meets.guarded {P : Pact μ σ} {Q : μ → Start σ → α → σ → Prop} {undo : σ → σ}
    (hundo : ∀ m i s, P m i .drops s m → P m i .drops (undo s) m)
    {r : Run σ α} {m : μ} {i : Start σ} (h : r.Meets P Q m i) :
    (r.guarded undo).Meets P Q m i := by
  induction r generalizing m i with
  | done s a => exact h
  | fault s e => exact h
  | stay s => exact h
  | wait s w drop resume ih =>
      obtain ⟨m', hp, hd, hr⟩ := h
      exact ⟨m', hp, fun now c => hundo _ _ _ (hd now c), fun a now c => ih a now c (hr a now c)⟩

end Run

namespace Activity

/-- Started or gone on with where `pre` is known, every stretch of the activity keeps the pact, and
its answer comes with `post`. -/
structure Triple (P : Pact μ σ) (pre : μ → Start σ → σ → Prop) (x : Activity σ α)
    (post : μ → Start σ → α → σ → Prop) : Prop where
  meets : ∀ m i s, pre m i s → (x i.now s).Meets P post m i

/-- What is known before the activity is known at its end too. -/
def Maintains (P : Pact μ σ) (A : μ → Start σ → σ → Prop) (x : Activity σ α) : Prop :=
  Triple P A x fun m i _ s => A m i s

section Rules

variable {P : Pact μ σ} {pre : μ → Start σ → σ → Prop} {A : μ → Start σ → σ → Prop}

theorem Triple.conseq {pre' : μ → Start σ → σ → Prop} {post post' : μ → Start σ → α → σ → Prop}
    {x : Activity σ α} (h : Triple P pre x post) (hpre : ∀ m i s, pre' m i s → pre m i s)
    (hpost : ∀ m i a s, post m i a s → post' m i a s) : Triple P pre' x post' :=
  ⟨fun m i s hs => (h.meets m i s (hpre m i s hs)).mono (fun _ _ _ _ _ h => h) hpost⟩

/-- An activity that may begin in any state does so. -/
theorem Triple.begins {memo : μ} {post : μ → Start σ → α → σ → Prop} {x : Activity σ α}
    (h : Triple P (fun m i s => m = memo ∧ i.cue = none ∧ s = i.state) x post) (now : Instant)
    (s : σ) : (x now s).Meets P post memo ⟨none, now, s⟩ :=
  h.meets memo ⟨none, now, s⟩ s ⟨rfl, rfl, rfl⟩

theorem triple_pure {post : μ → Start σ → α → σ → Prop} {a : α}
    (h : ∀ m i s, pre m i s → post m i a s) : Triple P pre (pure a : Activity σ α) post := ⟨h⟩

theorem Triple.bind {M : μ → Start σ → α → σ → Prop} {post : μ → Start σ → β → σ → Prop}
    {x : Activity σ α} {f : α → Activity σ β} (hx : Triple P pre x M)
    (hf : ∀ a, Triple P (fun m i s => M m i a s) (f a) post) : Triple P pre (x >>= f) post :=
  ⟨fun m i s hs => (hx.meets m i s hs).bind fun m i a s h => (hf a).meets m i s h⟩

theorem Triple.map {post : μ → Start σ → β → σ → Prop} {x : Activity σ α} {f : α → β}
    (hx : Triple P pre x fun m i a s => post m i (f a) s) :
    Triple P pre (do return f (← x)) post :=
  Triple.bind hx fun _ => triple_pure fun _ _ _ h => h

theorem triple_now {post : μ → Start σ → Instant → σ → Prop}
    (h : ∀ m i s, pre m i s → post m i i.now s) : Triple P pre Activity.now post := ⟨h⟩

theorem triple_get {post : μ → Start σ → σ → σ → Prop}
    (h : ∀ m i s, pre m i s → post m i s s) : Triple P pre (get : Activity σ σ) post := ⟨h⟩

theorem triple_modify {post : μ → Start σ → PUnit → σ → Prop} {f : σ → σ}
    (h : ∀ m i s, pre m i s → post m i ⟨⟩ (f s)) :
    Triple P pre (modify f : Activity σ PUnit) post :=
  ⟨h⟩

theorem triple_step {post : μ → Start σ → α → σ → Prop} {f : Instant → σ → α × σ}
    (h : ∀ m i s, pre m i s → post m i (f i.now s).1 (f i.now s).2) :
    Triple P pre (Activity.step f) post := ⟨h⟩

theorem triple_change {post : μ → Start σ → Unit → σ → Prop} {f : Instant → σ → σ}
    (h : ∀ m i s, pre m i s → post m i () (f i.now s)) :
    Triple P pre (Activity.change f) post := ⟨h⟩

theorem triple_attempt {post : μ → Start σ → α → σ → Prop} {f : Instant → σ → Checked (α × σ)}
    (hf : ∀ m i s, pre m i s → P m i .faults s m)
    (h : ∀ m i s r, pre m i s → f i.now s = .ok r → post m i r.1 r.2) :
    Triple P pre (Activity.attempt f) post := by
  refine ⟨fun m i s hs => ?_⟩
  unfold Activity.attempt
  split
  · rename_i r hr
    exact h m i s r hs hr
  · exact hf m i s hs

/-- The same, where the pact asks what made the step fault. -/
theorem triple_attempt_of_error {post : μ → Start σ → α → σ → Prop}
    {f : Instant → σ → Checked (α × σ)}
    (hf : ∀ m i s e, pre m i s → f i.now s = .error e → P m i .faults s m)
    (h : ∀ m i s r, pre m i s → f i.now s = .ok r → post m i r.1 r.2) :
    Triple P pre (Activity.attempt f) post := by
  refine ⟨fun m i s hs => ?_⟩
  unfold Activity.attempt
  split
  · rename_i r hr
    exact h m i s r hs hr
  · rename_i e he
    exact hf m i s e hs he

theorem triple_await {w : Wait} {post : μ → Start σ → w.Answer → σ → Prop}
    (h : ∀ m i s, pre m i s → ∃ m', P m i (.waits w) s m' ∧
      (∀ now c, P m' ⟨none, now, c⟩ .drops c m') ∧
        ∀ a now c, post m' ⟨some ⟨w, a⟩, now, c⟩ a c) : Triple P pre (Activity.await w) post := ⟨h⟩

theorem Triple.guarded {post : μ → Start σ → α → σ → Prop} {undo : σ → σ} {x : Activity σ α}
    (hundo : ∀ m i s, P m i .drops s m → P m i .drops (undo s) m) (h : Triple P pre x post) :
    Triple P pre (x.guarded undo) post :=
  ⟨fun m i s hs => (h.meets m i s hs).guarded hundo⟩

theorem Triple.ite {c : Prop} [Decidable c] {post : μ → Start σ → α → σ → Prop}
    {x y : Activity σ α} (hx : c → Triple P pre x post) (hy : ¬c → Triple P pre y post) :
    Triple P pre (if c then x else y) post := by
  split
  · exact hx ‹c›
  · exact hy ‹¬c›

/-- What is known of the values at hand need not be asked of the state. -/
theorem Triple.of_fact {φ : Prop} {post : μ → Start σ → α → σ → Prop} {x : Activity σ α}
    (h : φ → Triple P pre x post) : Triple P (fun m i s => pre m i s ∧ φ) x post :=
  ⟨fun m i s hs => (h hs.2).meets m i s hs.1⟩

/-- What is known of some value at hand may be known of any. -/
theorem Triple.of_exists {γ : Type} {pre : γ → μ → Start σ → σ → Prop}
    {post : μ → Start σ → α → σ → Prop} {x : Activity σ α} (h : ∀ a, Triple P (pre a) x post) :
    Triple P (fun m i s => ∃ a, pre a m i s) x post := by
  refine ⟨fun m i s hs => ?_⟩
  obtain ⟨a, hs⟩ := hs
  exact (h a).meets m i s hs

/-- An activity goes on in the middle of a stretch as it would from a start of its own. -/
theorem Triple.rebase {ν : Type} {P' : Pact ν σ} {pre' : ν → Start σ → σ → Prop}
    {Q : μ → Start σ → α → σ → Prop} {Q' : ν → Start σ → α → σ → Prop} {x : Activity σ α}
    (h : Triple P pre x Q) (e : μ → ν) (hP : ∀ m i p s m', P m i p s m' → P' (e m) i p s (e m'))
    (hQ : ∀ m i a s, Q m i a s → Q' (e m) i a s)
    (hfirst : ∀ n i s, pre' n i s → ∃ m j, e m = n ∧ pre m j s ∧ j.now = i.now ∧
      (∀ p c m', P m j p c m' → P' n i p c (e m')) ∧ ∀ a c, Q m j a c → Q' n i a c) :
    Triple P' pre' x Q' := by
  refine ⟨fun n i s hs => ?_⟩
  obtain ⟨m, j, rfl, hpre, hnow, hPfirst, hQfirst⟩ := hfirst n i s hs
  rw [← hnow]
  exact (h.meets m j s hpre).rebase e hP hQ hPfirst hQfirst

/-! ## Maintaining -/

theorem Maintains.map {x : Activity σ α} {f : α → β} (hx : Maintains P A x) :
    Maintains P A (do return f (← x)) := Triple.map hx

theorem Maintains.bind {x : Activity σ α} {f : α → Activity σ β} (hx : Maintains P A x)
    (hf : ∀ a, Maintains P A (f a)) : Maintains P A (x >>= f) := Triple.bind hx hf

theorem maintains_pure (a : α) : Maintains P A (pure a : Activity σ α) :=
  triple_pure fun _ _ _ h => h

theorem maintains_now : Maintains P A (Activity.now : Activity σ Instant) :=
  triple_now fun _ _ _ h => h

theorem maintains_get : Maintains P A (get : Activity σ σ) := triple_get fun _ _ _ h => h

theorem Maintains.ite {c : Prop} [Decidable c] {x y : Activity σ α} (hx : Maintains P A x)
    (hy : Maintains P A y) : Maintains P A (if c then x else y) :=
  Triple.ite (fun _ => hx) fun _ => hy

theorem Maintains.or {B : μ → Start σ → σ → Prop} {x : Activity σ α} (hA : Maintains P A x)
    (hB : Maintains P B x) : Maintains P (fun m i s => A m i s ∨ B m i s) x := by
  refine ⟨fun m i s h => ?_⟩
  rcases h with h | h
  · exact (hA.meets m i s h).mono (fun _ _ _ _ _ h => h) fun m i a s h => .inl h
  · exact (hB.meets m i s h).mono (fun _ _ _ _ _ h => h) fun m i a s h => .inr h

end Rules

/-! ## Work on a part -/

/-- What a stretch of work on a part does: it moves the part, and waits only for what it may. -/
def Moving (may : Wait → Prop) (I : σ → σ → Prop) : Pact Unit σ :=
  fun _ i p s _ => (∀ w, p = .waits w → may w) ∧ I i.state s

/-- Every stretch moves the part as said. -/
def Moves (may : Wait → Prop) (I : σ → σ → Prop) (x : Activity σ α) : Prop :=
  Maintains (Moving may I) (fun _ i s => I i.state s) x

section Parts

variable {may : Wait → Prop} {I : σ → σ → Prop}

theorem moves_modify {f : σ → σ} (hI : ∀ s s', I s s' → I s (f s')) :
    Moves may I (modify f : Activity σ PUnit) := triple_modify fun _ _ _ h => hI _ _ h

theorem moves_step {f : Instant → σ → α × σ} (hI : ∀ now s s', I s s' → I s (f now s').2) :
    Moves may I (Activity.step f) := triple_step fun _ i _ h => hI i.now _ _ h

theorem moves_attempt {f : Instant → σ → Checked (α × σ)}
    (hI : ∀ now s s' r, I s s' → f now s' = .ok r → I s r.2) :
    Moves may I (Activity.attempt f) :=
  triple_attempt (fun _ _ _ h => ⟨nofun, h⟩) fun _ i _ r h hr => hI i.now _ _ r h hr

theorem moves_await (hI : ∀ s, I s s) {w : Wait} (hw : may w) :
    Moves may I (Activity.await w) := by
  refine triple_await fun _ _ _ h => ⟨(), ⟨?_, h⟩, fun _ c => ⟨nofun, hI c⟩, fun _ _ c => hI c⟩
  intro w' heq
  cases heq
  exact hw

theorem moves_sleep (hI : ∀ s, I s s) {span : Span} (hw : may (.sleep span)) :
    Moves may I (Activity.sleep span) :=
  Maintains.ite (moves_await hI hw) (maintains_pure ())

/-- What an assertion needs so that work on a part maintains it. -/
structure Carries (P : Pact μ τ) (A : μ → Start τ → τ → Prop) (get : τ → σ) (put : τ → σ → τ)
    (may : Wait → Prop) (I : σ → σ → Prop) : Prop where
  moves : ∀ m i t s, A m i t → I (get t) s → A m i (put t s)
  faults : ∀ m i t, A m i t → P m i .faults t m
  stays : ∀ m i t, A m i t → P m i .stays t m
  waits : ∀ m i t w, A m i t → may w → ∃ m', P m i (.waits w) t m' ∧
    (∀ now t s, I (get t) s → P m' ⟨none, now, t⟩ .drops (put t s) m') ∧
      ∀ a now t, A m' ⟨some ⟨w, a⟩, now, t⟩ t

theorem Carries.meets {P : Pact μ τ} {A : μ → Start τ → τ → Prop} {get : τ → σ}
    {put : τ → σ → τ} (h : Carries P A get put may I) {r : Run σ α} {j : Start σ}
    (hr : r.Meets (Moving may I) (fun _ i _ s => I i.state s) () j) {m : μ} {i : Start τ} {t : τ}
    (hj : j.state = get t) (ht : A m i t) :
    (r.within get put t).Meets P (fun m i _ t => A m i t) m i := by
  induction r generalizing m i j t with
  | done s a => exact h.moves m i t s ht (hj ▸ hr)
  | fault s e => exact h.faults m i _ (h.moves m i t s ht (hj ▸ hr.2))
  | stay s => exact h.stays m i _ (h.moves m i t s ht (hj ▸ hr.2))
  | wait s w drop resume ih =>
      obtain ⟨_, ⟨hw, hs⟩, hdrop, hresume⟩ := hr
      have hput : A m i (put t s) := h.moves m i t s ht (hj ▸ hs)
      obtain ⟨m', hp, hd, ha⟩ := h.waits m i _ w hput (hw w rfl)
      -- The part may change during the wait, so the next stretch begins from what it is then.
      refine ⟨m', hp, fun now c => hd now c _ (hdrop now (get c)).2, fun a now c => ?_⟩
      exact ih a now (get c) (hresume a now (get c)) rfl (ha a now c)

/-- Work on a part maintains what each of its moves maintains. -/
theorem Carries.within {P : Pact μ τ} {A : μ → Start τ → τ → Prop} {get : τ → σ}
    {put : τ → σ → τ} (h : Carries P A get put may I) (hI : ∀ s, I s s) {x : Activity σ α}
    (hx : Moves may I x) : Maintains P A (x.within get put) :=
  ⟨fun _ i t ht => h.meets (j := ⟨i.cue, i.now, get t⟩) (hx.meets () _ _ (hI _)) rfl ht⟩

/-- Work on a part moves the whole as putting the part back does. -/
theorem moves_within {get : τ → σ} {put : τ → σ → τ} {J : τ → τ → Prop} (hJ : ∀ t, J t t)
    (hput : ∀ t t' s, J t t' → J t (put t' s)) (x : Activity σ α) :
    Moves (fun _ => True) J (x.within get put) := by
  have hcarries : Carries (Moving (fun _ => True) J) (fun _ i t => J i.state t) get put
      (fun _ => True) fun _ _ => True :=
    ⟨fun _ _ t s h _ => hput _ t s h, fun _ _ _ h => ⟨nofun, h⟩, fun _ _ _ h => ⟨nofun, h⟩,
      fun _ _ _ _ h _ => ⟨(), ⟨fun _ _ => trivial, h⟩, fun _ t s _ => ⟨nofun, hput t t s (hJ t)⟩,
        fun _ _ t => hJ t⟩⟩
  have hmoves : Moves (fun _ => True) (fun _ _ => True) x :=
    ⟨fun _ _ _ _ => Run.meets_trivial (fun _ _ _ _ => ⟨fun _ _ => trivial, trivial⟩)
      fun _ _ _ _ => trivial⟩
  exact hcarries.within (fun _ => trivial) hmoves

end Parts

/-! ## A part and the whole -/

/-- The stretch begins anew, or goes on from a wait that may be. -/
def After (may : Wait → Prop) (i : Start σ) : Prop := ∀ q, i.cue = some q → may q.1

/-- The pact, with no wait but those that may be. -/
def Awaiting (may : Wait → Prop) (P : Pact μ σ) : Pact μ σ :=
  fun m i p s m' => (P m i p s m' ∧ ∀ w, p = .waits w → may w) ∧ After may i

theorem meets_awaiting {may : Wait → Prop} {I : σ → σ → Prop} {P : Pact μ σ}
    {Q : μ → Start σ → α → σ → Prop} {R : Unit → Start σ → α → σ → Prop} {r : Run σ α}
    {j : Start σ} (hr : r.Meets (Moving may I) R () j) {m : μ} {i : Start σ}
    (h : r.Meets P Q m i) (hi : After may i) :
    r.Meets (Awaiting may P) (fun m i a s => Q m i a s ∧ After may i) m i := by
  induction r generalizing m i j with
  | done s a => exact ⟨h, hi⟩
  | fault s e => exact ⟨⟨h, nofun⟩, hi⟩
  | stay s => exact ⟨⟨h, nofun⟩, hi⟩
  | wait s w drop resume ih =>
      obtain ⟨_, ⟨hw, -⟩, -, hmoves⟩ := hr
      obtain ⟨m', hp, hd, hresume⟩ := h
      refine ⟨m', ⟨⟨hp, hw⟩, hi⟩, fun now c => ⟨⟨hd now c, nofun⟩, nofun⟩, fun a now c => ?_⟩
      refine ih a now c (hmoves a now c) (hresume a now c) fun q hq => ?_
      obtain rfl := Option.some.inj hq
      exact hw w rfl

/-- What is known of the waits of an activity can be had beside a pact that it keeps. -/
theorem Triple.awaiting {may : Wait → Prop} {I : σ → σ → Prop} {P : Pact μ σ}
    {pre : μ → Start σ → σ → Prop} {Q : μ → Start σ → α → σ → Prop} {x : Activity σ α}
    (hx : Triple P pre x Q) (hm : Moves may I x) (hI : ∀ s, I s s) :
    Triple (Awaiting may P) (fun m i s => pre m i s ∧ After may i) x
      fun m i a s => Q m i a s ∧ After may i :=
  ⟨fun m i s h =>
    meets_awaiting (hm.meets () ⟨none, i.now, s⟩ s (hI s)) (hx.meets m i s h.1) h.2⟩

section Whole

variable {ν : Type} {get : τ → σ} {put : τ → σ → τ} {memo : μ → ν} {P : Pact μ σ} {P' : Pact ν τ}
  {F : Start τ → τ → Prop}

/-- Work on a part keeps a pact of the whole if what the part's pact says of the part implies it. Of
a drop it is known that the part alone has changed. -/
theorem meets_whole (hget : ∀ t s, get (put t s) = s) (hF : ∀ i t s, F i t → F i (put t s))
    (hstart : ∀ i, i.cue ≠ none → F i i.state) (hP : ∀ m i p t m', p ≠ .drops → F i t →
      P m (i.of get) p (get t) m' → P' (memo m) i p t (memo m'))
    (hdrops : ∀ m now t s, P m ⟨none, now, get t⟩ .drops s m →
      P' (memo m) ⟨none, now, t⟩ .drops (put t s) (memo m))
    {Q : μ → Start σ → α → σ → Prop} {r : Run σ α} {m : μ} {i : Start τ} {t : τ}
    (h : r.Meets P Q m (i.of get)) (ht : F i t) :
    (r.within get put t).Meets P' (fun n i a t => ∃ m, n = memo m ∧ Q m (i.of get) a (get t) ∧
      F i t) (memo m) i := by
  induction r generalizing m i t with
  | done s a => exact ⟨m, rfl, (hget t s).symm ▸ h, hF i t s ht⟩
  | fault s e => exact hP _ _ _ _ _ nofun (hF i t s ht) ((hget t s).symm ▸ h)
  | stay s => exact hP _ _ _ _ _ nofun (hF i t s ht) ((hget t s).symm ▸ h)
  | wait s w drop resume ih =>
      obtain ⟨m', hp, hd, hresume⟩ := h
      exact ⟨memo m', hP _ _ _ _ _ nofun (hF i t s ht) ((hget t s).symm ▸ hp),
        fun now c => hdrops _ now c _ (hd now (get c)),
        fun a now c => ih a now (get c) (hresume a now (get c)) (hstart _ nofun)⟩

theorem meets_within (hget : ∀ t s, get (put t s) = s) (hF : ∀ i t s, F i t → F i (put t s))
    (hstart : ∀ i, i.cue ≠ none → F i i.state) (hP : ∀ m i p t m', (p ≠ .drops → F i t) →
      P m (i.of get) p (get t) m' → P' (memo m) i p t (memo m'))
    {Q : μ → Start σ → α → σ → Prop} {r : Run σ α} {m : μ} {i : Start τ} {t : τ}
    (h : r.Meets P Q m (i.of get)) (ht : F i t) :
    (r.within get put t).Meets P' (fun n i a t => ∃ m, n = memo m ∧ Q m (i.of get) a (get t) ∧
      F i t) (memo m) i := by
  refine meets_whole hget hF hstart (fun m i p t m' _ ht hp => hP m i p t m' (fun _ => ht) hp)
    (fun m now t s hd => hP _ _ _ _ _ (fun h => absurd rfl h) ?_) h ht
  rw [hget]
  exact hd

/-- Work on a part keeps a pact of the whole if what the part's pact says of the part implies it.
Of the rest only what a change of the part leaves true is known. -/
theorem Triple.within (hget : ∀ t s, get (put t s) = s) (hF : ∀ i t s, F i t → F i (put t s))
    (hstart : ∀ i, i.cue ≠ none → F i i.state) (hP : ∀ m i p t m', (p ≠ .drops → F i t) →
      P m (i.of get) p (get t) m' → P' (memo m) i p t (memo m'))
    {pre : μ → Start σ → σ → Prop} {Q : μ → Start σ → α → σ → Prop} {x : Activity σ α}
    (hx : Triple P pre x Q) :
    Triple P' (fun n i t => ∃ m, n = memo m ∧ pre m (i.of get) (get t) ∧ F i t)
      (x.within get put) fun n i a t => ∃ m, n = memo m ∧ Q m (i.of get) a (get t) ∧ F i t := by
  refine ⟨fun n i t hn => ?_⟩
  obtain ⟨m, rfl, hpre, ht⟩ := hn
  exact meets_within hget hF hstart hP (hx.meets m (i.of get) (get t) hpre) ht

end Whole

end Activity

end ClientSession
