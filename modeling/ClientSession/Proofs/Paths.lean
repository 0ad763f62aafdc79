import ClientSession.Proofs.Stretches

/-!
# Paths of a run

A run is resumed again and again, each time with an answer, at a reading of the clock and in the
state that it finds. A path tells of these halts one after another, as far as the run has come. What
may happen to the state while the run waits is a relation between the state that it left and the one
that it finds.

- `Run.Path.of_bind`: a path of work that goes on has come to the end of the first part, or not.
- `Run.Path.arrive`, `Run.Path.meets`: wherever a path has come, the run keeps the pact that it kept
  from the start.
- `Run.Path.sum`: what the stretches of a path do to the state adds up.
- `Activity.Moves.waits`, `Activity.Moves.sum`: paths of work on a part.
- `Run.exists_path`: the path of a run that is given its answers.
-/

namespace ClientSession

variable {μ σ α β γ : Type}

/-- A wait that is over: the state that the run left, how the wait ended, and when and in which
state the run went on. -/
structure Halt (σ : Type) where
  left : σ
  cue : Cue
  now : Instant
  found : σ

namespace Run

/-- From a run that goes on at an instant through these halts to what is left of it, and to the
instant of its last stretch. -/
inductive Path (between : σ → σ → Prop) :
    Run σ α → Instant → List (Halt σ) → Run σ α → Instant → Prop where
  | here {r : Run σ α} {now : Instant} : Path between r now [] r now
  | on {s c : σ} {w : Wait} {drop : σ → σ} {resume : w.Answer → Instant → σ → Run σ α}
      {since now last : Instant} {a : w.Answer} {hs : List (Halt σ)} {r : Run σ α}
      (hb : between s c) (h : Path between (resume a now c) now hs r last) :
      Path between (.wait s w drop resume) since (⟨s, ⟨w, a⟩, now, c⟩ :: hs) r last

/-- The run has ended with an answer. -/
def Ends : Run σ α → Prop
  | .done _ _ => True
  | _ => False

theorem bind_assoc (r : Run σ α) (f : α → Instant → σ → Run σ β) (g : β → Instant → σ → Run σ γ)
    (now : Instant) :
    (r.bind f now).bind g now = r.bind (fun a now s => (f a now s).bind g now) now := by
  induction r generalizing now with
  | done s a => rfl
  | fault s e => rfl
  | stay s => rfl
  | wait s w drop resume ih =>
      simp only [bind]
      congr
      funext a now c
      exact ih a now c now

/-- A run that goes on with more work waits where its first part does. -/
theorem wait_of_bind {r : Run σ α} {f : α → Instant → σ → Run σ β} {now : Instant} {s : σ}
    {w : Wait} {drop : σ → σ} {resume : w.Answer → Instant → σ → Run σ β} (hends : ¬r.Ends)
    (h : .wait s w drop resume = r.bind f now) : ∃ resume', r = .wait s w drop resume' := by
  cases r with
  | done s a => exact absurd trivial hends
  | fault s e => cases h
  | stay s => cases h
  | wait s w drop resume' =>
      cases h
      exact ⟨resume', rfl⟩

/-! ## Parts of a path -/

variable {between : σ → σ → Prop} {r : Run σ α} {r' : Run σ β} {f : α → Instant → σ → Run σ β}
  {now last : Instant} {hs : List (Halt σ)}

/-- Where a path of work has come that goes on with `f` once its first part has ended. -/
inductive Parted (between : σ → σ → Prop) (f : α → Instant → σ → Run σ β) (r : Run σ α)
    (now : Instant) (hs : List (Halt σ)) (last : Instant) : Run σ β → Prop where
  | within {q : Run σ α} (h : Path between r now hs q last) (hends : ¬q.Ends) :
      Parted between f r now hs last (q.bind f last)
  | beyond {hs₁ hs₂ : List (Halt σ)} {s : σ} {a : α} {mid : Instant} {r' : Run σ β}
      (heq : hs = hs₁ ++ hs₂) (h : Path between r now hs₁ (.done s a) mid)
      (h' : Path between (f a mid s) mid hs₂ r' last) : Parted between f r now hs last r'

theorem Path.of_bind (h : Path between (r.bind f now) now hs r' last) :
    Parted between f r now hs last r' := by
  induction r generalizing now hs with
  | done s a => exact .beyond rfl .here h
  | fault s e =>
      cases h
      exact .within (q := .fault s e) .here id
  | stay s =>
      cases h
      exact .within (q := .stay s) .here id
  | wait s w drop resume ih =>
      cases h with
      | here => exact .within (q := .wait s w drop resume) .here id
      | @on _ c _ _ _ _ now _ a _ _ hb h =>
          have hparted := ih a now c h
          clear h
          cases hparted with
          | within h hends => exact .within (.on hb h) hends
          | beyond heq h h' => exact .beyond (heq ▸ rfl) (.on hb h) h'

theorem Path.of_guarded {r' : Run σ α} {undo : σ → σ}
    (h : Path between (r.guarded undo) now hs r' last) :
    ∃ r₁, Path between r now hs r₁ last ∧ r' = r₁.guarded undo := by
  induction r generalizing now hs with
  | done s a =>
      cases h
      exact ⟨.done s a, .here, rfl⟩
  | fault s e =>
      cases h
      exact ⟨.fault s e, .here, rfl⟩
  | stay s =>
      cases h
      exact ⟨.stay s, .here, rfl⟩
  | wait s w drop resume ih =>
      cases h with
      | here => exact ⟨.wait s w drop resume, .here, rfl⟩
      | on hb h =>
          obtain ⟨r₁, h, heq⟩ := ih _ _ _ h
          exact ⟨r₁, .on hb h, heq⟩

/-! ## What is known along a path -/

variable {P : Pact μ σ} {Q : μ → Start σ → α → σ → Prop} {r' : Run σ α} {m : μ} {i : Start σ}

/-- Wherever a path has come, the run goes on keeping the pact, from a state that follows on the one
that it began in as the waiting stretches and what happens between them make it. -/
theorem Path.arrive {S : σ → σ → Prop} (hrefl : ∀ s, S s s)
    (hS : ∀ m i w s m' c u, P m i (.waits w) s m' → between s c → S c u → S i.state u)
    (h : Path between r i.now hs r' last) (hr : r.Meets P Q m i) :
    ∃ m' i', i'.now = last ∧ S i.state i'.state ∧ r'.Meets P Q m' i' := by
  induction hs generalizing r m i with
  | nil =>
      cases h
      exact ⟨m, i, rfl, hrefl i.state, hr⟩
  | cons x hs ih =>
      cases h with
      | @on s c w drop resume _ now _ a _ _ hb h =>
          obtain ⟨m', hp, -, hresume⟩ := hr
          obtain ⟨n, j, hnow, hc, hmeets⟩ := ih (i := ⟨some ⟨w, a⟩, now, c⟩) h (hresume a now c)
          exact ⟨n, j, hnow, hS _ _ _ _ _ _ _ hp hb hc, hmeets⟩

/-- Wherever a path has come, the run goes on keeping the pact. -/
theorem Path.meets (h : Path between r i.now hs r' last) (hr : r.Meets P Q m i) :
    ∃ m' i', i'.now = last ∧ r'.Meets P Q m' i' := by
  obtain ⟨m', i', hnow, -, hmeets⟩ := h.arrive (S := fun _ _ => True) (fun _ => trivial)
    (fun _ _ _ _ _ _ _ _ _ _ => trivial) hr
  exact ⟨m', i', hnow, hmeets⟩

/-- A path halts only at waits that the pact lets the run have. -/
theorem Path.waits {may : Wait → Prop} (hP : ∀ m i w s m', P m i (.waits w) s m' → may w)
    (h : Path between r i.now hs r' last) (hr : r.Meets P Q m i) : ∀ x ∈ hs, may x.cue.1 := by
  induction hs generalizing r m i with
  | nil => exact fun _ hx => absurd hx List.not_mem_nil
  | cons x hs ih =>
      cases h with
      | @on s c w drop resume _ now _ a _ _ hb h =>
          obtain ⟨m', hp, -, hresume⟩ := hr
          intro y hy
          rcases List.mem_cons.mp hy with rfl | hy
          · exact hP _ _ _ _ _ hp
          · exact ih (i := ⟨some ⟨w, a⟩, now, c⟩) h (hresume a now c) y hy

/-- So is the wait that it has come to. -/
theorem Path.last_wait {may : Wait → Prop} (hP : ∀ m i w s m', P m i (.waits w) s m' → may w)
    {s : σ} {w : Wait} {drop : σ → σ} {resume : w.Answer → Instant → σ → Run σ α}
    (h : Path between r i.now hs (.wait s w drop resume) last) (hr : r.Meets P Q m i) : may w := by
  obtain ⟨_, _, -, _, hp, -⟩ := h.meets hr
  exact hP _ _ _ _ _ hp

/-- What the stretches of a path do to the state adds up, whatever the answers that they go on with;
of a stretch that faults nothing need be known. -/
theorem Path.sum {T : List Cue → σ → σ → Prop}
    (hT : ∀ q q' s t t' u, T q s t → between t t' → T q' t' u → T (q ++ q') s u)
    (hP : ∀ m i p s m', P m i p s m' → p ≠ .faults → T i.cue.toList i.state s)
    (hQ : ∀ m i a s, Q m i a s → T i.cue.toList i.state s)
    (h : Path between r i.now hs r' last) (hr : r.Meets P Q m i)
    (hfault : ∀ s e, r' ≠ .fault s e) :
    T (i.cue.toList ++ hs.map (·.cue)) i.state r'.state := by
  induction hs generalizing r m i with
  | nil =>
      cases h
      rw [List.map_nil, List.append_nil]
      cases r' with
      | done s a => exact hQ _ _ _ _ hr
      | fault s e => exact absurd rfl (hfault s e)
      | stay s => exact hP _ _ _ _ _ hr nofun
      | wait s w drop resume =>
          obtain ⟨m', hp, -, -⟩ := hr
          exact hP _ _ _ _ _ hp nofun
  | cons x hs ih =>
      cases h with
      | @on s c w drop resume _ now _ a _ _ hb h =>
          obtain ⟨m', hp, -, hresume⟩ := hr
          have hrest := ih (i := ⟨some ⟨w, a⟩, now, c⟩) h (hresume a now c)
          exact hT _ _ _ _ _ _ (hP _ _ _ _ _ hp nofun) hb hrest

/-! ## Paths that are found -/

/-- The halts of a run that is given these answers and finds the state as it left it, and where it
comes to. -/
def follow : Run σ α → Instant → List (Instant × ((w : Wait) → w.Answer)) →
    List (Halt σ) × Run σ α × Instant
  | .wait s w _ resume, _, (now, answer) :: answers =>
    let rest := (resume (answer w) now s).follow now answers
    (⟨s, ⟨w, answer w⟩, now, s⟩ :: rest.1, rest.2)
  | r, now, _ => ([], r, now)

theorem Path.follow (hb : ∀ s, between s s) (r : Run σ α) (now : Instant)
    (answers : List (Instant × ((w : Wait) → w.Answer))) :
    Path between r now (r.follow now answers).1 (r.follow now answers).2.1
      (r.follow now answers).2.2 := by
  induction answers generalizing r now with
  | nil => cases r <;> exact .here
  | cons a answers ih =>
      cases r with
      | wait s w drop resume => exact .on (hb s) (ih _ _)
      | done s a => exact .here
      | fault s e => exact .here
      | stay s => exact .here

/-- The run with these answers comes to where the test passes. -/
def comesTo (r : Run σ α) (now : Instant) (answers : List (Instant × ((w : Wait) → w.Answer)))
    (test : List (Halt σ) → Run σ α → Instant → Bool) : Bool :=
  test (r.follow now answers).1 (r.follow now answers).2.1 (r.follow now answers).2.2

theorem exists_path (hb : ∀ s, between s s) {r : Run σ α} {now : Instant}
    {answers : List (Instant × ((w : Wait) → w.Answer))}
    {test : List (Halt σ) → Run σ α → Instant → Bool} (h : r.comesTo now answers test = true) :
    ∃ hs r' last, Path between r now hs r' last ∧ test hs r' last = true :=
  ⟨_, _, _, .follow hb r now answers, h⟩

/-- The run waits, and the test passes on the state that it has left and on what drops it. -/
def waitsSo (test : σ → (σ → σ) → Bool) : Run σ α → Bool
  | .wait s _ drop _ => test s drop
  | _ => false

theorem wait_of_waitsSo {r : Run σ α} {test : σ → (σ → σ) → Bool} (h : r.waitsSo test = true) :
    ∃ s w drop resume, r = .wait s w drop resume ∧ test s drop = true := by
  cases r with
  | wait s w drop resume => exact ⟨s, w, drop, resume, rfl, h⟩
  | done s a => cases h
  | fault s e => cases h
  | stay s => cases h

/-- The run has ended, and the test passes on its answer. -/
def endsSo (test : α → Bool) : Run σ α → Bool
  | .done _ a => test a
  | _ => false

theorem done_of_endsSo {r : Run σ α} {test : α → Bool} (h : r.endsSo test = true) :
    ∃ s a, r = .done s a ∧ test a = true := by
  cases r with
  | done s a => exact ⟨s, a, rfl, h⟩
  | fault s e => cases h
  | stay s => cases h
  | wait s w drop resume => cases h

end Run

namespace Activity

/-! ## Paths of work on a part -/

variable {may : Wait → Prop} {I between : σ → σ → Prop} {x : Activity σ α} {r : Run σ α} {s : σ}
  {now last : Instant} {hs : List (Halt σ)}

/-- Such work halts only where it may. -/
theorem Moves.waits (hx : Moves may I x) (hI : ∀ s, I s s)
    (h : Run.Path between (x now s) now hs r last) : ∀ y ∈ hs, may y.cue.1 :=
  Run.Path.waits (i := ⟨none, now, s⟩) (fun _ _ w _ _ hp => hp.1 w rfl) h
    (hx.meets () ⟨none, now, s⟩ s (hI s))

/-- The wait that it has come to may be, too. -/
theorem Moves.last_wait (hx : Moves may I x) (hI : ∀ s, I s s) {s' : σ} {w : Wait} {drop : σ → σ}
    {resume : w.Answer → Instant → σ → Run σ α}
    (h : Run.Path between (x now s) now hs (.wait s' w drop resume) last) : may w :=
  Run.Path.last_wait (i := ⟨none, now, s⟩) (fun _ _ w _ _ hp => hp.1 w rfl) h
    (hx.meets () ⟨none, now, s⟩ s (hI s))

/-- What it does and what happens meanwhile adds up. -/
theorem Moves.sum (hx : Moves may I x) (hI : ∀ s, I s s)
    (htrans : ∀ s t t' u, I s t → between t t' → I t' u → I s u)
    (h : Run.Path between (x now s) now hs r last) (hfault : ∀ s' e, r ≠ .fault s' e) :
    I s r.state :=
  Run.Path.sum (T := fun _ => I) (i := ⟨none, now, s⟩) (fun _ _ => htrans)
    (fun _ _ _ _ _ hp _ => hp.2) (fun _ _ _ _ hq => hq) h (hx.meets () ⟨none, now, s⟩ s (hI s))
    hfault

end Activity

end ClientSession
