import ClientSession.Proofs.Stretches
import ClientSession.Tally

/-!
# Courses

Callers ask for work on one state, and the work that they start beside themselves is carried out by
tasks. What is begun and has not ended is in flight. A course is what happens at a workplace in any
order: a caller begins, a task begins, a wait ends with any answer, or something in flight is
dropped. Each of these is a moment of the course, at a reading of the clock of its own.

A task that is stopped does not go on. A caller that faults takes the workplace down: no moment
follows.

- `Course.forall_iff`: what all states of a course have, by what each of its moments does.
- `Workplace.Each.settle`: what all flights have, by what a stretch leaves of its own.
- `Rules.KeptBy.course`: rules that the stretches of all work keep are kept by every moment of every
  course.
- `Workplace.exists_course`: a course that is found by playing moves.
-/

namespace ClientSession

/-- What callers may ask for, what tasks carry out, and what becomes of the orders to start and stop
tasks that a state holds. -/
structure Workplace (σ κ ρ ι ν : Type) where
  call : κ → Activity σ ρ
  perform : ι → Activity σ (Option ι)
  goesBy : ι → ν → Bool
  orders : σ → List (Command ι ν)
  /-- The state once its orders have been heeded. -/
  heeded : σ → σ
  /-- The state after a task has faulted. -/
  abandon : σ → ι → σ

inductive Work (κ ι : Type) where
  | call (ask : κ)
  | job (job : ι)

def Work.isCall {κ ι : Type} : Work κ ι → Bool
  | .call _ => true
  | .job _ => false

/-- How work ends: a caller gets an answer, a task ends or starts over. -/
inductive Ending (ρ ι : Type) where
  | answers (answer : ρ)
  | leaves
  | again (job : ι)

/-- A run that waits. -/
structure Waiting (σ α : Type) where
  wait : Wait
  drop : σ → σ
  resume : wait.Answer → Instant → σ → Run σ α

/-- Work that has not ended; it waits if it was begun. -/
structure Flight (σ κ ρ ι : Type) where
  number : Nat
  work : Work κ ι
  stopped : Bool
  waiting : Option (Waiting σ (Ending ρ ι))

/-- A state and what is in flight; numbers are given in the order in which work was asked for. -/
structure Scene (σ κ ρ ι : Type) where
  state : σ
  flights : List (Flight σ κ ρ ι)
  next : Nat

/-- How a stretch ended. -/
inductive Result (α : Type) where
  | ended (answer : α)
  | paused (pause : Pause)

/-- One stretch of a course: what it was a stretch of, where it started, how it ended, the state
that it left, and the scene after it. -/
structure Moment (σ κ ρ ι : Type) where
  number : Nat
  work : Work κ ι
  start : Start σ
  result : Result (Ending ρ ι)
  left : σ
  after : Scene σ κ ρ ι

/-- What can come next: a caller asks for something, a task begins, or a wait ends. -/
inductive Move (κ : Type) where
  | ask (ask : κ)
  | begin (number : Nat)
  | reply (number : Nat) (answer : (w : Wait) → w.Answer)

/-- An answer to every wait, by what the service and the issuer of tokens answer. -/
def Wait.answer (outcome : TransportOutcome) (issued : Except IssueFailure IssuedToken) :
    (w : Wait) → w.Answer
  | .sleep _ => ()
  | .call _ => outcome
  | .deliver _ => .ok ()
  | .token => issued
  | .turn _ => ()

variable {σ κ ρ ι ν μ : Type}

def Run.result {α : Type} : Run σ α → Result α
  | .done _ a => .ended a
  | .fault _ _ => .paused .faults
  | .stay _ => .paused .stays
  | .wait _ w _ _ => .paused (.waits w)

/-- The stretch faulted. -/
def Result.isFault {α : Type} : Result α → Bool
  | .paused .faults => true
  | _ => false

/-- What a stretch leaves of a flight, if it goes on. -/
def Flight.left? (f : Flight σ κ ρ ι) : Run σ (Ending ρ ι) → Option (Flight σ κ ρ ι)
  | .done _ (.again j) => some { f with work := .job j, waiting := none }
  | .stay _ => some f
  | .wait _ w drop resume => some { f with waiting := some ⟨w, drop, resume⟩ }
  | _ => none

/-- What is undone when the work is dropped. -/
def Flight.undo (f : Flight σ κ ρ ι) (c : σ) : σ :=
  match f.waiting with
  | some x => x.drop c
  | none => c

namespace Workplace

variable (W : Workplace σ κ ρ ι ν)

def carryOut : Work κ ι → Activity σ (Ending ρ ι)
  | .call k => do return .answers (← W.call k)
  | .job j => do
    match ← W.perform j with
    | some j => return .again j
    | none => return .leaves

/-- A scene in which nothing is in flight. -/
def idle (c : σ) : Scene σ κ ρ ι := ⟨c, [], 0⟩

/-- The flight of a job that is known by a name is stopped. -/
def halt (name : ν) (f : Flight σ κ ρ ι) : Flight σ κ ρ ι :=
  match f.work with
  | .call _ => f
  | .job j => if W.goesBy j name then { f with stopped := true } else f

def obey (s : Scene σ κ ρ ι) : Command ι ν → Scene σ κ ρ ι
  | .start j =>
    { s with flights := s.flights ++ [⟨s.next, .job j, false, none⟩], next := s.next + 1 }
  | .stop name => { s with flights := s.flights.map (W.halt name) }

/-- The scene with another state, whose orders are heeded. -/
def heed (s : Scene σ κ ρ ι) (c : σ) : Scene σ κ ρ ι :=
  (W.orders c).foldl W.obey { s with state := W.heeded c }

/-- The scene without a flight. -/
def land (s : Scene σ κ ρ ι) (n : Nat) : Scene σ κ ρ ι :=
  { s with flights := s.flights.filter fun f => f.number ≠ n }

/-- The scene with a flight in place of the one of its number. -/
def keep (s : Scene σ κ ρ ι) (f : Flight σ κ ρ ι) : Scene σ κ ρ ι :=
  { s with flights := (land s f.number).flights ++ [f] }

/-- The scene after a stretch of a flight; a caller that faults leaves none. -/
def settle (s : Scene σ κ ρ ι) (f : Flight σ κ ρ ι) :
    Run σ (Ending ρ ι) → Option (Scene σ κ ρ ι)
  | .done c (.answers _) => some (W.heed (land s f.number) c)
  | .done c .leaves => some (W.heed (land s f.number) c)
  | .done c (.again j) => some (W.heed (keep s { f with work := .job j, waiting := none }) c)
  | .fault c _ =>
    match f.work with
    | .call _ => none
    | .job j => some (W.heed (land s f.number) (W.abandon c j))
  | .stay c => some (W.heed (keep s f) c)
  | .wait c w drop resume => some (W.heed (keep s { f with waiting := some ⟨w, drop, resume⟩ }) c)

/-- What may happen next. -/
inductive Step (s : Scene σ κ ρ ι) : Moment σ κ ρ ι → Prop where
  | call (k : κ) (now : Instant) (s' : Scene σ κ ρ ι)
      (h : W.settle { s with next := s.next + 1 } ⟨s.next, .call k, false, none⟩
        (W.carryOut (.call k) now s.state) = some s') :
      Step s ⟨s.next, .call k, ⟨none, now, s.state⟩, (W.carryOut (.call k) now s.state).result,
        (W.carryOut (.call k) now s.state).state, s'⟩
  | begin (f : Flight σ κ ρ ι) (now : Instant) (s' : Scene σ κ ρ ι) (hf : f ∈ s.flights)
      (hs : f.stopped = false) (hw : f.waiting = none)
      (h : W.settle s f (W.carryOut f.work now s.state) = some s') :
      Step s ⟨f.number, f.work, ⟨none, now, s.state⟩, (W.carryOut f.work now s.state).result,
        (W.carryOut f.work now s.state).state, s'⟩
  | reply (f : Flight σ κ ρ ι) (x : Waiting σ (Ending ρ ι)) (a : x.wait.Answer) (now : Instant)
      (s' : Scene σ κ ρ ι) (hf : f ∈ s.flights) (hs : f.stopped = false)
      (hw : f.waiting = some x) (h : W.settle s f (x.resume a now s.state) = some s') :
      Step s ⟨f.number, f.work, ⟨some ⟨x.wait, a⟩, now, s.state⟩,
        (x.resume a now s.state).result, (x.resume a now s.state).state, s'⟩
  | drop (f : Flight σ κ ρ ι) (now : Instant) (hf : f ∈ s.flights) :
      Step s ⟨f.number, f.work, ⟨none, now, s.state⟩, .paused .drops, f.undo s.state,
        W.heed (land s f.number) (f.undo s.state)⟩

/-- What happens from one scene to another, moment by moment. -/
inductive Course (s : Scene σ κ ρ ι) : List (Moment σ κ ρ ι) → Scene σ κ ρ ι → Prop where
  | nil : Course s [] s
  | snoc {ms : List (Moment σ κ ρ ι)} {s' : Scene σ κ ρ ι} {x : Moment σ κ ρ ι}
      (h : Course s ms s') (hx : W.Step s' x) : Course s (ms ++ [x]) x.after

variable {W}

theorem heed_state (s : Scene σ κ ρ ι) (c : σ) : (W.heed s c).state = W.heeded c := by
  have hobey : ∀ (orders : List (Command ι ν)) (t : Scene σ κ ρ ι),
      (orders.foldl W.obey t).state = t.state := by
    intro orders
    induction orders with
    | nil => exact fun t => rfl
    | cons o orders ih =>
        intro t
        rw [List.foldl_cons, ih]
        cases o <;> rfl
  exact hobey _ _

theorem settle_state {s s' : Scene σ κ ρ ι} {f : Flight σ κ ρ ι} {r : Run σ (Ending ρ ι)}
    (h : W.settle s f r = some s') :
    s'.state = W.heeded r.state ∨ r.result = .paused .faults ∧
      ∃ j, f.work = .job j ∧ s'.state = W.heeded (W.abandon r.state j) := by
  cases r with
  | done c e =>
      cases e <;> obtain rfl := Option.some.inj h <;> exact .inl (heed_state _ c)
  | fault c e =>
      rw [settle] at h
      split at h
      · cases h
      · rename_i j hj
        obtain rfl := Option.some.inj h
        exact .inr ⟨rfl, j, hj, heed_state _ _⟩
  | stay c =>
      obtain rfl := Option.some.inj h
      exact .inl (heed_state _ c)
  | wait c w drop resume =>
      obtain rfl := Option.some.inj h
      exact .inl (heed_state _ c)

theorem settle_state_of_isFault_eq_false {s s' : Scene σ κ ρ ι} {f : Flight σ κ ρ ι}
    {r : Run σ (Ending ρ ι)} (h : W.settle s f r = some s') (hr : r.result.isFault = false) :
    s'.state = W.heeded r.state := by
  rcases settle_state h with hstate | ⟨hfaults, -⟩
  · exact hstate
  · rw [hfaults] at hr
    cases hr

/-- A caller that faults leaves no scene. -/
theorem settle_not_faults {s s' : Scene σ κ ρ ι} {f : Flight σ κ ρ ι} {r : Run σ (Ending ρ ι)}
    (h : W.settle s f r = some s') (hcall : f.work.isCall = true) : r.result ≠ .paused .faults := by
  intro hr
  cases r with
  | done c e => cases hr
  | stay c => cases hr
  | wait c w drop resume => cases hr
  | fault c e =>
      rw [settle] at h
      split at h
      · cases h
      · rename_i j hj
        rw [hj] at hcall
        cases hcall

/-- So no moment is one of a caller that faults. -/
theorem Step.not_faults {s : Scene σ κ ρ ι} {x : Moment σ κ ρ ι} (h : W.Step s x)
    (hcall : x.work.isCall = true) : x.result ≠ .paused .faults := by
  cases h with
  | call k now s' h => exact settle_not_faults h rfl
  | begin f now s' hf hs hw h => exact settle_not_faults h hcall
  | reply f y a now s' hf hs hw h => exact settle_not_faults h hcall
  | drop f now hf => exact nofun

theorem Step.start_state {s : Scene σ κ ρ ι} {x : Moment σ κ ρ ι} (h : W.Step s x) :
    x.start.state = s.state := by
  cases h <;> rfl

/-- The state after a moment is what it left, once its orders are heeded; a task that faulted is
abandoned first. -/
theorem Step.after_state {s : Scene σ κ ρ ι} {x : Moment σ κ ρ ι} (h : W.Step s x) :
    x.after.state = W.heeded x.left ∨ x.result = .paused .faults ∧
      ∃ j, x.work = .job j ∧ x.after.state = W.heeded (W.abandon x.left j) := by
  cases h with
  | call k now s' h => exact settle_state h
  | begin f now s' hf hs hw h => exact settle_state h
  | reply f y a now s' hf hs hw h => exact settle_state h
  | drop f now hf => exact .inl (heed_state _ _)

theorem Course.append {W : Workplace σ κ ρ ι ν} {s s' s'' : Scene σ κ ρ ι}
    {ms ms' : List (Moment σ κ ρ ι)} (h : W.Course s ms s') (h' : W.Course s' ms' s'') :
    W.Course s (ms ++ ms') s'' := by
  induction h' with
  | nil => rwa [List.append_nil]
  | snoc _ hx ih =>
      rw [← List.append_assoc]
      exact .snoc ih hx

theorem Course.cons {s s' : Scene σ κ ρ ι} {ms : List (Moment σ κ ρ ι)} {x : Moment σ κ ρ ι}
    (hx : W.Step s x) (h : W.Course x.after ms s') : W.Course s (x :: ms) s' :=
  (Course.nil.snoc hx).append h

/-- A course goes through each of its moments. -/
theorem Course.split {s s' : Scene σ κ ρ ι} {ms ms' : List (Moment σ κ ρ ι)} {x : Moment σ κ ρ ι}
    (h : W.Course s (ms ++ x :: ms') s') :
    ∃ t, W.Course s ms t ∧ W.Step t x ∧ W.Course x.after ms' s' := by
  generalize hl : ms ++ x :: ms' = l at h
  induction h generalizing ms' with
  | nil => simp at hl
  | @snoc l u y h hy ih =>
      rcases List.eq_nil_or_concat ms' with rfl | ⟨ms', z, rfl⟩
      · obtain ⟨rfl, hxy⟩ := List.append_inj' hl rfl
        obtain rfl := List.singleton_inj.mp hxy
        exact ⟨u, h, hy, .nil⟩
      · rw [List.concat_eq_append, ← List.cons_append, ← List.append_assoc] at hl
        obtain ⟨hinit, hzy⟩ := List.append_inj' hl rfl
        obtain rfl := List.singleton_inj.mp hzy
        obtain ⟨t, before, hx, after⟩ := ih hinit
        refine ⟨t, before, hx, ?_⟩
        rw [List.concat_eq_append]
        exact after.snoc hy

theorem Course.eq_of_nil {s s' : Scene σ κ ρ ι} (h : W.Course s [] s') : s' = s := by
  generalize hl : ([] : List (Moment σ κ ρ ι)) = l at h
  cases h with
  | nil => rfl
  | snoc h hy => simp at hl

/-- No moment of a course is one of a caller that faults. -/
theorem Course.not_faults {s s' : Scene σ κ ρ ι} {ms : List (Moment σ κ ρ ι)} {x : Moment σ κ ρ ι}
    (h : W.Course s ms s') (hx : x ∈ ms) (hcall : x.work.isCall = true) :
    x.result ≠ .paused .faults := by
  obtain ⟨before, after, rfl⟩ := List.append_of_mem hx
  obtain ⟨t, -, hstep, -⟩ := h.split
  exact hstep.not_faults hcall

/-- A course comes to the scene after its last moment. -/
theorem Course.last {s s' : Scene σ κ ρ ι} {ms : List (Moment σ κ ρ ι)} {x : Moment σ κ ρ ι}
    (h : W.Course s (ms ++ [x]) s') : ∃ t, W.Course s ms t ∧ W.Step t x ∧ s' = x.after := by
  generalize hl : ms ++ [x] = l at h
  cases h with
  | nil => simp at hl
  | @snoc l t y h hy =>
      obtain ⟨rfl, hxy⟩ := List.append_inj' hl rfl
      obtain rfl := List.singleton_inj.mp hxy
      exact ⟨t, h, hy, rfl⟩

/-- Of a property of states that each moment keeps exactly if something is true of it, once it
holds: all states of a course have it if and only if that is true of all moments. -/
theorem Course.forall_iff {s s' : Scene σ κ ρ ι} {ms : List (Moment σ κ ρ ι)} {A : σ → Prop}
    {φ : Moment σ κ ρ ι → Prop} (h : W.Course s ms s') (hs : A s.state)
    (hstep : ∀ l u x, W.Course s l u → W.Step u x → x ∈ ms → A u.state →
      (A x.after.state ↔ φ x)) :
    (∀ x ∈ ms, A x.after.state) ↔ ∀ x ∈ ms, φ x := by
  -- The second part carries the induction: the property holds where the course has come to.
  suffices hall : ((∀ x ∈ ms, A x.after.state) ↔ ∀ x ∈ ms, φ x) ∧
      ((∀ x ∈ ms, φ x) → A s'.state) from hall.1
  induction h with
  | nil => exact ⟨by simp, fun _ => hs⟩
  | @snoc l u y hl hy ih =>
      obtain ⟨hiff, hu⟩ := ih fun l u x hl hx hmem =>
        hstep l u x hl hx (List.mem_append_left _ hmem)
      have hlast : (∀ x ∈ l, φ x) → (A y.after.state ↔ φ y) := fun h =>
        hstep l u y hl hy (List.mem_append_right _ (List.mem_singleton.mpr rfl)) (hu h)
      simp only [List.forall_mem_append, List.forall_mem_singleton]
      refine ⟨⟨fun h => ?_, fun h => ?_⟩, fun h => (hlast h.1).mpr h.2⟩
      · exact ⟨hiff.mp h.1, (hlast (hiff.mp h.1)).mp h.2⟩
      · exact ⟨hiff.mpr h.1, (hlast h.1).mpr h.2⟩

/-! ### What is in flight -/

/-- What may be asked of a flight, given the number that comes next: it does not depend on what else
is started, nor on whether a task is stopped. -/
structure Standing (W : Workplace σ κ ρ ι ν) (A : Flight σ κ ρ ι → Nat → Prop) : Prop where
  later : ∀ f n, A f n → A f (n + 1)
  starts : ∀ n j, A ⟨n, .job j, false, none⟩ (n + 1)
  halts : ∀ f n name, A f n → A (W.halt name f) n

/-- It is so of all that is in flight. -/
def Each (A : Flight σ κ ρ ι → Nat → Prop) (s : Scene σ κ ρ ι) : Prop := ∀ f ∈ s.flights, A f s.next

/-- A flight that is stopped is the same otherwise, and a call is not stopped. -/
theorem halt_same (name : ν) (f : Flight σ κ ρ ι) :
    (W.halt name f).number = f.number ∧ (W.halt name f).work = f.work ∧
      (W.halt name f).waiting = f.waiting ∧
        (f.work.isCall = true → (W.halt name f).stopped = f.stopped) := by
  unfold halt
  split
  · exact ⟨rfl, rfl, rfl, fun _ => rfl⟩
  · rename_i j hj
    have hcall : f.work.isCall ≠ true := by
      rw [hj]
      exact Bool.false_ne_true
    split <;> exact ⟨rfl, rfl, rfl, fun h => absurd h hcall⟩

section Each

variable {A : Flight σ κ ρ ι → Nat → Prop} {s s' : Scene σ κ ρ ι}

theorem Each.obey (hA : Standing W A) (h : Each A s) (o : Command ι ν) : Each A (W.obey s o) := by
  intro f hf
  cases o with
  | start j =>
      rcases List.mem_append.mp hf with hf | hf
      · exact hA.later f s.next (h f hf)
      · obtain rfl := List.mem_singleton.mp hf
        exact hA.starts s.next j
  | stop name =>
      obtain ⟨g, hg, rfl⟩ := List.mem_map.mp hf
      exact hA.halts g s.next name (h g hg)

theorem Each.heed (hA : Standing W A) (h : Each A s) (c : σ) : Each A (W.heed s c) := by
  have h' : Each A { s with state := W.heeded c } := h
  unfold Workplace.heed
  generalize { s with state := W.heeded c } = t at h'
  induction W.orders c generalizing t with
  | nil => exact h'
  | cons o orders ih => exact ih _ (h'.obey hA o)

theorem next_le_heed (s : Scene σ κ ρ ι) (c : σ) : s.next ≤ (W.heed s c).next := by
  have h' : s.next ≤ { s with state := W.heeded c }.next := Nat.le_refl _
  unfold Workplace.heed
  generalize { s with state := W.heeded c } = t at h'
  induction W.orders c generalizing t with
  | nil => exact h'
  | cons o orders ih =>
      refine ih _ (Nat.le_trans h' ?_)
      cases o with
      | start j => exact Nat.le_succ _
      | stop name => exact Nat.le_refl _

/-- What is so of all flights but those of a number is so once these have landed. -/
theorem Each.land {n : Nat} (h : ∀ f ∈ s.flights, f.number ≠ n → A f s.next) :
    Each A (land s n) := by
  intro f hf
  obtain ⟨hmem, hne⟩ := List.mem_filter.mp hf
  exact h f hmem (of_decide_eq_true hne)

theorem Each.keep {f : Flight σ κ ρ ι} (h : ∀ g ∈ s.flights, g.number ≠ f.number → A g s.next)
    (hf : A f s.next) : Each A (keep s f) := by
  intro g hg
  rcases List.mem_append.mp hg with hg | hg
  · exact Each.land h g hg
  · obtain rfl := List.mem_singleton.mp hg
    exact hf

/-- It is so of all flights after a stretch, if it is of the others and of what the stretch leaves
in flight. -/
theorem Each.settle (hA : Standing W A) {f : Flight σ κ ρ ι}
    (h : ∀ g ∈ s.flights, g.number ≠ f.number → A g s.next) {r : Run σ (Ending ρ ι)}
    (hown : ∀ g, f.left? r = some g → A g s.next) (hs : W.settle s f r = some s') :
    Each A s' ∧ s.next ≤ s'.next := by
  have hland : ∀ c, Each A (W.heed (Workplace.land s f.number) c) ∧
      s.next ≤ (W.heed (Workplace.land s f.number) c).next :=
    fun c => ⟨(Each.land h).heed hA c, next_le_heed (Workplace.land s f.number) c⟩
  have hkeep : ∀ g c, g.number = f.number → f.left? r = some g →
      Each A (W.heed (Workplace.keep s g) c) ∧ s.next ≤ (W.heed (Workplace.keep s g) c).next := by
    intro g c hg hleft
    rw [← hg] at h
    exact ⟨(Each.keep h (hown g hleft)).heed hA c, next_le_heed (Workplace.keep s g) c⟩
  cases r with
  | done c e =>
      cases e with
      | answers a =>
          obtain rfl := Option.some.inj hs
          exact hland c
      | leaves =>
          obtain rfl := Option.some.inj hs
          exact hland c
      | again j =>
          obtain rfl := Option.some.inj hs
          exact hkeep _ c rfl rfl
  | fault c e =>
      rw [Workplace.settle] at hs
      split at hs
      · cases hs
      · obtain rfl := Option.some.inj hs
        exact hland _
  | stay c =>
      obtain rfl := Option.some.inj hs
      exact hkeep _ c rfl rfl
  | wait c w drop resume =>
      obtain rfl := Option.some.inj hs
      exact hkeep _ c rfl rfl

end Each

/-! ### Moves -/

/-- The moment in which a move is made, if it can be. -/
def move? (W : Workplace σ κ ρ ι ν) (s : Scene σ κ ρ ι) (now : Instant) :
    Move κ → Option (Moment σ κ ρ ι)
  | .ask k =>
    (W.settle { s with next := s.next + 1 } ⟨s.next, .call k, false, none⟩
      (W.carryOut (.call k) now s.state)).map fun s' =>
        ⟨s.next, .call k, ⟨none, now, s.state⟩, (W.carryOut (.call k) now s.state).result,
          (W.carryOut (.call k) now s.state).state, s'⟩
  | .begin n =>
    match s.flights.find? fun f => f.number = n && !f.stopped && f.waiting.isNone with
    | none => none
    | some f =>
      (W.settle s f (W.carryOut f.work now s.state)).map fun s' =>
        ⟨f.number, f.work, ⟨none, now, s.state⟩, (W.carryOut f.work now s.state).result,
          (W.carryOut f.work now s.state).state, s'⟩
  | .reply n answer =>
    match s.flights.find? fun f => f.number = n && !f.stopped with
    | none => none
    | some f =>
      match f.waiting with
      | none => none
      | some x =>
        (W.settle s f (x.resume (answer x.wait) now s.state)).map fun s' =>
          ⟨f.number, f.work, ⟨some ⟨x.wait, answer x.wait⟩, now, s.state⟩,
            (x.resume (answer x.wait) now s.state).result,
            (x.resume (answer x.wait) now s.state).state, s'⟩

theorem step_of_move? {s : Scene σ κ ρ ι} {now : Instant} {move : Move κ} {x : Moment σ κ ρ ι}
    (h : W.move? s now move = some x) : W.Step s x := by
  cases move with
  | ask k =>
      obtain ⟨s', hs, rfl⟩ := Option.map_eq_some_iff.mp h
      exact .call k now s' hs
  | begin n =>
      rw [move?] at h
      split at h
      · cases h
      · rename_i f hf
        obtain ⟨s', hs, rfl⟩ := Option.map_eq_some_iff.mp h
        have hready := List.find?_some hf
        rw [Bool.and_eq_true, Bool.and_eq_true, Bool.not_eq_true',
          Option.isNone_iff_eq_none] at hready
        exact .begin f now s' (List.mem_of_find?_eq_some hf) hready.1.2 hready.2 hs
  | reply n answer =>
      rw [move?] at h
      split at h
      · cases h
      · rename_i f hf
        split at h
        · cases h
        · rename_i y hy
          obtain ⟨s', hs, rfl⟩ := Option.map_eq_some_iff.mp h
          have hstopped := List.find?_some hf
          rw [Bool.and_eq_true, Bool.not_eq_true'] at hstopped
          exact .reply f y _ now s' (List.mem_of_find?_eq_some hf) hstopped.2 hy hs

/-- The moments in which moves are made one after another, and the scene after them, if they can be.
-/
def play (W : Workplace σ κ ρ ι ν) (s : Scene σ κ ρ ι) :
    List (Instant × Move κ) → Option (List (Moment σ κ ρ ι) × Scene σ κ ρ ι)
  | [] => some ([], s)
  | (now, move) :: moves =>
    (W.move? s now move).bind fun x => (W.play x.after moves).map fun r => (x :: r.1, r.2)

theorem course_of_play {s s' : Scene σ κ ρ ι} {moves : List (Instant × Move κ)}
    {ms : List (Moment σ κ ρ ι)} (h : W.play s moves = some (ms, s')) : W.Course s ms s' := by
  induction moves generalizing s ms with
  | nil =>
      cases h
      exact .nil
  | cons move moves ih =>
      obtain ⟨x, hx, hrest⟩ := Option.bind_eq_some_iff.mp h
      obtain ⟨r, hr, heq⟩ := Option.map_eq_some_iff.mp hrest
      cases heq
      exact .cons (step_of_move? hx) (ih hr)

/-- The moves can be made, and a test is passed by the moments before the one of an index, that
moment, those after it, and the scene at the end. -/
def passes (W : Workplace σ κ ρ ι ν) (s : Scene σ κ ρ ι) (moves : List (Instant × Move κ)) (i : Nat)
    (test : List (Moment σ κ ρ ι) → Moment σ κ ρ ι → List (Moment σ κ ρ ι) → Scene σ κ ρ ι → Bool) :
    Bool :=
  (W.play s moves).any fun r => r.1[i]?.any fun x => test (r.1.take i) x (r.1.drop (i + 1)) r.2

/-- What is tested in playing moves is so in a course. -/
theorem exists_course {s : Scene σ κ ρ ι} {moves : List (Instant × Move κ)} {i : Nat}
    {test : List (Moment σ κ ρ ι) → Moment σ κ ρ ι → List (Moment σ κ ρ ι) → Scene σ κ ρ ι → Bool}
    (h : W.passes s moves i test = true) :
    ∃ ms x ms' s', W.Course s (ms ++ x :: ms') s' ∧ test ms x ms' s' = true := by
  obtain ⟨⟨l, s'⟩, hplay, htest⟩ := (Option.any_eq_true _ _).mp h
  obtain ⟨x, hx, htest⟩ := (Option.any_eq_true _ _).mp htest
  obtain ⟨hi, rfl⟩ := List.getElem?_eq_some_iff.mp hx
  refine ⟨_, _, _, s', ?_, htest⟩
  rw [← List.drop_eq_getElem_cons hi, List.take_append_drop]
  exact course_of_play hplay

end Workplace

/-! ## Rules -/

/-- What is asked of the stretches of each kind of work and of its outcome, and the memo with which
work begins. -/
structure Rules (μ σ κ ρ ι : Type) where
  memo : μ
  pact : Work κ ι → Pact μ σ
  outcome : Work κ ι → μ → Start σ → Ending ρ ι → σ → Prop

namespace Rules

variable (L : Rules μ σ κ ρ ι)

/-- All work keeps the rules, and work that has not begun may be dropped. -/
structure KeptBy (W : Workplace σ κ ρ ι ν) : Prop where
  meets : ∀ work now c,
    (W.carryOut work now c).Meets (L.pact work) (L.outcome work) L.memo ⟨none, now, c⟩
  drops : ∀ work now c, L.pact work L.memo ⟨none, now, c⟩ .drops c L.memo

/-- A stretch that kept the rules, with the memos before and after it. -/
def Keeps (m m' : μ) (x : Moment σ κ ρ ι) : Prop :=
  match x.result with
  | .ended a => L.outcome x.work m x.start a x.left ∧ m' = m
  | .paused p => L.pact x.work m x.start p x.left m'

/-- What is asked of work that waits. -/
structure Awaits (work : Work κ ι) (m : μ) (x : Waiting σ (Ending ρ ι)) : Prop where
  drops : ∀ now c, L.pact work m ⟨none, now, c⟩ .drops (x.drop c) m
  meets : ∀ a now c, (x.resume a now c).Meets (L.pact work) (L.outcome work) m
    ⟨some ⟨x.wait, a⟩, now, c⟩

/-- All that waits will keep the rules with a memo of which something is known. -/
def HeldIn (R : Nat → μ → Prop) (s : Scene σ κ ρ ι) : Prop :=
  ∀ f ∈ s.flights, ∀ x, f.waiting = some x → ∃ m, R f.number m ∧ L.Awaits f.work m x

variable {L} {R R' : Nat → μ → Prop} {W : Workplace σ κ ρ ι ν} {s s' : Scene σ κ ρ ι}

theorem HeldIn.idle (c : σ) : L.HeldIn R (Workplace.idle c) := fun _ hf => nomatch hf

theorem HeldIn.mono (h : L.HeldIn R s) (hR : ∀ n m, R n m → R' n m) : L.HeldIn R' s := by
  intro f hf x hx
  obtain ⟨m, hm, ha⟩ := h f hf x hx
  exact ⟨m, hR _ _ hm, ha⟩

/-- That a flight keeps the rules is no matter of what else is started. -/
theorem standing (L : Rules μ σ κ ρ ι) (R : Nat → μ → Prop) :
    W.Standing fun f _ => ∀ x, f.waiting = some x → ∃ m, R f.number m ∧ L.Awaits f.work m x where
  later _ _ h := h
  starts _ _ := nofun
  halts f _ name h := by
    obtain ⟨hnumber, hwork, hwaiting, -⟩ := Workplace.halt_same (W := W) name f
    rw [hnumber, hwork, hwaiting]
    exact h

/-- What is left in flight after a stretch that kept the rules keeps them. -/
theorem HeldIn.settle (h : L.HeldIn R s) {f : Flight σ κ ρ ι} {m : μ} {i : Start σ}
    (hf : ∀ x, f.waiting = some x → L.Awaits f.work m x) (hm : R f.number m)
    {r : Run σ (Ending ρ ι)} (hr : r.Meets (L.pact f.work) (L.outcome f.work) m i)
    (hR : ∀ p m', r.result = .paused p → L.pact f.work m i p r.state m' → R f.number m')
    (hs : W.settle s f r = some s') : L.HeldIn R s' := by
  refine (Workplace.Each.settle (standing L R) (fun g hg _ => h g hg) (fun g hg x hx => ?_) hs).1
  cases r with
  | done c e =>
      -- A job that starts over has not begun, so nothing of it waits.
      cases e <;> cases hg
      cases hx
  | fault c e => cases hg
  | stay c =>
      obtain rfl := Option.some.inj hg
      exact ⟨m, hm, hf x hx⟩
  | wait c w drop resume =>
      obtain ⟨m', hp, hd, hresume⟩ := hr
      obtain rfl := Option.some.inj hg
      obtain rfl := Option.some.inj hx
      exact ⟨m', hR _ m' rfl hp, hd, hresume⟩

theorem keeps_of_meets {n : Nat} {work : Work κ ι} {m : μ} {i : Start σ}
    {r : Run σ (Ending ρ ι)} (h : r.Meets (L.pact work) (L.outcome work) m i) :
    ∃ m', L.Keeps m m' ⟨n, work, i, r.result, r.state, s'⟩ := by
  cases r with
  | done c a => exact ⟨m, h, rfl⟩
  | fault c e => exact ⟨m, h⟩
  | stay c => exact ⟨m, h⟩
  | wait c w drop resume =>
      obtain ⟨m', hp, -, -⟩ := h
      exact ⟨m', hp⟩

/-- A moment keeps the rules, and what waits after it keeps them. -/
theorem KeptBy.step (hL : L.KeptBy W) (h : L.HeldIn R s) (hR : ∀ n m, R n m → R' n m)
    (hopen : ∀ n, R n L.memo) {x : Moment σ κ ρ ι} (hx : W.Step s x)
    (hpact : ∀ m p m', R x.number m → x.result = .paused p →
      L.pact x.work m x.start p x.left m' → R' x.number m') :
    (∃ m m', R x.number m ∧ L.Keeps m m' x) ∧ L.HeldIn R' x.after := by
  have h' : L.HeldIn R' s := h.mono hR
  -- What begins meets the rules with the first memo, what goes on with the one it waited with.
  cases hx with
  | call k now s' hs =>
      have hmeets := hL.meets (.call k) now s.state
      obtain ⟨m', hk⟩ := keeps_of_meets hmeets
      refine ⟨⟨_, m', hopen _, hk⟩, ?_⟩
      have hcalled : L.HeldIn R' { s with next := s.next + 1 } := h'
      exact hcalled.settle (fun x hx => by cases hx) (hR _ _ (hopen _)) hmeets
        (fun p m' hp => hpact _ p m' (hopen _) hp) hs
  | begin f now s' hf hstop hw hs =>
      have hmeets := hL.meets f.work now s.state
      obtain ⟨m', hk⟩ := keeps_of_meets hmeets
      refine ⟨⟨_, m', hopen _, hk⟩, ?_⟩
      exact h'.settle (fun x hx => by rw [hw] at hx; cases hx) (hR _ _ (hopen _)) hmeets
        (fun p m' hp => hpact _ p m' (hopen _) hp) hs
  | reply f y a now s' hf hstop hw hs =>
      obtain ⟨m, hm, hy⟩ := h f hf y hw
      obtain ⟨m', hk⟩ := keeps_of_meets (hy.meets a now s.state)
      refine ⟨⟨m, m', hm, hk⟩, ?_⟩
      refine h'.settle (fun x hx => ?_) (hR _ _ hm) (hy.meets a now s.state)
        (fun p m' hp => hpact _ p m' hm hp) hs
      rw [hw] at hx
      obtain rfl := Option.some.inj hx
      exact hy
  | drop f now hf =>
      refine ⟨?_, Workplace.Each.heed (standing L R')
        (Workplace.Each.land fun g hg _ => h' g hg) _⟩
      cases hw : f.waiting with
      | none =>
          have hundo : f.undo s.state = s.state := by rw [Flight.undo, hw]
          rw [hundo]
          exact ⟨_, _, hopen _, hL.drops f.work now s.state⟩
      | some y =>
          have hundo : f.undo s.state = y.drop s.state := by rw [Flight.undo, hw]
          obtain ⟨m, hm, hy⟩ := h f hf y hw
          rw [hundo]
          exact ⟨m, m, hm, hy.drops now s.state⟩

/-- Every moment of every course keeps the rules, with a memo of which is known what the moments
before it tell. -/
theorem KeptBy.course (hL : L.KeptBy W) {R : List (Moment σ κ ρ ι) → Nat → μ → Prop}
    (hopen : ∀ ms n, R ms n L.memo) (hgrow : ∀ ms x n m, R ms n m → R (ms ++ [x]) n m)
    (hpact : ∀ ms x m p m', R ms x.number m → x.result = .paused p →
      L.pact x.work m x.start p x.left m' → R (ms ++ [x]) x.number m')
    {ms : List (Moment σ κ ρ ι)} (hs : L.HeldIn (R []) s) (h : W.Course s ms s') :
    (∀ pre x post, ms = pre ++ x :: post → ∃ m m', R pre x.number m ∧ L.Keeps m m' x) ∧
      L.HeldIn (R ms) s' := by
  induction h with
  | nil => exact ⟨fun pre x post h => by simp at h, hs⟩
  | @snoc ms t x _ hx ih =>
      obtain ⟨hkeeps, hheld⟩ := ih
      -- The new moment keeps the rules with a memo of which the moments before it tell.
      obtain ⟨hlast, hheld'⟩ := hL.step hheld (hgrow ms x) (hopen ms) hx (hpact ms x)
      refine ⟨fun pre y post h => ?_, hheld'⟩
      rcases List.eq_nil_or_concat post with rfl | ⟨post, z, rfl⟩
      · obtain ⟨rfl, heq⟩ := List.append_inj' h rfl
        obtain rfl := List.singleton_inj.mp heq
        exact hlast
      · refine hkeeps pre y post ?_
        rw [List.concat_eq_append, ← List.cons_append, ← List.append_assoc] at h
        exact (List.append_inj' h rfl).1

/-- The rules ask something of selected work, and of other work only that it keeps the memo. -/
def only (selected : Work κ ι → Bool) (memo : μ) (P : Pact μ σ)
    (Q : μ → Start σ → Ending ρ ι → σ → Prop) : Rules μ σ κ ρ ι where
  memo := memo
  pact work m i p c m' :=
    (selected work = true → P m i p c m') ∧ (selected work = false → m' = m)
  outcome work m i e c := selected work = true → Q m i e c

theorem only_keptBy {selected : Work κ ι → Bool} {memo : μ} {P : Pact μ σ}
    {A : μ → Start σ → σ → Prop} {Q : μ → Start σ → Ending ρ ι → σ → Prop}
    (hbegins : ∀ now c, A memo ⟨none, now, c⟩ c)
    (hdrops : ∀ now c, P memo ⟨none, now, c⟩ .drops c memo)
    (hwork : ∀ work, selected work = true → Activity.Triple P A (W.carryOut work) Q) :
    (only selected memo P Q).KeptBy W where
  drops work now c := ⟨fun _ => hdrops now c, fun _ => rfl⟩
  meets work now c := by
    cases hs : selected work with
    | false =>
        refine Run.meets_trivial (fun m i p s => ⟨fun h => ?_, fun _ => rfl⟩) fun m i e s h => ?_
        · rw [hs] at h
          cases h
        · rw [hs] at h
          cases h
    | true =>
        have hmeets := (hwork work hs).meets _ _ c (hbegins now c)
        refine hmeets.mono (fun m i p s m' h => ⟨fun _ => h, fun hf => ?_⟩) fun _ _ _ _ h _ => h
        rw [hs] at hf
        cases hf

/-- Without a memo, every moment of a course keeps the rules. -/
theorem KeptBy.all {L : Rules Unit σ κ ρ ι} (hL : L.KeptBy W) {c : σ}
    {ms : List (Moment σ κ ρ ι)} (h : W.Course (Workplace.idle c) ms s') :
    ∀ x ∈ ms, L.Keeps () () x := by
  intro x hx
  obtain ⟨pre, post, rfl⟩ := List.append_of_mem hx
  obtain ⟨_, _, -, hk⟩ := (hL.course (R := fun _ _ _ => True) (fun _ _ => trivial)
    (fun _ _ _ _ h => h) (fun _ _ _ _ _ _ _ _ => trivial) (.idle c) h).1 pre x post rfl
  exact hk

/-- Every stretch that pauses in a way of interest leaves an assertion true. -/
def Leaving (φ : Pause → Prop) (A : Unit → Start σ → σ → Prop) : Pact Unit σ :=
  fun m i p c _ => φ p → A m i c

/-- Work that moves a state as said leaves it so, however its stretches pause. -/
theorem leaving_of_moves {α : Type} {may : Wait → Prop} {I : σ → σ → Prop} {x : Activity σ α}
    (hx : Activity.Moves may I x) (φ : Pause → Prop) :
    Activity.Maintains (Leaving φ fun _ i c => I i.state c) (fun _ i c => I i.state c) x :=
  ⟨fun m i c h => (hx.meets m i c h).mono (fun _ _ _ _ _ hp _ => hp.2) fun _ _ _ _ hq => hq⟩

/-- What stretches of selected work leave true is so after the moments of it. -/
theorem holds_of_leaving {selected : Work κ ι → Bool} {φ : Pause → Prop}
    {A : Unit → Start σ → σ → Prop} (hbegins : ∀ now c, A () ⟨none, now, c⟩ c)
    (hwork : ∀ work, selected work = true →
      Activity.Triple (Leaving φ A) A (W.carryOut work) fun m i _ c => A m i c)
    {c : σ} {ms : List (Moment σ κ ρ ι)} (h : W.Course (Workplace.idle c) ms s')
    {x : Moment σ κ ρ ι} (hx : x ∈ ms) (hs : selected x.work = true)
    (hφ : ∀ p, x.result = .paused p → φ p) : A () x.start x.left := by
  have hdrops : ∀ (now : Instant) (c : σ), φ .drops → A () ⟨none, now, c⟩ c :=
    fun now c _ => hbegins now c
  have hkept := (only_keptBy hbegins hdrops hwork).all h x hx
  unfold Keeps at hkept
  split at hkept
  · exact hkept.1 hs
  · rename_i p hp
    exact hkept.1 hs (hφ p hp)

end Rules

end ClientSession
