import ClientSession.Proofs.Course
import Mathlib.Data.List.Forall2

/-!
# Erasure

What cannot be seen in a state may be written down beside it. An activity over the larger state
erases to one over the part if they do the same to the part, wait for the same and end alike,
whatever is written beside. Then every course of the part is what is left of a course of the whole,
and what the notes of that course tell is told of the part.

- `Activity.ErasesTo`: and the rules by which activities erase.
- `Workplace.ErasesTo.course`: a course of the part is an erased course of the whole.
-/

namespace ClientSession

variable {σ τ α β κ ρ ι ν : Type} {get : τ → σ}

/-- The run does to a part of its state what the other does, waits for the same and ends alike. -/
def Run.ErasesTo (get : τ → σ) : Run τ α → Run σ α → Prop
  | .done t a, r => r = .done (get t) a
  | .fault t e, r => r = .fault (get t) e
  | .stay t, r => r = .stay (get t)
  | .wait t w drop resume, r => ∃ drop' resume', r = .wait (get t) w drop' resume' ∧
      (∀ t, get (drop t) = drop' (get t)) ∧
        ∀ a now t, (resume a now t).ErasesTo get (resume' a now (get t))

/-- So does the activity, wherever it is started. -/
structure Activity.ErasesTo (get : τ → σ) (x : Activity τ α) (y : Activity σ α) : Prop where
  runs : ∀ now t, (x now t).ErasesTo get (y now (get t))

namespace Run.ErasesTo

variable {r : Run τ α} {r' : Run σ α}

theorem state_eq (h : r.ErasesTo get r') : get r.state = r'.state := by
  cases r with
  | wait t w drop resume =>
      obtain ⟨drop', resume', rfl, -, -⟩ := h
      rfl
  | _ => exact h ▸ rfl

theorem result_eq (h : r.ErasesTo get r') : r.result = r'.result := by
  cases r with
  | wait t w drop resume =>
      obtain ⟨drop', resume', rfl, -, -⟩ := h
      rfl
  | _ => exact h ▸ rfl

theorem bind {f : α → Activity τ β} {f' : α → Activity σ β} (h : r.ErasesTo get r')
    (hf : ∀ a, (f a).ErasesTo get (f' a)) (now : Instant) :
    (r.bind f now).ErasesTo get (r'.bind f' now) := by
  induction r generalizing r' now with
  | done t a => exact h ▸ (hf a).runs now t
  | fault t e => exact h ▸ rfl
  | stay t => exact h ▸ rfl
  | wait t w drop resume ih =>
      obtain ⟨drop', resume', rfl, hdrop, hresume⟩ := h
      exact ⟨drop', _, rfl, hdrop, fun a now t => ih a now t (hresume a now t) now⟩

/-- Work on the part, put back into the whole. -/
theorem within {put : τ → σ → τ} (hput : ∀ t s, get (put t s) = s) (r : Run σ α) (t : τ) :
    (r.within get put t).ErasesTo get r := by
  induction r generalizing t with
  | done s a => exact congrArg (Run.done · a) (hput t s).symm
  | fault s e => exact congrArg (Run.fault · e) (hput t s).symm
  | stay s => exact congrArg Run.stay (hput t s).symm
  | wait s w drop resume ih =>
      refine ⟨drop, resume, ?_, fun t => hput t _, fun a now t => ih a now (get t) t⟩
      rw [hput t s]

end Run.ErasesTo

namespace Activity

theorem erases_pure (a : α) : (pure a : Activity τ α).ErasesTo get (pure a) :=
  ⟨fun _ _ => rfl⟩

theorem ErasesTo.bind {x : Activity τ α} {y : Activity σ α} {f : α → Activity τ β}
    {g : α → Activity σ β} (h : x.ErasesTo get y) (hf : ∀ a, (f a).ErasesTo get (g a)) :
    (x >>= f).ErasesTo get (y >>= g) :=
  ⟨fun now t => (h.runs now t).bind hf now⟩

theorem ErasesTo.map {x : Activity τ α} {y : Activity σ α} {f : α → β} (h : x.ErasesTo get y) :
    (do return f (← x) : Activity τ β).ErasesTo get (do return f (← y)) :=
  h.bind fun a => erases_pure (f a)

theorem erases_now : (Activity.now : Activity τ Instant).ErasesTo get Activity.now :=
  ⟨fun _ _ => rfl⟩

theorem erases_await (w : Wait) :
    (Activity.await w : Activity τ w.Answer).ErasesTo get (Activity.await w) :=
  ⟨fun _ _ => ⟨id, _, rfl, fun _ => rfl, fun _ _ _ => rfl⟩⟩

theorem erases_within {put : τ → σ → τ} (hput : ∀ t s, get (put t s) = s) (x : Activity σ α) :
    (x.within get put).ErasesTo get x :=
  ⟨fun now t => Run.ErasesTo.within hput (x now (get t)) t⟩

theorem ErasesTo.ite {c : Prop} [Decidable c] {x y : Activity τ α} {x' y' : Activity σ α}
    (hx : x.ErasesTo get x') (hy : y.ErasesTo get y') :
    (if c then x else y).ErasesTo get (if c then x' else y') := by
  split
  · exact hx
  · exact hy

end Activity

/-! ## Scenes -/

theorem exists_of_forall₂ {R : α → β → Prop} {as : List α} {bs : List β}
    (h : List.Forall₂ R as bs) {b : β} (hb : b ∈ bs) : ∃ a ∈ as, R a b := by
  induction h with
  | nil => cases hb
  | @cons a b' as bs hab _ ih =>
      rcases List.mem_cons.mp hb with rfl | hb
      · exact ⟨a, List.mem_cons_self .., hab⟩
      · obtain ⟨a', ha', hab'⟩ := ih hb
        exact ⟨a', List.mem_cons_of_mem _ ha', hab'⟩

/-- What waits erases to the other, which waits for the same. -/
def Waiting.ErasesTo (get : τ → σ) (x : Waiting τ α) (y : Waiting σ α) : Prop :=
  ∃ drop resume, y = ⟨x.wait, drop, resume⟩ ∧ (∀ t, get (x.drop t) = drop (get t)) ∧
    ∀ a now t, (x.resume a now t).ErasesTo get (resume a now (get t))

/-- The flights are the same but for the state over which they wait. -/
structure Flight.ErasesTo (get : τ → σ) (f : Flight τ κ ρ ι) (g : Flight σ κ ρ ι) : Prop where
  number : f.number = g.number
  work : f.work = g.work
  stopped : f.stopped = g.stopped
  waiting : Option.Rel (Waiting.ErasesTo get) f.waiting g.waiting

/-- The scenes are the same but for what is written beside the state. -/
structure Scene.ErasesTo (get : τ → σ) (t : Scene τ κ ρ ι) (s : Scene σ κ ρ ι) : Prop where
  state : get t.state = s.state
  flights : List.Forall₂ (Flight.ErasesTo get) t.flights s.flights
  next : t.next = s.next

/-- The moments are the same but for what is written beside the states. -/
structure Moment.ErasesTo (get : τ → σ) (y : Moment τ κ ρ ι) (x : Moment σ κ ρ ι) : Prop where
  number : y.number = x.number
  work : y.work = x.work
  start : y.start.of get = x.start
  result : y.result = x.result
  left : get y.left = x.left
  after : y.after.ErasesTo get x.after

/-- All that is done at the one workplace erases to what is done at the other. -/
structure Workplace.ErasesTo (get : τ → σ) (V : Workplace τ κ ρ ι ν) (W : Workplace σ κ ρ ι ν) :
    Prop where
  call : ∀ k, (V.call k).ErasesTo get (W.call k)
  perform : ∀ j, (V.perform j).ErasesTo get (W.perform j)
  goesBy : V.goesBy = W.goesBy
  orders : ∀ t, V.orders t = W.orders (get t)
  heeded : ∀ t, get (V.heeded t) = W.heeded (get t)
  abandon : ∀ t j, get (V.abandon t j) = W.abandon (get t) j

namespace Workplace

variable {V : Workplace τ κ ρ ι ν} {W : Workplace σ κ ρ ι ν} {t : Scene τ κ ρ ι}
  {s s' : Scene σ κ ρ ι} {f : Flight τ κ ρ ι} {g : Flight σ κ ρ ι}

theorem waiting_eq_none (h : f.ErasesTo get g) (hg : g.waiting = none) : f.waiting = none := by
  have hrel := h.waiting
  rw [hg] at hrel
  cases hf : f.waiting with
  | none => rfl
  | some x =>
      rw [hf] at hrel
      cases hrel

theorem exists_waiting (h : f.ErasesTo get g) {y : Waiting σ (Ending ρ ι)}
    (hg : g.waiting = some y) : ∃ x, f.waiting = some x ∧ x.ErasesTo get y := by
  have hrel := h.waiting
  rw [hg] at hrel
  cases hf : f.waiting with
  | none =>
      rw [hf] at hrel
      cases hrel
  | some x =>
      rw [hf] at hrel
      cases hrel with
      | some hxy => exact ⟨x, rfl, hxy⟩

theorem erasesTo_land (h : t.ErasesTo get s) (n : Nat) :
    (land t n).ErasesTo get (land s n) := by
  refine ⟨h.state, ?_, h.next⟩
  refine List.rel_filter (fun f g hfg => ?_) h.flights
  show decide (f.number ≠ n) = true ↔ decide (g.number ≠ n) = true
  rw [hfg.number]

theorem erasesTo_keep (h : t.ErasesTo get s) (hf : f.ErasesTo get g) :
    (keep t f).ErasesTo get (keep s g) := by
  refine ⟨h.state, ?_, h.next⟩
  rw [keep, keep, hf.number]
  exact List.rel_append (erasesTo_land h g.number).flights (.cons hf .nil)

namespace ErasesTo

variable (hV : V.ErasesTo get W)
include hV

theorem carryOut (work : Work κ ι) : (V.carryOut work).ErasesTo get (W.carryOut work) := by
  cases work with
  | call k => exact (hV.call k).map
  | job j =>
      refine (hV.perform j).bind fun again => ?_
      cases again with
      | some j' => exact Activity.erases_pure _
      | none => exact Activity.erases_pure _

theorem halt (name : ν) (hf : f.ErasesTo get g) :
    (V.halt name f).ErasesTo get (W.halt name g) := by
  obtain ⟨n, work, stopped, waiting⟩ := f
  obtain ⟨n', work', stopped', waiting'⟩ := g
  obtain rfl : work = work' := hf.work
  cases work with
  | call k => exact hf
  | job j =>
      unfold Workplace.halt
      dsimp only
      rw [hV.goesBy]
      split
      · exact ⟨hf.number, rfl, rfl, hf.waiting⟩
      · exact hf

theorem obey (h : t.ErasesTo get s) (o : Command ι ν) :
    (V.obey t o).ErasesTo get (W.obey s o) := by
  cases o with
  | start j =>
      refine ⟨h.state, ?_, congrArg (· + 1) h.next⟩
      refine List.rel_append h.flights (.cons ?_ .nil)
      exact ⟨h.next, rfl, rfl, .none⟩
  | stop name =>
      exact ⟨h.state, List.rel_map (fun f g hfg => hV.halt name hfg) h.flights, h.next⟩

theorem heed (h : t.ErasesTo get s) {c : τ} {d : σ} (hc : get c = d) :
    (V.heed t c).ErasesTo get (W.heed s d) := by
  subst hc
  unfold Workplace.heed
  rw [hV.orders]
  have hstate : ({ t with state := V.heeded c } : Scene τ κ ρ ι).ErasesTo get
      { s with state := W.heeded (get c) } := ⟨hV.heeded c, h.flights, h.next⟩
  generalize ({ t with state := V.heeded c } : Scene τ κ ρ ι) = t' at hstate
  generalize ({ s with state := W.heeded (get c) } : Scene σ κ ρ ι) = s' at hstate
  induction W.orders (get c) generalizing t' s' with
  | nil => exact hstate
  | cons o orders ih => exact ih _ _ (hV.obey hstate o)

/-- What a stretch makes of a scene erases to what the other stretch makes of the other one. -/
theorem settle (h : t.ErasesTo get s) (hf : f.ErasesTo get g) {r : Run τ (Ending ρ ι)}
    {r' : Run σ (Ending ρ ι)} (hr : r.ErasesTo get r') (hs : W.settle s g r' = some s') :
    ∃ t', V.settle t f r = some t' ∧ t'.ErasesTo get s' := by
  have hland : ∀ (c : τ), (V.heed (land t f.number) c).ErasesTo get
      (W.heed (land s g.number) (get c)) := by
    intro c
    rw [hf.number]
    exact hV.heed (erasesTo_land h g.number) rfl
  cases r with
  | done c e =>
      obtain rfl := hr
      cases e with
      | answers a => exact ⟨_, rfl, Option.some.inj hs ▸ hland c⟩
      | leaves => exact ⟨_, rfl, Option.some.inj hs ▸ hland c⟩
      | again j =>
          refine ⟨_, rfl, Option.some.inj hs ▸ hV.heed (erasesTo_keep h ?_) rfl⟩
          exact ⟨hf.number, rfl, hf.stopped, .none⟩
  | fault c e =>
      obtain rfl := hr
      rw [Workplace.settle] at hs ⊢
      rw [hf.work]
      cases hwork : g.work with
      | call k =>
          rw [hwork] at hs
          cases hs
      | job j =>
          rw [hwork] at hs
          obtain rfl := Option.some.inj hs
          refine ⟨_, rfl, ?_⟩
          rw [hf.number]
          exact hV.heed (erasesTo_land h g.number) (hV.abandon c j)
  | stay c =>
      obtain rfl := hr
      exact ⟨_, rfl, Option.some.inj hs ▸ hV.heed (erasesTo_keep h hf) rfl⟩
  | wait c w drop resume =>
      obtain ⟨drop', resume', rfl, hdrop, hresume⟩ := hr
      refine ⟨_, rfl, Option.some.inj hs ▸ hV.heed (erasesTo_keep h ?_) rfl⟩
      exact ⟨hf.number, hf.work, hf.stopped, .some ⟨drop', resume', rfl, hdrop, hresume⟩⟩

/-- What may happen next at the part is what is left of what may happen next at the whole. -/
theorem step (h : t.ErasesTo get s) {x : Moment σ κ ρ ι} (hx : W.Step s x) :
    ∃ y, V.Step t y ∧ y.ErasesTo get x := by
  cases hx with
  | call k now s' hs =>
      have hr := (hV.carryOut (.call k)).runs now t.state
      have hnext : ({ t with next := t.next + 1 } : Scene τ κ ρ ι).ErasesTo get
          { s with next := s.next + 1 } := ⟨h.state, h.flights, congrArg (· + 1) h.next⟩
      rw [h.state] at hr
      obtain ⟨t', ht, hafter⟩ := hV.settle (f := ⟨t.next, .call k, false, none⟩) hnext
        ⟨h.next, rfl, rfl, .none⟩ hr hs
      refine ⟨_, .call k now t' ht, h.next, rfl, ?_, hr.result_eq, hr.state_eq, hafter⟩
      exact congrArg (Start.mk none now) h.state
  | begin g now s' hg hstop hw hs =>
      obtain ⟨f, hf, hfg⟩ := exists_of_forall₂ h.flights hg
      have hr := (hV.carryOut f.work).runs now t.state
      rw [h.state, hfg.work] at hr
      obtain ⟨t', ht, hafter⟩ := hV.settle h hfg hr hs
      have hnone := waiting_eq_none hfg hw
      rw [← hfg.work] at ht
      refine ⟨_, .begin f now t' hf (hfg.stopped.trans hstop) hnone ht, hfg.number, hfg.work, ?_,
        ?_, ?_, hafter⟩
      · exact congrArg (Start.mk none now) h.state
      · rw [hfg.work]
        exact hr.result_eq
      · rw [hfg.work]
        exact hr.state_eq
  | reply g y a now s' hg hstop hw hs =>
      obtain ⟨f, hf, hfg⟩ := exists_of_forall₂ h.flights hg
      obtain ⟨z, hz, drop, resume, rfl, hdrop, hresume⟩ := exists_waiting hfg hw
      have hr := hresume a now t.state
      rw [h.state] at hr
      obtain ⟨t', ht, hafter⟩ := hV.settle h hfg hr hs
      refine ⟨_, .reply f z a now t' hf (hfg.stopped.trans hstop) hz ht, hfg.number, hfg.work, ?_,
        hr.result_eq, hr.state_eq, hafter⟩
      exact congrArg (Start.mk (some ⟨z.wait, a⟩) now) h.state
  | drop g now hg =>
      obtain ⟨f, hf, hfg⟩ := exists_of_forall₂ h.flights hg
      have hundo : get (f.undo t.state) = g.undo s.state := by
        rw [Flight.undo, Flight.undo, ← h.state]
        cases hw : g.waiting with
        | none =>
            rw [waiting_eq_none hfg hw]
        | some y =>
            obtain ⟨z, hz, drop, resume, rfl, hdrop, -⟩ := exists_waiting hfg hw
            rw [hz]
            exact hdrop t.state
      refine ⟨_, .drop f now hf, hfg.number, hfg.work, congrArg (Start.mk none now) h.state, rfl,
        hundo, ?_⟩
      rw [hfg.number]
      exact hV.heed (erasesTo_land h g.number) hundo

/-- So every course at the part is what is left of a course at the whole. -/
theorem course (h : t.ErasesTo get s) {ms : List (Moment σ κ ρ ι)} (hrun : W.Course s ms s') :
    ∃ l t', V.Course t l t' ∧ List.Forall₂ (Moment.ErasesTo get) l ms ∧ t'.ErasesTo get s' := by
  induction hrun with
  | nil => exact ⟨[], t, .nil, .nil, h⟩
  | @snoc ms s' x _ hx ih =>
      obtain ⟨l, t', hl, hms, ht'⟩ := ih
      obtain ⟨y, hy, hyx⟩ := hV.step ht' hx
      exact ⟨l ++ [y], y.after, hl.snoc hy, List.rel_append hms (.cons hyx .nil), hyx.after⟩

end ErasesTo

end Workplace

end ClientSession
