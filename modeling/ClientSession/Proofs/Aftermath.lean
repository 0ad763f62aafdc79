import ClientSession.Proofs.Flights

/-!
# What a stretch leaves in flight

After a stretch the other flights are there still. Of its own flight something is left if it waits
or starts over, and then the orders of the state that it left are heeded: tasks are started, and
others are stopped.

- `Workplace.Step.aftermath`: the flights after a stretch, before its orders are heeded.
- `Workplace.mem_heed`: a flight after the orders was there before them, or was started by them.
- `Workplace.exists_heed`, `Workplace.exists_started`: what the orders do not stop goes on.
-/

namespace ClientSession

variable {σ κ ρ ι ν : Type}

/-- What a stretch leaves in flight of its own. -/
def Moment.Leaves (x : Moment σ κ ρ ι) (own : List (Flight σ κ ρ ι)) : Prop :=
  match x.result with
  | .ended (.again j) => own = [⟨x.number, .job j, false, none⟩]
  | .paused (.waits w) => ∃ y, y.wait = w ∧ own = [⟨x.number, x.work, false, some y⟩]
  | _ => own = []

/-- The job that the order starts. -/
def Command.start? {ι ν : Type} : Command ι ν → Option ι
  | .start j => some j
  | .stop _ => none

namespace Workplace

variable {W : Workplace σ κ ρ ι ν} {s s' : Scene σ κ ρ ι} {x : Moment σ κ ρ ι}

/-- The flights of a scene, those of a number taken out and others put in. -/
structure Exchanged (s : Scene σ κ ρ ι) (n : Nat) (own : List (Flight σ κ ρ ι))
    (base : Scene σ κ ρ ι) : Prop where
  flights : base.flights = (s.flights.filter fun f => f.number ≠ n) ++ own
  next : s.next ≤ base.next

theorem settle_aftermath {f : Flight σ κ ρ ι} (hstop : f.stopped = false) {i : Start σ}
    {r : Run σ (Ending ρ ι)} (hstays : r.result ≠ .paused .stays)
    (hs : W.settle s f r = some s') : ∃ own base c,
      Moment.Leaves ⟨f.number, f.work, i, r.result, r.state, s'⟩ own ∧
        Exchanged s f.number own base ∧ s' = W.heed base c ∧
          (c = r.state ∨ ∃ j, c = W.abandon r.state j) := by
  have hland : Exchanged s f.number [] (land s f.number) :=
    ⟨(List.append_nil _).symm, Nat.le_refl _⟩
  cases r with
  | done c e =>
      cases e with
      | answers a =>
          obtain rfl := Option.some.inj hs
          exact ⟨[], _, c, rfl, hland, rfl, .inl rfl⟩
      | leaves =>
          obtain rfl := Option.some.inj hs
          exact ⟨[], _, c, rfl, hland, rfl, .inl rfl⟩
      | again j =>
          obtain rfl := Option.some.inj hs
          refine ⟨_, keep s _, c, rfl, ⟨?_, Nat.le_refl _⟩, rfl, .inl rfl⟩
          rw [keep, land, hstop]
  | fault c e =>
      rw [Workplace.settle] at hs
      split at hs
      · cases hs
      · rename_i j _
        obtain rfl := Option.some.inj hs
        exact ⟨[], _, _, rfl, hland, rfl, .inr ⟨j, rfl⟩⟩
  | stay c => exact absurd rfl hstays
  | wait c w drop resume =>
      obtain rfl := Option.some.inj hs
      refine ⟨_, keep s _, c, ⟨⟨w, drop, resume⟩, rfl, rfl⟩, ⟨?_, Nat.le_refl _⟩, rfl, .inl rfl⟩
      rw [keep, land, hstop]

/-- After a stretch its own flight is what it left of it, the others are there still, and then the
orders of the state are heeded. -/
theorem Step.aftermath (hx : W.Step s x) (hstays : x.result ≠ .paused .stays) : ∃ own base c,
    x.Leaves own ∧ Exchanged s x.number own base ∧ x.after = W.heed base c ∧
      (c = x.left ∨ ∃ j, c = W.abandon x.left j) := by
  cases hx with
  | call k now s' hs =>
      obtain ⟨own, base, c, hleaves, hbase, hafter⟩ :=
        settle_aftermath (s := { s with next := s.next + 1 }) (i := ⟨none, now, s.state⟩) rfl
          hstays hs
      exact ⟨own, base, c, hleaves, ⟨hbase.flights, Nat.le_of_succ_le hbase.next⟩, hafter⟩
  | begin f now s' hf hstop hw hs => exact settle_aftermath hstop hstays hs
  | reply f y a now s' hf hstop hw hs => exact settle_aftermath hstop hstays hs
  | drop f now hf =>
      exact ⟨[], land s f.number, _, rfl, ⟨(List.append_nil _).symm, Nat.le_refl _⟩, rfl, .inl rfl⟩

/-! ## Orders -/

/-- The jobs that are started. -/
def started (W : Workplace σ κ ρ ι ν) (c : σ) : List ι := (W.orders c).filterMap Command.start?

/-- None of the orders stops the work. -/
def Spares (W : Workplace σ κ ρ ι ν) (orders : List (Command ι ν)) (work : Work κ ι) : Prop :=
  ∀ name j, .stop name ∈ orders → work = .job j → W.goesBy j name = false

theorem stopped_halt {f : Flight σ κ ρ ι} {name : ν} : (W.halt name f).stopped = false ↔
    f.stopped = false ∧ ∀ j, f.work = .job j → W.goesBy j name = false := by
  unfold halt
  split
  · rename_i k hk
    simp [hk]
  · rename_i j hj
    split
    · rename_i hgoes
      simp [hj, hgoes]
    · rename_i hgoes
      simp [hj, hgoes]

section Orders

variable {f g : Flight σ κ ρ ι} {c : σ}

theorem mem_foldl_obey {orders : List (Command ι ν)} (hg : g ∈ (orders.foldl W.obey s).flights) :
    (∃ f ∈ s.flights, g.number = f.number ∧ g.work = f.work ∧ g.waiting = f.waiting ∧
      (g.stopped = false → f.stopped = false ∧ W.Spares orders f.work)) ∨
        ∃ j, .start j ∈ orders ∧ g.work = .job j ∧ g.waiting = none := by
  induction orders generalizing s with
  | nil => exact .inl ⟨g, hg, rfl, rfl, rfl, fun h => ⟨h, nofun⟩⟩
  | cons o orders ih =>
      rcases ih hg with ⟨f, hf, hnumber, hwork, hwaiting, hstopped⟩ | ⟨j, hj, hwork, hwaiting⟩
      · cases o with
        | start j =>
            rcases List.mem_append.mp hf with hf | hf
            · refine .inl ⟨f, hf, hnumber, hwork, hwaiting, fun h => ⟨(hstopped h).1, ?_⟩⟩
              intro name j' hmem
              exact (hstopped h).2 name j' (by simpa using hmem)
            · obtain rfl := List.mem_singleton.mp hf
              exact .inr ⟨j, List.mem_cons_self .., hwork, hwaiting⟩
        | stop name =>
            obtain ⟨f, hmem, rfl⟩ := List.mem_map.mp hf
            obtain ⟨hn, hw, hy, -⟩ := halt_same (W := W) name f
            refine .inl ⟨f, hmem, hnumber.trans hn, hwork.trans hw, hwaiting.trans hy, fun h => ?_⟩
            obtain ⟨hgoes, hspares⟩ := hstopped h
            rw [stopped_halt] at hgoes
            refine ⟨hgoes.1, fun name' j hmem hj => ?_⟩
            rcases List.mem_cons.mp hmem with heq | hmem
            · cases heq
              exact hgoes.2 j hj
            · exact hspares name' j hmem (hw.trans hj)
      · exact .inr ⟨j, List.mem_cons_of_mem _ hj, hwork, hwaiting⟩

/-- A flight after orders was there before them, and they did not stop it if it is not stopped, or
it was started by them. -/
theorem mem_heed (hg : g ∈ (W.heed s c).flights) :
    (∃ f ∈ s.flights, g.number = f.number ∧ g.work = f.work ∧ g.waiting = f.waiting ∧
      (g.stopped = false → f.stopped = false ∧ W.Spares (W.orders c) f.work)) ∨
        ∃ j, .start j ∈ W.orders c ∧ g.work = .job j ∧ g.waiting = none :=
  mem_foldl_obey (s := { s with state := W.heeded c }) hg

theorem exists_foldl_obey {orders : List (Command ι ν)} (hf : f ∈ s.flights)
    (hstop : f.stopped = false) (hspares : W.Spares orders f.work) :
    ∃ g ∈ (orders.foldl W.obey s).flights, g.number = f.number ∧ g.work = f.work ∧
      g.waiting = f.waiting ∧ g.stopped = false := by
  induction orders generalizing s f with
  | nil => exact ⟨f, hf, rfl, rfl, rfl, hstop⟩
  | cons o orders ih =>
      have hrest : W.Spares orders f.work := fun name j h =>
        hspares name j (List.mem_cons_of_mem _ h)
      cases o with
      | start j => exact ih (List.mem_append_left _ hf) hstop hrest
      | stop name =>
          obtain ⟨hn, hw, hy, -⟩ := halt_same (W := W) name f
          have hgoes : (W.halt name f).stopped = false :=
            stopped_halt.mpr ⟨hstop, fun j => hspares name j (List.mem_cons_self ..)⟩
          obtain ⟨g, hg, hnumber, hwork, hwaiting, hgoes⟩ :=
            ih (s := W.obey s (.stop name)) (List.mem_map.mpr ⟨f, hf, rfl⟩) hgoes (hw.symm ▸ hrest)
          exact ⟨g, hg, hnumber.trans hn, hwork.trans hw, hwaiting.trans hy, hgoes⟩

/-- What the orders do not stop goes on. -/
theorem exists_heed (hf : f ∈ s.flights) (hstop : f.stopped = false)
    (hspares : W.Spares (W.orders c) f.work) : ∃ g ∈ (W.heed s c).flights,
      g.number = f.number ∧ g.work = f.work ∧ g.waiting = f.waiting ∧ g.stopped = false :=
  exists_foldl_obey (s := { s with state := W.heeded c }) hf hstop hspares

/-- What is started and not stopped again is in flight. -/
theorem exists_started {before after : List (Command ι ν)} {j : ι}
    (horders : W.orders c = before ++ .start j :: after) (hspares : W.Spares after (.job j)) :
    ∃ g ∈ (W.heed s c).flights, g.work = .job j ∧ g.waiting = none ∧ g.stopped = false := by
  unfold heed
  rw [horders, List.foldl_append, List.foldl_cons]
  generalize before.foldl W.obey _ = t
  obtain ⟨g, hg, -, hwork, hwaiting, hgoes⟩ := exists_foldl_obey (W := W)
    (f := ⟨t.next, .job j, false, none⟩) (s := W.obey t (.start j))
    (List.mem_append_right _ (List.mem_singleton.mpr rfl)) rfl hspares
  exact ⟨g, hg, hwork, hwaiting, hgoes⟩

/-- What is read off flights, whether they are stopped or not, is read off what the orders start. -/
theorem filterMap_heed {β : Type} {φ : Flight σ κ ρ ι → Option β} {p : ι → Option β}
    (hhalt : ∀ name f, φ (W.halt name f) = φ f) (hstart : ∀ n j, φ ⟨n, .job j, false, none⟩ = p j)
    (s : Scene σ κ ρ ι) (c : σ) : (W.heed s c).flights.filterMap φ =
      s.flights.filterMap φ ++ (W.started c).filterMap p := by
  have hobey : ∀ (orders : List (Command ι ν)) (t : Scene σ κ ρ ι),
      (orders.foldl W.obey t).flights.filterMap φ =
        t.flights.filterMap φ ++ (orders.filterMap Command.start?).filterMap p := by
    intro orders
    induction orders with
    | nil => simp
    | cons o orders ih =>
        intro t
        rw [List.foldl_cons, ih]
        cases o with
        | start j =>
            have hnew := hstart t.next j
            cases hj : p j <;> simp [obey, Command.start?, hj, hnew]
        | stop name =>
            have hsame : (t.flights.map (W.halt name)).filterMap φ = t.flights.filterMap φ := by
              rw [List.filterMap_map]
              exact congrArg (t.flights.filterMap ·) (funext (hhalt name))
            rw [obey, hsame]
            rfl
  exact hobey (W.orders c) { s with state := W.heeded c }

end Orders

/-! ## The flight of a stretch -/

/-- Work that begins has been in flight, unless it is a call. -/
theorem Step.exists_begun (hx : W.Step s x) (hcall : x.work.isCall = false)
    (hcue : x.start.cue = none) (hgoes : x.result ≠ .paused .drops) :
    ∃ f ∈ s.flights, f.number = x.number ∧ f.work = x.work ∧ f.stopped = false ∧
      f.waiting = none := by
  cases hx with
  | call k now s' hs => cases hcall
  | begin f now s' hf hstop hw hs => exact ⟨f, hf, rfl, rfl, hstop, hw⟩
  | reply f y a now s' hf hstop hw hs => cases hcue
  | drop f now hf => exact absurd rfl hgoes

/-- Work that goes on was waiting for what has come. -/
theorem Step.exists_resumed (hx : W.Step s x) {q : Cue} (hcue : x.start.cue = some q) :
    ∃ f ∈ s.flights, f.number = x.number ∧ f.work = x.work ∧ f.stopped = false ∧
      ∃ y, f.waiting = some y ∧ y.wait = q.1 := by
  cases hx with
  | call k now s' hs => cases hcue
  | begin f now s' hf hstop hw hs => cases hcue
  | reply f y a now s' hf hstop hw hs =>
      cases hcue
      exact ⟨f, hf, rfl, rfl, hstop, y, hw, rfl⟩
  | drop f now hf => cases hcue

/-- A job has been in flight, and it was not stopped unless it is dropped. -/
theorem Step.exists_flight (hx : W.Step s x) (hcall : x.work.isCall = false) :
    ∃ f ∈ s.flights, f.number = x.number ∧ f.work = x.work ∧
      (x.result ≠ .paused .drops → f.stopped = false) := by
  cases hx with
  | call k now s' hs => cases hcall
  | begin f now s' hf hstop hw hs => exact ⟨f, hf, rfl, rfl, fun _ => hstop⟩
  | reply f y a now s' hf hstop hw hs => exact ⟨f, hf, rfl, rfl, fun _ => hstop⟩
  | drop f now hf => exact ⟨f, hf, rfl, rfl, fun h => absurd rfl h⟩

/-- The flight of the number of a stretch is the one of the stretch. -/
theorem Step.work_eq (hx : W.Step s x) (hnumbered : Numbered s) {f : Flight σ κ ρ ι}
    (hf : f ∈ s.flights) (hn : f.number = x.number) : f.work = x.work := by
  cases hx with
  | call k now s' hs => exact absurd hn (Nat.ne_of_lt (hnumbered.below f hf))
  | begin g now s' hg hstop hw hs => rw [hnumbered.eq_of_number hf hg hn]
  | reply g y a now s' hg hstop hw hs => rw [hnumbered.eq_of_number hf hg hn]
  | drop g now hg => rw [hnumbered.eq_of_number hf hg hn]

/-- What is read off a flight is no longer read off the others once it has landed. -/
theorem count_landed {β : Type} [BEq β] [LawfulBEq β] {φ : Flight σ κ ρ ι → Option β}
    {f : Flight σ κ ρ ι} {b : β} (hf : f ∈ s.flights) (hb : φ f = some b) :
    ((land s f.number).flights.filterMap φ).count b + 1 ≤ (s.flights.filterMap φ).count b := by
  obtain ⟨before, after, hsplit⟩ := List.append_of_mem hf
  have hbefore : ((before.filter fun g => g.number ≠ f.number).filterMap φ).Sublist
      (before.filterMap φ) := List.filter_sublist.filterMap _
  have hafter : ((after.filter fun g => g.number ≠ f.number).filterMap φ).Sublist
      (after.filterMap φ) := List.filter_sublist.filterMap _
  have hcount := Nat.add_le_add (hbefore.count_le b) (hafter.count_le b)
  simp only [land, hsplit, List.filter_append, List.filterMap_append, List.count_append]
  simp only [List.filter_cons, ne_eq, not_true, decide_false, if_neg Bool.false_ne_true,
    List.filterMap_cons, hb, List.count_cons_self]
  simp only [ne_eq] at hcount
  omega

end Workplace

end ClientSession
