import ClientSession.Proofs.Flights

/-!
# How many are in flight

Flights of a kind are counted. A moment takes its own flight out of the count and puts back what it
leaves of it; orders to start and stop tasks do not matter to a kind that leaves tasks out that have
not begun. So the number of flights of a kind follows what the stretches of the kind do.

- `Workplace.countP_settle`, `Workplace.countP_land`: the count after a stretch, and without its
  flight.
- `Rules.Told`, `Rules.HeldBy.keeps`: rules whose memo can be told from what work waits for.
- `Run.Meets.and`, `Run.Meets.guarded_of`: two pacts of one run, and a pact of a run with more to
  undo.
-/

namespace ClientSession

variable {σ κ ρ ι ν μ α : Type}

/-! ## Two pacts -/

namespace Run

/-- A run keeps two pacts at once, one of them without a memo. -/
theorem Meets.and {P : Pact μ σ} {P' : Pact Unit σ} {Q : μ → Start σ → α → σ → Prop}
    {Q' : Unit → Start σ → α → σ → Prop} {r : Run σ α} {m : μ} {i : Start σ}
    (h : r.Meets P Q m i) (h' : r.Meets P' Q' () i) :
    r.Meets (fun m i p s m' => P m i p s m' ∧ P' () i p s ())
      (fun m i a s => Q m i a s ∧ Q' () i a s) m i := by
  induction r generalizing m i with
  | done s a => exact ⟨h, h'⟩
  | fault s e => exact ⟨h, h'⟩
  | stay s => exact ⟨h, h'⟩
  | wait s w drop resume ih =>
      obtain ⟨m', hp, hd, hr⟩ := h
      obtain ⟨_, hp', hd', hr'⟩ := h'
      exact ⟨m', ⟨hp, hp'⟩, fun now c => ⟨hd now c, hd' now c⟩,
        fun a now c => ih a now c (hr a now c) (hr' a now c)⟩

/-- A run keeps a pact with the memo one once it has begun to wait. -/
theorem Meets.begun {P : Pact Unit σ} {P' : Pact Nat σ} {Q : Unit → Start σ → α → σ → Prop}
    {Q' : Nat → Start σ → α → σ → Prop}
    (hwaits : ∀ m i w s, P () i (.waits w) s () → P' m i (.waits w) s 1)
    (hfaults : ∀ m i s, P () i .faults s () → P' m i .faults s m)
    (hstays : ∀ m i s, P () i .stays s () → P' m i .stays s m)
    (hdrops : ∀ i s, P () i .drops s () → P' 1 i .drops s 1)
    (hQ : ∀ m i a s, Q () i a s → Q' m i a s) {r : Run σ α} {m : Nat} {i : Start σ}
    (h : r.Meets P Q () i) : r.Meets P' Q' m i := by
  induction r generalizing m i with
  | done s a => exact hQ _ _ _ _ h
  | fault s e => exact hfaults _ _ _ h
  | stay s => exact hstays _ _ _ h
  | wait s w drop resume ih =>
      obtain ⟨_, hp, hd, hr⟩ := h
      exact ⟨1, hwaits _ _ _ _ hp, fun now c => hdrops _ _ (hd now c),
        fun a now c => ih a now c (hr a now c)⟩

/-- With more to undo a run keeps a pact that differs from its own in what is asked of drops. -/
theorem Meets.guarded_of {P P' : Pact μ σ} {Q : μ → Start σ → α → σ → Prop} {undo : σ → σ}
    (hkeep : ∀ m i p s m', p ≠ .drops → P m i p s m' → P' m i p s m')
    (hundo : ∀ m i s, P m i .drops s m → P' m i .drops (undo s) m)
    {r : Run σ α} {m : μ} {i : Start σ} (h : r.Meets P Q m i) :
    (r.guarded undo).Meets P' Q m i := by
  induction r generalizing m i with
  | done s a => exact h
  | fault s e => exact hkeep _ _ _ _ _ nofun h
  | stay s => exact hkeep _ _ _ _ _ nofun h
  | wait s w drop resume ih =>
      obtain ⟨m', hp, hd, hr⟩ := h
      exact ⟨m', hkeep _ _ _ _ _ nofun hp, fun now c => hundo _ _ _ (hd now c),
        fun a now c => ih a now c (hr a now c)⟩

end Run

/-- Two triples of one activity, one of them without a memo. -/
theorem Activity.Triple.and {P : Pact μ σ} {P' : Pact Unit σ} {pre : μ → Start σ → σ → Prop}
    {pre' : Unit → Start σ → σ → Prop} {post : μ → Start σ → α → σ → Prop}
    {post' : Unit → Start σ → α → σ → Prop} {x : Activity σ α} (h : Activity.Triple P pre x post)
    (h' : Activity.Triple P' pre' x post') :
    Activity.Triple (fun m i p s m' => P m i p s m' ∧ P' () i p s ())
      (fun m i s => pre m i s ∧ pre' () i s) x fun m i a s => post m i a s ∧ post' () i a s :=
  ⟨fun m i s hs => (h.meets m i s hs.1).and (h'.meets () i s hs.2)⟩

theorem Activity.Triple.guarded_of {P P' : Pact μ σ} {pre : μ → Start σ → σ → Prop}
    {post : μ → Start σ → α → σ → Prop} {undo : σ → σ} {x : Activity σ α}
    (hkeep : ∀ m i p s m', p ≠ .drops → P m i p s m' → P' m i p s m')
    (hundo : ∀ m i s, P m i .drops s m → P' m i .drops (undo s) m)
    (h : Activity.Triple P pre x post) : Activity.Triple P' pre (x.guarded undo) post :=
  ⟨fun m i s hs => (h.meets m i s hs).guarded_of hkeep hundo⟩

/-! ## Counting -/

namespace Workplace

variable {W : Workplace σ κ ρ ι ν} {s s' : Scene σ κ ρ ι}

/-- The kind does not depend on whether a flight is stopped, and a task that has not begun is not of
it. -/
structure Settled (W : Workplace σ κ ρ ι ν) (kind : Flight σ κ ρ ι → Bool) : Prop where
  halts : ∀ name f, kind (W.halt name f) = kind f
  starts : ∀ n j, kind ⟨n, .job j, false, none⟩ = false

section Counts

variable {kind : Flight σ κ ρ ι → Bool}

theorem countP_obey (hk : Settled W kind) (o : Command ι ν) :
    (W.obey s o).flights.countP kind = s.flights.countP kind := by
  cases o with
  | start j =>
      rw [obey, List.countP_append, List.countP_singleton, hk.starts, if_neg Bool.false_ne_true,
        Nat.add_zero]
  | stop name =>
      rw [obey, List.countP_map]
      exact List.countP_congr fun f _ => by rw [Function.comp_apply, hk.halts]

/-- Orders do not matter to the count. -/
theorem countP_heed (hk : Settled W kind) (c : σ) :
    (W.heed s c).flights.countP kind = s.flights.countP kind := by
  have hobey : ∀ (orders : List (Command ι ν)) (t : Scene σ κ ρ ι),
      (orders.foldl W.obey t).flights.countP kind = t.flights.countP kind := by
    intro orders
    induction orders with
    | nil =>
        intro t
        rfl
    | cons o orders ih =>
        intro t
        rw [List.foldl_cons, ih, countP_obey hk]
  exact hobey (W.orders c) { s with state := W.heeded c }

/-- Whether what a stretch leaves of a flight is of the kind. -/
def leftOf (kind : Flight σ κ ρ ι → Bool) (f : Flight σ κ ρ ι) (r : Run σ (Ending ρ ι)) : Nat :=
  (f.left? r).toList.countP kind

theorem leftOf_of_some {f g : Flight σ κ ρ ι} {r : Run σ (Ending ρ ι)}
    (h : f.left? r = some g) : leftOf kind f r = (kind g).toNat := by
  rw [leftOf, h]
  cases hg : kind g <;> simp [hg]

theorem countP_settle (hk : Settled W kind) {f : Flight σ κ ρ ι} {r : Run σ (Ending ρ ι)}
    (hs : W.settle s f r = some s') :
    s'.flights.countP kind = (land s f.number).flights.countP kind + leftOf kind f r := by
  have hland : ∀ c, (W.heed (land s f.number) c).flights.countP kind =
      (land s f.number).flights.countP kind + 0 := fun c => countP_heed hk c
  have hkeep : ∀ g c, g.number = f.number → (W.heed (keep s g) c).flights.countP kind =
      (land s f.number).flights.countP kind + [g].countP kind := by
    intro g c hg
    rw [countP_heed hk, keep, List.countP_append, hg]
  cases r with
  | done c e =>
      cases e with
      | answers a =>
          obtain rfl := Option.some.inj hs
          exact hland c
      | leaves =>
          obtain rfl := Option.some.inj hs
          exact hland c
      | again j =>
          obtain rfl := Option.some.inj hs
          exact hkeep _ c rfl
  | fault c e =>
      rw [settle] at hs
      split at hs
      · cases hs
      · obtain rfl := Option.some.inj hs
        exact hland _
  | stay c =>
      obtain rfl := Option.some.inj hs
      exact hkeep f c rfl
  | wait c w drop resume =>
      obtain rfl := Option.some.inj hs
      exact hkeep _ c rfl

/-- A number that has not been given is not in flight. -/
theorem countP_land_of_le (h : Numbered s) {n : Nat} (hn : s.next ≤ n) :
    (land s n).flights.countP kind = s.flights.countP kind := by
  have hsame : (land s n).flights = s.flights := by
    refine List.filter_eq_self.mpr fun f hf => decide_eq_true ?_
    exact Nat.ne_of_lt (Nat.lt_of_lt_of_le (h.below f hf) hn)
  rw [hsame]

/-- A flight that lands is taken out of the count. -/
theorem countP_land (h : Numbered s) {f : Flight σ κ ρ ι} (hf : f ∈ s.flights) :
    s.flights.countP kind = (land s f.number).flights.countP kind + (kind f).toNat := by
  have hone : (kind f).toNat = [f].countP kind := by cases hk : kind f <;> simp [hk]
  rw [hone]
  have hapart := h.apart
  show _ = (s.flights.filter _).countP kind + _
  generalize s.flights = fs at hf hapart
  induction fs with
  | nil => cases hf
  | cons g fs ih =>
      rw [List.map_cons, List.nodup_cons] at hapart
      rcases List.mem_cons.mp hf with rfl | hmem
      · -- The others have other numbers, so they all stay.
        have hrest : fs.filter (fun g => decide (g.number ≠ f.number)) = fs := by
          refine List.filter_eq_self.mpr fun e he => decide_eq_true fun heq => hapart.1 ?_
          exact List.mem_map.mpr ⟨e, he, heq⟩
        rw [List.filter_cons_of_neg (by simp), hrest, List.countP_cons, List.countP_singleton]
      · have hne : g.number ≠ f.number := by
          intro heq
          exact hapart.1 (heq ▸ List.mem_map.mpr ⟨f, hmem, rfl⟩)
        rw [List.filter_cons_of_pos (by simpa using hne), List.countP_cons, List.countP_cons,
          ih hmem hapart.2]
        omega

end Counts

theorem result_ne_drops (r : Run σ α) : r.result ≠ .paused .drops := by
  cases r <;> exact nofun

/-- What is dropped was in flight. -/
theorem Step.exists_dropped {x : Moment σ κ ρ ι} (hx : W.Step s x)
    (hd : x.result = .paused .drops) :
    ∃ f ∈ s.flights, f.number = x.number ∧ f.work = x.work ∧ x.left = f.undo s.state ∧
      x.start.cue = none := by
  cases hx with
  | call k now s' hs => exact absurd hd (result_ne_drops _)
  | begin f now s' hf hstop hw hs => exact absurd hd (result_ne_drops _)
  | reply f y a now s' hf hstop hw hs => exact absurd hd (result_ne_drops _)
  | drop f now hf => exact ⟨f, hf, rfl, rfl, rfl, rfl⟩

/-- What goes on with an answer is not dropped. -/
theorem Step.not_drops {x : Moment σ κ ρ ι} (hx : W.Step s x) {q : Cue}
    (hcue : x.start.cue = some q) : x.result ≠ .paused .drops := by
  intro hd
  obtain ⟨f, -, -, -, -, hnone⟩ := hx.exists_dropped hd
  rw [hcue] at hnone
  cases hnone

/-- What begins in a moment is the first stretch of its work. -/
theorem Step.opens {x : Moment σ κ ρ ι} (hx : W.Step s x) (hcue : x.start.cue = none)
    (hgoes : x.result ≠ .paused .drops) :
    x.result = (W.carryOut x.work x.start.now x.start.state).result ∧
      x.left = (W.carryOut x.work x.start.now x.start.state).state := by
  cases hx with
  | call k now s' hs => exact ⟨rfl, rfl⟩
  | begin f now s' hf hstop hw hs => exact ⟨rfl, rfl⟩
  | reply f y a now s' hf hstop hw hs => cases hcue
  | drop f now hf => exact absurd rfl hgoes

end Workplace

/-! ## Memos that can be told -/

namespace Rules

variable {W : Workplace σ κ ρ ι ν} {L : Rules μ σ κ ρ ι} {s : Scene σ κ ρ ι}
  {memo : Work κ ι → Option Wait → μ}

/-- The memo of work can be told from what it waits for, and from its not having begun. -/
structure Told (L : Rules μ σ κ ρ ι) (memo : Work κ ι → Option Wait → μ) : Prop where
  starts : ∀ work, L.memo = memo work none
  waits : ∀ work m i w c m', L.pact work m i (.waits w) c m' → m' = memo work (some w)

/-- All that waits will keep the rules with the memo of its wait. -/
def HeldBy (L : Rules μ σ κ ρ ι) (memo : Work κ ι → Option Wait → μ) (s : Scene σ κ ρ ι) : Prop :=
  ∀ f ∈ s.flights, ∀ y, f.waiting = some y → L.Awaits f.work (memo f.work (some y.wait)) y

theorem HeldBy.idle (c : σ) : L.HeldBy memo (Workplace.idle c) := fun _ hf => nomatch hf

theorem standing_heldBy (L : Rules μ σ κ ρ ι) (memo : Work κ ι → Option Wait → μ) :
    W.Standing fun f _ => ∀ y, f.waiting = some y → L.Awaits f.work (memo f.work (some y.wait)) y
    where
  later _ _ h := h
  starts _ _ := nofun
  halts f _ name h := by
    obtain ⟨-, hwork, hwaiting, -⟩ := Workplace.halt_same (W := W) name f
    rw [hwork, hwaiting]
    exact h

theorem HeldBy.settle (ht : L.Told memo) (h : L.HeldBy memo s) {f : Flight σ κ ρ ι}
    (hf : ∀ y, f.waiting = some y → L.Awaits f.work (memo f.work (some y.wait)) y) {m : μ}
    {i : Start σ} {r : Run σ (Ending ρ ι)} {s' : Scene σ κ ρ ι}
    (hr : r.Meets (L.pact f.work) (L.outcome f.work) m i) (hs : W.settle s f r = some s') :
    L.HeldBy memo s' := by
  refine (Workplace.Each.settle (standing_heldBy L memo) (fun g hg _ => h g hg)
    (fun g hg y hy => ?_) hs).1
  cases r with
  | done c e =>
      cases e <;> cases hg
      cases hy
  | fault c e => cases hg
  | stay c =>
      obtain rfl := Option.some.inj hg
      exact hf y hy
  | wait c w drop resume =>
      obtain ⟨m', hp, hd, hresume⟩ := hr
      obtain rfl := ht.waits _ _ _ _ _ _ hp
      obtain rfl := Option.some.inj hg
      obtain rfl := Option.some.inj hy
      exact ⟨hd, hresume⟩

/-- What waits goes on keeping the rules with the memo of its wait. -/
theorem HeldBy.step (hL : L.KeptBy W) (ht : L.Told memo) (h : L.HeldBy memo s)
    {x : Moment σ κ ρ ι} (hx : W.Step s x) : L.HeldBy memo x.after := by
  cases hx with
  | call k now s' hs =>
      have hcalled : L.HeldBy memo { s with next := s.next + 1 } := h
      exact hcalled.settle ht (fun y hy => by cases hy) (hL.meets (.call k) now s.state) hs
  | begin f now s' hf hstop hw hs =>
      exact h.settle ht (h f hf) (hL.meets f.work now s.state) hs
  | reply f y a now s' hf hstop hw hs =>
      exact h.settle ht (h f hf) ((h f hf y hw).meets a now s.state) hs
  | drop f now hf =>
      exact (Workplace.Each.land fun g hg _ => h g hg).heed (standing_heldBy L memo) _

/-- What has not begun may be dropped, and what waits with the memo of its wait. -/
theorem HeldBy.drops (hL : L.KeptBy W) (ht : L.Told memo) (h : L.HeldBy memo s)
    {f : Flight σ κ ρ ι} (hf : f ∈ s.flights) (now : Instant) :
    L.pact f.work (memo f.work (f.waiting.map (·.wait))) ⟨none, now, s.state⟩ .drops
      (f.undo s.state) (memo f.work (f.waiting.map (·.wait))) := by
  rw [Flight.undo]
  cases hw : f.waiting with
  | none =>
      have hstart := hL.drops f.work now s.state
      rw [ht.starts f.work] at hstart
      exact hstart
  | some y => exact (h f hf y hw).drops now s.state

/-- A moment keeps the rules, with the memo of the wait that it ends unless it is a drop. -/
theorem HeldBy.keeps (hL : L.KeptBy W) (ht : L.Told memo) (h : L.HeldBy memo s)
    {x : Moment σ κ ρ ι} (hx : W.Step s x) : ∃ m m', L.Keeps m m' x ∧
      (x.result ≠ .paused .drops → m = memo x.work (x.start.cue.map (·.1))) := by
  cases hx with
  | call k now s' hs =>
      obtain ⟨m', hk⟩ := keeps_of_meets (hL.meets (.call k) now s.state)
      exact ⟨_, m', hk, fun _ => ht.starts _⟩
  | begin f now s' hf hstop hw hs =>
      obtain ⟨m', hk⟩ := keeps_of_meets (hL.meets f.work now s.state)
      exact ⟨_, m', hk, fun _ => ht.starts _⟩
  | reply f y a now s' hf hstop hw hs =>
      obtain ⟨m', hk⟩ := keeps_of_meets ((h f hf y hw).meets a now s.state)
      exact ⟨_, m', hk, fun _ => rfl⟩
  | drop f now hf => exact ⟨_, _, h.drops hL ht hf now, fun hd => absurd rfl hd⟩

/-! ### Balances -/

/-- What is left of a memo after a pause. -/
def left (m m' : Nat) : Pause → Nat
  | .waits _ => m'
  | .stays => m
  | _ => 0

variable {M : Rules Nat σ κ ρ ι} {count : Work κ ι → Option Wait → Nat}
  {kind : Flight σ κ ρ ι → Bool} {B : Nat → σ → Prop}

/-- A flight of a kind has the memo one and the others zero, and no stretch that keeps the rules
upsets the balance between the number of flights of the kind and the state. -/
structure Balanced (W : Workplace σ κ ρ ι ν) (M : Rules Nat σ κ ρ ι)
    (count : Work κ ι → Option Wait → Nat) (kind : Flight σ κ ρ ι → Bool)
    (B : Nat → σ → Prop) : Prop where
  kept : M.KeptBy W
  told : M.Told count
  begins : M.memo = 0
  counts : ∀ f, (kind f).toNat = count f.work (f.waiting.map (·.wait))
  pauses : ∀ work m i p c m' n, (p = .faults → work.isCall = false) →
    (p ≠ .drops → m = count work (i.cue.map (·.1))) → (p = .drops → m' = m) →
      M.pact work m i p c m' → B (n + m) i.state → B (n + left m m' p) c
  ends : ∀ work m i e c n, m = count work (i.cue.map (·.1)) → M.outcome work m i e c →
    B (n + m) i.state → B n c
  heeds : ∀ n c, B n c → B n (W.heeded c)
  abandons : ∀ n c j, B n c → B n (W.abandon c j)

/-- The balance of a scene in which all that waits keeps the rules. -/
structure Balance (M : Rules Nat σ κ ρ ι) (count : Work κ ι → Option Wait → Nat)
    (kind : Flight σ κ ρ ι → Bool) (B : Nat → σ → Prop) (s : Scene σ κ ρ ι) : Prop where
  numbered : Workplace.Numbered s
  held : M.HeldBy count s
  even : B (s.flights.countP kind) s.state

theorem Balanced.settled (h : Balanced W M count kind B) : Workplace.Settled W kind where
  halts name f := by
    obtain ⟨-, hwork, hwaiting, -⟩ := Workplace.halt_same (W := W) name f
    have hsame : (kind (W.halt name f)).toNat = (kind f).toNat := by
      rw [h.counts, h.counts, hwork, hwaiting]
    cases hhalt : kind (W.halt name f) <;> cases hf : kind f <;> simp_all
  starts n j := by
    have hzero : (kind ⟨n, .job j, false, none⟩).toNat = 0 := by
      rw [h.counts, Option.map_none, ← h.told.starts, h.begins]
    simpa using hzero

/-- A stretch of a flight that is counted as it is leaves the balance even. -/
theorem Balanced.settle (h : Balanced W M count kind B) {f : Flight σ κ ρ ι} {i : Start σ}
    {r : Run σ (Ending ρ ι)} {s' : Scene σ κ ρ ι} (hs : W.settle s f r = some s')
    (hf : (kind f).toNat = count f.work (i.cue.map (·.1)))
    (hr : r.Meets (M.pact f.work) (M.outcome f.work) (count f.work (i.cue.map (·.1))) i)
    (heven : B ((Workplace.land s f.number).flights.countP kind + (kind f).toNat) i.state) :
    B (s'.flights.countP kind) s'.state := by
  rw [hf] at heven
  have hleft : B ((Workplace.land s f.number).flights.countP kind + Workplace.leftOf kind f r)
      r.state := by
    cases r with
    | done c e =>
        have hzero : Workplace.leftOf kind f (.done c e) = 0 := by
          cases e with
          | answers a => rfl
          | leaves => rfl
          | again j =>
              rw [Workplace.leftOf_of_some rfl, h.counts]
              exact (h.told.starts _).symm.trans h.begins
        rw [hzero]
        exact h.ends _ _ _ _ _ _ rfl hr heven
    | fault c e =>
        refine h.pauses _ _ _ .faults _ _ _ (fun _ => ?_) (fun _ => rfl) nofun hr heven
        exact Bool.eq_false_iff.mpr fun hcall => Workplace.settle_not_faults hs hcall rfl
    | stay c =>
        rw [Workplace.leftOf_of_some (g := f) rfl, hf]
        exact h.pauses _ _ _ .stays _ _ _ nofun (fun _ => rfl) nofun hr heven
    | wait c w drop resume =>
        obtain ⟨m', hp, -, -⟩ := hr
        rw [Workplace.leftOf_of_some (g := { f with waiting := some ⟨w, drop, resume⟩ }) rfl,
          h.counts]
        have hm' : m' = count f.work (some w) := h.told.waits _ _ _ _ _ _ hp
        exact hm' ▸ h.pauses _ _ _ (.waits w) _ _ _ nofun (fun _ => rfl) nofun hp heven
  rw [Workplace.countP_settle h.settled hs]
  rcases Workplace.settle_state hs with hstate | ⟨-, j, -, hstate⟩
  · rw [hstate]
    exact h.heeds _ _ hleft
  · rw [hstate]
    exact h.heeds _ _ (h.abandons _ _ j hleft)

theorem Balance.step (h : Balance M count kind B s) (hB : Balanced W M count kind B)
    {x : Moment σ κ ρ ι} (hx : W.Step s x) : Balance M count kind B x.after := by
  refine ⟨hx.numbered h.numbered, h.held.step hB.kept hB.told hx, ?_⟩
  have hland : ∀ f ∈ s.flights,
      B ((Workplace.land s f.number).flights.countP kind + (kind f).toNat) s.state := by
    intro f hf
    rw [← Workplace.countP_land h.numbered hf]
    exact h.even
  cases hx with
  | call k now s' hs =>
      have hnone : (kind ⟨s.next, .call k, false, none⟩).toNat = 0 := by
        rw [hB.counts]
        exact (hB.told.starts _).symm.trans hB.begins
      refine hB.settle (i := ⟨none, now, s.state⟩) hs (hB.counts _) ?_ ?_
      · exact hB.told.starts (.call k) ▸ hB.kept.meets (.call k) now s.state
      · rw [hnone]
        exact (Workplace.countP_land_of_le h.numbered (Nat.le_refl s.next)).symm ▸ h.even
  | begin f now s' hf hstop hw hs =>
      refine hB.settle (i := ⟨none, now, s.state⟩) hs ?_ ?_ (hland f hf)
      · rw [hB.counts, hw]
        rfl
      · exact hB.told.starts f.work ▸ hB.kept.meets f.work now s.state
  | reply f y a now s' hf hstop hw hs =>
      refine hB.settle (i := ⟨some ⟨y.wait, a⟩, now, s.state⟩) hs ?_ ?_ (hland f hf)
      · rw [hB.counts, hw]
        rfl
      · exact (h.held f hf y hw).meets a now s.state
  | drop f now hf =>
      have hdrops := h.held.drops hB.kept hB.told hf now
      have hcount := hland f hf
      rw [hB.counts] at hcount
      show B ((W.heed (Workplace.land s f.number) _).flights.countP kind)
        (W.heed (Workplace.land s f.number) _).state
      rw [Workplace.countP_heed hB.settled, Workplace.heed_state]
      refine hB.heeds _ _ ?_
      exact hB.pauses _ _ _ .drops _ _ _ nofun (fun h => absurd rfl h) (fun _ => rfl) hdrops hcount

theorem Balanced.course (hB : Balanced W M count kind B) {c : σ} (hc : B 0 c)
    {ms : List (Moment σ κ ρ ι)} (h : W.Course (Workplace.idle c) ms s) :
    Balance M count kind B s := by
  induction h with
  | nil => exact ⟨⟨fun f hf => (nomatch hf), List.nodup_nil⟩, .idle c, hc⟩
  | snoc _ hx ih => exact ih.step hB hx

end Rules

end ClientSession
