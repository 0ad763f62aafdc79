import ClientSession.Proofs.Client.Refreshing

/-!
# Refreshes in turn

The refreshes of a client's callers and of its timer share one turn. Whatever else is in flight, and
whichever of them are dropped, the turn is held if and only if one of them waits for a token. One
that is not forced goes for a token only where it has just seen that the session needs it, and one
that sees no need ends when it gets the turn.

- `Client.refreshRules_keptBy`: all work of a client does with the turn as it may.
- `Client.inTurns_course`: the refreshes that wait for a token are counted by the turn.
- `Client.Refreshment.needed`, `Client.Refreshment.spared`: when a refresh goes for a token.
-/

namespace ClientSession

open Activity

namespace Client

variable {timer force : Bool} {m m' : Nat} {i : Start Client} {c : Client} {s : Scene} {x : Moment}
  {ms : List Moment} {work : Work Operation Job}

/-! ## The rules -/

theorem eq_of_refreshes (h : Refreshes work = true) :
    (∃ force, work = .call (.refresh force)) ∨
      ∃ task, work = .job (.supervision (.refreshTimer task)) := by
  unfold Refreshes at h
  split at h
  · exact .inl ⟨_, rfl⟩
  · exact .inr ⟨_, rfl⟩
  · cases h

/-- The refresh was asked for with force; the timer uses none. -/
def Forced : Work Operation Job → Bool
  | .call (.refresh force) => force
  | _ => false

/-- Work that refreshes the session is the timer's, unless a caller asked for it. -/
def Timed (work : Work Operation Job) : Bool := !work.isCall

/-- One if the work is a refresh that waits for a token. -/
def holds (work : Work Operation Job) : Option Wait → Nat
  | some w => (Refreshes work && w.isToken).toNat
  | none => 0

/-- The flight is a refresh that waits for a token. -/
def Fetching (f : Flight Client Operation Reply Job) : Bool :=
  Refreshes f.work && f.waiting.any fun y => y.wait.isToken

theorem toNat_fetching (f : Flight Client Operation Reply Job) :
    (Fetching f).toNat = holds f.work (f.waiting.map (·.wait)) := by
  cases hw : f.waiting with
  | none => simp [Fetching, holds, hw]
  | some y => simp [Fetching, holds, hw]

theorem holds_of_not_refreshes (h : Refreshes work = false) (w : Option Wait) :
    holds work w = 0 := by
  cases w with
  | none => rfl
  | some w => simp [holds, h]

/-- The rules that refreshes do as they may, and that no other work touches the turn. -/
def refreshRules : Rules Nat Client Operation Reply Job where
  memo := 0
  pact work m i p c m' :=
    if Refreshes work = true then refreshing (Timed work) (Forced work) m i p c m'
    else m' = 0 ∧ c.load = i.state.load
  outcome work m i e c :=
    (Refreshes work = false → c.load = i.state.load) ∧
      (∀ force, work = .call (.refresh force) →
        ∃ r, e = .answers (.refreshed r) ∧ Refreshed false force m i c (.ended r) m) ∧
      ∀ task, work = .job (.supervision (.refreshTimer task)) →
        e = .again (.supervision (.refreshTimer task)) ∧ Rounds m i c

theorem refreshRules_told : refreshRules.Told holds where
  starts work := rfl
  waits work m i w c m' h := by
    by_cases hwork : Refreshes work = true
    · simp only [refreshRules, if_pos hwork] at h
      have h' : Refreshed _ _ m i c (.paused (.waits w)) m' := h
      cases h' with
      | sleeps span => simp [holds, Wait.isToken]
      | queues n => simp [holds, Wait.isToken]
      | asks => simp [holds, hwork, Wait.isToken]
    · simp only [refreshRules, if_neg hwork] at h
      rw [h.1, holds_of_not_refreshes (Bool.eq_false_iff.mpr hwork)]

theorem refreshes_call (force : Bool) (now : Instant) (c : Client) :
    (workplace.carryOut (.call (.refresh force)) now c).Meets
      (refreshRules.pact (.call (.refresh force))) (refreshRules.outcome (.call (.refresh force))) 0
      ⟨none, now, c⟩ := by
  have hrefresh : Triple (refreshing false force)
      (fun m i c => Before m i c ∧ c.load = i.state.load ∧ Uncalled i) (refresh force)
      fun m i r c => refreshRules.outcome (.call (.refresh force)) m i (.answers (.refreshed r)) c :=
    triple_refresh.conseq (fun _ _ _ h => h) fun m i r c h =>
      ⟨nofun, fun _ heq => by cases heq; exact ⟨r, rfl, h⟩, nofun⟩
  exact (Triple.map (Triple.map hrefresh)).meets 0 ⟨none, now, c⟩ c
    ⟨⟨rfl, Still.refl _, .inl rfl⟩, rfl, nofun⟩

theorem refreshes_timer (task : Nat) (now : Instant) (c : Client) :
    (workplace.carryOut (.job (.supervision (.refreshTimer task))) now c).Meets
      (refreshRules.pact (.job (.supervision (.refreshTimer task))))
      (refreshRules.outcome (.job (.supervision (.refreshTimer task)))) 0 ⟨none, now, c⟩ := by
  have hperform : Triple (refreshing true false) (fun m i c => m = 0 ∧ c = i.state ∧ Uncalled i)
      (Client.perform (.supervision (.refreshTimer task)))
      fun m i again c => again = some (.supervision (.refreshTimer task)) ∧ Rounds m i c :=
    Triple.map ((triple_refreshTimer task).conseq (fun _ _ _ h => h) fun m i again c h =>
      ⟨by rw [h.1]; rfl, h.2⟩)
  have hwork : Triple (refreshing true false) (fun m i c => m = 0 ∧ c = i.state ∧ Uncalled i)
      (workplace.carryOut (.job (.supervision (.refreshTimer task))))
      (refreshRules.outcome (.job (.supervision (.refreshTimer task)))) := by
    refine Triple.bind hperform fun again => ?_
    cases again with
    | none => exact triple_pure fun m i c h => nomatch h.1
    | some j =>
        refine triple_pure fun m i c h => ⟨nofun, nofun, fun task' heq => ?_⟩
        cases heq
        exact ⟨by rw [Option.some.inj h.1], h.2⟩
  exact hwork.meets 0 ⟨none, now, c⟩ c ⟨rfl, rfl, nofun⟩

theorem refreshRules_keptBy : refreshRules.KeptBy workplace where
  drops work now c := by
    by_cases h : Refreshes work = true
    · simp only [refreshRules, if_pos h]
      exact .drops rfl rfl rfl fun _ => rfl
    · simp only [refreshRules, if_neg h, and_self]
  meets work now c := by
    by_cases h : Refreshes work = true
    · rcases eq_of_refreshes h with ⟨force, rfl⟩ | ⟨task, rfl⟩
      · exact refreshes_call force now c
      · exact refreshes_timer task now c
    · have hspares := sparesTurn_carryOut (Bool.eq_false_iff.mpr h)
      refine (hspares.meets () ⟨none, now, c⟩ c rfl).along (fun _ => 0) ?_ ?_
      · intro _ i p c _ hp
        simp only [refreshRules, if_neg h]
        exact ⟨trivial, load_congr hp.2⟩
      · intro _ i e c hq
        refine ⟨fun _ => load_congr hq, fun force hwork => ?_, fun task hwork => ?_⟩
        · rw [hwork] at h
          exact absurd rfl h
        · rw [hwork] at h
          exact absurd rfl h

/-! ## The turn and who holds it -/

/-- A refresh waits for a token while it holds the turn, and gives it back when it is through. -/
theorem Refreshed.load_paused {p : Pause} (h : Refreshed timer force m i c (.paused p) m')
    (hle : m ≤ i.state.load) : Rules.left m m' p + i.state.load = c.load + m := by
  cases h with
  | sleeps span htimer hm h hload => simp [Rules.left, hm, hload]
  | queues n hm hcue hheld h hload => simp [Rules.left, hm, hload]
  | early n a hm hcue hlost h hload => simp [Rules.left, hm, hload]
  | asks hm h hload => simp [Rules.left, hm, hload, Nat.add_comm]
  | drops hown htabs hasked hload =>
      rw [hload hle]
      exact Nat.zero_add _

theorem Refreshed.load_ended {r : RefreshResult} (h : Refreshed timer force m i c (.ended r) m')
    (hle : m ≤ i.state.load) : i.state.load = c.load + m := by
  cases h with
  | spares w hm hforce hw hneed h hload => simp [hm, hload]
  | denied e hm h hload => simp [hm, hload]
  | learns r hm h hload =>
      rw [hm] at hle ⊢
      exact hload hle

theorem Rounds.load_eq (h : Rounds m i c) (hle : m ≤ i.state.load) :
    i.state.load = c.load + m := by
  rcases h with ⟨rfl, -, hload⟩ | ⟨r, h⟩
  · exact hload.symm
  · exact h.load_ended hle

/-- So does all that ends. -/
theorem load_of_outcome {e : Ending Reply Job} (h : refreshRules.outcome work m i e c)
    (hwork : Refreshes work = true) (hle : m ≤ i.state.load) : i.state.load = c.load + m := by
  obtain ⟨-, hcall, htimer⟩ := h
  rcases eq_of_refreshes hwork with ⟨force, rfl⟩ | ⟨task, rfl⟩
  · obtain ⟨r, -, hr⟩ := hcall force rfl
    exact hr.load_ended hle
  · exact (htimer task rfl).2.load_eq hle

theorem load_abandonJob (c : Client) (j : Job) : (c.abandonJob j).load = c.load := by
  unfold abandonJob
  split <;> first | split <;> rfl | rfl

/-- What a stretch adds to the refreshes that wait for a token is what it adds to the turn. -/
theorem refreshRules_balanced :
    Rules.Balanced workplace refreshRules holds Fetching fun n c => n = c.load where
  kept := refreshRules_keptBy
  told := refreshRules_told
  begins := rfl
  counts := toNat_fetching
  pauses work m i p c m' n _ hm hm' hp heven := by
    have hle : m ≤ i.state.load := heven ▸ Nat.le_add_left m n
    by_cases hwork : Refreshes work = true
    · simp only [refreshRules, if_pos hwork] at hp
      have hload := Refreshed.load_paused hp hle
      omega
    · simp only [refreshRules, if_neg hwork] at hp
      obtain ⟨hafter, hload⟩ := hp
      -- Other work has no memo, before or after.
      have hzero : m = 0 := by
        by_cases hdrop : p = .drops
        · rw [← hm' hdrop, hafter]
        · rw [hm hdrop, holds_of_not_refreshes (Bool.eq_false_iff.mpr hwork)]
      have hleft : Rules.left m m' p = 0 := by
        cases p <;> simp [Rules.left, hzero, hafter]
      omega
  ends work m i e c n hm he heven := by
    have hle : m ≤ i.state.load := heven ▸ Nat.le_add_left m n
    by_cases hwork : Refreshes work = true
    · have hload := load_of_outcome he hwork hle
      omega
    · have hfalse := Bool.eq_false_iff.mpr hwork
      rw [holds_of_not_refreshes hfalse] at hm
      have hload := he.1 hfalse
      omega
  heeds _ _ h := h
  abandons n c j h := h.trans (load_abandonJob c j).symm

/-- What is known of a scene: the refreshes that wait for a token hold the turn. -/
abbrev InTurns (s : Scene) : Prop :=
  refreshRules.Balance holds Fetching (fun n c => n = c.load) s

theorem inTurns_course (hfree : c.supervisor.turn.held = false) (h : Course (scene c) ms s) :
    InTurns s := by
  refine refreshRules_balanced.course ?_ h
  show 0 = c.load
  rw [load, hfree]
  rfl

/-! ## Moments of refreshes -/

/-- What becomes of a refresh in a moment. A timer that finds no token does not come to refresh. -/
inductive Refreshment (m : Nat) (x : Moment) : Prop where
  | pauses (p : Pause) (m' : Nat) (hp : x.result = .paused p)
      (h : Refreshed (Timed x.work) (Forced x.work) m x.start x.left (.paused p) m')
  | ends (r : RefreshResult) (e : Ending Reply Job) (he : x.result = .ended e)
      (hcall : x.work.isCall = true → e = .answers (.refreshed r))
      (h : Refreshed (Timed x.work) (Forced x.work) m x.start x.left (.ended r) m)
  | tokenless (e : Ending Reply Job) (he : x.result = .ended e) (hm : m = 0)
      (htimer : x.work.isCall = false) (h : Still x.start x.left)

theorem refreshment_of_keeps {m m' : Nat} (h : refreshRules.Keeps m m' x)
    (hwork : Refreshes x.work = true) : Refreshment m x := by
  obtain ⟨n, work, i, result, left, after⟩ := x
  cases result with
  | paused p =>
      have hp : refreshRules.pact work m i p left m' := h
      simp only [refreshRules, if_pos (show Refreshes work = true from hwork)] at hp
      exact .pauses p m' rfl hp
  | ended e =>
      obtain ⟨⟨-, hcall, htimer⟩, -⟩ := h
      rcases eq_of_refreshes hwork with ⟨force, rfl⟩ | ⟨task, rfl⟩
      · obtain ⟨r, he, hr⟩ := hcall force rfl
        exact .ends r e rfl (fun _ => he) hr
      · obtain ⟨-, ⟨hm, hstill, -⟩ | ⟨r, hr⟩⟩ := htimer task rfl
        · exact .tokenless e rfl hm rfl hstill
        · exact .ends r e rfl nofun hr

/-- Each moment of a refresh is told from the wait that it ends, unless it is a drop. -/
theorem InTurns.refreshment (h : InTurns s) (hx : Step s x) (hwork : Refreshes x.work = true) :
    ∃ m, (x.result ≠ .paused .drops → m = holds x.work (x.start.cue.map (·.1))) ∧
      Refreshment m x := by
  obtain ⟨m, m', hkeeps, hm⟩ := h.held.keeps refreshRules_keptBy refreshRules_told hx
  exact ⟨m, hm, refreshment_of_keeps hkeeps hwork⟩

theorem refreshment_of_mem (hfree : c.supervisor.turn.held = false) (h : Course (scene c) ms s)
    (hx : x ∈ ms) (hwork : Refreshes x.work = true) :
    ∃ m, (x.result ≠ .paused .drops → m = holds x.work (x.start.cue.map (·.1))) ∧
      Refreshment m x := by
  obtain ⟨before, after, rfl⟩ := List.append_of_mem hx
  obtain ⟨t, hbefore, hstep, -⟩ := h.split
  exact (inTurns_course hfree hbefore).refreshment hstep hwork

/-- The refresh goes for a token in the moment. -/
def Moment.Asks (x : Moment) : Prop :=
  x.left.asked ≠ x.start.state.asked ∨ x.result = .paused (.waits .token)

/-- A refresh that goes for a token has seen that it is needed, unless it was forced. -/
theorem Refreshment.needed (h : Refreshment m x) (hasks : x.Asks) :
    Forced x.work = true ∨
      ∃ w, Looks x.start w ∧ (w.needsRefresh x.start.state.own x.start.now).1 = true := by
  rcases hasks with hasks | hasks
  · cases h with
    | tokenless e he hm htimer h => exact absurd h.asked hasks
    | pauses p m' hp h =>
        cases h with
        | sleeps span htimer hm h hload => exact absurd h.asked hasks
        | queues n hm hcue hheld h hload => exact absurd h.asked hasks
        | early n a hm hcue hlost h hload => exact absurd h.asked hasks
        | asks hm h hload => exact h.needed
        | drops hown htabs hasked hload => exact absurd hasked hasks
    | ends r e he hcall h =>
        cases h with
        | spares w hm hforce hw hneed h hload => exact absurd h.asked hasks
        | denied e hm h hload => exact h.needed
        | learns r hm h hload => exact absurd h.asked hasks
  · cases h with
    | tokenless e he hm htimer h => cases he.symm.trans hasks
    | ends r e he hcall h => cases he.symm.trans hasks
    | pauses p m' hp h =>
        cases hp.symm.trans hasks
        cases h with
        | asks hm h hload => exact h.needed

/-- The turn is there for the taking: it is free, or the ticket was called and nobody has come
before. -/
def Gets (i : Start Client) : Prop :=
  (Uncalled i ∧ i.state.load = 0) ∨
    ∃ n a, i.cue = some ⟨.turn n, a⟩ ∧ (i.state.supervisor.turn.claim n).1 = true

/-- The ticket that the stretch was called with. -/
def calledWith (i : Start Client) : Option Nat :=
  match i.cue with
  | some ⟨.turn n, _⟩ => some n
  | _ => none

theorem calledWith_eq_some {n : Nat} : calledWith i = some n ↔ ∃ a, i.cue = some ⟨.turn n, a⟩ := by
  unfold calledWith
  split
  · rename_i n' a hcue
    refine ⟨fun h => ?_, fun ⟨a', h⟩ => ?_⟩
    · rw [hcue, Option.some.inj h]
      exact ⟨a, rfl⟩
    · cases hcue.symm.trans h
      rfl
  · rename_i hnone
    exact ⟨nofun, fun ⟨a, h⟩ => absurd h (hnone n a)⟩

theorem uncalled_iff : Uncalled i ↔ calledWith i = none := by
  rw [Option.eq_none_iff_forall_ne_some]
  refine forall_congr' fun n => ?_
  rw [ne_eq, calledWith_eq_some, not_exists]

instance (i : Start Client) : Decidable (Gets i) :=
  decidable_of_iff ((calledWith i = none ∧ i.state.load = 0) ∨
      ((calledWith i).any fun n => (i.state.supervisor.turn.claim n).1) = true) (by
    refine or_congr (by rw [uncalled_iff]) ?_
    rw [Option.any_eq_true]
    refine exists_congr fun n => ?_
    rw [calledWith_eq_some, exists_and_right])

/-- The refresh does not go for a token; a caller that gets the turn is told that there was no need.
-/
structure Moment.Spared (x : Moment) : Prop where
  asks : ¬x.Asks
  answers : x.work.isCall = true → Gets x.start →
    x.result = .ended (.answers (.refreshed (.ok false)))

/-- A refresh that is not forced and sees no need is spared. -/
theorem Refreshment.spared (h : Refreshment m x) (hm : m = 0) (hforce : Forced x.work = false)
    (hgoes : x.result ≠ .paused .drops) (hneed : ∀ w, Looks x.start w →
      (w.needsRefresh x.start.state.own x.start.now).1 = false) : x.Spared where
  asks hasks := by
    rcases h.needed hasks with hforced | ⟨w, hw, hneeds⟩
    · rw [hforce] at hforced
      cases hforced
    · rw [hneed w hw] at hneeds
      cases hneeds
  answers hcall hgets := by
    have hunneeded : ¬Fetches (Forced x.work) x.start x.left := by
      intro hf
      rcases hf.needed with hforced | ⟨w, hw, hneeds⟩
      · rw [hforce] at hforced
        cases hforced
      · rw [hneed w hw] at hneeds
        cases hneeds
    cases h with
    | tokenless e he hm htimer h =>
        rw [hcall] at htimer
        cases htimer
    | pauses p m' hp h =>
        cases h with
        | sleeps span htimer hm h hload =>
            rw [Timed, hcall] at htimer
            cases htimer
        | queues n hm hcue hheld h hload =>
            rcases hgets with ⟨-, hfree⟩ | ⟨n, a, hcalled, -⟩
            · rw [hheld] at hfree
              cases hfree
            · exact absurd hcalled (hcue n a)
        | early n a hm hcue hlost h hload =>
            rcases hgets with ⟨hcalled, -⟩ | ⟨n', a', hcalled, hgot⟩
            · exact absurd hcue (hcalled n a)
            · cases hcue.symm.trans hcalled
              rw [hlost] at hgot
              cases hgot
        | asks hm h hload => exact absurd h hunneeded
        | drops hown htabs hasked hload => exact absurd hp hgoes
    | ends r e he hanswers h =>
        cases h with
        | spares w hm hforce hw hneed h hload => rw [he, hanswers hcall]
        | denied e hm h hload => exact absurd h hunneeded
        | learns r hone h hload =>
            rw [hm] at hone
            cases hone

end Client

end ClientSession
