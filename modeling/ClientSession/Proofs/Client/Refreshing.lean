import ClientSession.Proofs.Client.Laws
import ClientSession.Proofs.Client.Turns
import ClientSession.Proofs.Headcount

/-!
# What a refresh does in a stretch

A refresh waits for its turn, looks whether the session needs it, and asks for a new token. While it
waits for the token it holds the turn; it gives the turn back when it ends, and when it is dropped.
So the turn is held exactly by the refresh that has asked, and a stretch that does not go on with
the answer leaves what the tab remembers as it was.

- `Turn.held_giveUp`, `Turn.held_claim`: a place in the line can be left without the turn changing
  hands.
- `Client.Refreshed`: what may become of a refresh in a stretch.
- `Client.refreshed_refresh`, `Client.refreshed_refreshTimer`: it does so.
-/

namespace ClientSession

namespace Turn

variable (t : Turn) (n : Nat)

@[simp] theorem held_callNext : t.callNext.held = t.held := by
  unfold callNext
  split
  · rfl
  · split <;> rfl

@[simp] theorem held_giveBack : t.giveBack.held = false := by simp [giveBack]

@[simp] theorem held_giveUp : (t.giveUp n).held = t.held := by
  unfold giveUp
  split
  · simp [leave]
  · rfl

/-- Who takes the turn with a ticket finds it free, and who does not leaves it as it is. -/
theorem held_claim :
    if (t.claim n).1 then t.held = false ∧ (t.claim n).2.held = true
    else (t.claim n).2.held = t.held := by
  unfold claim
  dsimp only
  by_cases hcalled : t.isCalled n = true
  · rw [if_pos hcalled]
    by_cases hheld : (t.leave n).held = true
    · rw [if_pos hheld]
      simp [leave]
    · rw [if_neg hheld]
      simpa [leave] using hheld
  · rw [if_neg hcalled]
    simp

end Turn

namespace Supervisor

variable (s : Supervisor)

@[simp] theorem tally_stop (task : Option Nat) : (s.stop task).tally = s.tally := by
  cases task <;> rfl

@[simp] theorem tally_startTask (job : Nat → WatchJob) : (s.startTask job).2.tally = s.tally := by
  unfold startTask
  split <;> rfl

@[simp] theorem tally_armTimeout : s.armTimeout.tally = s.tally := by simp [armTimeout]

@[simp] theorem tally_shutdown : s.shutdown.tally = s.tally := by simp [shutdown]

end Supervisor

namespace Tabs

variable (w : Tabs) (i : Nat)

theorem slots_expiresAt : (w.expiresAt i).2.slots = w.slots := by
  unfold expiresAt
  split
  · rfl
  · dsimp only
    split <;> rfl

theorem slots_needsRefresh (now : Instant) : (w.needsRefresh i now).2.slots = w.slots :=
  slots_expiresAt w i

theorem slots_hasToken : (w.hasToken i).2.slots = w.slots := by
  unfold hasToken
  split <;> rfl

end Tabs

/-- The wait is for a token. -/
def Wait.isToken : Wait → Bool
  | .token => true
  | _ => false

open Activity

namespace Client

variable {timer force : Bool} {m m' : Nat} {i : Start Client} {c c' : Client} {w : Tabs}

/-- One if the turn is held. -/
def load (c : Client) : Nat := c.supervisor.turn.held.toNat

/-- How often the refreshes have asked for a token. -/
def asked (c : Client) : Nat := c.supervisor.tally.attempts

theorem load_congr (h : c'.supervisor.turn = c.supervisor.turn) : c'.load = c.load := by
  rw [load, h, load]

@[simp] theorem load_setTabs (c : Client) (w : Tabs) : (c.setTabs w).load = c.load :=
  load_congr (turn_setTabs c w)

@[simp] theorem load_giveBackTurn (c : Client) : c.giveBackTurn.load = 0 := by
  show (c.supervisor.turn.giveBack.held).toNat = 0
  simp

@[simp] theorem tally_setTabs (c : Client) (w : Tabs) :
    (c.setTabs w).supervisor.tally = c.supervisor.tally := by
  unfold setTabs
  dsimp only
  split
  · exact Supervisor.tally_shutdown _
  · rfl

@[simp] theorem asked_setTabs (c : Client) (w : Tabs) : (c.setTabs w).asked = c.asked :=
  congrArg Tally.attempts (tally_setTabs c w)

/-! ## Stretches -/

/-- The tabs at which a refresh looks: as the stretch finds them, or once the timer has looked for a
token. -/
def Looks (i : Start Client) (w : Tabs) : Prop :=
  w = i.state.tabs ∨ w = (i.state.tabs.hasToken i.state.own).2

/-- The refresh has not asked for a token, and has changed nothing of the tabs but, by looking, the
backend. -/
structure Still (i : Start Client) (c : Client) : Prop where
  own : c.own = i.state.own
  slots : c.tabs.slots = i.state.tabs.slots
  tabs : i.state.tabs.backend.Healthy → c.tabs = i.state.tabs
  asked : c.asked = i.state.asked

/-- The refresh goes for a token, since it is forced or has seen that the session needs one. -/
structure Fetches (force : Bool) (i : Start Client) (c : Client) : Prop where
  own : c.own = i.state.own
  slots : c.tabs.slots = i.state.tabs.slots
  tabs : i.state.tabs.backend.Healthy → c.tabs = i.state.tabs
  asked : c.asked = i.state.asked + 1
  needed : force = true ∨ ∃ w, Looks i w ∧ (w.needsRefresh i.state.own i.now).1 = true

/-- The refresh goes on with the answer: it stores the token if it can be stored. -/
structure Learns (i : Start Client) (c : Client) : Prop where
  own : c.own = i.state.own
  asked : c.asked = i.state.asked
  stores : ∀ t, i.cue = some ⟨.token, .ok t⟩ →
    c.tabs = (i.state.tabs.install i.state.own t.token t.expiresAt).2
  keeps : i.stores = false → c.tabs = i.state.tabs

/-- The refresh has not been told that its turn has come. -/
def Uncalled (i : Start Client) : Prop := ∀ n a, i.cue ≠ some ⟨.turn n, a⟩

/-- What becomes of a refresh in a stretch; only that of a timer sleeps. Before and after it stands a
one if it waits for a token, and so holds the turn. -/
inductive Refreshed (timer force : Bool) (m : Nat) (i : Start Client) (c : Client) :
    Result RefreshResult → Nat → Prop where
  | sleeps (span : Span) (htimer : timer = true) (hm : m = 0) (h : Still i c)
      (hload : c.load = i.state.load) :
      Refreshed timer force m i c (.paused (.waits (.sleep span))) 0
  /-- The turn is held, and it takes a ticket. -/
  | queues (n : Nat) (hm : m = 0) (hcue : Uncalled i) (hheld : i.state.load = 1) (h : Still i c)
      (hload : c.load = i.state.load) : Refreshed timer force m i c (.paused (.waits (.turn n))) 0
  /-- It cannot take the turn with its ticket. -/
  | early (n : Nat) (a : Unit) (hm : m = 0) (hcue : i.cue = some ⟨.turn n, a⟩)
      (hlost : (i.state.supervisor.turn.claim n).1 = false) (h : Still i c)
      (hload : c.load = i.state.load) : Refreshed timer force m i c (.paused .stays) 0
  /-- It has its turn, and the session does not need it. -/
  | spares (w : Tabs) (hm : m = 0) (hforce : force = false) (hw : Looks i w)
      (hneed : (w.needsRefresh i.state.own i.now).1 = false) (h : Still i c)
      (hload : c.load = i.state.load) : Refreshed timer force m i c (.ended (.ok false)) m
  | asks (hm : m = 0) (h : Fetches force i c) (hload : c.load = i.state.load + 1) :
      Refreshed timer force m i c (.paused (.waits .token)) 1
  /-- Nobody can be asked. -/
  | denied (e : IssueFailure) (hm : m = 0) (h : Fetches force i c) (hload : c.load = i.state.load) :
      Refreshed timer force m i c (.ended (.error e)) m
  | learns (r : RefreshResult) (hm : m = 1) (h : Learns i c)
      (hload : 1 ≤ i.state.load → i.state.load = c.load + 1) :
      Refreshed timer force m i c (.ended r) m
  | drops (hown : c.own = i.state.own) (htabs : c.tabs = i.state.tabs)
      (hasked : c.asked = i.state.asked)
      (hload : m ≤ i.state.load → i.state.load = c.load + m) :
      Refreshed timer force m i c (.paused .drops) m

/-- The pact of a refresh. -/
def refreshing (timer force : Bool) : Pact Nat Client := fun m i p c m' =>
  Refreshed timer force m i c (.paused p) m'

/-- The pact of a refresh for the time in which it has the turn: it gives that back when it is
dropped. -/
def inTurn (timer force : Bool) : Pact Nat Client := fun m i p c m' =>
  match p with
  | .drops => m = 1 ∧ m' = m ∧ c = i.state
  | p => Refreshed timer force m i c (.paused p) m'

/-! ## Taking the turn -/

theorem Still.refl (i : Start Client) : Still i i.state := ⟨rfl, rfl, fun _ => rfl, rfl⟩

theorem Still.same (h : Still i c) (hown : c'.own = c.own) (htabs : c'.tabs = c.tabs)
    (hasked : c'.asked = c.asked) : Still i c' where
  own := hown.trans h.own
  slots := by rw [htabs, h.slots]
  tabs hh := htabs.trans (h.tabs hh)
  asked := hasked.trans h.asked

/-- A refresh that has not asked yet. -/
structure Before (m : Nat) (i : Start Client) (c : Client) : Prop where
  memo : m = 0
  still : Still i c
  looks : Looks i c.tabs

/-- So it is when the turn has changed. -/
theorem Before.mapTurn (h : Before m i c) (f : Turn → Turn) : Before m i (c.mapTurn f) :=
  ⟨h.memo, h.still.same rfl rfl rfl, h.looks⟩

theorem before_resumed (q : Cue) (now : Instant) (c : Client) : Before 0 ⟨some q, now, c⟩ c :=
  ⟨rfl, Still.refl _, .inl rfl⟩

theorem load_mapTurn (c : Client) (f : Turn → Turn) :
    (c.mapTurn f).load = (f c.supervisor.turn).held.toNat := rfl

theorem triple_takeTurn : Triple (refreshing timer force)
    (fun m i c => Before m i c ∧ c.load = i.state.load ∧ Uncalled i) takeTurn
    fun m i _ c => Before m i c ∧ c.load = i.state.load + 1 := by
  refine ⟨fun m i c h => ?_⟩
  obtain ⟨hbefore, hload, hcue⟩ := h
  show ((Turn.take i.now c.supervisor.turn).within _ _ c).Meets _ _ _ _
  unfold Turn.take
  by_cases hheld : c.supervisor.turn.held = true
  · rw [if_pos hheld]
    have hone : c.load = 1 := by rw [load, hheld, Bool.toNat_true]
    refine ⟨0, .queues _ hbefore.memo hcue (hload ▸ hone) (hbefore.mapTurn _).still hload,
      fun now d => .drops rfl rfl rfl fun _ => ?_, fun a now d => ?_⟩
    · show _ = (d.supervisor.turn.giveUp _).held.toNat + 0
      rw [Turn.held_giveUp]
      rfl
    · -- It was called, and takes the turn if that is still free.
      have hclaim := Turn.held_claim d.supervisor.turn c.supervisor.turn.nextTicket
      dsimp only
      split
      · rename_i hgot
        rw [if_pos hgot] at hclaim
        refine ⟨(before_resumed _ now d).mapTurn _, ?_⟩
        show ((d.supervisor.turn.claim _).2.held).toNat = d.supervisor.turn.held.toNat + 1
        rw [hclaim.1, hclaim.2]
        rfl
      · rename_i hlost
        rw [if_neg hlost] at hclaim
        have hstill := ((before_resumed ⟨.turn c.supervisor.turn.nextTicket, a⟩ now d).mapTurn
          fun t => (t.claim c.supervisor.turn.nextTicket).2).still
        refine .early _ a rfl rfl (Bool.eq_false_iff.mpr hlost) hstill ?_
        show ((d.supervisor.turn.claim _).2.held).toNat = d.supervisor.turn.held.toNat
        rw [hclaim]
  · rw [if_neg hheld]
    refine ⟨hbefore.mapTurn _, ?_⟩
    show 1 = i.state.load + 1
    rw [← hload, load, Bool.eq_false_iff.mpr hheld]
    rfl

/-! ## In turn -/

/-- What is known at the end of the time in which a refresh has the turn. -/
def Through (force : Bool) (m : Nat) (i : Start Client) (r : RefreshResult) (c : Client) : Prop :=
  m = 0 ∧ c.load = i.state.load + 1 ∧
      (r = .ok false ∧ force = false ∧ Still i c ∧
          (∃ w, Looks i w ∧ (w.needsRefresh i.state.own i.now).1 = false) ∨
        Fetches force i c ∧ ∃ e, r = .error e) ∨
    m = 1 ∧ c.load = i.state.load ∧ Learns i c

/-- What is known once the answer has come, or there is nobody to ask. -/
def Answered (force : Bool) (m : Nat) (i : Start Client) (failed : Prop) (c : Client) : Prop :=
  m = 0 ∧ c.load = i.state.load + 1 ∧ Fetches force i c ∧ failed ∨
    m = 1 ∧ c.load = i.state.load ∧ Learns i c

theorem Answered.same {failed : Prop} (h : Answered force m i failed c) (hown : c'.own = c.own)
    (htabs : c'.tabs = c.tabs) (hasked : c'.asked = c.asked) (hload : c'.load = c.load) :
    Answered force m i failed c' := by
  rcases h with ⟨hm, hl, ha, hf⟩ | ⟨hm, hl, ha⟩
  · refine .inl ⟨hm, hload.trans hl, ⟨hown.trans ha.own, by rw [htabs, ha.slots], fun hh => ?_,
      hasked.trans ha.asked, ha.needed⟩, hf⟩
    rw [htabs, ha.tabs hh]
  · refine .inr ⟨hm, hload.trans hl, ⟨hown.trans ha.own, hasked.trans ha.asked, fun t ht => ?_,
      fun hs => ?_⟩⟩
    · rw [htabs, ha.stores t ht]
    · rw [htabs, ha.keeps hs]

theorem Answered.through (h : Answered force m i False c) (r : RefreshResult) :
    Through force m i r c := by
  rcases h with ⟨-, -, -, hf⟩ | h
  · exact hf.elim
  · exact .inr h

theorem Answered.through_error {failed : Prop} (h : Answered force m i failed c)
    (e : IssueFailure) : Through force m i (.error e) c := by
  rcases h with ⟨hm, hl, ha, -⟩ | h
  · exact .inl ⟨hm, hl, .inr ⟨ha, e, rfl⟩⟩
  · exact .inr h

/-- The answer is stored, if it is a token that can be. -/
theorem triple_renewToken : Triple (inTurn timer force)
    (fun m i c => m = 0 ∧ c.load = i.state.load + 1 ∧ Fetches force i c) renewToken
    fun m i r c => Answered force m i (r ≠ .ok ()) c := by
  have hnobody : Triple (inTurn timer force)
      (fun m i c => m = 0 ∧ c.load = i.state.load + 1 ∧ Fetches force i c)
      (pure (.error .loginRequired) : Activity Client (Except IssueFailure Unit))
      fun m i r c => Answered force m i (r ≠ .ok ()) c :=
    triple_pure fun m i c h => .inl ⟨h.1, h.2.1, h.2.2, nofun⟩
  refine Triple.bind maintains_get fun d => ?_
  cases d.supervisor.supply with
  | nobody => exact hnobody
  | interactive => exact hnobody
  | provider =>
      refine Triple.bind (M := fun m i r c => m = 1 ∧ c = i.state ∧
        i.cue = some ⟨.token, r⟩) (triple_await fun m i c h => ?_) fun r => ?_
      · obtain ⟨hm, hload, hasks⟩ := h
        exact ⟨1, .asks hm hasks hload, fun _ _ => ⟨rfl, rfl, rfl⟩, fun _ _ _ => ⟨rfl, rfl, rfl⟩⟩
      cases r with
      | error e =>
          refine triple_pure fun m i c h => ?_
          obtain ⟨rfl, rfl, hcue⟩ := h
          refine .inr ⟨rfl, rfl, rfl, rfl, fun t ht => ?_, fun _ => rfl⟩
          rw [hcue] at ht
          cases ht
      | ok t =>
          refine Triple.bind (M := fun m i _ c => m = 1 ∧ c.load = i.state.load ∧ Learns i c)
            (triple_step fun m i c h => ?_) fun stored => triple_pure fun m i c h => .inr h
          obtain ⟨rfl, rfl, hcue⟩ := h
          refine ⟨rfl, load_setTabs _ _, own_setTabs _ _, asked_setTabs _ _, fun t' ht => ?_,
            fun hs => ?_⟩
          · rw [hcue] at ht
            cases ht
            exact tabs_setTabs _ _
          · have hterm : Tabs.term? t.token t.expiresAt = none := by
              by_contra hsome
              have hstorable : Cue.storable? ⟨.token, .ok t⟩ = some t := by
                rw [storable?_token, if_pos (Option.isSome_iff_ne_none.mpr hsome)]
              rw [Start.stores, hcue, Option.any_some, hstorable] at hs
              cases hs
            rw [tabs_setTabs, Tabs.install_of_term_none hterm]

theorem triple_refreshInTurn : Triple (inTurn timer force)
    (fun m i c => Before m i c ∧ c.load = i.state.load + 1) (refreshInTurn force)
    (Through force) := by
  -- What the refresh sees of the session it sees in the stretch in which it has its turn.
  refine Triple.bind (M := fun m i needed c => m = 0 ∧ c.load = i.state.load + 1 ∧ Still i c ∧
    ∃ w, Looks i w ∧ needed = (w.needsRefresh i.state.own i.now).1)
    (triple_step fun m i c h => ?_) fun needed => ?_
  · obtain ⟨⟨hm, hstill, hlooks⟩, hload⟩ := h
    refine ⟨hm, (load_setTabs _ _).trans hload, ⟨?_, ?_, fun hh => ?_, ?_⟩, c.tabs, hlooks, ?_⟩
    · exact (own_setTabs _ _).trans hstill.own
    · rw [tabs_setTabs, Tabs.slots_needsRefresh, hstill.slots]
    · rw [tabs_setTabs, hstill.tabs hh, Tabs.needsRefresh_state hh]
    · exact (asked_setTabs _ _).trans hstill.asked
    · rw [hstill.own]
  refine Triple.ite (fun hspares => triple_pure fun m i c h => ?_) fun hneeds => ?_
  · obtain ⟨hm, hload, hstill, w, hlooks, hneed⟩ := h
    rw [Bool.and_eq_true, Bool.not_eq_true', Bool.not_eq_true'] at hspares
    exact .inl ⟨hm, hload, .inl ⟨rfl, hspares.1, hstill, w, hlooks, hneed ▸ hspares.2⟩⟩
  refine Triple.bind (M := fun m i _ c => m = 0 ∧ c.load = i.state.load + 1 ∧ Fetches force i c)
    (triple_modify fun m i c h => ?_) fun _ => Triple.bind triple_renewToken fun r => ?_
  · obtain ⟨hm, hload, hstill, w, hlooks, hneed⟩ := h
    refine ⟨hm, hload, hstill.own, hstill.slots, hstill.tabs, ?_, ?_⟩
    · rw [← hstill.asked]
      rfl
    · cases force with
      | true => exact .inl rfl
      | false => exact .inr ⟨w, hlooks, by simpa [hneed] using hneeds⟩
  cases r with
  | ok _ =>
      refine Triple.bind (M := fun m i _ c => Answered force m i False c)
        (triple_modify fun m i c h => ?_) fun _ => ?_
      · have h' : Answered force m i False c := by
          rcases h with ⟨-, -, -, hf⟩ | h
          · exact absurd rfl hf
          · exact .inr h
        exact h'.same rfl rfl rfl rfl
      refine Triple.bind (M := fun m i _ c => Answered force m i False c)
        (triple_change fun m i c h => h.same rfl rfl rfl rfl) fun _ => ?_
      refine Triple.bind (M := fun m i _ c => Answered force m i False c)
        (triple_modify fun m i c h => ?_) fun _ => triple_pure fun m i c h => h.through _
      refine h.same rfl rfl ?_ (load_congr (Supervisor.turn_armTimeout _))
      exact congrArg Tally.attempts (Supervisor.tally_armTimeout _)
  | error e =>
      refine Triple.bind (M := fun m i _ c => Answered force m i True c)
        (triple_modify fun m i c h => ?_) fun _ => ?_
      · have h' : Answered force m i True c := by
          rcases h with ⟨hm, hl, ha, -⟩ | h
          · exact .inl ⟨hm, hl, ha, trivial⟩
          · exact .inr h
        exact h'.same rfl rfl rfl rfl
      refine Triple.bind (M := fun m i _ c => Answered force m i True c)
        (triple_change fun m i c h => h.same rfl rfl rfl rfl) fun _ =>
          triple_pure fun m i c h => h.through_error e

/-! ## A whole refresh -/

theorem triple_refresh : Triple (refreshing timer force)
    (fun m i c => Before m i c ∧ c.load = i.state.load ∧ Uncalled i) (refresh force)
    fun m i r c => Refreshed timer force m i c (.ended r) m := by
  refine Triple.bind triple_takeTurn fun _ => ?_
  have hkeep : ∀ m i p s m', p ≠ .drops → inTurn timer force m i p s m' →
      refreshing timer force m i p s m' := by
    intro m i p s m' hp h
    cases p with
    | drops => exact absurd rfl hp
    | _ => exact h
  refine Triple.bind (triple_refreshInTurn.guarded_of hkeep ?_) fun r => ?_
  · -- A refresh that is dropped waits for a token, and the turn that it holds becomes free.
    rintro m i _ ⟨rfl, -, rfl⟩
    refine .drops rfl rfl rfl fun hone => ?_
    have hle := Bool.toNat_le i.state.supervisor.turn.held
    rw [load_giveBackTurn]
    exact Nat.le_antisymm hle hone
  refine Triple.bind (M := fun m i _ c => Refreshed timer force m i c (.ended r) m)
    (triple_modify fun m i c h => ?_) fun _ => triple_pure fun m i c h => h
  have hfree : c.load ≤ 1 := Bool.toNat_le c.supervisor.turn.held
  rcases h with ⟨hm, hload, hwhat⟩ | ⟨hm, hload, hl⟩
  · have hback : c.giveBackTurn.load = i.state.load := by
      rw [load_giveBackTurn]
      omega
    rcases hwhat with ⟨rfl, hforce, hstill, w, hlooks, hneed⟩ | ⟨ha, e, rfl⟩
    · exact .spares w hm hforce hlooks hneed (hstill.same rfl rfl rfl) hback
    · exact .denied e hm ⟨ha.own, ha.slots, ha.tabs, ha.asked, ha.needed⟩ hback
  · refine .learns r hm ⟨hl.own, hl.asked, hl.stores, hl.keeps⟩ fun hone => ?_
    rw [load_giveBackTurn]
    omega

/-- What the timer that refreshes the session does at the end of a stretch: as a refresh that is not
forced, or it finds no token. -/
def Rounds (m : Nat) (i : Start Client) (c : Client) : Prop :=
  m = 0 ∧ Still i c ∧ c.load = i.state.load ∨ ∃ r, Refreshed true false m i c (.ended r) m

theorem triple_refreshTimer (task : Nat) : Triple (refreshing true false)
    (fun m i c => m = 0 ∧ c = i.state ∧ Uncalled i) (watch (.refreshTimer task))
    fun m i again c => again = some (.refreshTimer task) ∧ Rounds m i c := by
  refine Triple.bind maintains_get fun d => ?_
  refine Triple.bind (M := fun m i _ c => m = 0 ∧ c = i.state ∧ Uncalled i) ?_ fun _ => ?_
  · refine Triple.ite (fun _ => triple_await fun m i c h => ?_) fun _ => triple_pure fun _ _ _ h => h
    obtain ⟨rfl, rfl, -⟩ := h
    refine ⟨0, .sleeps _ rfl rfl (Still.refl i) rfl, fun now c => ?_, fun _ _ _ => ⟨rfl, rfl, nofun⟩⟩
    exact .drops rfl rfl rfl fun _ => rfl
  refine Triple.bind (M := fun m i _ c => Before m i c ∧ c.load = i.state.load ∧ Uncalled i)
    (triple_step fun m i c h => ?_) fun found => ?_
  · obtain ⟨rfl, rfl, hcue⟩ := h
    refine ⟨⟨rfl, ⟨own_setTabs _ _, ?_, fun hh => ?_, asked_setTabs _ _⟩, .inr (tabs_setTabs _ _)⟩,
      load_setTabs _ _, hcue⟩
    · rw [tabs_setTabs, Tabs.slots_hasToken]
    · rw [tabs_setTabs, Tabs.hasToken_state hh]
  refine Triple.ite (fun _ => ?_) fun _ => triple_pure fun m i c h => ?_
  · exact Triple.bind triple_refresh fun r => triple_pure fun m i c h => ⟨rfl, .inr ⟨r, h⟩⟩
  · exact ⟨rfl, .inl ⟨h.1.memo, h.1.still, h.2.1⟩⟩

end Client

end ClientSession
