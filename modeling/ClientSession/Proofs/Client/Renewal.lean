import ClientSession.Proofs.Client.Calls

/-!
# Renewing a session

A refresh and a retried check ask for a new token and store it. What holds before holds until then;
what holds afterwards depends on what storing the token makes of it.

- `Patient.refresh`: a refresh that stores a token arms the expiry timer before it ends.
- `Patient.watchRefresh`, `Patient.watchExpiry`: the timers.
-/

namespace ClientSession

open Activity

namespace Client

variable {μ : Type} {P : Pact μ Client} {A S F : μ → Start Client → Client → Prop}

theorem setTabs_of_history {c : Client} {w : Tabs} (h : w.history = c.tabs.history) :
    c.setTabs w = { c with tabs := w } := by
  simp [setTabs, h]

theorem store_of_term_none {t : IssuedToken} (h : Tabs.term? t.token t.expiresAt = none)
    (c : Client) : c.store t = c := by
  rw [store, Tabs.install_of_term_none h, setTabs_of_history rfl]

theorem storable?_token (t : IssuedToken) :
    Cue.storable? ⟨.token, .ok t⟩ =
      if (Tabs.term? t.token t.expiresAt).isSome then some t else none := rfl

theorem term?_isSome_of_storable? {t : IssuedToken} (ht : Cue.storable? ⟨.token, .ok t⟩ = some t) :
    (Tabs.term? t.token t.expiresAt).isSome := by
  rw [storable?_token] at ht
  by_contra hterm
  rw [if_neg hterm] at ht
  cases ht

/-- A wait for a token ends with none, with one that is of no use, or with one that is then stored.
-/
theorem Patient.fetchToken (hA : Patient P A S) (supply : TokenSupply) :
    Triple P A (Client.fetchToken supply) fun m i r c =>
      match r with
      | .error _ => A m i c
      | .ok t =>
        if (Tabs.term? t.token t.expiresAt).isSome then S m i (c.store t) else A m i c := by
  cases supply with
  | nobody => exact triple_pure fun m i c h => h
  | interactive => exact triple_pure fun m i c h => h
  | provider =>
      refine triple_await fun m i c h => ?_
      obtain ⟨m', hp, hd, ha, hs⟩ := hA.waits m i c .token h rfl
      refine ⟨m', hp, hd, fun a now c => ?_⟩
      cases a with
      | error e => exact ha (.error e) now c rfl
      | ok t =>
          have hcue := storable?_token t
          dsimp only
          split
          · rename_i hterm
            rw [if_pos hterm] at hcue
            exact hs t now c hcue
          · rename_i hterm
            rw [if_neg hterm] at hcue
            exact ha _ now c hcue

/-! ## Refreshes -/

theorem Steady.countRefresh (hA : Steady P A) (o : Outcome) :
    Maintains P A (Client.countRefresh o) := hA.modify fun c => aside_countRefresh c o

theorem moves_take : Moves Wait.Aside (fun _ _ => True) Turn.take := by
  refine ⟨fun m i t _ => ?_⟩
  unfold Turn.take
  split
  · refine ⟨(), ⟨?_, trivial⟩, fun _ _ => ⟨nofun, trivial⟩, fun _ _ t => ?_⟩
    · rintro _ ⟨⟩
      exact ⟨nofun, rfl⟩
    · dsimp only
      split
      · trivial
      · exact ⟨nofun, trivial⟩
  · trivial

theorem Patient.takeTurn (hA : Patient P A S) : Maintains P A Client.takeTurn :=
  hA.within (fun c _ => aside_mapTurn c _) moves_take

theorem Patient.renewToken (hA : Patient P A S) :
    Triple P A Client.renewToken fun m i r c =>
      match r with
      | .ok () => S m i c
      | .error _ => A m i c := by
  refine Triple.bind (maintains_get (A := A)) fun c => ?_
  refine Triple.bind (hA.fetchToken _) fun r => ?_
  cases r with
  | error e => exact triple_pure fun m i c h => h
  | ok t =>
      refine Triple.bind (M := fun m i stored c => if stored then S m i c else A m i c)
        (triple_step fun m i c h => ?_) fun stored => triple_pure fun m i c h => ?_
      · dsimp only at h ⊢
        rw [Tabs.install_fst]
        split at h
        · rename_i hterm
          rw [if_pos hterm]
          exact h
        · rename_i hterm
          have hstore := store_of_term_none (Option.not_isSome_iff_eq_none.mp hterm) c
          rw [if_neg hterm]
          show A m i (c.store t)
          rw [hstore]
          exact h
      · cases stored with
        | true => exact h
        | false => exact h

theorem Patient.refreshInTurn (hA : Patient P A S)
    (hS : ∀ m i c c', S m i c → Aside c c' → S m i c')
    (harm : ∀ m i c, S m i c → F m i (c.mapSupervisor (·.armTimeout))) (force : Bool) :
    Triple P A (Client.refreshInTurn force) fun m i _ c => A m i c ∨ F m i c := by
  refine Triple.bind (hA.look fun w i now h => ?_) fun needed => ?_
  · rw [Tabs.needsRefresh_state h]
    exact .same i w
  refine Triple.ite (fun _ => triple_pure fun m i c h => .inl h) fun _ => ?_
  refine Triple.bind (hA.countRefresh _) fun _ => Triple.bind hA.renewToken fun r => ?_
  cases r with
  | ok _ =>
      refine Triple.bind (M := fun m i _ c => S m i c)
        (triple_modify fun m i c h => hS m i c _ h (aside_countRefresh c _)) fun _ => ?_
      refine Triple.bind (M := fun m i _ c => S m i c)
        (triple_change fun m i c h => hS m i c _ h (aside_trackAuth c _)) fun _ => ?_
      refine Triple.bind (M := fun m i _ c => F m i c) (triple_modify harm) fun _ => ?_
      exact triple_pure fun m i c h => .inr h
  | error e =>
      refine Triple.bind (hA.countRefresh _) fun _ => ?_
      refine Triple.bind (hA.change fun now c => aside_trackAuth c _) fun _ => ?_
      exact triple_pure fun m i c h => .inl h

theorem Patient.refresh (hA : Patient P A S) (hS : ∀ m i c c', S m i c → Aside c c' → S m i c')
    (hF : ∀ m i c c', F m i c → Aside c c' → F m i c')
    (harm : ∀ m i c, S m i c → F m i (c.mapSupervisor (·.armTimeout))) (force : Bool) :
    Triple P A (Client.refresh force) fun m i _ c => A m i c ∨ F m i c := by
  -- The turn is given back whether or not a token was stored.
  have hback : Maintains P (fun m i c => A m i c ∨ F m i c)
      (modify giveBackTurn : Activity Client PUnit) := by
    refine triple_modify fun m i c h => ?_
    rcases h with h | h
    · exact .inl (hA.aside m i c _ h (aside_mapTurn c _))
    · exact .inr (hF m i c _ h (aside_mapTurn c _))
  refine Triple.bind hA.takeTurn fun _ => Triple.bind (M := fun m i _ c => A m i c ∨ F m i c)
    ?_ fun r => Triple.bind hback fun _ => triple_pure fun m i c h => h
  exact (hA.refreshInTurn hS harm force).guarded fun m i c h =>
    hA.drops m i c _ h (aside_mapTurn c _)

/-! ## Timers -/

theorem Patient.watchRefresh (hA : Patient P A S)
    (hS : ∀ m i c c', S m i c → Aside c c' → S m i c')
    (hF : ∀ m i c c', F m i c → Aside c c' → F m i c')
    (harm : ∀ m i c, S m i c → F m i (c.mapSupervisor (·.armTimeout))) (task : Nat) :
    Triple P A (Client.watch (.refreshTimer task)) fun m i _ c => A m i c ∨ F m i c := by
  refine Triple.bind (maintains_get (A := A)) fun c => Triple.bind (hA.sleep _) fun _ => ?_
  refine Triple.bind (hA.look fun w i now h => ?_) fun stored => ?_
  · rw [Tabs.hasToken_state h]
    exact .same i w
  refine Triple.ite (fun _ => ?_) fun _ => triple_pure fun m i c h => .inl h
  exact Triple.bind (hA.refresh hS hF harm false) fun _ => triple_pure fun m i c h => h

/-- The session has an end that is still to come. -/
def lasts (c : Client) (now : Instant) : Bool :=
  (c.tabs.expiresAt c.own).1.any fun t => decide (now < t)

/-- The client once it has read when its session ends. -/
def readExpiry (c : Client) : Client := c.setTabs (c.tabs.expiresAt c.own).2

/-- The session is ended by the expiry timer, which is then no longer armed. -/
def expire (task : Nat) (c : Client) : Client :=
  (c.mapTabs (·.endSession c.own .expired)).mapSupervisor fun s =>
    if s.expiryTask = some task then { s with expiryTask := none } else s

theorem Patient.watchExpiry (hA : Patient P A S) {E : μ → Start Client → Client → Prop}
    {n : Nat} (hexpire : ∀ m i c, A m i c → c.lasts i.now = false →
      E m i (c.readExpiry.expire n)) :
    Triple P A (Client.watch (.expiryTimer n)) fun m i again c =>
      if again.isSome then A m i c else E m i c := by
  refine Triple.bind (maintains_get (A := A)) fun c => ?_
  refine Triple.bind (hA.look fun w i now h => ?_) fun span => Triple.bind (hA.sleep _) fun _ => ?_
  · rw [show (timeToExpiry w i now c.supervisor.config.timeoutFallback).2 = (w.expiresAt i).2 from
      rfl, Tabs.expiresAt_state h]
    exact .same i w
  refine Triple.bind (M := fun m i now c => A m i c ∧ now = i.now)
    (triple_now fun m i c h => ⟨h, rfl⟩) fun now => ?_
  -- What was read before the sleep does not count: the decision is on what is read after it.
  refine Triple.bind (M := fun m i e c' => ∃ c, A m i c ∧ now = i.now ∧
    e = (c.tabs.expiresAt c.own).1 ∧ c' = c.readExpiry)
    (triple_step fun m i c h => ⟨c, h.1, h.2, rfl, rfl⟩) fun e => ?_
  refine Triple.ite (fun _ => triple_pure ?_) fun hlast => ?_
  · rintro m i _ ⟨c, h, -, -, rfl⟩
    refine hA.recalls m i c _ h fun hh => ?_
    rw [Tabs.expiresAt_state hh]
    exact .same _ _
  · refine Triple.bind (M := fun m i _ c' => ∃ c, A m i c ∧ c.lasts i.now = false ∧
      c' = c.readExpiry.mapTabs (·.endSession c.readExpiry.own .expired))
      (triple_modify ?_) fun _ => ?_
    · rintro m i _ ⟨c, h, rfl, rfl, rfl⟩
      exact ⟨c, h, Bool.eq_false_iff.mpr hlast, rfl⟩
    refine Triple.bind (M := fun m i _ c => E m i c) (triple_modify ?_) fun _ =>
      triple_pure fun m i c h => h
    rintro m i _ ⟨c, h, hl, rfl⟩
    exact hexpire m i c h hl

end Client

end ClientSession
