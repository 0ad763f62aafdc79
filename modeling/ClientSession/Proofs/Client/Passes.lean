import ClientSession.Proofs.Client.Renewal

/-!
# Passes

A pass checks the token with the server. Until a first retry is counted it does what a call does;
from then on it also drops the token and asks for new ones. `A` is an assertion about the first
attempt and `B` one about the others. At the end the pass authenticates the user or gives the
session up.

- `Calling.attemptChecks`: the attempts of a pass.
- `Passing.validate`, `Passing.validateSession`: passes, by what is asked of their outcome.
-/

namespace ClientSession

open Activity

namespace Client

variable {μ : Type} {P : Pact μ Client} {A B : μ → Start Client → Client → Prop}

/-- A retry of the pass is counted. -/
def countRetry (c : Client) : Client := c.mapValidator (·.count .retry)

/-- The session is dropped before a new token is asked for. -/
def dropSession (c : Client) : Client := c.mapTabs (·.clearSession c.own)

/-- A pass ends without having authenticated the user. -/
def giveUpPass (now : Instant) (c : Client) : Client :=
  let c := (c.mapTabs (·.endSession c.own .validationExhausted)).mapValidator (·.settle .expired)
  if c.announces then c.announce unverified now else c

theorem Calling.renewCredential (hB : Calling P B B)
    (hdrop : ∀ m i c, B m i c → B m i c.dropSession) :
    Maintains P B Client.renewCredential := by
  refine Maintains.bind (triple_modify hdrop) fun _ => Maintains.bind maintains_get fun c => ?_
  cases c.validator.supply with
  | nobody => exact maintains_pure _
  | interactive | provider =>
      refine Triple.bind (hB.fetchToken _) fun r => ?_
      cases r with
      | error e => exact triple_pure fun m i c h => h
      | ok t =>
          refine triple_modify fun m i c h => ?_
          dsimp only at h
          split at h
          · exact h
          · rename_i hterm
            show B m i (c.store t)
            rw [store_of_term_none (Option.not_isSome_iff_eq_none.mp hterm)]
            exact h

theorem Steady.countValidation (hA : Steady P A) (o : Outcome) :
    Maintains P A (Client.countValidation o) := hA.modify fun c => aside_countValidation c o

/-- Before every attempt but the first the credential is renewed. -/
theorem Calling.afterRenewal (hB : Calling P B B)
    (hdrop : ∀ m i c, B m i c → B m i c.dropSession) {α : Type} {x : Activity Client α}
    {Q : μ → Start Client → α → Client → Prop} {done : Nat}
    (hx : Triple P (fun m i c => A m i c ∨ B m i c) x Q) :
    Triple P (fun m i c => if 0 < done then B m i c else A m i c)
      (if 0 < done then do
        let _ ← Client.renewCredential
        x
      else x) Q := by
  by_cases h : 0 < done
  · simp only [if_pos h]
    exact Triple.bind (hB.renewCredential hdrop) fun _ =>
      hx.conseq (fun m i c h => .inr h) fun m i a c h => h
  · simp only [if_neg h]
    exact hx.conseq (fun m i c h => .inl h) fun m i a c h => h

/-- The first attempt of a pass keeps `A`, and the others `B`. -/
theorem Calling.attemptChecks (hA : Calling P A A) (hB : Calling P B B)
    (hretry : ∀ m i c, A m i c ∨ B m i c → B m i c.countRetry)
    (hdrop : ∀ m i c, B m i c → B m i c.dropSession) (policy : RetryPolicy) (left done : Nat) :
    Triple P (fun m i c => if 0 < done then B m i c else A m i c)
      (Client.attemptChecks policy left done) fun m i _ c => A m i c ∨ B m i c := by
  have htrack : ∀ f : Instant → Client → Event,
      Maintains P (fun m i c => A m i c ∨ B m i c)
        (Activity.change fun now c => c.trackAuth (f now c)) := fun f =>
    (hA.change fun now c => aside_trackAuth c _).or (hB.change fun now c => aside_trackAuth c _)
  -- By induction on the attempts left. Once one has failed a retry is counted, and `B` goes on.
  induction left generalizing done with
  | zero =>
      rw [Client.attemptChecks]
      refine hB.afterRenewal hdrop (Triple.bind (hA.checkToken.or hB.checkToken) fun r => ?_)
      cases r with
      | ok user => exact Triple.bind (htrack _) fun _ => triple_pure fun m i c h => h
      | error e => exact Triple.bind (htrack _) fun _ => triple_pure fun m i c h => h
  | succ left ih =>
      rw [Client.attemptChecks]
      refine hB.afterRenewal hdrop (Triple.bind (hA.checkToken.or hB.checkToken) fun r => ?_)
      cases r with
      | ok user => exact Triple.bind (htrack _) fun _ => triple_pure fun m i c h => h
      | error e =>
          refine Triple.bind (M := fun m i _ c => B m i c) (triple_modify hretry) fun _ => ?_
          refine Triple.bind (hB.backOff policy done) fun _ => ?_
          exact (ih (done + 1)).conseq (fun m i c h => by rwa [if_pos (Nat.succ_pos done)])
            fun m i a c h => h

/-! ## The end of a pass -/

/-- What is asked of a pass that was begun: it may attempt its checks, and end as it does. -/
structure Concluding (P : Pact μ Client) (A B : μ → Start Client → Client → Prop)
    (Q : μ → Start Client → ValidationResult → Client → Prop) : Prop where
  first : Calling P A A
  later : Calling P B B
  retries : ∀ m i c, A m i c ∨ B m i c → B m i c.countRetry
  clears : ∀ m i c, B m i c → B m i c.dropSession
  succeeds : ∀ m i c user, A m i c ∨ B m i c →
    Q m i (.ok user) (c.mapValidator (·.settle (.authenticated user)))
  fails : ∀ m i c e, A m i c ∨ B m i c → Q m i (.error e) (c.giveUpPass i.now)

/-- What is asked of a pass: it may begin, or be refused, and be dropped too. -/
structure Passing (P : Pact μ Client) (A B : μ → Start Client → Client → Prop)
    (Q : μ → Start Client → ValidationResult → Client → Prop) : Prop
    extends Concluding P A B Q where
  begins : ∀ m i c, A m i c → A m i c.tryBegin.2
  abandons : ∀ m i c, P m i .drops c m → P m i .drops c.abandonPass m
  refused : ∀ m i c, A m i c → Q m i (.error .inProgress) c

variable {Q Q' : μ → Start Client → ValidationResult → Client → Prop}

theorem Concluding.runPass (h : Concluding P A B Q) :
    Triple P A Client.runPass Q := by
  refine Triple.bind (h.first.countValidation _) fun _ => ?_
  refine Triple.bind (maintains_get (A := A)) fun c => ?_
  refine Triple.bind (M := fun m i _ c => A m i c ∨ B m i c)
    (h.first.attemptChecks h.later h.retries h.clears _ _ 0) fun r => ?_
  have hcount : ∀ o, Maintains P (fun m i c => A m i c ∨ B m i c) (Client.countValidation o) :=
    fun o => (h.first.countValidation o).or (h.later.countValidation o)
  cases r with
  | ok user =>
      refine Triple.bind (hcount _) fun _ => Triple.bind (M := fun m i _ c => Q m i (.ok user) c)
        (triple_modify fun m i c hc => h.succeeds m i c user hc) fun _ =>
          triple_pure fun m i c h => h
  | error e =>
      refine Triple.bind (hcount _) fun _ => ?_
      refine Triple.bind (M := fun m i _ c' => ∃ c, (A m i c ∨ B m i c) ∧
        c' = c.mapTabs (·.endSession c.own .validationExhausted))
        (triple_modify fun m i c h => ⟨c, h, rfl⟩) fun _ => ?_
      refine Triple.bind (M := fun m i _ c' => ∃ c, (A m i c ∨ B m i c) ∧
        c' = (c.mapTabs (·.endSession c.own .validationExhausted)).mapValidator
          (·.settle .expired)) (triple_modify ?_) fun _ => ?_
      · rintro m i _ ⟨c, hc, rfl⟩
        exact ⟨c, hc, rfl⟩
      refine Triple.bind (M := fun m i _ c => Q m i (.error e) c) (triple_change ?_) fun _ =>
        triple_pure fun m i c h => h
      rintro m i _ ⟨c, hc, rfl⟩
      exact h.fails m i c e hc

theorem Passing.validate (h : Passing P A B Q) : Triple P A Client.validate Q := by
  refine Triple.bind (M := fun m i begun c => A m i c) (triple_step h.begins) fun begun => ?_
  refine Triple.ite (fun _ => ?_) fun _ => triple_pure h.refused
  exact h.runPass.guarded h.abandons

/-- The timers run again and events name the user. -/
def resumeSession (user : String) (c : Client) : Client :=
  (if c.supervisor.isRunning then c else c.mapSupervisor (·.start)).setUser (some user)

theorem Passing.validateSession (h : Passing P A B Q) (hok : ∀ m i c user, Q m i (.ok user) c →
      Q' m i (.ok user) (c.resumeSession user))
    (herror : ∀ m i c e, Q m i (.error e) c → Q' m i (.error e) c) :
    Triple P A Client.validateSession Q' := by
  refine Triple.bind h.validate fun r => ?_
  cases r with
  | error e => exact triple_pure fun m i c => herror m i c e
  | ok user =>
      refine Triple.bind (M := fun m i _ c' => ∃ c, Q m i (.ok user) c ∧
        c' = if c.supervisor.isRunning then c else c.mapSupervisor (·.start))
        (triple_modify fun m i c h => ⟨c, h, rfl⟩) fun _ => ?_
      refine Triple.bind (M := fun m i _ c => Q' m i (.ok user) c) (triple_modify ?_) fun _ =>
        triple_pure fun m i c h => h
      rintro m i _ ⟨c, h, rfl⟩
      exact hok m i c user h

end Client

end ClientSession
