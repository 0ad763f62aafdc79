import ClientSession.Proofs.Client.Verdicts

/-!
# Tickets for passes

A caller may begin a pass and keep the ticket for it, to run the pass later or to release it. The
desk is a client together with the tickets that callers hold. Beside that callers may ask for any
operation of the client; the checks among these begin and run a pass at once. A ticket that is run is
spent, and a pass that is dropped is abandoned.

- `desk`: the workplace of tickets, operations and tasks.
- `Desk.rules_keptBy`: what stretches do to the validator and to the tickets.
-/

namespace ClientSession

open Activity

/-- A client and the tickets for passes that its callers hold. -/
structure Desk where
  client : Client
  held : List Nat
  nextTicket : Nat

/-- What is asked of the validator alone. Handlers and notices may ask for it in the midst of other
work. -/
inductive Inquiry where
  | claim
  | reset
  | look

/-- What callers ask for at a desk. -/
inductive Errand where
  | inquire (q : Inquiry)
  | run (ticket : Nat)
  | release (ticket : Nat)
  | ask (k : Operation)

/-- What they get. -/
inductive Receipt where
  | ticket (n : Option Nat)
  | state (s : ValidationState)
  | done
  | ran (r : ValidationResult)
  | reply (r : Reply)

/-- The result of the check that the receipt is for. -/
def Receipt.result? : Receipt → Option ValidationResult
  | .ran r => some r
  | .reply (.validated r) => some r
  | _ => none

namespace Desk

/-- The desk of a client whose callers hold no ticket. -/
def of (c : Client) : Desk := ⟨c, [], 0⟩

def setClient (d : Desk) (c : Client) : Desk := { d with client := c }

/-- What the validator is at. -/
def status (d : Desk) : ValidationState := d.client.status

/-- Gives a ticket, if a pass can begin. -/
def claim (d : Desk) : Receipt × Desk :=
  let r := d.client.tryBegin
  if r.1 then
    (.ticket (some d.nextTicket),
      ⟨r.2, d.held ++ [d.nextTicket], d.nextTicket + 1⟩)
  else (.ticket none, d.setClient r.2)

/-- Answers an inquiry. -/
def answer (d : Desk) : Inquiry → Receipt × Desk
  | .claim => d.claim
  | .reset => (.done, d.setClient (d.client.mapValidator (·.reset)))
  | .look => (.state d.status, d)

/-- Takes a ticket that is held; whether it is. -/
def spend (n : Nat) (d : Desk) : Bool × Desk :=
  if n ∈ d.held then (true, { d with held := d.held.erase n }) else (false, d)

/-- Releases a ticket that is held: its pass is abandoned. -/
def release (n : Nat) (d : Desk) : Desk :=
  if n ∈ d.held then ⟨d.client.abandonPass, d.held.erase n, d.nextTicket⟩ else d

end Desk

/-- Carries an errand out. Nobody runs a ticket that is not held. -/
def Errand.serve : Errand → Activity Desk Receipt
  | .inquire q => Activity.step fun _ d => d.answer q
  | .run n => do
    if ← Activity.step fun _ d => d.spend n then
      return .ran (← Client.pass.within (·.client) Desk.setClient)
    else return .done
  | .release n => do
    modify (Desk.release n)
    return .done
  | .ask k => do return .reply (← (Client.serve k).within (·.client) Desk.setClient)

/-- A desk, its callers and the tasks of its client. -/
def desk : Workplace Desk Errand Receipt Job TaskName where
  call := Errand.serve
  perform j := (Client.perform j).within (·.client) Desk.setClient
  goesBy := Client.workplace.goesBy
  orders d := Client.workplace.orders d.client
  heeded d := d.setClient (Client.workplace.heeded d.client)
  abandon d j := d.setClient (d.client.abandonJob j)

namespace Desk

variable {work : Work Errand Job} {i : Start Desk} {d : Desk} {m m' : Nat}

/-- The work runs a pass. -/
def Examines : Work Errand Job → Bool
  | .call (.run _) => true
  | .call (.ask k) => Client.checks (.call k)
  | _ => false

/-- How the tickets come to be as they are in a stretch of a pass: the pass goes on, it spends a
ticket, or it begins where the validator is free. -/
inductive Takes (i : Start Desk) (held : List Nat) : Work Errand Job → Prop
  | goesOn (work : Work Errand Job) (hcue : i.cue ≠ none) (hheld : held = i.state.held) :
      Takes i held work
  | spends (n : Nat) (hcue : i.cue = none) (hn : n ∈ i.state.held)
      (hheld : held = i.state.held.erase n) : Takes i held (.call (.run n))
  | begins (k : Operation) (hcue : i.cue = none) (hfree : i.state.status ≠ .validating)
      (hheld : held = i.state.held) : Takes i held (.call (.ask k))

/-- The work is not to begin on a ticket that was given before. -/
def Starts (work : Work Errand Job) (i : Start Desk) : Prop :=
  i.cue = none ∧ ∃ k, work = .call (.ask k)

/-- What a pause of a pass leaves. -/
def examined (work : Work Errand Job) : Pact Unit Desk := fun _ i p d _ =>
  match p with
  | .waits _ => Takes i d.held work ∧
      (Starts work i ∨ i.state.status = .validating → d.status = .validating)
  | .drops => d.held = i.state.held ∧ d.status = .idle
  | .faults => True
  | .stays => False

/-- What the end of a pass leaves: it could not begin, or it has come to its verdict. -/
inductive Ends (work : Work Errand Job) (i : Start Desk) (e : Ending Receipt Job) (d : Desk) : Prop
  | unheld (n : Nat) (hwork : work = .call (.run n)) (hcue : i.cue = none) (hn : n ∉ i.state.held)
      (he : e = .answers .done) (hd : d = i.state)
  | refused (k : Operation) (hwork : work = .call (.ask k)) (hcue : i.cue = none)
      (hstatus : i.state.status = .validating)
      (he : e = .answers (.reply (.validated (.error .inProgress)))) (hheld : d.held = i.state.held)
      (hsame : d.status = i.state.status)
  | concludes (a : Receipt) (r : ValidationResult) (he : e = .answers a) (ha : a.result? = some r)
      (hr : r ≠ .error .inProgress) (ht : Takes i d.held work)
      (hstatus : d.status = Client.verdict r)

/-- What the end of other work leaves. -/
def Settles (work : Work Errand Job) (i : Start Desk) (e : Ending Receipt Job) (d : Desk) : Prop :=
  match work with
  | .call (.inquire q) =>
    i.cue = none ∧ e = .answers (i.state.answer q).1 ∧ d = (i.state.answer q).2
  | .call (.release n) => d = i.state.release n
  | .call (.ask k) => d.held = i.state.held ∧ d.status = Client.leaves k i.state.status ∧
      (k = .logout → i.cue = none)
  | _ => d.held = i.state.held ∧ d.status = i.state.status

/-- The rules that passes do as they may, and that no other work touches the validator but what is
asked of it. The memo tells whether a pass has begun to wait. -/
def rules : Rules Nat Desk Errand Receipt Job where
  memo := 0
  pact work m i p d m' :=
    if Examines work = true then
      match p with
      | .waits _ => m' = 1 ∧ examined work () i p d ()
      | .drops => m' = m ∧ (m = 0 → d = i.state) ∧ (m = 1 → examined work () i p d ())
      | _ => m' = m ∧ examined work () i p d ()
    else m' = 0 ∧ d.held = i.state.held ∧ d.status = i.state.status
  outcome work _ i e d :=
    if Examines work = true then Ends work i e d else Settles work i e d

/-! ## Work of the client -/

/-- Work of the client at the desk: of the tickets is known what `F` says in every stretch. -/
theorem meets_client {ν α : Type} (n : ν) {P : Pact Unit Client} (P' : Pact ν Desk)
    (F : Start Desk → List Nat → Prop) (hstart : ∀ i, i.cue ≠ none → F i i.state.held)
    (hP : ∀ i p d, p ≠ .drops → F i d.held → P () (i.of (·.client)) p d.client () → P' n i p d n)
    (hdrops : ∀ now d c, P () ⟨none, now, d.client⟩ .drops c () →
      P' n ⟨none, now, d⟩ .drops (d.setClient c) n)
    {Q : Unit → Start Client → α → Client → Prop} {r : Run Client α} {i : Start Desk} {d : Desk}
    (h : r.Meets P Q () (i.of (·.client))) (hd : F i d.held) :
    (r.within (·.client) setClient d).Meets P'
      (fun _ i a d => Q () (i.of (·.client)) a d.client ∧ F i d.held) n i := by
  have hmeets := @meets_whole Unit Client Desk α ν (·.client) setClient (fun _ => n) P P'
    (fun i d => F i d.held) (fun _ _ => rfl) (fun _ _ _ hd => hd) hstart
    (fun _ i p d _ hp hd hpact => hP i p d hp hd hpact)
    (fun _ now d c hpact => hdrops now d c hpact) Q r () i d h hd
  refine hmeets.mono (fun _ _ _ _ _ h => h) ?_
  rintro m i a d ⟨_, -, hq, hd⟩
  exact ⟨hq, hd⟩

/-! ## Passes -/

/-- An errand begins. -/
def Opens (_ : Unit) (i : Start Desk) (d : Desk) : Prop := i.cue = none ∧ d = i.state

/-- A pass whose ticket was spent; it is at its check if it was so before. -/
theorem triple_pass (n : Nat) : Triple (examined (.call (.run n)))
    (fun _ i d => Takes i d.held (.call (.run n)) ∧ d.client = i.state.client)
    (Client.pass.within (·.client) setClient)
    fun _ i r d => (d.status = Client.verdict r ∧ Client.Examined r) ∧
      Takes i d.held (.call (.run n)) := by
  have hexamines := Client.examines_pass (G := fun _ => True)
    (H := fun i => i.state.status = .validating) (fun _ _ _ => trivial) fun _ _ _ h => h
  refine ⟨fun m i d h => ?_⟩
  have hbegun : Client.Begun (fun _ => True) (fun i => i.state.status = .validating) ()
      (i.of (·.client)) d.client := by
    rw [h.2]
    exact ⟨⟨trivial, id⟩, rfl⟩
  refine (meets_client () (examined (.call (.run n)))
    (fun i held => Takes i held (.call (.run n))) (fun i hcue => .goesOn _ hcue rfl) ?_
    (fun now d c hidle => ⟨rfl, hidle⟩) (hexamines.meets () (i.of (·.client)) d.client hbegun)
    h.1).mono (fun _ _ _ _ _ h => h) ?_
  · intro i p d hp ht hexamined
    cases p with
    | drops => exact absurd rfl hp
    | stays => exact hexamined
    | faults => trivial
    | waits w =>
        refine ⟨ht, fun h => hexamined.2 ?_⟩
        rcases h with ⟨-, k, hk⟩ | h
        · cases hk
        · exact h
  · rintro m i r d ⟨⟨-, hverdict, hexamined⟩, ht⟩
    exact ⟨⟨hverdict, hexamined⟩, ht⟩

theorem triple_run (n : Nat) : Triple (examined (.call (.run n))) Opens
    (Errand.serve (.run n)) fun _ i a d => Ends (.call (.run n)) i (.answers a) d := by
  refine Triple.bind (M := fun _ i held d => if held = true then
      Takes i d.held (.call (.run n)) ∧ d.client = i.state.client
    else i.cue = none ∧ n ∉ i.state.held ∧ d = i.state) (triple_step ?_) fun held =>
      Triple.ite (fun hheld => ?_) fun hheld => triple_pure ?_
  · rintro m i _ ⟨hcue, rfl⟩
    unfold spend
    split
    · rename_i hn
      exact ⟨.spends n hcue hn rfl, rfl⟩
    · rename_i hn
      exact ⟨hcue, hn, rfl⟩
  · refine (Triple.map ((triple_pass n).conseq (fun _ _ _ h => h) ?_)).conseq ?_
      fun _ _ _ _ h => h
    · rintro m i r d ⟨⟨hverdict, hexamined⟩, ht⟩
      exact .concludes _ r rfl rfl hexamined ht hverdict
    · intro m i d h
      rw [if_pos hheld] at h
      exact h
  · intro m i d h
    rw [if_neg hheld] at h
    exact .unheld n rfl h.1 h.2.1 rfl h.2.2

theorem triple_check {k : Operation} (hk : Client.checks (.call k) = true) :
    Triple (examined (.call (.ask k))) Opens (Errand.serve (.ask k))
      fun _ i a d => Ends (.call (.ask k)) i (.answers a) d := by
  have htakes : ∀ {i : Start Desk} {held : List Nat}, held = i.state.held →
      Client.Granted (i.of (·.client)) → Takes i held (.call (.ask k)) := by
    intro i held hheld hgranted
    by_cases hcue : i.cue = none
    · exact .begins k hcue (hgranted hcue) hheld
    · exact .goesOn _ hcue hheld
  refine Triple.map ⟨fun m i d h => ?_⟩
  obtain ⟨hcue, rfl⟩ := h
  refine (meets_client () (examined (.call (.ask k))) (fun i held => held = i.state.held)
    (fun _ _ => rfl) ?_ (fun now d c hidle => ⟨rfl, hidle⟩)
    ((Client.examines_serve hk).meets () (i.of (·.client)) i.state.client ⟨hcue, rfl⟩)
    rfl).mono (fun _ _ _ _ _ h => h) ?_
  · intro i p d hp hheld hexamined
    cases p with
    | drops => exact absurd rfl hp
    | stays => exact hexamined
    | faults => trivial
    | waits w =>
        refine ⟨htakes hheld hexamined.1, fun h => hexamined.2 ?_⟩
        rcases h with ⟨hcue, -⟩ | h
        · exact .inl hcue
        · exact .inr h
  · rintro m i a d ⟨⟨r, rfl, hconcluded⟩, hheld⟩
    rcases hconcluded with ⟨rfl, hcue, hstatus, hclient⟩ | ⟨hgranted, hverdict, hexamined⟩
    · exact .refused k rfl hcue hstatus rfl hheld (congrArg Client.status hclient)
    · exact .concludes _ r rfl rfl hexamined (htakes hheld hgranted) hverdict

/-- Work that runs a pass keeps its rules. -/
theorem meets_of_examines (h : Examines work = true) (now : Instant) (d : Desk) :
    (desk.carryOut work now d).Meets (rules.pact work) (rules.outcome work) 0 ⟨none, now, d⟩ := by
  have hbegun : ∀ {r : Run Desk (Ending Receipt Job)} {i : Start Desk},
      r.Meets (examined work) (fun _ i e d => Ends work i e d) () i →
        r.Meets (rules.pact work) (rules.outcome work) 0 i := by
    intro r i hr
    refine hr.begun ?_ ?_ ?_ ?_ ?_
    · intro m i w d hp
      simp only [rules, if_pos h]
      exact ⟨trivial, hp⟩
    · intro m i d hp
      simp only [rules, if_pos h]
      exact ⟨trivial, hp⟩
    · intro m i d hp
      simp only [rules, if_pos h]
      exact ⟨trivial, hp⟩
    · intro i d hp
      simp only [rules, if_pos h]
      exact ⟨trivial, nofun, fun _ => hp⟩
    · intro m i e d hq
      simp only [rules, if_pos h]
      exact hq
  cases work with
  | job j => cases h
  | call k =>
      cases k with
      | run n => exact hbegun ((Triple.map (triple_run n)).meets () ⟨none, now, d⟩ d ⟨rfl, rfl⟩)
      | ask k => exact hbegun ((Triple.map (triple_check h)).meets () ⟨none, now, d⟩ d ⟨rfl, rfl⟩)
      | inquire q => cases h
      | release n => cases h

/-! ## Other work -/

/-- Work that leaves the tickets and the validator, but that at its end it may settle the validator.
-/
def unexamined : Pact Unit Desk := fun _ i _ d _ =>
  d.held = i.state.held ∧ d.status = i.state.status

theorem triple_client {α : Type} {x : Activity Client α}
    {Q : Unit → Start Client → α → Client → Prop}
    (hx : Triple Client.unwatched Client.Opening x Q) :
    Triple unexamined Opens (x.within (·.client) setClient)
      fun _ i a d => Q () (i.of (·.client)) a d.client ∧ d.held = i.state.held := by
  refine ⟨fun m i d h => ?_⟩
  obtain ⟨hcue, rfl⟩ := h
  refine meets_client () unexamined (fun i held => held = i.state.held) (fun _ _ => rfl) ?_
    (fun now d c hstatus => ⟨rfl, hstatus⟩)
    (hx.meets () (i.of (·.client)) i.state.client ⟨hcue, rfl⟩) rfl
  intro i p d hp hheld hstatus
  refine ⟨hheld, ?_⟩
  cases p with
  | drops => exact absurd rfl hp
  | _ => exact hstatus

theorem triple_serve {k : Errand} (h : Examines (.call k) = false) :
    Triple unexamined Opens (Errand.serve k) fun _ i a d => Settles (.call k) i (.answers a) d := by
  cases k with
  | inquire q =>
      refine triple_step ?_
      rintro m i _ ⟨hcue, rfl⟩
      exact ⟨hcue, rfl, rfl⟩
  | run n => cases h
  | release n =>
      refine Triple.bind (M := fun _ i _ d => d = Desk.release n i.state)
        (triple_modify ?_) fun _ => triple_pure fun m i d h => h
      rintro m i _ ⟨-, rfl⟩
      rfl
  | ask k =>
      refine Triple.map ((triple_client (Client.status_serve h)).conseq (fun _ _ _ h => h) ?_)
      rintro m i a d ⟨⟨hstatus, hcue⟩, hheld⟩
      exact ⟨hheld, hstatus, hcue⟩

theorem triple_job (j : Job) :
    Triple unexamined Opens (desk.carryOut (.job j)) fun _ i e d => Settles (.job j) i e d := by
  refine Triple.bind (triple_client (Client.status_perform j)) fun again => ?_
  cases again with
  | none =>
      refine triple_pure ?_
      rintro m i d ⟨hstatus, hheld⟩
      exact ⟨hheld, hstatus⟩
  | some j' =>
      refine triple_pure ?_
      rintro m i d ⟨hstatus, hheld⟩
      exact ⟨hheld, hstatus⟩

theorem meets_of_not_examines (h : Examines work = false) (now : Instant) (d : Desk) :
    (desk.carryOut work now d).Meets (rules.pact work) (rules.outcome work) 0 ⟨none, now, d⟩ := by
  have hwork : Triple unexamined Opens (desk.carryOut work) fun _ i e d => Settles work i e d := by
    cases work with
    | call k => exact Triple.map (triple_serve h)
    | job j => exact triple_job j
  refine (hwork.meets () ⟨none, now, d⟩ d ⟨rfl, rfl⟩).along (fun _ => 0) ?_ ?_
  · intro m i p d m' hp
    simp only [rules, h, Bool.false_eq_true, if_false]
    exact ⟨trivial, hp⟩
  · intro m i e d hq
    simp only [rules, h, Bool.false_eq_true, if_false]
    exact hq

theorem rules_keptBy : rules.KeptBy desk where
  drops work now d := by
    by_cases h : Examines work = true
    · simp only [rules, if_pos h]
      exact ⟨trivial, fun _ => trivial, nofun⟩
    · simp only [rules, if_neg h]
      exact ⟨trivial, trivial, trivial⟩
  meets work now d := by
    by_cases h : Examines work = true
    · exact meets_of_examines h now d
    · exact meets_of_not_examines (Bool.eq_false_iff.mpr h) now d

end Desk

end ClientSession
