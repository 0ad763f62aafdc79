import ClientSession.Proofs.Client.Desk

/-!
# One pass at a time

The validator of a client is at a check if and only if one ticket is outstanding: one that is held,
or one whose pass waits. Then no other pass begins. Whatever ends a pass leaves the validator in a
state of its own, until another pass begins or the validator is reset.

- `Desk.rules_balanced`: the outstanding tickets are counted by the validator.
- `Desk.Closes`: what ends a pass, and the state in which it leaves the validator.
- `Desk.one_pass`: one pass at a time.
-/

namespace ClientSession

open Activity

namespace Desk

variable {work : Work Errand Job} {i : Start Desk} {d : Desk} {m n : Nat}

/-- A scene of a desk. -/
abbrev Scene := ClientSession.Scene Desk Errand Receipt Job

/-- A moment of a desk. -/
abbrev Moment := ClientSession.Moment Desk Errand Receipt Job

/-- A course of a desk. -/
abbrev Course (s : Scene) (ms : List Moment) (s' : Scene) : Prop := desk.Course s ms s'

/-- What may happen next at a desk. -/
abbrev Step (s : Scene) (x : Moment) : Prop := desk.Step s x

variable {s s' : Scene} {x : Moment} {ms : List Moment}

/-! ## Tickets and the validator -/

/-- One if the validator is at a check. -/
def load (d : Desk) : Nat := (decide (d.status = .validating)).toNat

theorem load_le (d : Desk) : d.load ≤ 1 := Bool.toNat_le _

theorem load_of_validating (h : d.status = .validating) : d.load = 1 := by simp [load, h]

theorem load_of_free (h : d.status ≠ .validating) : d.load = 0 := by simp [load, h]

theorem validating_iff : d.status = .validating ↔ d.load = 1 := by
  by_cases h : d.status = .validating
  · simp [h, load_of_validating h]
  · simp [h, load_of_free h]

/-- One if the work runs a pass that waits. -/
def engaged (work : Work Errand Job) : Option Wait → Nat
  | some _ => (Examines work).toNat
  | none => 0

/-- The flight is a pass that waits. -/
def Running (f : Flight Desk Errand Receipt Job) : Bool := Examines f.work && f.waiting.isSome

/-- The outstanding tickets are one if the validator is at a check, and none if it is not. -/
def Even (n : Nat) (d : Desk) : Prop := n + d.held.length = d.load

theorem engaged_of_not_examines (h : Examines work = false) (w : Option Wait) :
    engaged work w = 0 := by
  cases w with
  | none => rfl
  | some w => simp [engaged, h]

theorem rules_told : rules.Told engaged where
  starts work := rfl
  waits work m i w d m' hp := by
    by_cases h : Examines work = true
    · simp only [rules, if_pos h] at hp
      simp [engaged, h, hp.1]
    · simp only [rules, if_neg h] at hp
      rw [hp.1, engaged_of_not_examines (Bool.eq_false_iff.mpr h)]

/-- A pass that begins or goes on is the only one, and leaves no ticket that is held. -/
theorem Takes.alone {held : List Nat} (h : Takes i held work) (hwork : Examines work = true)
    (heven : Even (n + engaged work (i.cue.map (·.1))) i.state) :
    n = 0 ∧ held = [] ∧ (Starts work i ∨ i.state.status = .validating) := by
  have hload := load_le i.state
  unfold Even at heven
  cases h with
  | goesOn work hcue hheld =>
      obtain ⟨q, hq⟩ := Option.ne_none_iff_exists'.mp hcue
      rw [hq] at heven
      have hone : engaged work (some q.1) = 1 := by simp [engaged, hwork]
      simp only [Option.map_some, hone] at heven
      refine ⟨by omega, ?_, .inr (validating_iff.mpr (by omega))⟩
      rw [hheld]
      exact List.eq_nil_of_length_eq_zero (by omega)
  | spends k hcue hk hheld =>
      have hpos := List.length_pos_of_mem hk
      have herase := List.length_erase_of_mem hk
      refine ⟨by omega, ?_, .inr (validating_iff.mpr (by omega))⟩
      rw [hheld]
      exact List.eq_nil_of_length_eq_zero (by omega)
  | begins k hcue hfree hheld =>
      have hzero := load_of_free hfree
      refine ⟨by omega, ?_, .inl ⟨hcue, k, rfl⟩⟩
      rw [hheld]
      exact List.eq_nil_of_length_eq_zero (by omega)

theorem Even.congr (h : Even n d) {d' : Desk} (hheld : d'.held = d.held)
    (hstatus : d'.status = d.status) : Even n d' := by
  unfold Even load at *
  rw [hheld, hstatus]
  exact h

theorem Even.answer (h : Even n d) (q : Inquiry) : Even n (d.answer q).2 := by
  cases q with
  | claim =>
      unfold Desk.answer claim
      by_cases hstatus : d.status = .validating
      · rw [Client.tryBegin_of_validating hstatus]
        exact h
      · rw [Client.tryBegin_of_free hstatus]
        have hzero := load_of_free hstatus
        unfold Even at h
        show n + (d.held ++ [d.nextTicket]).length = 1
        rw [List.length_append, List.length_singleton]
        omega
  | reset =>
      have hreset : (d.answer .reset).2.status = Client.resetStatus d.status :=
        Client.state_reset d.client.validator
      by_cases hstatus : d.status = .validating
      · refine h.congr rfl (hreset.trans ?_)
        rw [Client.resetStatus, if_pos hstatus]
      · unfold Even at *
        rw [load_of_free hstatus] at h
        rw [load_of_free, ← h]
        · rfl
        · rw [hreset, Client.resetStatus, if_neg hstatus]
          exact nofun
  | look => exact h

theorem Even.release (h : Even n d) (k : Nat) : Even n (d.release k) := by
  unfold Desk.release
  split
  · rename_i hk
    have hpos := List.length_pos_of_mem hk
    have herase := List.length_erase_of_mem hk
    have hload := load_le d
    have hidle : (⟨d.client.abandonPass, d.held.erase k, d.nextTicket⟩ : Desk).load = 0 :=
      load_of_free nofun
    unfold Even at *
    rw [hidle]
    show n + (d.held.erase k).length = 0
    omega
  · exact h

theorem Even.leaves (h : Even n d) (k : Operation) {d' : Desk} (hheld : d'.held = d.held)
    (hstatus : d'.status = Client.leaves k d.status) : Even n d' := by
  have hvalidating : Client.leaves k d.status = .validating ↔ d.status = .validating := by
    unfold Client.leaves
    split
    · unfold Client.resetStatus
      split
      · exact Iff.rfl
      · rename_i hfree
        exact ⟨nofun, fun h => absurd h hfree⟩
    · exact Iff.rfl
  unfold Even load at *
  rw [hheld, hstatus, h]
  simp only [hvalidating]

theorem Even.settles {e : Ending Receipt Job} (h : Even n i.state) (hs : Settles work i e d) :
    Even n d := by
  cases work with
  | job j => exact h.congr hs.1 hs.2
  | call k =>
      cases k with
      | inquire q =>
          rw [hs.2.2]
          exact h.answer q
      | run k => exact h.congr hs.1 hs.2
      | release k =>
          rw [show d = i.state.release k from hs]
          exact h.release k
      | ask k => exact h.leaves k hs.1 hs.2.1

/-- The outstanding tickets are counted by the validator. -/
theorem rules_balanced : Rules.Balanced desk rules engaged Running Even where
  kept := rules_keptBy
  told := rules_told
  begins := rfl
  counts f := by
    cases hw : f.waiting with
    | none => simp [Running, engaged, hw]
    | some y => simp [Running, engaged, hw]
  pauses work m i p d m' n hfault hm hm' hp heven := by
    by_cases h : Examines work = true
    · simp only [rules, if_pos h] at hp
      cases p with
      | waits w =>
          obtain ⟨rfl, ht, hstatus⟩ := hp
          have hgoes : Pause.waits w ≠ .drops := by
            intro h
            cases h
          rw [hm hgoes] at heven
          obtain ⟨rfl, hheld, hbegun⟩ := ht.alone h heven
          unfold Even
          rw [hheld, load_of_validating (hstatus hbegun)]
          rfl
      | drops =>
          obtain ⟨-, hzero, hone⟩ := hp
          have hload := load_le i.state
          unfold Even at heven
          rcases Nat.eq_zero_or_pos m with hm0 | hpos
          · rw [hzero hm0]
            unfold Even
            rw [hm0] at heven
            exact heven
          · obtain ⟨hheld, hidle⟩ := hone (by omega)
            unfold Even
            rw [load_of_free (by rw [hidle]; decide), hheld]
            simp only [Rules.left]
            omega
      | stays => exact hp.2.elim
      | faults =>
          have hjob := hfault rfl
          cases work with
          | call k => cases hjob
          | job j => cases h
    · simp only [rules, if_neg h] at hp
      obtain ⟨hafter, hheld, hstatus⟩ := hp
      have hzero : m = 0 := by
        by_cases hdrop : p = .drops
        · rw [← hm' hdrop, hafter]
        · rw [hm hdrop, engaged_of_not_examines (Bool.eq_false_iff.mpr h)]
      have hleft : Rules.left m m' p = 0 := by
        cases p <;> simp [Rules.left, hzero, hafter]
      rw [hzero] at heven
      rw [hleft]
      exact heven.congr hheld hstatus
  ends work m i e d n hm he heven := by
    rw [hm] at heven
    by_cases h : Examines work = true
    · simp only [rules, if_pos h] at he
      cases he with
      | unheld k hwork hcue hk he hd =>
          rw [hcue] at heven
          rw [hd]
          exact heven
      | refused k hwork hcue hstatus he hheld hsame =>
          rw [hcue] at heven
          exact Even.congr heven hheld hsame
      | concludes a r he ha hr ht hstatus =>
          obtain ⟨rfl, hheld, -⟩ := ht.alone h heven
          unfold Even
          rw [hheld, load_of_free (by rw [hstatus]; exact Client.verdict_ne_validating r)]
          rfl
    · simp only [rules, if_neg h] at he
      rw [engaged_of_not_examines (Bool.eq_false_iff.mpr h)] at heven
      exact heven.settles he
  heeds _ _ h := h
  abandons n d j h := h.congr rfl (Client.status_abandonJob d.client j)

/-! ## Scenes -/

/-- The tickets that have been given and neither released nor had their passes end. -/
def outstanding (s : Scene) : Nat := s.state.held.length + s.flights.countP Running

/-- What is known of a scene: its tickets are counted, and its passes in flight wait. -/
structure Attended (s : Scene) : Prop where
  balance : rules.Balance engaged Running Even s
  waiting : Workplace.Each (fun f _ => Examines f.work = true → f.waiting.isSome = true) s

theorem Attended.even (h : Attended s) : outstanding s = s.state.load :=
  (Nat.add_comm _ _).trans h.balance.even

theorem standing_waiting : desk.Standing fun f _ =>
    Examines f.work = true → f.waiting.isSome = true where
  later _ _ h := h
  starts _ _ := nofun
  halts f _ name h := by
    obtain ⟨-, hwork, hwaiting, -⟩ := Workplace.halt_same (W := desk) name f
    rw [hwork, hwaiting]
    exact h

/-- A pass that is not resumed too early waits or is through. -/
theorem waiting_of_left {f g : Flight Desk Errand Receipt Job} {r : Run Desk (Ending Receipt Job)}
    (hr : r.Meets (rules.pact f.work) (rules.outcome f.work) m i) (hleft : f.left? r = some g)
    (hg : Examines g.work = true) : g.waiting.isSome = true := by
  cases r with
  | done d e =>
      cases e <;> cases hleft
      cases hg
  | fault d e => cases hleft
  | stay d =>
      obtain rfl := Option.some.inj hleft
      simp only [Run.Meets, rules, if_pos hg] at hr
      exact hr.2.elim
  | wait d w drop resume =>
      obtain rfl := Option.some.inj hleft
      rfl

theorem Attended.step (h : Attended s) (hx : Step s x) : Attended x.after := by
  refine ⟨h.balance.step rules_balanced hx, ?_⟩
  have hothers : ∀ n, ∀ g ∈ s.flights, g.number ≠ n → Examines g.work = true →
      g.waiting.isSome = true := fun _ g hg _ => h.waiting g hg
  cases hx with
  | call k now s' hs =>
      have hmeets := rules_keptBy.meets (.call k) now s.state
      exact (Workplace.Each.settle (s := { s with next := s.next + 1 }) standing_waiting
        (hothers _) (fun g hg => waiting_of_left (f := ⟨s.next, .call k, false, none⟩) hmeets hg)
        hs).1
  | begin f now s' hf hstop hw hs =>
      exact (Workplace.Each.settle standing_waiting (hothers _)
        (fun g hg => waiting_of_left (rules_keptBy.meets f.work now s.state) hg) hs).1
  | reply f y a now s' hf hstop hw hs =>
      exact (Workplace.Each.settle standing_waiting (hothers _)
        (fun g hg => waiting_of_left ((h.balance.held f hf y hw).meets a now s.state) hg) hs).1
  | drop f now hf => exact (Workplace.Each.land (hothers f.number)).heed standing_waiting _

/-- The scene of a desk at which no ticket is held and nothing is in flight. -/
abbrev scene (c : Client) : Scene := Workplace.idle (.of c)

theorem attended_course {c : Client} (hc : c.status ≠ .validating) (h : Course (scene c) ms s) :
    Attended s := by
  induction h with
  | nil =>
      refine ⟨⟨⟨fun f hf => (nomatch hf), List.nodup_nil⟩, .idle _, ?_⟩, fun f hf => (nomatch hf)⟩
      exact (load_of_free (d := .of c) hc).symm
  | snoc _ hx ih => exact ih.step hx

theorem Step.status_eq (hx : Step s x) : x.after.state.status = x.left.status := by
  rcases hx.after_state with h | ⟨-, j, -, h⟩
  · rw [h]
    rfl
  · rw [h]
    exact Client.status_abandonJob x.left.client j

/-! ## Who is refused -/

/-- The work is to begin a pass, if one can begin. -/
def Begins : Work Errand Job → Bool
  | .call (.inquire .claim) => true
  | .call (.ask k) => Client.checks (.call k)
  | _ => false

/-- The work is to reset the validator. -/
def Resets : Work Errand Job → Bool
  | .call (.inquire .reset) => true
  | .call (.ask .logout) => true
  | _ => false

/-- The receipt says that a pass could not begin. -/
def Refusal : Receipt → Bool
  | .ticket none => true
  | .reply (.validated (.error .inProgress)) => true
  | _ => false

/-- The moment ends with a refusal. -/
def Refused (x : Moment) : Bool :=
  match x.result with
  | .ended (.answers a) => Refusal a
  | _ => false

theorem refusal_of_result {a : Receipt} {r : ValidationResult} (ha : a.result? = some r)
    (hr : r ≠ .error .inProgress) : Refusal a = false := by
  cases a with
  | ran r' => rfl
  | reply reply =>
      cases reply with
      | validated r' =>
          obtain rfl := Option.some.inj ha
          match r', hr with
          | .ok user, _ => rfl
          | .error (.exhausted n e), _ => rfl
          | .error .inProgress, hr => exact absurd rfl hr
      | _ => rfl
  | _ => cases ha

/-- A ticket is refused if and only if the validator is at a check. -/
theorem refusal_claim (d : Desk) : Refusal d.claim.1 = true ↔ d.status = .validating := by
  unfold claim
  by_cases h : d.status = .validating
  · rw [Client.tryBegin_of_validating h]
    exact ⟨fun _ => h, fun _ => rfl⟩
  · rw [Client.tryBegin_of_free h]
    exact ⟨nofun, fun hv => absurd hv h⟩

/-- What begins is refused if and only if the validator is at a check. -/
theorem refused_iff (h : Attended s) (hx : Step s x) (hopens : x.Opens)
    (hbegins : Begins x.work = true) : Refused x = true ↔ s.state.status = .validating := by
  obtain ⟨hcall, hcue, hgoes⟩ := hopens
  have hfaults := hx.not_faults hcall
  have hopens := (hx.opens hcue hgoes).1
  obtain ⟨m, m', hkeeps, -⟩ := h.balance.held.keeps rules_keptBy rules_told hx
  rw [← hx.start_state]
  obtain ⟨n, work, i, result, left, after⟩ := x
  cases work with
  | job j => cases hbegins
  | call errand =>
      cases errand with
      | run ticket => cases hbegins
      | release ticket => cases hbegins
      | inquire q =>
          cases q with
          | reset => cases hbegins
          | look => cases hbegins
          | claim =>
              obtain rfl : result = .ended (.answers i.state.claim.1) := hopens
              exact refusal_claim i.state
      | ask k =>
          have hexamines : Examines (.call (.ask k)) = true := hbegins
          have hfree : ∀ {held}, Takes i held (.call (.ask k)) → i.state.status ≠ .validating := by
            intro held ht
            cases ht with
            | goesOn work hsome hheld => exact absurd hcue hsome
            | begins k hcue hfree hheld => exact hfree
          cases result with
          | paused p =>
              have hp : rules.pact (.call (.ask k)) m i p left m' := hkeeps
              simp only [rules, if_pos hexamines] at hp
              cases p with
              | waits w =>
                  constructor
                  · exact fun hrefused => absurd hrefused Bool.false_ne_true
                  · exact fun hv => absurd hv (hfree hp.2.1)
              | drops => exact absurd rfl hgoes
              | faults => exact absurd rfl hfaults
              | stays => exact hp.2.elim
          | ended e =>
              have he : rules.outcome (.call (.ask k)) m i e left := hkeeps.1
              simp only [rules, if_pos hexamines] at he
              cases he with
              | unheld t hwork => cases hwork
              | refused k' hwork hcue hstatus he hheld hsame =>
                  obtain rfl := he
                  exact ⟨fun _ => hstatus, fun _ => rfl⟩
              | concludes a r he ha hr ht hstatus =>
                  obtain rfl := he
                  have hno := refusal_of_result ha hr
                  refine ⟨fun hrefused => ?_, fun hv => absurd hv (hfree ht)⟩
                  rw [show Refusal a = true from hrefused] at hno
                  cases hno

/-! ## How passes end -/

/-- The moment ends a pass, and leaves the validator in a state of its own. -/
inductive Closes (y : Moment) : ValidationState → Prop
  | confirms (a : Receipt) (user : String) (hwork : Examines y.work = true)
      (he : y.result = .ended (.answers a)) (ha : a.result? = some (.ok user)) :
      Closes y (.authenticated user)
  | exhausts (a : Receipt) (attempts : Nat) (e : ApiError) (hwork : Examines y.work = true)
      (he : y.result = .ended (.answers a))
      (ha : a.result? = some (.error (.exhausted attempts e))) : Closes y .expired
  | drops (hwork : Examines y.work = true) (hd : y.result = .paused .drops) : Closes y .idle
  | releases (n : Nat) (hwork : y.work = .call (.release n)) (hn : n ∈ y.start.state.held)
      (he : ∃ e, y.result = .ended e) : Closes y .idle

/-- The verdict of a pass that was not refused. -/
theorem status_of_result (h : Attended s) (hx : Step s x) (hwork : Examines x.work = true)
    {a : Receipt} {r : ValidationResult} (he : x.result = .ended (.answers a))
    (ha : a.result? = some r) (hr : r ≠ .error .inProgress) :
    x.left.status = Client.verdict r := by
  obtain ⟨m, m', hkeeps, -⟩ := h.balance.held.keeps rules_keptBy rules_told hx
  obtain ⟨n, work, i, result, left, after⟩ := x
  obtain rfl : result = .ended (.answers a) := he
  have hout : rules.outcome work m i (.answers a) left := hkeeps.1
  simp only [rules, if_pos (show Examines work = true from hwork)] at hout
  cases hout with
  | unheld t hwork hcue ht he hd =>
      cases he
      cases ha
  | refused k hwork hcue hstatus he hheld hsame =>
      cases he
      exact absurd (Option.some.inj ha).symm hr
  | concludes a' r' he ha' hr' ht hstatus =>
      cases he
      obtain rfl := Option.some.inj (ha.symm.trans ha')
      exact hstatus

/-- A pass that is dropped leaves the validator idle. -/
theorem status_of_drops (h : Attended s) (hx : Step s x) (hwork : Examines x.work = true)
    (hd : x.result = .paused .drops) : x.left.status = .idle := by
  obtain ⟨f, hf, -, hsame, hleft, -⟩ := hx.exists_dropped hd
  have hexamines : Examines f.work = true := hsame ▸ hwork
  obtain ⟨y, hy⟩ := Option.isSome_iff_exists.mp (h.waiting f hf hexamines)
  have hdrops := h.balance.held.drops rules_keptBy rules_told hf x.start.now
  simp only [rules, if_pos hexamines] at hdrops
  rw [hleft]
  refine (hdrops.2.2 ?_).2
  simp [engaged, hexamines, hy]

theorem settles_of_ended (h : Attended s) (hx : Step s x) (hwork : Examines x.work = false)
    {e : Ending Receipt Job} (he : x.result = .ended e) : Settles x.work x.start e x.left := by
  obtain ⟨m, m', hkeeps, -⟩ := h.balance.held.keeps rules_keptBy rules_told hx
  obtain ⟨n, work, i, result, left, after⟩ := x
  obtain rfl : result = .ended e := he
  have hout : rules.outcome work m i e left := hkeeps.1
  simp only [rules, show Examines work = false from hwork, Bool.false_eq_true, if_false] at hout
  exact hout

theorem Closes.status_eq {v : ValidationState} (hy : Closes x v) (h : Attended s)
    (hx : Step s x) : x.left.status = v ∧ v ≠ .validating := by
  cases hy with
  | confirms a user hwork he ha => exact ⟨status_of_result h hx hwork he ha nofun, nofun⟩
  | exhausts a n e hwork he ha => exact ⟨status_of_result h hx hwork he ha nofun, nofun⟩
  | drops hwork hd => exact ⟨status_of_drops h hx hwork hd, nofun⟩
  | releases n hwork hn he =>
      obtain ⟨e, he⟩ := he
      refine ⟨?_, nofun⟩
      have hsettles := settles_of_ended h hx (by rw [hwork]; rfl) he
      rw [hwork] at hsettles
      have hleft : x.left = x.start.state.release n := hsettles
      rw [hleft, Desk.release, if_pos hn]
      rfl

/-! ## What lasts -/

/-- No errand that begins a pass or resets the validator is begun in these moments. -/
def Undisturbed (ms : List Moment) : Prop :=
  ∀ x ∈ ms, x.start.cue = none → Begins x.work = false ∧ Resets x.work = false

/-- Without a ticket no pass is run. -/
theorem status_of_run (h : Attended s) (hx : Step s x) (hheld : s.state.held = []) {n : Nat}
    (hwork : x.work = .call (.run n)) (hcue : x.start.cue = none)
    (hgoes : x.result ≠ .paused .drops) : x.left.status = s.state.status := by
  have hfaults := hx.not_faults (by rw [hwork]; rfl)
  obtain ⟨m, m', hkeeps, -⟩ := h.balance.held.keeps rules_keptBy rules_told hx
  rw [← hx.start_state] at hheld ⊢
  obtain ⟨number, work, i, result, left, after⟩ := x
  obtain rfl : work = .call (.run n) := hwork
  have hnone : ∀ {held}, ¬Takes i held (.call (.run n)) := by
    intro held ht
    cases ht with
    | goesOn work hsome hheld => exact hsome hcue
    | spends n hcue hn hheld' =>
        rw [hheld] at hn
        cases hn
  cases result with
  | paused p =>
      have hp : rules.pact (.call (.run n)) m i p left m' := hkeeps
      simp only [rules, if_pos (show Examines (.call (.run n)) = true from rfl)] at hp
      cases p with
      | waits w => exact absurd hp.2.1 hnone
      | drops => exact absurd rfl hgoes
      | faults => exact absurd rfl hfaults
      | stays => exact hp.2.elim
  | ended e =>
      have he : rules.outcome (.call (.run n)) m i e left := hkeeps.1
      simp only [rules, if_pos (show Examines (.call (.run n)) = true from rfl)] at he
      cases he with
      | unheld t hwork hcue ht he hd => exact congrArg status hd
      | refused k hwork => cases hwork
      | concludes a r he ha hr ht hstatus => exact absurd ht hnone

/-- Other work leaves the validator as it is, unless it is asked to change it. -/
theorem status_of_unexamined (h : Attended s) (hx : Step s x) (hheld : s.state.held = [])
    (hwork : Examines x.work = false) (hquiet : Undisturbed [x]) :
    x.left.status = s.state.status := by
  have hsettles := fun e he => settles_of_ended h hx hwork (e := e) he
  obtain ⟨m, m', hkeeps, -⟩ := h.balance.held.keeps rules_keptBy rules_told hx
  rw [← hx.start_state] at hheld ⊢
  have hquiet := hquiet x (List.mem_singleton.mpr rfl)
  obtain ⟨number, work, i, result, left, after⟩ := x
  cases result with
  | paused p =>
      have hp : rules.pact work m i p left m' := hkeeps
      simp only [rules, show Examines work = false from hwork, Bool.false_eq_true, if_false] at hp
      exact hp.2.2
  | ended e =>
      have hs : Settles work i e left := hsettles e rfl
      cases work with
      | job j => exact hs.2
      | call k =>
          cases k with
          | inquire q =>
              obtain ⟨hcue, -, hleft⟩ := hs
              have hbegins := hquiet hcue
              cases q with
              | claim => cases hbegins.1
              | reset => cases hbegins.2
              | look => exact congrArg status hleft
          | run n => cases hwork
          | release n =>
              have hleft : left = i.state.release n := hs
              rw [show left = i.state by
                rw [hleft, Desk.release, if_neg]
                rw [hheld]
                exact List.not_mem_nil]
          | ask k =>
              obtain ⟨-, hstatus, hlogout⟩ := hs
              refine hstatus.trans ?_
              unfold Client.leaves
              split
              · cases (hquiet (hlogout rfl)).2
              · rfl

/-- While no ticket is outstanding, what neither begins a pass nor resets the validator leaves it as
it is. -/
theorem status_of_undisturbed (h : Attended s) (hfree : s.state.status ≠ .validating)
    (hx : Step s x) (hquiet : Undisturbed [x]) : x.left.status = s.state.status := by
  have heven := h.even
  rw [load_of_free hfree, outstanding] at heven
  have hheld : s.state.held = [] := List.eq_nil_of_length_eq_zero (by omega)
  have hidle : ∀ f ∈ s.flights, Examines f.work = false := by
    intro f hf
    have hnone := List.countP_eq_zero.mp (show s.flights.countP Running = 0 by omega) f hf
    refine Bool.eq_false_iff.mpr fun hexamines => hnone ?_
    rw [Running, hexamines, h.waiting f hf hexamines]
    rfl
  by_cases hwork : Examines x.work = true
  · -- No pass is in flight, so this one begins, and that not by its own ticket.
    obtain ⟨k, hk, hcue, hgoes⟩ : ∃ k, x.work = .call k ∧ x.start.cue = none ∧
        x.result ≠ .paused .drops := by
      cases hx with
      | call k now s' hs => exact ⟨k, rfl, rfl, Workplace.result_ne_drops _⟩
      | begin f now s' hf hstop hw hs => exact absurd hwork (Bool.eq_false_iff.mp (hidle f hf))
      | reply f y a now s' hf hstop hw hs => exact absurd hwork (Bool.eq_false_iff.mp (hidle f hf))
      | drop f now hf => exact absurd hwork (Bool.eq_false_iff.mp (hidle f hf))
    have hbegins := (hquiet x (List.mem_singleton.mpr rfl) hcue).1
    rw [hk] at hwork hbegins
    cases k with
    | inquire q => cases hwork
    | release n => cases hwork
    | run n => exact status_of_run h hx hheld hk hcue hgoes
    | ask k =>
        rw [show Begins (.call (.ask k)) = true from hwork] at hbegins
        cases hbegins
  · exact status_of_unexamined h hx hheld (Bool.eq_false_iff.mpr hwork) hquiet

/-- The state in which a pass ends lasts. -/
theorem status_course {v : ValidationState} (h : Course s ms s') (hs : Attended s)
    (hfree : v ≠ .validating) (hv : s.state.status = v) (hquiet : Undisturbed ms) :
    Attended s' ∧ s'.state.status = v := by
  induction h with
  | nil => exact ⟨hs, hv⟩
  | @snoc ms t x _ hx ih =>
      obtain ⟨ht, hvt⟩ := ih fun z hz => hquiet z (List.mem_append_left _ hz)
      refine ⟨ht.step hx, ?_⟩
      rw [Step.status_eq hx, status_of_undisturbed ht (hvt ▸ hfree) hx, hvt]
      intro z hz
      exact hquiet z (List.mem_append_right _ hz)

/-! ## Calls back -/

/-- Answers inquiries one after another. -/
def answerAll (d : Desk) : List Inquiry → List Receipt × Desk
  | [] => ([], d)
  | q :: qs => ((d.answer q).1 :: ((d.answer q).2.answerAll qs).1, ((d.answer q).2.answerAll qs).2)

/-- What is asked while the validator is at a check is refused or changes nothing. -/
theorem answerAll_of_validating (h : d.status = .validating) (qs : List Inquiry) :
    (d.answerAll qs).2 = d ∧
      ∀ a ∈ (d.answerAll qs).1, a = .ticket none ∨ a = .done ∨ a = .state .validating := by
  have hanswer : ∀ q, (d.answer q).2 = d ∧ ((d.answer q).1 = .ticket none ∨
      (d.answer q).1 = .done ∨ (d.answer q).1 = .state .validating) := by
    intro q
    cases q with
    | claim =>
        unfold Desk.answer claim
        rw [Client.tryBegin_of_validating h]
        exact ⟨rfl, .inl rfl⟩
    | reset =>
        have hreset : d.client.validator.reset = d.client.validator := if_pos h
        refine ⟨?_, .inr (.inl rfl)⟩
        show d.setClient (d.client.mapValidator _) = d
        rw [Client.mapValidator, hreset]
        rfl
    | look => exact ⟨rfl, .inr (.inr (congrArg Receipt.state h))⟩
  induction qs with
  | nil => exact ⟨rfl, fun a ha => absurd ha List.not_mem_nil⟩
  | cons q qs ih =>
      obtain ⟨hsame, hrefused⟩ := hanswer q
      simp only [answerAll, hsame, List.forall_mem_cons]
      exact ⟨ih.1, hrefused, ih.2⟩

/-- The end of a pass that failed, where the handlers of the ended session make inquiries, and then
those that are shown its notice. -/
def giveUp (handlers notified : List Inquiry) (now : Instant) (d : Desk) : Desk :=
  let ended := d.setClient (d.client.mapTabs (·.endSession d.client.own .validationExhausted))
  let heard := (ended.answerAll handlers).2
  let c := heard.client.mapValidator (·.settle .expired)
  ((heard.setClient (if c.announces then c.announce Client.unverified now else c)).answerAll
    notified).2

/-- The handlers change nothing, and the others come after the pass. -/
theorem giveUp_eq (h : d.status = .validating) (handlers notified : List Inquiry) (now : Instant) :
    d.giveUp handlers notified now =
      ((d.setClient (d.client.giveUpPass now)).answerAll notified).2 := by
  have hended : (d.setClient (d.client.mapTabs
      (·.endSession d.client.own .validationExhausted))).status = .validating :=
    (Client.status_setTabs d.client _).trans h
  unfold giveUp
  dsimp only
  rw [(answerAll_of_validating hended handlers).1]
  rfl

/-! ## One pass at a time -/

/-- Whatever is asked at a desk, run, released and dropped: at most one ticket is outstanding, and
the validator is at a check if and only if one is; then and only then what would begin a pass is
refused. What ends a pass leaves the validator authenticated, expired or idle, until another pass
begins or the validator is reset. What is asked for in the midst of a pass is refused or changes
nothing. -/
theorem one_pass {c : Client} (hc : c.status ≠ .validating) (h : Course (scene c) ms s) :
    (outstanding s ≤ 1 ∧ (s.state.status = .validating ↔ outstanding s = 1)) ∧
    (∀ x, Step s x → x.Opens → Begins x.work = true →
      (Refused x = true ↔ outstanding s = 1)) ∧
    (∀ before y after v, ms = before ++ y :: after → Closes y v →
      y.left.status = v ∧ (Undisturbed after → s.state.status = v)) ∧
    ∀ (d : Desk) (qs notified : List Inquiry) (now : Instant), d.status = .validating →
      ((d.answerAll qs).2 = d ∧
        ∀ a ∈ (d.answerAll qs).1, a = .ticket none ∨ a = .done ∨ a = .state .validating) ∧
      d.giveUp qs notified now =
        ((d.setClient (d.client.giveUpPass now)).answerAll notified).2 := by
  have hs := attended_course hc h
  have heven := hs.even
  refine ⟨⟨heven ▸ load_le _, ?_⟩, ?_, ?_, ?_⟩
  · rw [heven]
    exact validating_iff
  · intro x hx hopens hbegins
    rw [refused_iff hs hx hopens hbegins, heven]
    exact validating_iff
  · rintro before y after v rfl hy
    obtain ⟨t, hbefore, hstep, hafter⟩ := h.split
    have ht := attended_course hc hbefore
    obtain ⟨hleft, hfree⟩ := hy.status_eq ht hstep
    refine ⟨hleft, fun hquiet => ?_⟩
    have hstatus := (Step.status_eq hstep).trans hleft
    exact (status_course hafter (ht.step hstep) hfree hstatus hquiet).2
  · intro d qs notified now hstatus
    exact ⟨answerAll_of_validating hstatus qs, giveUp_eq hstatus qs notified now⟩

/-- The user that the moment confirms. -/
def confirmed? (x : Moment) : Option String :=
  match x.result with
  | .ended (.answers a) => a.result?.bind Except.toOption
  | _ => none

theorem closes_of_confirmed {user : String} (hwork : Examines x.work = true)
    (h : confirmed? x = some user) : Closes x (.authenticated user) := by
  unfold confirmed? at h
  split at h
  · rename_i a he
    obtain ⟨r, ha, hr⟩ := Option.bind_eq_some_iff.mp h
    cases r with
    | error e => cases hr
    | ok u =>
        obtain rfl := Option.some.inj hr
        exact .confirms a u hwork he ha
  · cases h

/-- A caller takes a ticket and runs it, and another asks for one. Then the server answers. -/
def contested : List (Instant × Move Errand) :=
  [(⟨1748779200000000000⟩, .ask (.ask (.onTab 0 (.install ⟨"t1"⟩ (some ⟨1748782800000000000⟩))))),
    (⟨1748779200000000000⟩, .ask (.inquire .claim)), (⟨1748779200000000000⟩, .ask (.run 0)),
    (⟨1748779201000000000⟩, .ask (.inquire .claim)),
    (⟨1748779202000000000⟩, .reply 2 (Wait.answer
      (.ok ⟨200, Table.empty, "\x7b\"id\":\"u\"\x7d"⟩) (.error .loginRequired)))]

/-- The other is refused while the ticket is outstanding, and the user is authenticated. -/
theorem one_pass_plain : ∃ (before after : List Moment) (z y : Moment) (t s : Scene),
    Client.plain.status ≠ .validating ∧ Course (scene Client.plain) before t ∧ Step t z ∧
      Refused z = true ∧ outstanding t = 1 ∧
      Course (scene Client.plain) ((before ++ [z]) ++ y :: after) s ∧
      Closes y (.authenticated "u") ∧ Undisturbed after ∧ outstanding s ≤ 1 ∧
      s.state.status = .authenticated "u" := by
  have hpasses : desk.passes (scene Client.plain) contested 3 (fun _ z ms' _ =>
      decide ((z.work.isCall = true ∧ z.start.cue = none ∧ Begins z.work = true ∧
          Refused z = true) ∧ ms'.length = 1 ∧
        ∃ y ∈ ms'.head?, Examines (ClientSession.Moment.work y) = true ∧
          confirmed? y = some "u")) = true := by
    decide +kernel
  obtain ⟨before, z, ms', s, hrun, htest⟩ := Workplace.exists_course hpasses
  obtain ⟨⟨hcall, hcue, hbegins, hrefused⟩, hlength, y, hy, hwork, hconfirmed⟩ :=
    of_decide_eq_true htest
  obtain ⟨after, rfl⟩ := List.head?_eq_some_iff.mp hy
  obtain rfl : after = [] := by
    rw [List.length_cons] at hlength
    exact List.eq_nil_of_length_eq_zero (by omega)
  have hfree : Client.plain.status ≠ .validating := nofun
  obtain ⟨t, hbefore, hz, -⟩ := hrun.split
  have hgoes : z.result ≠ .paused .drops := by
    intro hd
    rw [Refused, hd] at hrefused
    cases hrefused
  have hone := ((one_pass hfree hbefore).2.1 z hz ⟨hcall, hcue, hgoes⟩ hbegins).mp hrefused
  rw [List.append_cons] at hrun
  obtain ⟨⟨hle, -⟩, -, hcloses, -⟩ := one_pass hfree hrun
  have hy := closes_of_confirmed hwork hconfirmed
  have hquiet : Undisturbed [] := fun x hx => nomatch hx
  exact ⟨before, [], z, y, t, s, hfree, hbefore, hz, hrefused, hone, hrun, hy, hquiet, hle,
    (hcloses _ y [] _ rfl hy).2 hquiet⟩

end Desk

end ClientSession
