import ClientSession.Proofs.Client.Expulsion
import ClientSession.Proofs.Client.Trials
import ClientSession.Proofs.Tabs.Farewells

/-!
# The fortunes of a session

While nothing else touches the session, what becomes of it in a pass is settled by the answers that
the pass gets. A refusal of the token ends the session, and each time the tab takes leave of it; a
new token is stored if it can be; and before every attempt but the first the session is cleared,
which the tab itself does not take notice of.

- `Client.Undergone`: what a session has gone through, by the answers on the way.
- `Client.undergone_check`, `Client.undergone_backOff`, `Client.renewal_of_way`: the parts of an
  attempt.
- `Client.Trials.undergone`: all attempts of a pass.
-/

namespace ClientSession

open Activity

namespace Client

variable {v : Vault} {b b' : Bool} {cues cues' : List Cue} {c c' c₀ c₁ : Client}

/-! ## What a session goes through -/

/-- A token is stored after these answers, by whether one was stored before. -/
def keptAfter (b : Bool) (cues : List Cue) : Bool :=
  cues.foldl (fun b q => q.storable?.isSome || (b && !q.expels)) b

theorem keptAfter_append (b : Bool) (cues cues' : List Cue) :
    keptAfter b (cues ++ cues') = keptAfter (keptAfter b cues) cues' := List.foldl_append ..

/-- The answer has nothing to do with the session. -/
def Cue.Idle (q : Cue) : Prop := q.storable? = none ∧ q.expels = false

theorem keptAfter_idle (h : ∀ q ∈ cues, Cue.Idle q) (b : Bool) : keptAfter b cues = b := by
  induction cues generalizing b with
  | nil => rfl
  | cons q cues ih =>
      obtain ⟨hstorable, hexpels⟩ := h q (List.mem_cons_self ..)
      have hfirst : keptAfter b (q :: cues) = keptAfter b cues := by
        simp [keptAfter, hstorable, hexpels]
      rw [hfirst]
      exact ih (fun q' hq' => h q' (List.mem_cons_of_mem _ hq')) b

/-- The client remembers a token only while one is stored. -/
def Tidy (v : Vault) (c : Client) : Prop :=
  c.tabs.keeps v Tabs.tokenKey = false → (c.tabs.cache c.own).token = none

/-- What the client's tab says to so many refusals of its token. -/
def farewells (c : Client) (cues : List Cue) : List Occurrence :=
  (cues.filter Cue.expels).flatMap fun _ => c.tabs.farewell c.own .unauthorized

/-- What the session has gone through since, with these answers on the way; a token is stored now if
`b` says so. -/
structure Undergone (v : Vault) (b : Bool) (cues : List Cue) (c₀ c : Client) : Prop where
  sharing : Sharing v c
  own : c.own = c₀.own
  bare : ∀ j, c.tabs.bare? j = c₀.tabs.bare? j
  history : c₀.tabs.history <+: c.tabs.history
  noted : Tabs.ownNews c₀.own c₀.tabs c.tabs = c₀.farewells cues
  kept : c.tabs.keeps v Tabs.tokenKey = b
  tidy : Tidy v c₀ → Tidy v c

theorem farewells_append (c : Client) (cues cues' : List Cue) :
    c.farewells (cues ++ cues') = c.farewells cues ++ c.farewells cues' := by
  rw [farewells, List.filter_append, List.flatMap_append]
  rfl

theorem farewells_idle (h : ∀ q ∈ cues, Cue.Idle q) (c : Client) : c.farewells cues = [] := by
  have hnone : cues.filter Cue.expels = [] :=
    List.filter_eq_nil_iff.mpr fun q hq => Bool.eq_false_iff.mp (h q hq).2
  rw [farewells, hnone, List.flatMap_nil]

/-- Of its own session a tab says only that it ended for a refusal. -/
theorem mem_farewells {reason : EndReason} {cues : List Cue} :
    Occurrence.ended c.own reason ∈ c.farewells cues ↔
      reason = .unauthorized ∧ ∃ q ∈ cues, q.expels = true := by
  have hone : Occurrence.ended c.own reason ∈ c.tabs.farewell c.own .unauthorized ↔
      reason = .unauthorized := by
    rw [← List.count_pos_iff, Tabs.count_farewell]
    by_cases h : EndReason.unauthorized = reason
    · simp [h]
    · simp [h, Ne.symm h]
  simp only [farewells, List.mem_flatMap, List.mem_filter, hone]
  constructor
  · rintro ⟨q, ⟨hq, hexpels⟩, hreason⟩
    exact ⟨hreason, q, hq, hexpels⟩
  · rintro ⟨hreason, q, hq, hexpels⟩
    exact ⟨q, ⟨hq, hexpels⟩, hreason⟩

namespace Undergone

theorem farewells_eq (h : Undergone v b cues c₀ c) (cues' : List Cue) :
    c.farewells cues' = c₀.farewells cues' := by
  rw [farewells, farewells, h.own, Tabs.farewell_congr (h.bare _)]

theorem trans (h : Undergone v b cues c₀ c) (h' : Undergone v b' cues' c c') :
    Undergone v b' (cues ++ cues') c₀ c' where
  sharing := h'.sharing
  own := h'.own.trans h.own
  bare j := (h'.bare j).trans (h.bare j)
  history := h.history.trans h'.history
  noted := by
    rw [Tabs.ownNews_trans h.history h'.history, h.noted, ← h.own, h'.noted, h.farewells_eq,
      farewells_append]
  kept := h'.kept
  tidy := h'.tidy ∘ h.tidy

/-- Answers that have nothing to do with the session leave it. -/
theorem idle (h : Sharing v c) (hcues : ∀ q ∈ cues, Cue.Idle q) :
    Undergone v (c.tabs.keeps v Tabs.tokenKey) cues c c where
  sharing := h
  own := rfl
  bare _ := rfl
  history := List.prefix_rfl
  noted := by rw [Tabs.ownNews_of_history rfl, farewells_idle hcues]
  kept := rfl
  tidy := id

theorem idled (h : Sharing v c) (hcues : ∀ q ∈ cues, Cue.Idle q) :
    Undergone v (keptAfter (c.tabs.keeps v Tabs.tokenKey) cues) cues c c := by
  rw [keptAfter_idle hcues]
  exact .idle h hcues

theorem recalls (h : Undergone v b cues c₀ c) (ho : c'.own = c.own)
    (hr : Tabs.Recalls c.own c.tabs c'.tabs) : Undergone v b cues c₀ c' where
  sharing := h.sharing.of_recalls ho hr
  own := ho.trans h.own
  bare j := (hr.bare j).trans (h.bare j)
  history := hr.history ▸ h.history
  noted := by
    have hlater : c.tabs.history <+: c'.tabs.history := hr.history ▸ List.prefix_rfl
    rw [Tabs.ownNews_trans h.history hlater, Tabs.ownNews_of_history hr.history, List.append_nil,
      h.noted]
  kept := by rw [hr.keeps_eq, h.kept]
  tidy htidy hgone := by
    have hbefore := h.tidy htidy
    rw [hr.keeps_eq] at hgone
    rw [ho]
    by_contra htoken
    rcases hr.token h.sharing.here (Option.isSome_iff_ne_none.mpr htoken) with hc | hc
    · rw [hbefore hgone] at hc
      cases hc
    · rw [h.sharing.stores_eq, hgone] at hc
      cases hc

theorem same (h : Undergone v b cues c₀ c) (hs : SameSession c c') : Undergone v b cues c₀ c' :=
  h.recalls hs.own (.inl hs.tabs)

/-- The session is ended, for a refusal of its token. -/
theorem expelled (h : Undergone v b cues c₀ c) {q : Cue} (hexpels : q.expels = true)
    (ho : c'.own = c.own) (ht : c'.tabs = c.tabs.endSession c.own .unauthorized) :
    Undergone v false (cues ++ [q]) c₀ c' := by
  have herodes := (Tabs.endSession_fades h.sharing.shares h.sharing.here .unauthorized).erodes
  obtain ⟨hsharing, hdismissed⟩ := h.sharing.dismissed_of_end ho ht
  rw [← ht] at herodes
  refine ⟨hsharing, ho.trans h.own, fun j => (herodes.bare j).trans (h.bare j),
    h.history.trans herodes.history, ?_, hdismissed.gone _ (List.mem_cons_self ..),
    fun _ _ => hdismissed.forgotten⟩
  have hleave : Tabs.ownNews c₀.own c.tabs c'.tabs = c₀.farewells [q] := by
    rw [← h.farewells_eq, ht, ← h.own, Tabs.ownNews_endSession h.sharing.shares h.sharing.here]
    simp [farewells, hexpels]
  rw [Tabs.ownNews_trans h.history herodes.history, h.noted, hleave, farewells_append]

/-- The session is cleared; whatever was stored, nothing is any more. -/
theorem cleared (h : Sharing v c) : Undergone v false [] c c.dropSession := by
  have ho : c.dropSession.own = c.own := own_setTabs c _
  have ht : c.dropSession.tabs = c.tabs.clearSession c.own := tabs_setTabs c _
  obtain ⟨hsharing, hdismissed⟩ := h.dismissed_of_clear ho ht
  have herodes := (Tabs.clearSession_fades h.shares.fadeable h.here).erodes
  rw [← ht] at herodes
  refine ⟨hsharing, ho, herodes.bare, herodes.history, ?_, hdismissed.gone _ (List.mem_cons_self ..),
    fun _ _ => hdismissed.forgotten⟩
  rw [ht, Tabs.ownNews_clearSession h.shares.neighbours h.here]
  rfl

/-- A token is stored if it can be. -/
theorem stored (h : Sharing v c) (t : IssuedToken) :
    Undergone v (keptAfter (c.tabs.keeps v Tabs.tokenKey) [⟨.token, .ok t⟩]) [⟨.token, .ok t⟩] c
      (c.store t) := by
  cases hterm : Tabs.term? t.token t.expiresAt with
  | none =>
      have hnone : Cue.storable? ⟨.token, .ok t⟩ = none := by
        rw [storable?_token, hterm]
        rfl
      have hidle : ∀ q ∈ [(⟨.token, .ok t⟩ : Cue)], Cue.Idle q :=
        fun q hq => List.mem_singleton.mp hq ▸ ⟨hnone, rfl⟩
      rw [store_of_term_none hterm, keptAfter_idle hidle]
      exact .idle h hidle
  | some e =>
      have hi := h.store_installed hterm
      have ho : (c.store t).own = c.own := own_setTabs c _
      refine ⟨h.of_installed ho hi, ho, hi.bare, hi.history, ?_, ?_, fun _ hgone => ?_⟩
      · rw [store, tabs_setTabs, Tabs.ownNews_install h.shares h.here]
        rfl
      · rw [hi.keeps_token]
        simp [keptAfter, storable?_token, hterm]
      · rw [hi.keeps_token] at hgone
        cases hgone

end Undergone

/-! ## Checks and back-offs -/

/-- What the session has gone through in a stretch, by the answer that the stretch began with. -/
def Underwent (v : Vault) (_ : Unit) (i : Start Client) (c : Client) : Prop :=
  Sharing v i.state →
    Undergone v (keptAfter (i.state.tabs.keeps v Tabs.tokenKey) i.cue.toList) i.cue.toList i.state c

/-- A stretch that faults may not have come to heed the answer. -/
abbrev Undergoing (v : Vault) : Pact Unit Client := Rules.Leaving (· ≠ .faults) (Underwent v)

theorem idle_of_not_isCall {w : Wait} (hw : w.isCall = false) {a : w.Answer}
    (ha : Cue.storable? ⟨w, a⟩ = none) : Cue.Idle ⟨w, a⟩ := by
  refine ⟨ha, ?_⟩
  cases w with
  | call r => cases hw
  | _ => rfl

theorem underwent_begin (m : Unit) (now : Instant) (c : Client) :
    Underwent v m ⟨none, now, c⟩ c :=
  fun h => .idle h fun _ hq => absurd hq List.not_mem_nil

theorem underwent_idle {m : Unit} {q : Cue} (hq : Cue.Idle q) (now : Instant) (c : Client) :
    Underwent v m ⟨some q, now, c⟩ c :=
  fun h => .idled h fun _ hq' => List.mem_singleton.mp hq' ▸ hq

theorem undergone_patient (v : Vault) :
    Patient (Undergoing v) (Underwent v) fun _ _ _ => True where
  aside _ _ _ _ h ha hs := (h hs).same ha.sameSession
  recalls m i c w h hw hs := by
    refine (h hs).recalls (own_setTabs c w) ?_
    rw [tabs_setTabs]
    exact hw (h hs).sharing.shares.healthy
  faults _ _ _ _ hp := absurd rfl hp
  stays _ _ _ h _ := h
  drops _ _ _ _ h ha _ hs := (h nofun hs).same ha.sameSession
  waits m i c w h hw := by
    exact ⟨(), fun _ => h, fun now c _ => underwent_begin () now c,
      fun a now c ha => underwent_idle (idle_of_not_isCall hw ha) now c, fun _ _ _ _ => trivial⟩

/-- What is known until the answer to a call is heeded. -/
theorem undergone_heeding (v : Vault) : Heeding (Undergoing v) (Underwent v) fun _ i c =>
    (∃ r outcome, i.cue = some ⟨.call r, outcome⟩) ∧ (Sharing v i.state →
      Undergone v (i.state.tabs.keeps v Tabs.tokenKey) [] i.state c) where
  aside _ _ _ _ h ha := ⟨h.1, fun hs => (h.2 hs).same ha.sameSession⟩
  recalls m i c w h hw := by
    refine ⟨h.1, fun hs => (h.2 hs).recalls (own_setTabs c w) ?_⟩
    rw [tabs_setTabs]
    exact hw (h.2 hs).sharing.shares.healthy
  faults _ _ _ _ hp := absurd rfl hp
  calls m i c r h := by
    exact ⟨(), fun _ => h, fun now c _ => underwent_begin () now c, fun outcome now c =>
      ⟨⟨r, outcome, rfl⟩, fun hs => .idle hs fun _ hq => absurd hq List.not_mem_nil⟩⟩
  heeds m i c h hexpelled hs := by
    obtain ⟨⟨r, outcome, hcue⟩, hafter⟩ := h
    rw [Start.expelled, hcue] at hexpelled
    rw [hcue]
    have hidle : ∀ q ∈ [(⟨.call r, outcome⟩ : Cue)], Cue.Idle q :=
      fun q hq => List.mem_singleton.mp hq ▸ ⟨rfl, hexpelled⟩
    have hsame := (hafter hs).trans (.idle (hafter hs).sharing hidle)
    rw [(hafter hs).kept] at hsame
    rw [Option.toList_some, keptAfter_idle hidle]
    exact hsame
  expels m i c h hexpelled hs := by
    obtain ⟨⟨r, outcome, hcue⟩, hafter⟩ := h
    rw [Start.expelled, hcue, Option.any_some] at hexpelled
    have hgone : ∀ b, keptAfter b [⟨.call r, outcome⟩] = false := by
      intro b
      simp [keptAfter, storable?_of_ne, hexpelled]
    rw [hcue, Option.toList_some, hgone]
    exact (hafter hs).expelled hexpelled (own_setTabs c _) (tabs_setTabs c _)

theorem undergone_calling (v : Vault) :
    Calling (Undergoing v) (Underwent v) fun _ _ _ => True where
  toPatient := undergone_patient v
  heeding := ⟨_, undergone_heeding v⟩

/-- What an activity keeps up stretch by stretch is known of its whole way. -/
theorem undergone_of_way {α : Type} {x : Activity Client α} {now last : Instant}
    {hs : List (Halt Client)} {r : Run Client α} (hx : Maintains (Undergoing v) (Underwent v) x)
    (h : Way (x now c) now hs r last) (hr : ∀ s e, r ≠ .fault s e) (hc : Sharing v c) :
    Undergone v (keptAfter (c.tabs.keeps v Tabs.tokenKey) (hs.map (·.cue))) (hs.map (·.cue)) c
      r.state := by
  have hmeets := hx.meets () ⟨none, now, c⟩ c (underwent_begin () now c)
  refine Run.Path.sum (T := fun cues c c' => Sharing v c →
    Undergone v (keptAfter (c.tabs.keeps v Tabs.tokenKey) cues) cues c c') ?_ (fun _ _ _ _ _ h => h)
    (fun _ _ _ _ h => h) (i := ⟨none, now, c⟩) h hmeets hr hc
  intro q q' s t t' u hst hsame htu hs
  have hbetween := (hst hs).same hsame
  have hlater := htu hbetween.sharing
  rw [hbetween.kept, ← keptAfter_append] at hlater
  exact hbetween.trans hlater

/-- A check of the token. -/
theorem undergone_check {now last : Instant} {hs : List (Halt Client)}
    {r : Run Client (Except ApiError String)} (h : Way (checkToken now c) now hs r last)
    (hr : ∀ s e, r ≠ .fault s e) (hc : Sharing v c) :
    Undergone v (keptAfter (c.tabs.keeps v Tabs.tokenKey) (hs.map (·.cue))) (hs.map (·.cue)) c
      r.state :=
  undergone_of_way (undergone_calling v).checkToken h hr hc

/-- Between two attempts the pass only sleeps. -/
theorem moves_backOff (policy : RetryPolicy) (done : Nat) :
    Moves (fun w => ∃ span, w = .sleep span) (fun _ _ => True) (backOff policy done) := by
  refine Maintains.bind (moves_step fun _ _ _ _ => trivial) fun jitter => ?_
  refine Maintains.bind (moves_attempt fun _ _ _ _ _ _ => trivial) fun span => ?_
  exact moves_sleep (fun _ => trivial) ⟨span, rfl⟩

/-- A back-off after an attempt. -/
theorem undergone_backOff {policy : RetryPolicy} {done : Nat} {now last : Instant}
    {hs : List (Halt Client)} {r : Run Client Unit}
    (h : Way (backOff policy done now c) now hs r last) (hr : ∀ s e, r ≠ .fault s e) (hc : Sharing v c) :
    Undergone v (c.tabs.keeps v Tabs.tokenKey) (hs.map (·.cue)) c r.state := by
  have hwaits := (moves_backOff policy done).waits (fun _ => trivial) h
  have hidle : ∀ q ∈ hs.map (·.cue), Cue.Idle q := by
    intro q hq
    obtain ⟨⟨s, ⟨w, a⟩, t, c'⟩, hx, rfl⟩ := List.mem_map.mp hq
    obtain ⟨span, rfl⟩ := hwaits _ hx
    exact ⟨rfl, rfl⟩
  have hway := undergone_of_way ((undergone_patient v).backOff policy done) h hr hc
  rwa [keptAfter_idle hidle] at hway

/-! ## Renewals -/

/-- Where the renewal of the credential has come. There may be nobody to ask for a token; who is
asked may have none. -/
inductive Renewal (c : Client) : List (Halt Client) → Run Client Unit → Prop where
  | asks {drop : Client → Client} {resume : Except IssueFailure IssuedToken → Instant → Client →
      Run Client Unit} : Renewal c [] (.wait c.dropSession .token drop resume)
  | alone : Renewal c [] (.done c.dropSession ())
  | denied {s c' : Client} {e : IssueFailure} {now : Instant} (h : SameSession c.dropSession c') :
      Renewal c [⟨s, ⟨.token, .error e⟩, now, c'⟩] (.done c' ())
  | issued {s c' : Client} {t : IssuedToken} {now : Instant} (h : SameSession c.dropSession c') :
      Renewal c [⟨s, ⟨.token, .ok t⟩, now, c'⟩] (.done (c'.store t) ())

theorem renewCredential_eq (now : Instant) (c : Client) : renewCredential now c =
    (match c.dropSession.validator.supply with
      | .nobody => pure ()
      | supply => (fetchToken supply >>= fun a => match a with
        | .error _ => pure ()
        | .ok t => modify fun c => c.store t) : Activity Client Unit) now c.dropSession := by
  show (match c.dropSession.validator.supply with
    | .nobody => pure ()
    | supply => _ : Activity Client Unit) now c.dropSession = _
  cases c.dropSession.validator.supply with
  | nobody => rfl
  | interactive => rfl
  | provider =>
      show Run.wait _ _ _ _ = Run.wait _ _ _ _
      congr 1

theorem renewal_of_way {now last : Instant} {hs : List (Halt Client)} {r : Run Client Unit}
    (h : Way (renewCredential now c) now hs r last) : Renewal c hs r := by
  rw [renewCredential_eq] at h
  generalize c.dropSession.validator.supply = supply at h
  cases supply with
  | nobody =>
      cases h
      exact .alone
  | interactive =>
      cases h
      exact .alone
  | provider =>
      cases h with
      | here => exact .asks
      | @on _ _ _ _ _ _ _ _ a _ _ hb h =>
          cases a with
          | error e =>
              cases h
              exact .denied hb
          | ok t =>
              cases h
              exact .issued hb

theorem Renewal.undergone {hs : List (Halt Client)} {r : Run Client Unit} (h : Renewal c hs r)
    (hc : Sharing v c) :
    Undergone v (keptAfter false (hs.map (·.cue))) (hs.map (·.cue)) c r.state := by
  have hcleared := Undergone.cleared hc
  cases h with
  | asks => exact hcleared
  | alone => exact hcleared
  | @denied s c' e now h =>
      have hfound := hcleared.same h
      have hidle : ∀ q ∈ [(⟨.token, .error e⟩ : Cue)], Cue.Idle q :=
        fun q hq => List.mem_singleton.mp hq ▸ ⟨rfl, rfl⟩
      have hafter := hfound.trans (.idled hfound.sharing hidle)
      rw [hfound.kept] at hafter
      exact hafter
  | @issued s c' t now h =>
      have hfound := hcleared.same h
      have hafter := hfound.trans (.stored hfound.sharing t)
      rw [hfound.kept] at hafter
      exact hafter

/-! ## Attempts -/

theorem attempt_eq_of_pos {done : Nat} (h : 0 < done) :
    attempt done = renewCredential >>= fun _ => checkToken := if_pos h

theorem attempt_zero : attempt 0 = checkToken := rfl

/-- An attempt. But for the first one no token is stored at first. -/
theorem undergone_attempt {done : Nat} {now last : Instant} {hs : List (Halt Client)}
    {r : Run Client (Except ApiError String)} (h : Way (attempt done now c) now hs r last)
    (hr : ∀ s e, r ≠ .fault s e) (hc : Sharing v c) :
    Undergone v (keptAfter (if 0 < done then false else c.tabs.keeps v Tabs.tokenKey)
      (hs.map (·.cue))) (hs.map (·.cue)) c r.state := by
  by_cases hdone : 0 < done
  · rw [if_pos hdone]
    rw [attempt_eq_of_pos hdone] at h
    cases Run.Path.of_bind h with
    | within hrenews hends =>
        have hrenewal := renewal_of_way hrenews
        have hundergone := hrenewal.undergone hc
        cases hrenewal with
        | asks => exact hundergone
        | _ => exact absurd trivial hends
    | beyond heq hrenews hchecks =>
        have hundergone := (renewal_of_way hrenews).undergone hc
        have hcheck := undergone_check hchecks hr hundergone.sharing
        have hafter := hundergone.trans hcheck
        rw [heq, List.map_append, keptAfter_append, ← hundergone.kept]
        exact hafter
  · obtain rfl : done = 0 := by omega
    exact undergone_check h hr hc

/-! ## Passes -/

theorem state_bind {α β : Type} {r : Run Client α} (hends : ¬r.Ends)
    (f : α → Instant → Client → Run Client β) (now : Instant) : (r.bind f now).state = r.state := by
  cases r with
  | done s a => exact absurd trivial hends
  | _ => rfl

theorem state_guarded {α : Type} (r : Run Client α) (undo : Client → Client) :
    (r.guarded undo).state = r.state := by
  cases r <;> rfl

/-- What the session has gone through in trials; whether a token is stored now is settled by the last
one of them. But for the first attempt of a pass no token is stored at first. -/
def Trialled (v : Vault) (done : Nat) (ts : List Trial) (c₀ c : Client) : Prop :=
  ∃ t, ts.getLast? = some t ∧ Undergone v
    (keptAfter (if 1 < done + ts.length then false else c₀.tabs.keeps v Tabs.tokenKey)
      (t.halts.map (·.cue))) ((haltsOf ts).map (·.cue)) c₀ c

theorem Trialled.single {done : Nat} {t : Trial} (h : Undergone v
      (keptAfter (if 0 < done then false else c₀.tabs.keeps v Tabs.tokenKey) (t.halts.map (·.cue)))
      ((t.halts ++ t.pauses).map (·.cue)) c₀ c) : Trialled v done [t] c₀ c := by
  refine ⟨t, rfl, ?_⟩
  have hfirst : (1 < done + [t].length) = (0 < done) := by
    rw [List.length_singleton, Nat.lt_add_left_iff_pos]
  have hhalts : haltsOf [t] = t.halts ++ t.pauses := List.flatMap_singleton ..
  simp only [hfirst, hhalts]
  exact h

theorem Trialled.cons {done : Nat} {t : Trial} {ts : List Trial}
    (h : Undergone v b ((t.halts ++ t.pauses).map (·.cue)) c₀ c)
    (hts : Trialled v (done + 1) ts c c') : Trialled v done (t :: ts) c₀ c' := by
  obtain ⟨t', ht', hafter⟩ := hts
  have hne : ts ≠ [] := by
    rintro rfl
    cases ht'
  have hpos : 0 < ts.length := List.length_pos_of_ne_nil hne
  refine ⟨t', by rw [List.getLast?_cons_of_ne_nil hne, ht'], ?_⟩
  have hall := h.trans hafter
  have hhalts : haltsOf (t :: ts) = (t.halts ++ t.pauses) ++ haltsOf ts := List.flatMap_cons ..
  rw [if_pos (by omega), ← List.map_append, ← hhalts] at hall
  rw [if_pos (by rw [List.length_cons]; omega)]
  exact hall

theorem sameSession_countRetry (c : Client) : SameSession c c.countRetry := ⟨rfl, rfl⟩

theorem done_ne_fault {α : Type} {s : Client} {a : α} (s' : Client) (e : Fault) :
    Run.done s a ≠ .fault s' e := by
  intro h
  cases h

/-- The attempts of a pass. -/
theorem Trials.trialled {policy : RetryPolicy} {left done : Nat} {now last : Instant}
    {ts : List Trial} {r : Run Client ValidationResult}
    (h : Trials policy left done now c ts r last) (hr : ∀ s e, r ≠ .fault s e) (hc : Sharing v c) :
    Trialled v done ts c r.state := by
  -- By induction on the trials; what one of them has left, the next one begins with.
  induction h with
  | @under left done now last c hs r h hends =>
      have hstate : (r.bind (afterAttempt policy left done) last).state = r.state :=
        state_bind hends _ _
      have hattempt := undergone_attempt h (fun s e heq => hr s e (by rw [heq]; rfl)) hc
      rw [← hstate] at hattempt
      refine .single ?_
      rw [List.append_nil]
      exact hattempt
  | @succeeded left done now last c s s' hs user h hsame =>
      refine .single ?_
      rw [List.append_nil]
      exact (undergone_attempt h done_ne_fault hc).same hsame
  | @exhausted done now last c s s' hs e h hsame =>
      refine .single ?_
      rw [List.append_nil]
      exact (undergone_attempt h done_ne_fault hc).same hsame
  | @resting left done now mid last c s hs pauses e r h hb hends =>
      have hstate : (r.bind (fun _ => attemptChecks policy left (done + 1)) last).state = r.state :=
        state_bind hends _ _
      have hattempt := (undergone_attempt h done_ne_fault hc).same (sameSession_countRetry s)
      have hpauses := undergone_backOff hb (fun s e heq => hr s e (by rw [heq]; rfl))
        hattempt.sharing
      have hafter := hattempt.trans hpauses
      rw [hattempt.kept, ← hstate, ← List.map_append] at hafter
      exact .single hafter
  | @again left done now mid mid' last c s s' hs pauses e ts r h hb hts ih =>
      have hattempt := (undergone_attempt h done_ne_fault hc).same (sameSession_countRetry s)
      have hbefore := hattempt.trans (undergone_backOff hb done_ne_fault hattempt.sharing)
      rw [← List.map_append] at hbefore
      exact .cons hbefore (ih hr hbefore.sharing)

/-- A pass does not fault without its attempts. -/
theorem Closes.not_fault {r₁ r : Run Client ValidationResult} (h : Closes r₁ r)
    (hr : ∀ s e, r ≠ .fault s e) (s : Client) (e : Fault) : r₁ ≠ .fault s e := by
  rintro rfl
  cases h with
  | under hends => exact hr s e rfl

/-- What the session has gone through in the attempts of a pass. -/
theorem trialled_of_pass {policy : RetryPolicy} {left : Nat} {now last : Instant} {ts : List Trial}
    {r₁ r : Run Client ValidationResult} (hc : Sharing v c)
    (hts : Trials policy left 0 now (c.mapValidator (·.count .attempt)) ts r₁ last)
    (hclose : Closes r₁ r) (hr : ∀ s e, r ≠ .fault s e) : Trialled v 0 ts c r₁.state := by
  have hcounts : Undergone v (c.tabs.keeps v Tabs.tokenKey) [] c
      (c.mapValidator (·.count .attempt)) :=
    (Undergone.idle hc fun _ hq => absurd hq List.not_mem_nil).same ⟨rfl, rfl⟩
  obtain ⟨t, ht, hundergone⟩ := hts.trialled (hclose.not_fault hr) hcounts.sharing
  exact ⟨t, ht, hcounts.trans hundergone⟩

/-! ## A server that is down -/

/-- A client with a stored token that lasts for an hour. -/
def holding : Client := plain.store ⟨⟨"t1"⟩, some ⟨1748782800000000000⟩⟩

theorem sharing_holding : Sharing ⟨Config.defaultNamespace, ⟨"", "", "", ""⟩⟩ holding :=
  sharing_plain.of_installed (own_setTabs plain _)
    (sharing_plain.store_installed (e := ⟨1748782800000000000⟩) rfl)

theorem keeps_holding :
    holding.tabs.keeps ⟨Config.defaultNamespace, ⟨"", "", "", ""⟩⟩ Tabs.tokenKey = true :=
  (sharing_plain.store_installed (e := ⟨1748782800000000000⟩) rfl).keeps_token

/-- The answers of a server that is down, and of a source of this token. -/
def answerDown (issued : IssuedToken) : (w : Wait) → w.Answer
  | .sleep _ => ()
  | .call _ => .ok ⟨503, default, ""⟩
  | .deliver _ => .ok ()
  | .token => .ok issued
  | .turn _ => ()

end Client

end ClientSession
