import ClientSession.Proofs.Client.Sharing

/-!
# Sessions that time out

The expiry timer ends a session when its tab takes the session for expired. That is so of a session
that is stored and lasts exactly where another tab has stored it: its expiry is later than what the
timer's tab remembers of the session before, and no tab hears of a token that is stored.

- `Tracked.course`: who stored the session that is stored, and whether the tab is in step with it.
- `expires_storesLive_iff`: when the expiry timer ends a session that lasts.
-/

namespace ClientSession

open Activity

namespace Client

variable {v : Vault} {c c' : Client}

/-! ## Courses -/

/-- The expiry under which another tab stored the session that is stored after the moment, given the
one before. -/
def Moment.foreignTerm (x : Moment) (before : Option Instant) : Option Instant :=
  if x.left.tabs.stores x.left.own Tabs.tokenKey then
    x.foreign?.or (if x.stores then none else before)
  else none

/-- The expiry under which another tab stored the session that is stored after these moments. -/
def foreignTerm (ms : List Moment) : Option Instant := ms.foldl (fun e x => x.foreignTerm e) none

/-- The stored session is another tab's, with that expiry, or the client's tab is in step with it.
-/
structure Tracked (v : Vault) (foreign : Option Instant) (c : Client) : Prop where
  sharing : Sharing v c
  inStep : foreign = none → c.tabs.InStep c.own
  item : ∀ e, foreign = some e → c.tabs.keeps v Tabs.tokenKey = true ∧
    c.tabs.backend.items.find? (v.rawKey Tabs.expiryKey) =
      some (v.conceal (toString e.floorSeconds))

/-- A moment in which another tab stored a token leaves that token. -/
theorem tracked_of_foreign {ms : List Moment} {s : Scene} {x : Moment} {e : Instant}
    (hrun : Course (scene c) ms s) (hx : Step s x) (hs : Sharing v s.state)
    (hf : x.foreign? = some e) : Tracked v (some e) x.left := by
  obtain ⟨hown, j, t, hi⟩ := installed_of_foreign hrun hx hs hf
  rw [← hx.start_state] at hs
  refine ⟨hs.of_installed hown hi, nofun, fun e' he' => ?_⟩
  cases he'
  exact ⟨hi.keeps_token, hi.expiry⟩

theorem Tracked.same {foreign : Option Instant} (h : Tracked v foreign c) (ht : c'.tabs = c.tabs)
    (ho : c'.own = c.own) : Tracked v foreign c' := by
  obtain ⟨hsharing, hstep, hitem⟩ := h
  refine ⟨hsharing.same ht ho, fun hf => ?_, ?_⟩
  · rw [ht, ho]
    exact hstep hf
  · rw [ht]
    exact hitem

theorem Tracked.step {foreign : Option Instant} {ms : List Moment} {s : Scene} {x : Moment}
    (hrun : Course (scene c) ms s) (hx : Step s x) (h : Tracked v foreign s.state) :
    Tracked v (x.foreignTerm foreign) x.after.state := by
  obtain ⟨ht, ho⟩ := Client.Step.tabs_eq hx
  refine Tracked.same ?_ ht ho
  rw [Moment.foreignTerm]
  cases hf : x.foreign? with
  | some e =>
      have htracked := tracked_of_foreign hrun hx h.sharing hf
      have hkept := (htracked.item e rfl).1
      rw [htracked.sharing.stores_eq, if_pos hkept, Option.some_or]
      exact htracked
  | none =>
      -- A session stays the other tab's until it is removed or the client stores one of its own.
      have hlaw := termLaw_step hrun hx h.sharing hf
      have hstart := hx.start_state
      rw [hlaw.sharing.stores_eq, Option.none_or]
      cases hkept : x.left.tabs.keeps v Tabs.tokenKey with
      | false =>
          refine ⟨hlaw.sharing, fun _ => .of_gone ?_, nofun⟩
          rw [hlaw.sharing.stores_eq, hkept]
      | true =>
          cases hstores : x.stores with
          | true => exact ⟨hlaw.sharing, fun _ => hlaw.inStep (.inl hstores), nofun⟩
          | false =>
              refine ⟨hlaw.sharing, fun hnone => ?_, fun e he => ⟨hkept, ?_⟩⟩
              · refine hlaw.inStep (.inr ?_)
                rw [hstart]
                exact h.inStep hnone
              · obtain ⟨-, hitem⟩ := hlaw.untouched hstores hkept
                rw [hitem, hstart]
                exact (h.item e he).2

theorem foreignTerm_concat (ms : List Moment) (x : Moment) :
    foreignTerm (ms ++ [x]) = x.foreignTerm (foreignTerm ms) := by
  rw [foreignTerm, List.foldl_append]
  rfl

/-- From a client that remembers nothing yet, the stored session is tracked. -/
theorem Tracked.course {ms : List Moment} {s : Scene} (h : Sharing v c)
    (hfresh : c.tabs.cache c.own = .empty) (hrun : Course (scene c) ms s) :
    Tracked v (foreignTerm ms) s.state := by
  induction hrun with
  | nil => exact ⟨h, fun _ => .of_empty hfresh, nofun⟩
  | @snoc ms t x hrun hx ih =>
      rw [foreignTerm_concat]
      exact Tracked.step hrun hx ih

/-! ## Timeouts -/

/-- The expiry timer does not end a session that is stored and lasts if its tab is in step with it.
-/
theorem not_storesLive_of_inStep {i : Start Client} {n : Nat}
    (hx : ExpiredFrom (fun g c₀ c => Sharing v c₀ → TermLaw v g c₀ c) n i c)
    (hs : Sharing v i.state) (hstep : i.state.tabs.InStep i.state.own) :
    ¬i.state.tabs.StoresLive i.state.own i.now := by
  obtain ⟨-, c₁, hlaw, hbackend, hlasts, -⟩ := hx
  have hlaw := hlaw hs
  have hb := hbackend hs.shares.healthy
  have hread : ∀ key, c₁.tabs.stores c₁.own key = i.state.tabs.stores i.state.own key := by
    intro key
    rw [hlaw.sharing.stores_eq, hs.stores_eq, Tabs.keeps, Tabs.keeps, hb]
  have hexpiry : (c₁.tabs.storedExpiry c₁.own).1 =
      (i.state.tabs.storedExpiry i.state.own).1 := by
    rw [Tabs.storedExpiry_eq hlaw.sharing.shares.healthy, Tabs.storedExpiry_eq hs.shares.healthy,
      hb, hlaw.sharing.shares.vault_eq _ hlaw.sharing.here, hs.shares.vault_eq _ hs.here]
  rintro ⟨hstored, t, ht, hnow⟩
  obtain ⟨e, he, hlive⟩ := (hlaw.inStep (.inr hstep)).lasts
    ⟨(hread _).trans hstored, t, hexpiry.trans ht, hnow⟩
  rw [lasts, he, Option.any_some] at hlasts
  exact absurd hlive (of_decide_eq_false hlasts)

/-- The expiry timer ends a session that is stored and lasts if and only if another tab stored it
and the second of its expiry is still to come. -/
theorem expires_storesLive_iff {c : Client} {ms ms' : List Moment} {x : Moment} {s : Scene}
    (h : Sharing v c) (hfresh : c.tabs.cache c.own = .empty)
    (hrun : Course (scene c) (ms ++ x :: ms') s) (hx : x.expires = true) :
    x.start.state.tabs.StoresLive x.start.state.own x.start.now ↔
      ∃ e t, foreignTerm ms = some e ∧ Instant.ofSeconds? e.floorSeconds = some t ∧
        x.start.now < t := by
  obtain ⟨u, before, hstep, -⟩ := hrun.split
  obtain ⟨n, hexpired⟩ := (termLaw_lawful v).expires hrun
    (List.mem_append_right ms (List.mem_cons_self ..)) hx
  have htracked := Tracked.course h hfresh before
  rw [← hstep.start_state] at htracked
  obtain ⟨hsharing, hinStep, hitem⟩ := htracked
  cases hforeign : foreignTerm ms with
  | none =>
      refine ⟨fun hlive => ?_, fun ⟨e, t, he, _⟩ => nomatch he⟩
      exact absurd hlive (not_storesLive_of_inStep hexpired hsharing (hinStep hforeign))
  | some e =>
      obtain ⟨hkeeps, hi⟩ := hitem e hforeign
      have hread := Tabs.storedExpiry_of_item hsharing.shares hsharing.here hi
      constructor
      · rintro ⟨-, t, ht, hnow⟩
        exact ⟨e, t, rfl, hread ▸ ht, hnow⟩
      · rintro ⟨e', t, he', ht, hnow⟩
        cases he'
        refine ⟨?_, t, hread.trans ht, hnow⟩
        rw [hsharing.stores_eq]
        exact hkeeps

/-- The first tab stores a token for a minute and arms its timers. A minute later, after what
happens meanwhile, its expiry timer wakes. -/
def minute (meanwhile : Script) : Script :=
  [(⟨1748779200000000000⟩, .ask (.onTab 0 (.install ⟨"t1"⟩ (some ⟨1748779260000000000⟩)))),
    (⟨1748779200000000000⟩, .ask .armTimers),
    (⟨1748779200000000000⟩, .begin 3)] ++ meanwhile ++
  [(⟨1748779261000000000⟩, .reply 3 (Wait.answer (.ok ⟨200, Table.empty, ""⟩)
    (.error .loginRequired)))]

/-- The expiry timer of the first tab ends a session that both tabs share when it has expired. -/
theorem expires_storesLive_iff_plainPair : ∃ (ms ms' : List Moment) (x : Moment) (s : Scene),
    Sharing ⟨Config.defaultNamespace, ⟨"", "", "", ""⟩⟩ plainPair ∧
      plainPair.tabs.cache plainPair.own = .empty ∧
        Course (scene plainPair) (ms ++ x :: ms') s ∧ x.expires = true ∧
          (x.start.state.tabs.StoresLive x.start.state.own x.start.now ↔
            ∃ e t, foreignTerm ms = some e ∧ Instant.ofSeconds? e.floorSeconds = some t ∧
              x.start.now < t) := by
  have hpasses : workplace.passes (scene plainPair) (minute []) 3
      (fun _ x _ _ => Moment.expires x) = true := by
    decide +kernel
  obtain ⟨ms, x, ms', s, hrun, hexpires⟩ := Workplace.exists_course hpasses
  exact ⟨ms, ms', x, s, sharing_plainPair, rfl, hrun, hexpires,
    expires_storesLive_iff sharing_plainPair rfl hrun hexpires⟩

/-- The expiry timer of the first tab ends a session that the second tab has prolonged. -/
theorem not_expires_storesLive : ¬∀ (v : Vault) (c : Client) (ms ms' : List Moment) (x : Moment)
    (s : Scene), Sharing v c → c.tabs.cache c.own = .empty →
      Course (scene c) (ms ++ x :: ms') s →
        (ms ++ x :: ms').Pairwise (fun y z => y.start.now ≤ z.start.now) → x.expires = true →
          ¬x.start.state.tabs.StoresLive x.start.state.own x.start.now := by
  intro hclaim
  have hpasses : workplace.passes (scene plainPair) (minute
      [(⟨1748779230000000000⟩, .ask (.onTab 1 (.install ⟨"t2"⟩ (some ⟨1748782800000000000⟩))))]) 4
      (fun ms x ms' _ => Moment.expires x && decide (
        (ms ++ x :: ms').Pairwise (fun y z => y.start.now ≤ z.start.now) ∧
          x.start.state.tabs.StoresLive x.start.state.own x.start.now)) = true := by
    decide +kernel
  obtain ⟨ms, x, ms', s, hrun, htest⟩ := Workplace.exists_course hpasses
  rw [Bool.and_eq_true, decide_eq_true_eq] at htest
  obtain ⟨hexpires, hclock, hlive⟩ := htest
  exact hclaim _ plainPair ms ms' x s sharing_plainPair rfl hrun hclock hexpires hlive

end Client

end ClientSession
