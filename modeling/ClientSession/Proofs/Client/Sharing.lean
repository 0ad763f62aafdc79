import ClientSession.Proofs.Client.Laws
import ClientSession.Proofs.Session.Terms

/-!
# Tabs that share a session

A client is one of several whose tabs have one vault over a healthy backend. What the others do with
the shared storage are actions on tabs that are not its own. The tabs go on sharing the vault
whatever is done, and what becomes of the stored session is settled by who stores a token.

- `TermLaw`: what a stretch, and an action on another tab, makes of the stored session.
- `Sharing.course`: the tabs share the vault throughout a course.
-/

namespace ClientSession

open Activity

namespace Client

variable {v : Vault} {c c' c₀ : Client} {g : Bool}

/-- The tabs share a vault over a healthy backend, and the client's own tab is open. -/
structure Sharing (v : Vault) (c : Client) : Prop where
  shares : c.tabs.Shares v
  here : (c.tabs.tab? c.own).isSome

theorem Sharing.stores_eq (h : Sharing v c) (key : String) :
    c.tabs.stores c.own key = c.tabs.keeps v key := h.shares.stores_eq h.here key

theorem Sharing.of_erodes (h : Sharing v c) (ho : c'.own = c.own)
    (he : Tabs.Erodes c.tabs c'.tabs) : Sharing v c' where
  shares := he.shares h.shares
  here := by
    rw [ho, he.isSome_tab?]
    exact h.here

/-- A change of what a tab remembers. -/
theorem Sharing.of_recalls (h : Sharing v c) (ho : c'.own = c.own) {j : Nat}
    (hr : Tabs.Recalls j c.tabs c'.tabs) : Sharing v c' where
  shares := hr.shares h.shares
  here := by
    rw [ho, Tabs.isSome_tab?_congr hr.bare]
    exact h.here

/-- What becomes of the stored session and of the tab's being in step with it. -/
structure TermLaw (v : Vault) (stored : Bool) (c₀ c : Client) : Prop where
  sharing : Sharing v c
  own : c.own = c₀.own
  inStep : stored = true ∨ c₀.tabs.InStep c₀.own → c.tabs.InStep c.own
  untouched : stored = false → c.tabs.keeps v Tabs.tokenKey = true →
    c₀.tabs.keeps v Tabs.tokenKey = true ∧
      c.tabs.backend.items.find? (v.rawKey Tabs.expiryKey) =
        c₀.tabs.backend.items.find? (v.rawKey Tabs.expiryKey)

protected theorem TermLaw.refl (h : Sharing v c) : TermLaw v false c c where
  sharing := h
  own := rfl
  inStep hc := hc.elim nofun id
  untouched _ hk := ⟨hk, rfl⟩

/-- Where the session is gone nothing is left to be in step with. -/
theorem TermLaw.of_gone (h : TermLaw v g c₀ c) (ho : c'.own = c.own)
    (he : Tabs.Erodes c.tabs c'.tabs) (hgone : c'.tabs.keeps v Tabs.tokenKey = false) :
    TermLaw v g c₀ c' := by
  have hsharing := h.sharing.of_erodes ho he
  refine ⟨hsharing, ho.trans h.own, fun _ => .of_gone ?_, fun _ hk => ?_⟩
  · rw [hsharing.stores_eq, hgone]
  · rw [hgone] at hk
    cases hk

theorem TermLaw.of_recalls (h : TermLaw v g c₀ c) (ho : c'.own = c.own) {j : Nat}
    (hr : Tabs.Recalls j c.tabs c'.tabs) : TermLaw v g c₀ c' := by
  refine ⟨h.sharing.of_recalls ho hr, ho.trans h.own, fun hc => ?_, fun hg hk => ?_⟩
  · have hstep := h.inStep hc
    rw [ho]
    by_cases hj : c.own = j
    · exact hstep.of_recalls h.sharing.shares.healthy h.sharing.here (hj ▸ hr)
    · rcases hr with ht | ⟨k, -, ht⟩
      · rwa [ht]
      · rw [ht]
        exact hstep.setCache_of_ne h.sharing.shares.healthy hj k
  · rw [hr.keeps_eq] at hk
    rw [hr.backend]
    exact h.untouched hg hk

theorem Sharing.of_installed (h : Sharing v c) (ho : c'.own = c.own) {j : Nat} {t : BearerToken}
    {e : Instant} (hi : Tabs.Installed v j t e c.tabs c'.tabs) : Sharing v c' where
  shares := hi.shares
  here := by
    rw [ho, Tabs.isSome_tab?_congr hi.bare]
    exact h.here

theorem Sharing.store_installed (h : Sharing v c) {t : IssuedToken} {e : Instant}
    (he : Tabs.term? t.token t.expiresAt = some e) :
    Tabs.Installed v c.own t.token e c.tabs (c.store t).tabs := by
  rw [store, tabs_setTabs]
  exact Tabs.install_of_term he h.shares h.here

theorem termLaw_lawful (v : Vault) : Lawful fun g c₀ c => Sharing v c₀ → TermLaw v g c₀ c where
  refl _ h := .refl h
  recalls _ _ _ _ hc ho hw h := (hc h).of_recalls ho (hw (hc h).sharing.shares.healthy)
  clears g c₀ c c' hc ho ht h := by
    obtain ⟨hshares, hhere⟩ := (hc h).sharing
    refine (hc h).of_gone ho ?_ ?_
    · rw [ht]
      exact (Tabs.clearSession_fades hshares.fadeable hhere).erodes
    · rw [ht]
      exact Tabs.clearSession_keeps hshares hhere (List.mem_cons_self ..)
  ends g c₀ c c' reason hc ho ht h := by
    obtain ⟨hshares, hhere⟩ := (hc h).sharing
    refine (hc h).of_gone ho ?_ ?_
    · rw [ht]
      exact (Tabs.endSession_fades hshares hhere reason).erodes
    · rw [ht]
      exact Tabs.endSession_keeps hshares hhere reason (List.mem_cons_self ..)
  stores c c' t e ht ho hw h := by
    obtain ⟨term, hterm⟩ := Option.isSome_iff_exists.mp ht
    have hi := Tabs.install_of_term hterm h.shares h.here
    rw [← hw] at hi
    have hsharing := h.of_installed ho hi
    refine ⟨hsharing, ho, fun _ => ?_, nofun⟩
    have hstep := hi.inStep (ho ▸ hsharing.here)
    rwa [ho]

/-! ## Actions on other tabs -/

/-- An action on another tab, but for storing a token there, is no more than a stretch of one's own.
-/
theorem termLaw_act (h : Sharing v c) {tab : Nat} (action : TabAction) (now : Instant)
    (hinstall : ∀ t e, action = .install t e → Tabs.term? t e = none) :
    TermLaw v false c (c.act tab action now).2 := by
  have hrefl : TermLaw v false c c := .refl h
  unfold Client.act
  split
  · rename_i hi
    have hhealthy := h.shares.healthy
    have hread : ∀ w, Tabs.Recalls tab c.tabs w → TermLaw v false c (c.setTabs w) := by
      intro w hw
      refine hrefl.of_recalls (own_setTabs c w) (j := tab) ?_
      rw [tabs_setTabs]
      exact hw
    have hgone : ∀ w, Tabs.Erodes c.tabs w → w.keeps v Tabs.tokenKey = false →
        TermLaw v false c (c.setTabs w) := by
      intro w hw hkeeps
      refine hrefl.of_gone (own_setTabs c w) ?_ ?_ <;> rw [tabs_setTabs]
      · exact hw
      · exact hkeeps
    have hkey : Tabs.tokenKey ∈ Tabs.sessionKeys := List.mem_cons_self ..
    cases action with
    | install t e =>
        refine hread _ (.inl ?_)
        dsimp only [TabAction.run]
        rw [Tabs.install_of_term_none (hinstall t e rfl)]
    | clear =>
        exact hgone _ (Tabs.clearSession_fades h.shares.fadeable hi).erodes
          (Tabs.clearSession_keeps h.shares hi hkey)
    | finish reason =>
        exact hgone _ (Tabs.endSession_fades h.shares hi reason).erodes
          (Tabs.endSession_keeps h.shares hi reason hkey)
    | forget => exact hread _ (.forget tab c.tabs)
    | token => exact hread _ (Tabs.token_recalls hhealthy tab now)
    | hasToken => exact hread _ (.inl (Tabs.hasToken_state hhealthy tab))
    | claims => exact hread _ (Tabs.claims_recalls hhealthy tab now)
    | userId => exact hread _ (Tabs.userId_recalls hhealthy tab now)
    | expiresAt => exact hread _ (.inl (Tabs.expiresAt_state hhealthy tab))
    | isExpired => exact hread _ (.inl (Tabs.isExpired_state hhealthy tab now))
    | needsRefresh => exact hread _ (.inl (Tabs.needsRefresh_state hhealthy tab now))
  · exact hrefl

/-! ## Moments -/

/-- The expiry under which another tab stored a token in the moment. -/
def Moment.foreign? (x : Moment) : Option Instant :=
  match x.action? with
  | some (tab, .install t e) =>
    if tab ≠ x.start.state.own ∧ (x.start.state.tabs.tab? tab).isSome then Tabs.term? t e else none
  | _ => none

/-- A moment in which no other tab stored a token follows the law. -/
theorem termLaw_step {ms : List Moment} {s : Scene} {x : Moment} (hrun : Course (scene c) ms s)
    (hx : Step s x) (hs : Sharing v s.state) (hf : x.foreign? = none) :
    TermLaw v x.stores x.start.state x.left := by
  rw [← hx.start_state] at hs
  refine (termLaw_lawful v).step hrun hx hs.here (fun tab action haction htab _ => ?_) hs
  by_cases hopen : (x.start.state.tabs.tab? tab).isSome
  · refine termLaw_act hs action x.start.now fun t e he => ?_
    subst he
    rw [Moment.foreign?, haction] at hf
    dsimp only at hf
    rwa [if_pos ⟨htab, hopen⟩] at hf
  · rw [act, if_neg hopen]
    exact .refl hs

/-- A moment in which another tab stored a token leaves that token. -/
theorem installed_of_foreign {ms : List Moment} {s : Scene} {x : Moment} {e : Instant}
    (hrun : Course (scene c) ms s) (hx : Step s x) (hs : Sharing v s.state)
    (hf : x.foreign? = some e) :
    x.left.own = x.start.state.own ∧
      ∃ j t, Tabs.Installed v j t e x.start.state.tabs x.left.tabs := by
  have hmoment := (termLaw_lawful v).moment (hrun.snoc hx) (List.mem_append_right ms
    (List.mem_singleton.mpr rfl))
  rw [← hx.start_state] at hs
  rw [Moment.foreign?] at hf
  split at hf
  · rename_i tab t expiresAt haction
    split at hf
    · rename_i htab
      rw [haction] at hmoment
      obtain ⟨-, hleft⟩ := hmoment
      rw [hleft, act, if_pos htab.2]
      refine ⟨own_setTabs _ _, tab, t, ?_⟩
      rw [tabs_setTabs]
      exact Tabs.install_of_term hf hs.shares htab.2
    · cases hf
  · cases hf

theorem Sharing.same (h : Sharing v c) (ht : c'.tabs = c.tabs) (ho : c'.own = c.own) :
    Sharing v c' :=
  h.of_recalls ho (j := c.own) (.inl ht)

theorem Sharing.step {ms : List Moment} {s : Scene} {x : Moment} (hrun : Course (scene c) ms s)
    (hx : Step s x) (h : Sharing v s.state) : Sharing v x.after.state := by
  obtain ⟨ht, ho⟩ := Client.Step.tabs_eq hx
  refine Sharing.same ?_ ht ho
  cases hf : x.foreign? with
  | none => exact (termLaw_step hrun hx h hf).sharing
  | some e =>
      obtain ⟨hown, j, t, hi⟩ := installed_of_foreign hrun hx h hf
      rw [← hx.start_state] at h
      exact h.of_installed hown hi

/-- The tabs share the vault throughout a course. -/
theorem Sharing.course {ms : List Moment} {s : Scene} (h : Sharing v c)
    (hrun : Course (scene c) ms s) : Sharing v s.state := by
  induction hrun with
  | nil => exact h
  | snoc hrun hx ih => exact Sharing.step hrun hx ih

theorem sharing_plain : Sharing ⟨Config.defaultNamespace, ⟨"", "", "", ""⟩⟩ plain where
  shares := ⟨⟨rfl, rfl⟩, fun j hj => by
    match j, hj with
    | 0, _ => rfl
    | j + 1, hj => cases hj⟩
  here := rfl

theorem sharing_plainPair : Sharing ⟨Config.defaultNamespace, ⟨"", "", "", ""⟩⟩ plainPair where
  shares := ⟨⟨rfl, rfl⟩, fun j hj => by
    match j, hj with
    | 0, _ => rfl
    | 1, _ => rfl
    | j + 2, hj => cases hj⟩
  here := rfl

theorem cache_plainPair (j : Nat) : plainPair.tabs.cache j = .empty := by
  match j with
  | 0 => rfl
  | 1 => rfl
  | j + 2 => rfl

end Client

end ClientSession
