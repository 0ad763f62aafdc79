import ClientSession.Proofs.Client.Laws

/-!
# Signing out for good

One client has the storage to itself. Whether a token is stored after a stretch is then settled by
whether one was stored before, whether the stretch began with one that can be stored, and whether
the removal of the token was made known since.
-/

namespace ClientSession

open Activity

namespace Client

variable {v : Vault} {c c' : Client}

/-- The client is the only one with a tab, and remembers a token only while one is stored. -/
structure Solitary (v : Vault) (c : Client) : Prop where
  shares : c.tabs.Shares v
  here : (c.tabs.tab? c.own).isSome
  alone : ∀ j, j ≠ c.own → c.tabs.tab? j = none
  cached : (c.tabs.cache c.own).token.isSome → c.tabs.keeps v Tabs.tokenKey = true

/-- What becomes of the token of a client with the storage to itself. -/
structure TokenLaw (v : Vault) (stored : Bool) (c₀ c : Client) : Prop where
  solitary : Solitary v c
  own : c.own = c₀.own
  history : c₀.tabs.history <+: c.tabs.history
  keeps : c.tabs.keeps v Tabs.tokenKey =
    ((c₀.tabs.keeps v Tabs.tokenKey || stored) && !removedSince c₀ c)

theorem Solitary.of_bare (h : Solitary v c) (ho : c'.own = c.own) (hs : c'.tabs.Shares v)
    (hb : ∀ j, c'.tabs.bare? j = c.tabs.bare? j)
    (hc : (c'.tabs.cache c'.own).token.isSome → c'.tabs.keeps v Tabs.tokenKey = true) :
    Solitary v c' where
  shares := hs
  here := by
    rw [ho, Tabs.isSome_tab?_congr hb]
    exact h.here
  alone j hj := by
    have hnone := h.alone j (ho ▸ hj)
    rw [← Option.not_isSome_iff_eq_none, Tabs.isSome_tab?_congr hb, hnone]
    exact Bool.false_ne_true
  cached := hc

theorem TokenLaw.of_fades {g : Bool} {c₀ : Client} (h : TokenLaw v g c₀ c) (ho : c'.own = c.own)
    (hf : Tabs.Fades v true c.tabs c'.tabs) (hc : c'.tabs.cache c'.own = .empty) :
    TokenLaw v g c₀ c' where
  solitary := by
    refine h.solitary.of_bare ho (hf.erodes.shares h.solitary.shares) hf.erodes.bare fun ht => ?_
    rw [hc] at ht
    cases ht
  own := ho.trans h.own
  history := h.history.trans hf.erodes.history
  keeps := by
    rw [hf.keeps_token, h.keeps, removedSince, removedSince,
      Tabs.news_trans h.history hf.erodes.history, List.any_append]
    cases List.any (c₀.tabs.news c.tabs) _ <;> simp

/-- What the tab remembers may change, as long as it remembers no token that is not stored. -/
theorem TokenLaw.of_recalls {g : Bool} {c₀ : Client} (h : TokenLaw v g c₀ c) (ho : c'.own = c.own)
    (hr : Tabs.Recalls c.own c.tabs c'.tabs) : TokenLaw v g c₀ c' := by
  obtain ⟨hs, hown, hh, hk⟩ := h
  have hkeeps : c'.tabs.keeps v Tabs.tokenKey = c.tabs.keeps v Tabs.tokenKey := hr.keeps_eq _
  refine ⟨hs.of_bare ho (hr.shares hs.shares) hr.bare fun ht => ?_, ho.trans hown, ?_, ?_⟩
  · rw [ho] at ht
    rw [hkeeps]
    rcases hr.token hs.here ht with hc | hc
    · exact hs.cached hc
    · rwa [hs.shares.stores_eq hs.here] at hc
  · rw [hr.history]
    exact hh
  · rw [hkeeps, hk, removedSince, removedSince, Tabs.news, Tabs.news, hr.history]

theorem tokenLaw_lawful (v : Vault) :
    Lawful fun g c₀ c => Solitary v c₀ → TokenLaw v g c₀ c where
  refl c h := by
    refine ⟨h, rfl, List.prefix_rfl, ?_⟩
    simp [removedSince, Tabs.news_self]
  recalls g c₀ c c' hc ho hw h := (hc h).of_recalls ho (hw (hc h).solitary.shares.healthy)
  clears g c₀ c c' hc ho ht h := by
    have hl := hc h
    refine hl.of_fades ho ?_ ?_
    · rw [ht]
      exact Tabs.clearSession_fades hl.solitary.shares.fadeable hl.solitary.here
    · rw [ht, ho]
      exact Tabs.clearSession_cache _ _
  ends g c₀ c c' reason hc ho ht h := by
    have hl := hc h
    refine hl.of_fades ho ?_ ?_
    · rw [ht]
      exact Tabs.endSession_fades hl.solitary.shares hl.solitary.here reason
    · rw [ht, ho]
      exact Tabs.endSession_cache hl.solitary.shares hl.solitary.here reason
  stores c c' t e ht ho hw h := by
    obtain ⟨term, hterm⟩ := Option.isSome_iff_exists.mp ht
    have hi := Tabs.install_of_term hterm h.shares h.here
    rw [← hw] at hi
    refine ⟨h.of_bare ho hi.shares hi.bare fun _ => hi.keeps_token, ho, hi.history, ?_⟩
    rw [hi.keeps_token, removedSince, hi.no_removal]
    simp

/-! ## Courses -/

/-- A client that has just been set up, over a healthy backend with no other tab. -/
structure Alone (c : Client) : Prop where
  healthy : c.tabs.backend.Healthy
  here : (c.tabs.tab? c.own).isSome
  alone : ∀ j, j ≠ c.own → c.tabs.tab? j = none
  fresh : c.tabs.cache c.own = .empty

theorem alone_gateway {b : Backend} (config : Config) (profile : DeviceProfile)
    (csrf : Option String) (supply : TokenSupply) (hasWorkers : Bool) (hb : b.Healthy) :
    Alone (gateway config profile csrf supply hasWorkers b) where
  healthy := hb
  here := rfl
  alone j hj := by
    match j, hj with
    | 0, hj => exact absurd rfl hj
    | j + 1, _ => rfl
  fresh := rfl

theorem Alone.solitary (h : Alone c) : Solitary (c.tabs.vault c.own) c where
  shares := ⟨h.healthy, fun j hj => by
    by_cases hc : j = c.own
    · rw [hc]
    · rw [h.alone j hc] at hj
      cases hj⟩
  here := h.here
  alone := h.alone
  cached ht := by
    rw [h.fresh] at ht
    cases ht

/-- The stretch stored a token, and has not removed it again. -/
def Moment.leavesToken (x : Moment) : Bool := x.stores && !removedSince x.start.state x.left

theorem tokenLaw_step {ms : List Moment} {s : Scene} {x : Moment} (hrun : Course (scene c) ms s)
    (hx : Step s x) (hs : Solitary v s.state) : TokenLaw v x.stores x.start.state x.left := by
  rw [← hx.start_state] at hs
  refine (tokenLaw_lawful v).step hrun hx hs.here (fun tab action _ htab => ?_) hs
  -- On another tab nothing can be done, as there is none.
  rw [act, hs.alone tab htab]
  exact (tokenLaw_lawful v).refl _

theorem Solitary.same (h : Solitary v c) (ht : c'.tabs = c.tabs) (ho : c'.own = c.own) :
    Solitary v c' := by
  refine h.of_bare ho (ht ▸ h.shares) (fun j => by rw [ht]) fun hc => ?_
  rw [ht, ho] at hc
  rw [ht]
  exact h.cached hc

/-- A client stays the only one with a tab. -/
theorem Alone.course {ms : List Moment} {s : Scene} (h : Alone c) (hrun : Course (scene c) ms s) :
    Solitary (c.tabs.vault c.own) s.state := by
  induction hrun with
  | nil => exact h.solitary
  | snoc hrun hx ih =>
      obtain ⟨ht, ho⟩ := Client.Step.tabs_eq hx
      exact (tokenLaw_step hrun hx ih).solitary.same ht ho

/-! ## Signing out -/

/-- There is no token to have or to get. -/
def SignedOut (c : Client) : Prop :=
  (c.tabs.hasToken c.own).1 = false ∧ ∀ now, (c.tabs.token c.own now).1 = none

theorem signedOut_of_gone (hh : c.tabs.backend.Healthy) (hc : (c.tabs.cache c.own).token = none)
    (hs : c.tabs.stores c.own Tabs.tokenKey = false) : SignedOut c := by
  refine ⟨?_, fun now => Tabs.token_eq_none hh now hc hs⟩
  rw [Tabs.hasToken_eq hh, hs, hc]
  rfl

theorem Solitary.signedOut_iff (h : Solitary v c) :
    SignedOut c ↔ c.tabs.keeps v Tabs.tokenKey = false := by
  have hstores := h.shares.stores_eq h.here Tabs.tokenKey
  constructor
  · rintro ⟨hhas, -⟩
    rw [Tabs.hasToken_eq h.shares.healthy, hstores, Bool.or_eq_false_iff] at hhas
    exact hhas.2
  · intro hkeeps
    refine signedOut_of_gone h.shares.healthy ?_ (hstores.trans hkeeps)
    by_contra hc
    rw [h.cached (Option.isSome_iff_ne_none.mpr hc)] at hkeeps
    cases hkeeps

/-- A client that is signed out stays so after a moment if and only if the moment left no token. -/
theorem Alone.signedOut_step {ms : List Moment} {s : Scene} {x : Moment} (h : Alone c)
    (hrun : Course (scene c) ms s) (hx : Step s x) (hs : SignedOut s.state) :
    SignedOut x.after.state ↔ x.leavesToken = false := by
  have hsolitary := h.course hrun
  obtain ⟨ht, -⟩ := Client.Step.tabs_eq hx
  rw [hsolitary.signedOut_iff] at hs
  rw [(h.course (hrun.snoc hx)).signedOut_iff, ht, (tokenLaw_step hrun hx hsolitary).keeps,
    hx.start_state, hs, Moment.leavesToken, hx.start_state, Bool.false_or]

theorem Alone.signedOut_logout {ms : List Moment} {s : Scene} {o : Moment} (h : Alone c)
    (before : Course (scene c) ms s) (out : Step s o) (ho : o.Carries .logout) :
    SignedOut o.after.state := by
  have hs := h.course before
  obtain ⟨ht, -⟩ := Client.Step.tabs_eq out
  rw [(h.course (before.snoc out)).signedOut_iff, ht, Client.Step.left_eq out ho, out.start_state]
  have htabs : s.state.logout.tabs = s.state.tabs.endSession s.state.own .logout :=
    tabs_setTabs s.state _
  show s.state.logout.tabs.keeps _ _ = false
  rw [htabs]
  exact Tabs.endSession_keeps hs.shares hs.here .logout (List.mem_cons_self ..)

/-- Once the client has signed out it stays signed out, while nothing that is begun afterwards
leaves a token, if and only if none of the work that was in flight leaves one. -/
theorem Alone.signedOut_iff_inFlight {c : Client} {ms ms' : List Moment} {o : Moment} {s : Scene}
    (h : Alone c) (hrun : Course (scene c) (ms ++ o :: ms') s) (ho : o.Carries .logout)
    (hfresh : ∀ x ∈ ms', o.number < x.number → x.leavesToken = false) :
    SignedOut o.after.state ∧ ((∀ x ∈ ms', SignedOut x.after.state) ↔
      ∀ x ∈ ms', x.number ≤ o.number → x.leavesToken = false) := by
  obtain ⟨t, before, out, after⟩ := hrun.split
  have hout := h.signedOut_logout before out ho
  have hall := after.forall_iff hout fun l u x hu hx _ hs =>
    h.signedOut_step ((before.snoc out).append hu) hx hs
  -- What began afterwards leaves no token, so that only the older work counts.
  refine ⟨hout, hall.trans ⟨fun hl x hx _ => hl x hx, fun hold x hx => ?_⟩⟩
  rcases Nat.lt_or_ge o.number x.number with hn | hn
  · exact hfresh x hx hn
  · exact hold x hx hn

/-- A client signs in, and out again while a refresh waits for a token; then it is answered. -/
def refreshOverSignOut (issued : Except IssueFailure IssuedToken) : Script :=
  [(⟨1748779200000000000⟩, .ask (.login ⟨"t1"⟩ (some ⟨1748782800000000000⟩))),
    (⟨1748779200000000000⟩, .ask (.refresh true)),
    (⟨1748779201000000000⟩, .ask .logout),
    (⟨1748779205000000000⟩, .reply 4 (Wait.answer (.ok ⟨200, Table.empty, ""⟩) issued))]

/-- A client that has signed out stays so when a refresh that was in flight gets no token. -/
theorem signedOut_iff_inFlight_plain : ∃ (ms ms' : List Moment) (o : Moment) (s : Scene),
    Alone plain ∧ Course (scene plain) (ms ++ o :: ms') s ∧ o.Carries .logout ∧
      (∀ x ∈ ms', o.number < x.number → x.leavesToken = false) ∧ SignedOut o.after.state ∧
        ((∀ x ∈ ms', SignedOut x.after.state) ↔
          ∀ x ∈ ms', x.number ≤ o.number → x.leavesToken = false) := by
  have halone : Alone plain := alone_gateway _ _ _ _ _ ⟨rfl, rfl⟩
  have hpasses : workplace.passes (scene plain) (refreshOverSignOut (.error .loginRequired)) 2
      (fun _ o ms' _ => Moment.signsOut o && decide (ms'.length = 1 ∧
        ∀ x ∈ ms', o.number < x.number → Moment.leavesToken x = false)) = true := by
    decide +kernel
  obtain ⟨ms, o, ms', s, hrun, htest⟩ := Workplace.exists_course hpasses
  rw [Bool.and_eq_true, decide_eq_true_eq] at htest
  obtain ⟨hout, -, hfresh⟩ := htest
  have hcarries := Moment.carries_logout hout
  exact ⟨ms, ms', o, s, halone, hrun, hcarries, hfresh,
    halone.signedOut_iff_inFlight hrun hcarries hfresh⟩

/-- A token that is issued once the client has signed out is stored all the same. -/
theorem not_signedOut_after_logout : ¬∀ (c : Client) (ms ms' : List Moment) (o : Moment)
    (s : Scene), Alone c → Course (scene c) (ms ++ o :: ms') s → o.Carries .logout →
      (∀ x ∈ ms', o.number < x.number → x.leavesToken = false) → SignedOut s.state := by
  intro hclaim
  have halone : Alone plain := alone_gateway _ _ _ _ _ ⟨rfl, rfl⟩
  have hpasses : workplace.passes (scene plain)
      (refreshOverSignOut (.ok ⟨⟨"t2"⟩, some ⟨1748782800000000000⟩⟩)) 2
      (fun _ o ms' s => Moment.signsOut o && decide (∀ x ∈ ms', x.number ≤ o.number) &&
        (s.state.tabs.hasToken s.state.own).1) = true := by
    decide +kernel
  obtain ⟨ms, o, ms', s, hrun, htest⟩ := Workplace.exists_course hpasses
  rw [Bool.and_eq_true, Bool.and_eq_true, decide_eq_true_eq] at htest
  obtain ⟨⟨hout, hold⟩, htoken⟩ := htest
  have hfresh : ∀ x ∈ ms', o.number < x.number → Moment.leavesToken x = false := by
    intro x hx hlt
    exact absurd hlt (Nat.not_lt.mpr (hold x hx))
  have hsigned := hclaim plain ms ms' o s halone hrun (Moment.carries_logout hout) hfresh
  rw [hsigned.1] at htoken
  cases htoken

end Client

end ClientSession
