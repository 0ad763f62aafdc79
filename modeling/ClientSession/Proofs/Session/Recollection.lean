import ClientSession.Proofs.Session.Fading

/-!
# Reading and storing a session

Over a healthy backend a read changes at most what the reading tab remembers, and what it then
remembers was remembered or stored before. Storing a token replaces the session of the vault, and no
other tab hears of it.

- `Tabs.tokenRead`, `Tabs.claimsRead`: how a read of the token and a read of the claims may end.
- `Tabs.token_recalls`, `Tabs.claims_recalls`: what they leave a tab to remember.
- `Tabs.install_of_term`: what storing a token leaves.
-/

namespace ClientSession

namespace Tabs

variable {w w' : Tabs} {v : Vault}

/-! ## Reading -/

/-- What a tab may come to remember: a token where it remembered one or one is stored, and the
expiry that it remembered or the stored one, if one is stored. -/
structure Recalled (w : Tabs) (i : Nat) (k : SessionCache) : Prop where
  token : k.token.isSome → (w.cache i).token.isSome ∨ w.stores i tokenKey
  expiry : ∀ e, k.expiresAt = some e → (w.cache i).expiresAt = some e ∨
    ∀ e', (w.storedExpiry i).1 = some e' → e' = e

/-- Only what the tab remembers may have changed. -/
def Recalls (i : Nat) (w w' : Tabs) : Prop := w' = w ∨ ∃ k, w.Recalled i k ∧ w' = w.setCache i k

theorem Recalls.same (i : Nat) (w : Tabs) : Recalls i w w := .inl rfl

theorem Recalls.forget (i : Nat) (w : Tabs) : Recalls i w (w.forget i) :=
  .inr ⟨.empty, ⟨nofun, nofun⟩, rfl⟩

section Recalls

variable {i : Nat}

theorem Recalls.backend (h : Recalls i w w') : w'.backend = w.backend := by
  rcases h with rfl | ⟨k, -, rfl⟩
  · rfl
  · exact backend_setCache w i k

theorem Recalls.history (h : Recalls i w w') : w'.history = w.history := by
  rcases h with rfl | ⟨k, -, rfl⟩
  · rfl
  · exact history_setCache w i k

theorem Recalls.listeners (h : Recalls i w w') : w'.listeners = w.listeners := by
  rcases h with rfl | ⟨k, -, rfl⟩
  · rfl
  · exact listeners_setCache w i k

theorem Recalls.bare (h : Recalls i w w') (j : Nat) : w'.bare? j = w.bare? j := by
  rcases h with rfl | ⟨k, -, rfl⟩
  · rfl
  · exact bare?_setCache w i j k

theorem Recalls.shares (h : Recalls i w w') (hw : w.Shares v) : w'.Shares v :=
  hw.congr h.backend (isSome_tab?_congr h.bare) (vault_congr h.bare)

theorem Recalls.keeps_eq (h : Recalls i w w') (key : String) : w'.keeps v key = w.keeps v key := by
  rw [keeps, keeps, h.backend]

/-- A tab comes to remember a token only where it remembered one or one is stored. -/
theorem Recalls.token (h : Recalls i w w') (hi : (w.tab? i).isSome)
    (ht : (w'.cache i).token.isSome) : (w.cache i).token.isSome ∨ w.stores i tokenKey := by
  rcases h with rfl | ⟨k, hk, rfl⟩
  · exact .inl ht
  · rw [cache_setCache_self hi] at ht
    exact hk.token ht

end Recalls

/-- When the session of a stored token ends: as stored, or as the token claims. -/
def storedEnd? (w : Tabs) (i : Nat) (t : BearerToken) : Option Instant :=
  (w.storedExpiry i).1.or (claimedExpiry? t)

/-- How a read of the token may end. -/
inductive TokenRead (w : Tabs) (i : Nat) (now : Instant) : Option BearerToken × Tabs → Prop where
  | remembered {t : BearerToken} (hlive : (w.cache i).liveToken? now = some t) :
      TokenRead w i now (some t, w)
  /-- Nothing is stored that lasts. -/
  | past (hcold : (w.cache i).liveToken? now = none)
      (hpast : ∀ t e, (w.storedToken i).1 = some t → w.storedEnd? i t = some e → e ≤ now) :
      TokenRead w i now (none, w.forget i)
  /-- The stored token lasts. The tab goes on remembering the claims that it did. -/
  | found {t : BearerToken} {e : Instant} (hcold : (w.cache i).liveToken? now = none)
      (ht : (w.storedToken i).1 = some t) (he : w.storedEnd? i t = some e) (hlt : now < e) :
      TokenRead w i now (some t, w.setCache i { w.cache i with token := some t, expiresAt := some e })

/-- How a read of the claims may end. -/
inductive ClaimsRead (w : Tabs) (i : Nat) (now : Instant) : Option Claims × Tabs → Prop where
  | remembered {c : Claims} (hlive : (w.cache i).liveClaims? now = some c) :
      ClaimsRead w i now (some c, w)
  /-- The session has ended, or its token has no claims that last. -/
  | past (hcold : (w.cache i).liveClaims? now = none)
      (hpast : ((w.expiresAt i).1.any fun e => decide (e ≤ now)) = true ∨
        ∃ t, (w.knownToken i).1 = some t ∧ ∀ c, Claims.decode t = .ok c → c.isExpiredAt now = true) :
      ClaimsRead w i now (none, w.forget i)
  | unknown (hcold : (w.cache i).liveClaims? now = none)
      (hlasts : ((w.expiresAt i).1.any fun e => decide (e ≤ now)) = false)
      (hnone : (w.knownToken i).1 = none) : ClaimsRead w i now (none, w)
  | decoded {t : BearerToken} {c : Claims} (hcold : (w.cache i).liveClaims? now = none)
      (hlasts : ((w.expiresAt i).1.any fun e => decide (e ≤ now)) = false)
      (ht : (w.knownToken i).1 = some t) (hc : Claims.decode t = .ok c)
      (hvalid : c.isExpiredAt now = false) :
      ClaimsRead w i now
        (some c, w.setCache i ⟨some t, (w.expiresAt i).1.or c.expiresAt.toOption, some c⟩)

theorem expiresAt_of_remembered {i : Nat} {e : Instant} (hc : (w.cache i).expiresAt = some e) :
    (w.expiresAt i).1 = some e := by
  simp only [expiresAt, hc]

theorem expiresAt_of_stored {i : Nat} {e : Instant} (hc : (w.cache i).expiresAt = none)
    (hs : (w.storedExpiry i).1 = some e) : (w.expiresAt i).1 = some e := by
  simp only [expiresAt, hc, hs]

/-- The session ends when the tab remembers, or when the stored expiry says if there is one. -/
theorem expiresAt_eq_some {i : Nat} {e : Instant} (he : (w.expiresAt i).1 = some e) :
    (w.cache i).expiresAt = some e ∨ ∀ e', (w.storedExpiry i).1 = some e' → e' = e := by
  cases hc : (w.cache i).expiresAt with
  | some e' =>
      rw [expiresAt_of_remembered hc] at he
      exact .inl he
  | none =>
      right
      intro e' he'
      rw [expiresAt_of_stored hc he'] at he
      exact Option.some.inj he

theorem storedExpiry_of_expiresAt_none {i : Nat} (he : (w.expiresAt i).1 = none) :
    (w.storedExpiry i).1 = none := by
  cases hc : (w.cache i).expiresAt with
  | some e =>
      rw [expiresAt_of_remembered hc] at he
      cases he
  | none =>
      cases hs : (w.storedExpiry i).1 with
      | none => rfl
      | some e =>
          rw [expiresAt_of_stored hc hs] at he
          cases he

section Reads

variable (h : w.backend.Healthy) (i : Nat)
include h

theorem storedExpiry_state : (w.storedExpiry i).2 = w := by
  rw [storedExpiry, readKey_of_healthy h]

theorem storedToken_state : (w.storedToken i).2 = w := by
  rw [storedToken, readKey_of_healthy h]

theorem stores_of_storedToken {t : BearerToken} (ht : (w.storedToken i).1 = some t) :
    w.stores i tokenKey = true := by
  rw [storedToken] at ht
  obtain ⟨text, hr, -⟩ := Option.map_eq_some_iff.mp ht
  exact stores_of_readKey h hr

theorem hasToken_state : (w.hasToken i).2 = w := by
  rw [hasToken]
  split
  · rfl
  · rw [hasKey_of_healthy h]

theorem knownToken_state : (w.knownToken i).2 = w := by
  rw [knownToken]
  split
  · rfl
  · exact storedToken_state h i

theorem stores_of_knownToken {t : BearerToken} (ht : (w.knownToken i).1 = some t) :
    (w.cache i).token.isSome ∨ w.stores i tokenKey = true := by
  rw [knownToken] at ht
  split at ht
  · rename_i hc
    exact .inl (by rw [hc]; rfl)
  · exact .inr (stores_of_storedToken h i ht)

theorem expiresAt_state : (w.expiresAt i).2 = w := by
  rw [expiresAt]
  split
  · rfl
  · simp only [storedExpiry_state h i, storedToken_state h i]
    split <;> rfl

theorem needsRefresh_state (now : Instant) : (w.needsRefresh i now).2 = w := expiresAt_state h i

theorem isExpired_state (now : Instant) : (w.isExpired i now).2 = w := expiresAt_state h i

theorem tokenRead (now : Instant) : TokenRead w i now (w.token i now) := by
  rw [token]
  split
  · rename_i t hlive
    exact .remembered hlive
  · rename_i hcold
    simp only [storedToken_state h i, storedExpiry_state h i]
    split
    · rename_i hnone
      refine .past hcold fun t e ht => ?_
      rw [hnone] at ht
      cases ht
    · rename_i t ht
      split
      · rename_i hnone
        refine .past hcold fun t' e ht' he => ?_
        obtain rfl := Option.some.inj (ht.symm.trans ht')
        rw [storedEnd?, hnone] at he
        cases he
      · rename_i e he
        split
        · rename_i hle
          refine .past hcold fun t' e' ht' he' => ?_
          obtain rfl := Option.some.inj (ht.symm.trans ht')
          obtain rfl := Option.some.inj (he.symm.trans he')
          exact hle
        · rename_i hlt
          exact .found hcold ht he (Int.not_le.mp hlt)

theorem claimsRead (now : Instant) : ClaimsRead w i now (w.claims i now) := by
  rw [claims]
  split
  · rename_i c hlive
    exact .remembered hlive
  · rename_i hcold
    simp only [expiresAt_state h i, knownToken_state h i]
    split
    · rename_i hend
      exact .past hcold (.inl hend)
    · rename_i hlasts
      have hlasts' := Bool.eq_false_iff.mpr hlasts
      split
      · rename_i hnone
        exact .unknown hcold hlasts' hnone
      · rename_i t ht
        split
        · rename_i e he
          refine .past hcold (.inr ⟨t, ht, fun c hc => ?_⟩)
          rw [he] at hc
          cases hc
        · rename_i c hc
          split
          · rename_i hexpired
            refine .past hcold (.inr ⟨t, ht, fun c' hc' => ?_⟩)
            obtain rfl := Except.ok.inj (hc.symm.trans hc')
            exact hexpired
          · rename_i hvalid
            exact .decoded hcold hlasts' ht hc (Bool.eq_false_iff.mpr hvalid)

theorem token_recalls (now : Instant) : Recalls i w (w.token i now).2 := by
  have hread := tokenRead h i now
  generalize w.token i now = r at hread ⊢
  cases hread with
  | remembered hlive => exact .same i w
  | past hcold hpast => exact .forget i w
  | @found t e hcold ht he hlt =>
      refine .inr ⟨_, ⟨fun _ => .inr (stores_of_storedToken h i ht), ?_⟩, rfl⟩
      rintro _ ⟨⟩
      refine .inr fun e' he' => ?_
      rw [storedEnd?, he'] at he
      exact Option.some.inj he

theorem claims_recalls (now : Instant) : Recalls i w (w.claims i now).2 := by
  have hread := claimsRead h i now
  generalize w.claims i now = r at hread ⊢
  cases hread with
  | remembered hlive => exact .same i w
  | past hcold hpast => exact .forget i w
  | unknown hcold hlasts hnone => exact .same i w
  | @decoded t c hcold hlasts ht hc hvalid =>
      refine .inr ⟨_, ⟨fun _ => stores_of_knownToken h i ht, fun e he => ?_⟩, rfl⟩
      cases hexp : (w.expiresAt i).1 with
      | some e' =>
          rw [hexp] at he
          obtain rfl := Option.some.inj he
          exact expiresAt_eq_some hexp
      | none =>
          right
          intro e' he'
          rw [storedExpiry_of_expiresAt_none hexp] at he'
          cases he'

theorem userId_recalls (now : Instant) : Recalls i w (w.userId i now).2 := claims_recalls h i now

end Reads

/-- Without a token to remember or to find there is none to give. -/
theorem token_eq_none (h : w.backend.Healthy) {i : Nat} (now : Instant)
    (hc : (w.cache i).token = none) (hs : w.stores i tokenKey = false) :
    (w.token i now).1 = none := by
  have hlive : (w.cache i).liveToken? now = none := by
    rw [SessionCache.liveToken?, hc, ite_self]
  have hstored : (w.storedToken i).1 = none := by
    rw [storedToken, readKey_eq_none h hs, Option.map_none]
  simp only [token, hlive, hstored]

theorem hasToken_eq (h : w.backend.Healthy) (i : Nat) :
    (w.hasToken i).1 = ((w.cache i).token.isSome || w.stores i tokenKey) := by
  rw [hasToken]
  split
  · rename_i hc
    rw [hc, Bool.true_or]
  · rename_i hc
    rw [hasKey_of_healthy h, Bool.eq_false_iff.mpr hc, Bool.false_or]

/-! ## Storing -/

/-- The expiry under which a token is stored; none if it is refused. -/
def term? (t : BearerToken) (expiresAt : Option Instant) : Option Instant :=
  if t.isBlank then none else expiresAt.or (claimedExpiry? t)

/-- A token was stored. -/
structure Installed (v : Vault) (i : Nat) (t : BearerToken) (e : Instant) (w w' : Tabs) :
    Prop where
  shares : w'.Shares v
  bare : ∀ j, w'.bare? j = w.bare? j
  listeners : w'.listeners = w.listeners
  history : w.history <+: w'.history
  token : w'.backend.items.find? (v.rawKey tokenKey) = some (v.conceal t.text)
  expiry : w'.backend.items.find? (v.rawKey expiryKey) = some (v.conceal (toString e.floorSeconds))
  cache_self : w'.cache i = ⟨some t, some e, (Claims.decode t).toOption⟩
  cache_other : ∀ j, j ≠ i → w'.cache j = w.cache j
  noted : ∀ o ∈ w.news w', o.Passing false ∨ o = .changed ⟨claimsKey, none, i⟩

theorem Installed.keeps_token {i : Nat} {t : BearerToken} {e : Instant}
    (h : Installed v i t e w w') : w'.keeps v tokenKey = true := by
  rw [keeps, h.token, Option.isSome_some]

theorem claimedExpiry?_eq (t : BearerToken) :
    claimedExpiry? t = (Claims.decode t).toOption.bind fun c => c.expiresAt.toOption := by
  rw [claimedExpiry?]
  cases Claims.decode t <;> rfl

theorem install_fst (w : Tabs) (i : Nat) (t : BearerToken) (expiresAt : Option Instant) :
    (w.install i t expiresAt).1 = (term? t expiresAt).isSome := by
  rw [install, term?]
  split
  · rfl
  · dsimp only
    rw [claimedExpiry?_eq]
    split
    · rename_i h
      rw [h]
      rfl
    · rename_i e h
      rw [h]
      rfl

theorem install_of_term_none {t : BearerToken} {expiresAt : Option Instant}
    (h : term? t expiresAt = none) (w : Tabs) (i : Nat) : w.install i t expiresAt = (false, w) := by
  rw [install]
  split
  · rfl
  · rename_i hblank
    rw [term?, if_neg hblank, claimedExpiry?_eq] at h
    simp only [h]

theorem writeKey_of_shares (h : w.Shares v) {i : Nat} (hi : (w.tab? i).isSome)
    (key value : String) :
    w.writeKey i key value =
      w.withItems (w.backend.items.insert (v.rawKey key) (v.conceal value)) := by
  rw [writeKey, h.vault_eq i hi, Vault.set_of_healthy h.healthy]
  rfl

/-- Removing the claims leaves the tabs as they are. -/
theorem removeKey_claims (h : w.Shares v) {i : Nat} (hi : (w.tab? i).isSome) :
    w.removeKey i claimsKey =
      { w.without v claimsKey with
        history := w.history ++
          .changed ⟨claimsKey, none, i⟩ :: echoes claimsKey w.listeners } := by
  rw [removeKey, removeWith, Vault.remove_of_healthy h.healthy, h.vault_eq i hi,
    if_pos (by rfl), publishWith, foldl_hearWith_of_ne (show claimsKey ≠ tokenKey by decide)]
  simp only [note, without, withItems, List.append_assoc, List.singleton_append]

theorem echoes_passing {key : String} {listeners : List (Nat × Listener)} {o : Occurrence}
    (ho : o ∈ echoes key listeners) : o.Passing false := by
  obtain ⟨⟨n, l⟩, -, hl⟩ := List.mem_filterMap.mp ho
  cases l with
  | note name =>
      obtain rfl := Option.some.inj hl
      trivial
  | tab j => cases hl

theorem Installed.of_items (hw : w.Shares v) {i : Nat} (hi : (w.tab? i).isSome)
    {t : BearerToken} {e : Instant} {claims : Option Claims} {l : List Occurrence}
    (hc : (Claims.decode t).toOption = claims)
    (hw' : w' = { w.withItems w'.backend.items with history := w.history ++ l })
    (htoken : w'.backend.items.find? (v.rawKey tokenKey) = some (v.conceal t.text))
    (hexpiry : w'.backend.items.find? (v.rawKey expiryKey) =
      some (v.conceal (toString e.floorSeconds)))
    (hl : ∀ o ∈ l, o.Passing false ∨ o = .changed ⟨claimsKey, none, i⟩) :
    Installed v i t e w (w'.setCache i ⟨some t, some e, claims⟩) := by
  subst hc
  have hbare : ∀ j, (w'.setCache i ⟨some t, some e, (Claims.decode t).toOption⟩).bare? j =
      w.bare? j := by
    intro j
    rw [bare?_setCache, hw']
    rfl
  have hopen : (w'.tab? i).isSome := by
    rw [hw']
    exact hi
  refine ⟨⟨?_, fun j hj => ?_⟩, hbare, ?_, ?_, htoken, hexpiry, cache_setCache_self hopen _,
    fun j hj => ?_, fun o ho => hl o ?_⟩
  · rw [backend_setCache, hw']
    exact hw.healthy
  · rw [vault_congr hbare]
    exact hw.vault_eq j ((isSome_tab?_congr hbare j).symm.trans hj)
  · rw [listeners_setCache, hw']
    rfl
  · rw [history_setCache, hw']
    exact List.prefix_append _ _
  · rw [cache_setCache_of_ne hj, hw']
    rfl
  · rw [news, history_setCache, hw'] at ho
    simpa using ho

theorem install_of_term {t : BearerToken} {expiresAt : Option Instant} {e : Instant}
    (h : term? t expiresAt = some e) (hw : w.Shares v) {i : Nat} (hi : (w.tab? i).isSome) :
    Installed v i t e w (w.install i t expiresAt).2 := by
  have hblank : t.isBlank ≠ true := by
    intro hb
    rw [term?, if_pos hb] at h
    cases h
  rw [term?, if_neg hblank, claimedExpiry?_eq] at h
  simp only [install, if_neg hblank, h]
  have hshares : ∀ items, (w.withItems items).Shares v := fun _ => ⟨hw.healthy, hw.vault_eq⟩
  have hopen : ∀ items, ((w.withItems items).tab? i).isSome := fun _ => hi
  rw [writeKey_of_shares hw hi, writeKey_of_shares (hshares _) (hopen _), withItems_withItems,
    items_withItems]
  have hne : ∀ {key key' : String}, key ≠ key' → v.rawKey key ≠ v.rawKey key' :=
    fun hkey heq => hkey (v.rawKey_inj.mp heq)
  have hexpiry := hne (show expiryKey ≠ tokenKey by decide)
  have hclaims := hne (show claimsKey ≠ tokenKey by decide)
  have hclaims' := hne (show claimsKey ≠ expiryKey by decide)
  -- The claims are stored if the token can be decoded; else those of the last session are removed.
  cases hc : (Claims.decode t).toOption with
  | some c =>
      refine .of_items hw hi hc (l := []) ?_ ?_ ?_ fun o ho => nomatch ho
      · simp only [writeKey_of_shares (hshares _) (hopen _), List.append_nil]
        rfl
      · simp [writeKey_of_shares (hshares _) (hopen _), Table.find?_insert, hexpiry, hclaims]
      · simp [writeKey_of_shares (hshares _) (hopen _), Table.find?_insert, hclaims']
  | none =>
      refine .of_items hw hi hc
        (l := .changed ⟨claimsKey, none, i⟩ :: echoes claimsKey w.listeners) ?_ ?_ ?_ fun o ho => ?_
      · simp only [removeKey_claims (hshares _) (hopen _)]
        rfl
      · simp [removeKey_claims (hshares _) (hopen _), without, Table.find?_insert,
          Table.find?_erase, hexpiry, hclaims]
      · simp [removeKey_claims (hshares _) (hopen _), without, Table.find?_insert,
          Table.find?_erase, hclaims']
      · rcases List.mem_cons.mp ho with rfl | h
        · exact .inr rfl
        · exact .inl (echoes_passing h)

/-- Storing a token makes no removal of one known. -/
theorem Installed.no_removal {i : Nat} {t : BearerToken} {e : Instant}
    (h : Installed v i t e w w') : (w.news w').any (·.isRemovalOf tokenKey) = false := by
  rw [List.any_eq_false]
  intro o ho
  rcases h.noted o ho with hp | rfl
  · cases o with
    | changed c => exact hp.elim
    | _ => exact Bool.false_ne_true
  · simp [Occurrence.isRemovalOf, claimsKey, tokenKey]

end Tabs

end ClientSession
