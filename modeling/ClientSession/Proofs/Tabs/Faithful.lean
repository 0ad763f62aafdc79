import ClientSession.Proofs.Tabs.Visits

/-!
# A tab alone with its storage

A tab that nobody shares its storage with remembers only what is stored: the token of the last
session, and its end as it was given or as it was written down. So the tab gives that token until
the second of the end begins, and none once the end has come, whatever was read in between.

- `Faithful.leaves`: a visit leaves the tab remembering only what is stored.
- `Visits.token_of_lone`: the token that a lone tab gives after any visits.
-/

namespace ClientSession

open Tabs

/-- What is remembered is of the stored session. -/
structure Faithful (s : Option StoredSession) (k : SessionCache) : Prop where
  token : ∀ t, k.token = some t → ∃ s', s = some s' ∧ t = s'.token
  expiry : ∀ e, k.expiresAt = some e →
    ∃ s', s = some s' ∧ (e = s'.expiry ∨ e = s'.expiry.startOfSecond)

namespace Faithful

variable {v : Vault} {w : Tabs} {i : Nat} {x : Visit} {s : Option StoredSession}
  {k : SessionCache}

theorem empty (s : Option StoredSession) : Faithful s .empty := ⟨nofun, nofun⟩

/-- What can be read back is of the stored session. -/
theorem of_storedToken (hw : w.Shares v) (hi : (w.tab? i).isSome) (hs : w.Holds v s)
    {t : BearerToken} (ht : (w.storedToken i).1 = some t) :
    ∃ s', s = some s' ∧ w.Records v s' ∧ t = s'.token := by
  cases s with
  | none =>
      rw [hs.eq_none hw hi] at ht
      cases ht
  | some s' =>
      have hr : w.Records v s' := hs
      rw [hr.storedToken hw hi] at ht
      exact ⟨s', rfl, hr, (Option.some.inj ht).symm⟩

theorem of_knownToken (hf : Faithful s (w.cache i)) (hw : w.Shares v) (hi : (w.tab? i).isSome)
    (hs : w.Holds v s) {t : BearerToken} (ht : (w.knownToken i).1 = some t) :
    ∃ s', s = some s' ∧ w.Records v s' ∧ t = s'.token := by
  rw [knownToken] at ht
  split at ht
  · rename_i t' hc
    obtain rfl := Option.some.inj ht
    obtain ⟨s', rfl, rfl⟩ := hf.token _ hc
    exact ⟨s', rfl, hs, rfl⟩
  · exact of_storedToken hw hi hs ht

/-- Where a session is stored its end is known. -/
theorem of_expiresAt {s' : StoredSession} (hf : Faithful (some s') (w.cache i)) (hw : w.Shares v)
    (hi : (w.tab? i).isSome) (hr : w.Records v s') :
    ∃ e, (w.expiresAt i).1 = some e ∧ (e = s'.expiry ∨ e = s'.expiry.startOfSecond) := by
  cases hc : (w.cache i).expiresAt with
  | some e =>
      obtain ⟨s'', hs'', he⟩ := hf.expiry e hc
      cases hs''
      exact ⟨e, expiresAt_of_remembered hc, he⟩
  | none =>
      have hstored := hr.storedExpiry hw hi
      exact ⟨_, expiresAt_of_stored hc hstored, .inr rfl⟩

/-- A visit leaves the tab remembering only what is stored. -/
theorem leaves {u : Tabs} (hf : Faithful s (x.found.cache x.tab)) (hw : x.found.Shares v)
    (hi : (x.found.tab? x.tab).isSome) (hs : x.found.Holds v s) (h : x.Leaves v u) :
    Faithful (x.deed.stored s) (u.cache x.tab) := by
  cases h with
  | same hstored h =>
      rw [hstored, h.cache]
      exact hf
  | forgets hstored =>
      rw [cache_forget]
      exact empty _
  | @finds t e hstored hask hcold ht he hlt =>
      obtain ⟨s', rfl, hr, rfl⟩ := of_storedToken hw hi hs ht
      rw [hr.storedEnd? hw hi] at he
      obtain rfl := Option.some.inj he
      rw [hstored, cache_setCache_self hi]
      constructor
      · rintro _ ⟨⟩
        exact ⟨s', rfl, rfl⟩
      · rintro _ ⟨⟩
        exact ⟨s', rfl, .inr rfl⟩
  | @decodes t c hstored ht hc =>
      obtain ⟨s', rfl, hr, rfl⟩ := hf.of_knownToken hw hi hs ht
      obtain ⟨e, he, hend⟩ := hf.of_expiresAt hw hi hr
      rw [hstored, cache_setCache_self hi, he]
      constructor
      · rintro _ ⟨⟩
        exact ⟨s', rfl, rfl⟩
      · rintro _ ⟨⟩
        exact ⟨s', rfl, hend⟩
  | clears hstored h =>
      rw [h.self]
      exact empty _
  | @stores t e _ hstored ht he h =>
      rw [hstored, h.cache_self]
      constructor
      · rintro _ ⟨⟩
        exact ⟨⟨t, e⟩, rfl, rfl⟩
      · rintro _ ⟨⟩
        exact ⟨⟨t, e⟩, rfl, .inl rfl⟩

/-- Any token that is given is the stored one, and its end has not come. -/
theorem of_token (hf : Faithful s (w.cache i)) (hw : w.Shares v) (hi : (w.tab? i).isSome)
    (hs : w.Holds v s) {now : Instant} {t : BearerToken} (ht : (w.token i now).1 = some t) :
    ∃ s', s = some s' ∧ t = s'.token ∧ now < s'.expiry := by
  have hread := tokenRead hw.healthy i now
  generalize w.token i now = r at hread ht
  cases hread with
  | @remembered t' hlive =>
      obtain rfl := Option.some.inj ht
      rw [SessionCache.liveToken?, SessionCache.isLive] at hlive
      cases hc : (w.cache i).expiresAt with
      | none =>
          rw [hc] at hlive
          cases hlive
      | some e =>
          simp only [hc, decide_eq_true_eq] at hlive
          split at hlive
          · rename_i hlt
            obtain ⟨s', rfl, rfl⟩ := hf.token _ hlive
            obtain ⟨_, hs', hend⟩ := hf.expiry e hc
            cases hs'
            refine ⟨s', rfl, rfl, ?_⟩
            rcases hend with rfl | rfl
            · exact hlt
            · exact Int.lt_of_lt_of_le hlt s'.expiry.startOfSecond_le
          · cases hlive
  | past hcold hpast => cases ht
  | @found t' e hcold hstored he hlt =>
      obtain rfl := Option.some.inj ht
      obtain ⟨s', rfl, hr, rfl⟩ := of_storedToken hw hi hs hstored
      rw [hr.storedEnd? hw hi] at he
      obtain rfl := Option.some.inj he
      exact ⟨s', rfl, rfl, Int.lt_of_lt_of_le hlt s'.expiry.startOfSecond_le⟩

/-- Until the second of its end begins the stored token is given. -/
theorem token_eq_some {s' : StoredSession} (hf : Faithful (some s') (w.cache i))
    (hw : w.Shares v) (hi : (w.tab? i).isSome) (hr : w.Records v s') {now : Instant}
    (hnow : now < s'.expiry.startOfSecond) : (w.token i now).1 = some s'.token := by
  have hread := tokenRead hw.healthy i now
  generalize w.token i now = r at hread ⊢
  cases hread with
  | @remembered t hlive =>
      have hcached : (w.cache i).token = some t := by
        rw [SessionCache.liveToken?] at hlive
        split at hlive
        · exact hlive
        · cases hlive
      obtain ⟨_, hs', rfl⟩ := hf.token t hcached
      cases hs'
      rfl
  | past hcold hpast =>
      have hle := hpast _ _ (hr.storedToken hw hi) (hr.storedEnd? hw hi _)
      exact absurd hnow (Int.not_lt.mpr hle)
  | @found t e hcold hstored he hlt =>
      rw [hr.storedToken hw hi] at hstored
      exact hstored.symm

end Faithful

namespace Tabs

/-- The tab is the only open one, over a healthy backend. -/
structure Lone (w : Tabs) (i : Nat) : Prop where
  healthy : w.backend.Healthy
  here : (w.tab? i).isSome
  alone : ∀ j, j ≠ i → w.tab? j = none

theorem Lone.shares {w : Tabs} {i : Nat} (h : w.Lone i) : w.Shares (w.vault i) where
  healthy := h.healthy
  vault_eq j hj := by
    by_cases hji : j = i
    · rw [hji]
    · rw [h.alone j hji] at hj
      cases hj

end Tabs

/-- A lone tab gives the token of the last session until the second of its end begins, and none once
the end has come, or where there is no such session. -/
theorem Visits.token_of_lone {w w' : Tabs} {i : Nat} {visits : List Visit}
    {earlier : Option StoredSession} (h : Visits w visits w') (hl : w.Lone i)
    (hempty : w.cache i = .empty) (hs : w.Holds (w.vault i) earlier) (now : Instant) :
    match lastSession earlier visits with
    | none => (w'.token i now).1 = none
    | some s => (now < s.expiry.startOfSecond → (w'.token i now).1 = some s.token) ∧
        (s.expiry ≤ now → (w'.token i now).1 = none) := by
  -- The tab stays the only one, and what it remembers stays of the session that is stored.
  let A (visits : List Visit) (u : Tabs) : Prop :=
    (∀ j, (u.tab? j).isSome ↔ j = i) ∧ u.Holds (w.vault i) (lastSession earlier visits) ∧
      Faithful (lastSession earlier visits) (u.cache i)
  have hstart : A [] w := by
    refine ⟨fun j => ⟨fun hj => ?_, fun hj => hj ▸ hl.here⟩, hs, ?_⟩
    · by_contra hji
      rw [hl.alone j hji] at hj
      cases hj
    · rw [hempty]
      exact .empty _
  obtain ⟨hshares, hopen, hholds, hfaithful⟩ := h.invariant (A := A) hl.shares hstart (by
    rintro visits x u hw hi hleaves ⟨hopen, hholds, hfaithful⟩
    have hx : x.tab = i := (hopen x.tab).mp hi
    rw [← hx] at hfaithful
    have hleft := hfaithful.leaves hw hi hholds hleaves
    rw [hx] at hleft
    refine ⟨fun j => ?_, ?_, ?_⟩
    · rw [hleaves.isSome_tab?]
      exact hopen j
    · rw [lastSession_snoc]
      exact hleaves.holds hholds
    · rw [lastSession_snoc]
      exact hleft)
  have hi : (w'.tab? i).isSome := (hopen i).mpr rfl
  -- What is given is the stored token before its end; so it is given while that has not begun.
  have hgiven : ∀ t, (w'.token i now).1 = some t →
      ∃ s, lastSession earlier visits = some s ∧ t = s.token ∧ now < s.expiry :=
    fun t ht => hfaithful.of_token hshares hi hholds ht
  cases hsession : lastSession earlier visits with
  | none =>
      rw [hsession] at hgiven
      cases htoken : (w'.token i now).1 with
      | none => rfl
      | some t =>
          obtain ⟨s, hs', -⟩ := hgiven t htoken
          cases hs'
  | some s =>
      rw [hsession] at hgiven hholds hfaithful
      constructor
      · intro hnow
        exact hfaithful.token_eq_some hshares hi hholds hnow
      · intro hend
        cases htoken : (w'.token i now).1 with
        | none => rfl
        | some t =>
            obtain ⟨_, hs', -, hlt⟩ := hgiven t htoken
            cases hs'
            exact absurd hlt (Int.not_lt.mpr hend)

/-- A tab stores a token without claims for a minute and a half second. It is asked for the claims,
which makes it forget the session, and then for the token. -/
def minuteAlone : List (Nat × Instant × Deed) :=
  [(0, ⟨1748779200000000000⟩, .act (.install ⟨"t1"⟩ (some ⟨1748779260500000000⟩))),
    (0, ⟨1748779200000000000⟩, .act .claims),
    (0, ⟨1748779230000000000⟩, .act .token)]

/-- The lone tab gives that token as long as the minute lasts, and none after the half second. -/
theorem token_of_lone_plain : ∃ visits w', Client.plain.tabs.Lone 0 ∧
    Client.plain.tabs.cache 0 = .empty ∧ Client.plain.tabs.Holds (Client.plain.tabs.vault 0) none ∧
      Visits Client.plain.tabs visits w' ∧
        (w'.token 0 ⟨1748779259000000000⟩).1 = some ⟨"t1"⟩ ∧
          (w'.token 0 ⟨1748779261000000000⟩).1 = none := by
  have hpasses : Visits.passes Client.plain.tabs minuteAlone (fun visits _ =>
      decide (lastSession none visits = some ⟨⟨"t1"⟩, ⟨1748779260500000000⟩⟩)) = true := by
    decide +kernel
  obtain ⟨visits, w', hvisits, hlast⟩ := Visits.exists_of_passes hpasses
  have hl : Client.plain.tabs.Lone 0 := by
    refine ⟨⟨rfl, rfl⟩, rfl, fun j hj => ?_⟩
    match j, hj with
    | 0, hj => exact absurd rfl hj
    | j + 1, _ => rfl
  have hnone : Client.plain.tabs.Holds (Client.plain.tabs.vault 0) none :=
    show Client.plain.tabs.keeps _ tokenKey = false from rfl
  have hgives := fun now => Visits.token_of_lone hvisits hl rfl hnone now
  simp only [of_decide_eq_true hlast] at hgives
  refine ⟨visits, w', hl, rfl, hnone, hvisits, ?_, ?_⟩
  · exact (hgives _).1 (by decide)
  · exact (hgives _).2 (by decide)

end ClientSession
