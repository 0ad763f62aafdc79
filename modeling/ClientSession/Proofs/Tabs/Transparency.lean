import ClientSession.Proofs.Tabs.Overdue
import ClientSession.Proofs.Tabs.Faithful
import ClientSession.Proofs.Tabs.Pairing

/-!
# What a tab remembers and what is stored

A tab that is alone with its storage may drop what it remembers, or be closed and opened anew. Two
things in its answers give that away. The end of a session is stored as a whole second, and
remembered as it was given; and remembered claims are given until the session ends, while claims
that are decoded are given until they end themselves.

- `Tabs.answersLike_of_same`: tabs that remember the same of the same vault answer alike.
- `Visits.answersLike_iff_seamless`: when a lone tab does not give itself away.
- `not_answersLike_forget`: a session that is over once the tab has dropped what it remembers.
-/

namespace ClientSession

/-- The claims of a token if they last beyond now. -/
def BearerToken.lastingClaims? (t : BearerToken) (now : Instant) : Option Claims :=
  (Claims.decode t).toOption.filter fun c => !c.isExpiredAt now

/-- The end that is remembered is a whole second, and claims that are remembered do not end before
it. -/
def SessionCache.Seamless (k : SessionCache) (now : Instant) : Prop :=
  ∀ e, k.expiresAt = some e →
    e.startOfSecond = e ∧ (now < e → ∀ c, k.claims = some c → c.isExpiredAt now = false)

theorem Instant.startOfSecond_startOfSecond (t : Instant) :
    t.startOfSecond.startOfSecond = t.startOfSecond := by
  have hfloor : t.startOfSecond.floorSeconds = t.floorSeconds :=
    Int.mul_ediv_cancel _ (by decide)
  rw [startOfSecond, hfloor, ← startOfSecond]

namespace Faithful

variable {s : StoredSession} {k : SessionCache}

theorem token_of_some (hf : Faithful (some s) k) {t : BearerToken} (ht : k.token = some t) :
    t = s.token := by
  obtain ⟨_, hs, rfl⟩ := hf.token t ht
  cases hs
  rfl

/-- An end that is remembered and a whole second is what is stored as the end. -/
theorem end_of_some (hf : Faithful (some s) k) {e : Instant} (he : k.expiresAt = some e)
    (hwhole : e.startOfSecond = e) : e = s.expiry.startOfSecond := by
  obtain ⟨_, hs, heq | heq⟩ := hf.expiry e he
  · cases hs
    rw [← heq, hwhole]
  · cases hs
    exact heq

end Faithful

namespace Tabs

variable {w w' w'' : Tabs} {v : Vault} {i j k : Nat} {now : Instant}

/-- The second tab answers every question as the first one does. -/
structure AnswersLike (w : Tabs) (i : Nat) (w' : Tabs) (j : Nat) (now : Instant) : Prop where
  token : (w'.token j now).1 = (w.token i now).1
  claims : (w'.claims j now).1 = (w.claims i now).1
  userId : (w'.userId j now).1 = (w.userId i now).1
  expiresAt : (w'.expiresAt j).1 = (w.expiresAt i).1
  isExpired : (w'.isExpired j now).1 = (w.isExpired i now).1
  needsRefresh : (w'.needsRefresh j now).1 = (w.needsRefresh i now).1
  hasToken : (w'.hasToken j).1 = (w.hasToken i).1

theorem AnswersLike.symm (h : AnswersLike w i w' j now) : AnswersLike w' j w i now where
  token := h.token.symm
  claims := h.claims.symm
  userId := h.userId.symm
  expiresAt := h.expiresAt.symm
  isExpired := h.isExpired.symm
  needsRefresh := h.needsRefresh.symm
  hasToken := h.hasToken.symm

theorem AnswersLike.trans (h : AnswersLike w i w' j now) (h' : AnswersLike w' j w'' k now) :
    AnswersLike w i w'' k now where
  token := h'.token.trans h.token
  claims := h'.claims.trans h.claims
  userId := h'.userId.trans h.userId
  expiresAt := h'.expiresAt.trans h.expiresAt
  isExpired := h'.isExpired.trans h.isExpired
  needsRefresh := h'.needsRefresh.trans h.needsRefresh
  hasToken := h'.hasToken.trans h.hasToken

/-! ## Answers in terms of what is remembered and stored -/

theorem knownToken_eq (w : Tabs) (i : Nat) :
    (w.knownToken i).1 = (w.cache i).token.or (w.storedToken i).1 := by
  cases hc : (w.cache i).token with
  | some t => simp only [knownToken, hc, Option.some_or]
  | none => simp only [knownToken, hc, Option.none_or]

section Answers

variable (h : w.backend.Healthy)
include h

/-- The token that is remembered and lasts, or else the stored one if that does. -/
theorem token_eq (i : Nat) (now : Instant) :
    (w.token i now).1 = ((w.cache i).liveToken? now).or
      ((w.storedToken i).1.filter fun t => (w.storedEnd? i t).any fun e => decide (now < e)) := by
  cases hlive : (w.cache i).liveToken? now with
  | none => exact token_of_cold h hlive
  | some t => simp only [token, hlive, Option.some_or]

theorem expiresAt_eq (i : Nat) :
    (w.expiresAt i).1 = (w.cache i).expiresAt.or
      ((w.storedExpiry i).1.or ((w.storedToken i).1.bind claimedExpiry?)) := by
  cases hc : (w.cache i).expiresAt with
  | some e => exact expiresAt_of_remembered hc
  | none =>
      cases hs : (w.storedExpiry i).1 with
      | some e => exact expiresAt_of_stored hc hs
      | none => simp only [expiresAt, hc, hs, storedExpiry_state h i, Option.none_or]

/-- The claims that are remembered while the session lasts, or else those of the token. -/
theorem claims_eq (i : Nat) (now : Instant) :
    (w.claims i now).1 = ((w.cache i).liveClaims? now).or
      (if (w.expiresAt i).1.any fun e => decide (e ≤ now) then none
        else (w.knownToken i).1.bind (·.lastingClaims? now)) := by
  have hread := claimsRead h i now
  generalize w.claims i now = r at hread ⊢
  cases hread with
  | remembered hlive => rw [hlive, Option.some_or]
  | past hcold hpast =>
      rw [hcold, Option.none_or]
      rcases hpast with hend | ⟨t, ht, hexpired⟩
      · rw [if_pos hend]
      · have hnone : t.lastingClaims? now = none := by
          rw [BearerToken.lastingClaims?]
          cases hd : Claims.decode t with
          | error e => rfl
          | ok c => simp [Except.toOption, Option.filter, hexpired c hd]
        rw [ht, Option.bind_some, hnone, ite_self]
  | unknown hcold hlasts hnone =>
      rw [hcold, hnone, Option.none_or, Option.bind_none, ite_self]
  | decoded hcold hlasts ht hc hvalid =>
      rw [hcold, ht, hlasts, Option.none_or, Option.bind_some, BearerToken.lastingClaims?, hc]
      simp [Except.toOption, Option.filter, hvalid]

end Answers

/-- Tabs answer alike that remember the same of the same vault. -/
theorem answersLike_of_same (h : w.backend.Healthy) (hb : w'.backend = w.backend)
    (hv : w'.vault j = w.vault i) (hc : w'.cache j = w.cache i)
    (hr : (w'.tab j).refreshBuffer = (w.tab i).refreshBuffer) (now : Instant) :
    AnswersLike w i w' j now := by
  have h' : w'.backend.Healthy := hb ▸ h
  have hread : ∀ key, (w'.readKey j key).1 = (w.readKey i key).1 := by
    intro key
    rw [readKey_of_healthy h, readKey_of_healthy h', hb, hv]
  have htoken : (w'.storedToken j).1 = (w.storedToken i).1 :=
    congrArg (·.map BearerToken.mk) (hread tokenKey)
  have hexpiry : (w'.storedExpiry j).1 = (w.storedExpiry i).1 :=
    congrArg (·.bind instant?) (hread expiryKey)
  have hends : (w'.expiresAt j).1 = (w.expiresAt i).1 := by
    rw [expiresAt_eq h, expiresAt_eq h', hc, hexpiry, htoken]
  have hclaims : (w'.claims j now).1 = (w.claims i now).1 := by
    rw [claims_eq h, claims_eq h', knownToken_eq, knownToken_eq, hc, hends, htoken]
  constructor
  · rw [token_eq h, token_eq h', hc, htoken]
    simp only [storedEnd?, hexpiry]
  · exact hclaims
  · rw [userId, userId, hclaims]
  · exact hends
  · simp only [isExpired, hends]
  · simp only [needsRefresh, hends, hr]
  · rw [hasToken_eq h, hasToken_eq h', hc, stores, stores, hb, hv]

/-! ## Tabs that were closed and opened anew -/

/-- The tab is closed, and one is opened over the same vault. -/
def reopened (w : Tabs) (i : Nat) : Tabs :=
  (w.closeTab i).openTab (.opened (w.vault i) (w.tab i).refreshBuffer)

theorem tab?_reopened (w : Tabs) (i : Nat) :
    (w.reopened i).tab? w.slots.length =
      some (.opened (w.vault i) (w.tab i).refreshBuffer) := by
  simp [reopened, openTab, closeTab, listen, tab?]

/-- A tab that has dropped what it remembered answers like one that has been opened anew. -/
theorem answersLike_reopened (h : w.backend.Healthy) (i : Nat) (now : Instant) :
    AnswersLike (w.forget i) i (w.reopened i) w.slots.length now := by
  have htab : (w.reopened i).tab w.slots.length = .opened (w.vault i) (w.tab i).refreshBuffer := by
    rw [tab, tab?_reopened]
    rfl
  have hbare : ∀ j, (w.forget i).bare? j = w.bare? j := fun j => bare?_setCache w i j .empty
  have hforgotten : (w.forget i).backend.Healthy := h
  have hb : (w.reopened i).backend = (w.forget i).backend := rfl
  refine answersLike_of_same hforgotten hb ?_ ?_ ?_ now
  · rw [vault, htab, vault_congr hbare]
    rfl
  · rw [cache, htab, cache_forget]
    rfl
  · rw [htab]
    simp only [Tab.opened, tab, forget, setCache, tab?_modifyTab, if_pos]
    cases w.tab? i <;> rfl

/-! ## The answers of a tab of which a session is stored -/

section Stored

variable {s : StoredSession} (hr : w.Records v s) (hw : w.Shares v) (hi : (w.tab? i).isSome)
include hr hw hi

theorem Records.token_eq (now : Instant) :
    (w.token i now).1 = ((w.cache i).liveToken? now).or
      (if now < s.expiry.startOfSecond then some s.token else none) := by
  rw [Tabs.token_eq hw.healthy, hr.storedToken hw hi]
  simp only [Option.filter, hr.storedEnd? hw hi, Option.any_some, decide_eq_true_eq]

theorem Records.expiresAt_eq :
    (w.expiresAt i).1 = some ((w.cache i).expiresAt.getD s.expiry.startOfSecond) := by
  rw [Tabs.expiresAt_eq hw.healthy, hr.storedExpiry hw hi, Option.some_or]
  cases (w.cache i).expiresAt <;> rfl

theorem Records.hasToken_eq : (w.hasToken i).1 = true := by
  have hstored : w.stores i tokenKey = true := by
    rw [hw.stores_eq hi, keeps, hr.token, Option.isSome_some]
  rw [Tabs.hasToken_eq hw.healthy, hstored, Bool.or_true]

/-- Of a tab that remembers only what is stored. -/
theorem Records.claims_eq (hf : Faithful (some s) (w.cache i)) (now : Instant) :
    (w.claims i now).1 = ((w.cache i).liveClaims? now).or
      (if now < (w.cache i).expiresAt.getD s.expiry.startOfSecond then
        s.token.lastingClaims? now else none) := by
  have hknown : (w.knownToken i).1 = some s.token := by
    rw [knownToken_eq, hr.storedToken hw hi]
    cases hc : (w.cache i).token with
    | none => rfl
    | some t => rw [hf.token_of_some hc, Option.some_or]
  rw [Tabs.claims_eq hw.healthy, hknown, hr.expiresAt_eq hw hi, Option.bind_some]
  generalize (w.cache i).expiresAt.getD s.expiry.startOfSecond = e
  congr 1
  by_cases hlt : now < e
  · have hle : ¬e ≤ now := Int.not_le.mpr hlt
    simp [hlt, hle]
  · have hle : e ≤ now := Int.not_lt.mp hlt
    simp [hlt, hle]

end Stored

section Forgotten

variable {s : StoredSession}

/-- The answers of a tab that has dropped what it remembered of a session that is stored. -/
structure AnswersAfter (s : StoredSession) (w : Tabs) (i : Nat) (now : Instant) : Prop where
  token : (w.token i now).1 = if now < s.expiry.startOfSecond then some s.token else none
  claims : (w.claims i now).1 =
    if now < s.expiry.startOfSecond then s.token.lastingClaims? now else none
  expiresAt : (w.expiresAt i).1 = some s.expiry.startOfSecond
  hasToken : (w.hasToken i).1 = true

theorem Records.answersAfter_forget (hr : w.Records v s) (hw : w.Shares v)
    (hi : (w.tab? i).isSome) : AnswersAfter s (w.forget i) i now := by
  have hr' : (w.forget i).Records v s := ⟨hr.usable, hr.dated, hr.token, hr.expiry⟩
  have hw' : (w.forget i).Shares v := hw.setCache i .empty
  have hi' : ((w.forget i).tab? i).isSome :=
    (isSome_tab?_congr (fun j => bare?_setCache w i j .empty) i).trans hi
  have hf : Faithful (some s) ((w.forget i).cache i) := by
    rw [cache_forget]
    exact .empty _
  constructor
  · rw [hr'.token_eq hw' hi', cache_forget]
    rfl
  · rw [hr'.claims_eq hw' hi' hf, cache_forget]
    rfl
  · rw [hr'.expiresAt_eq hw' hi', cache_forget]
    rfl
  · exact hr'.hasToken_eq hw' hi'

end Forgotten

theorem refreshBuffer_forget (w : Tabs) (i : Nat) :
    ((w.forget i).tab i).refreshBuffer = (w.tab i).refreshBuffer := by
  simp only [tab, forget, setCache, tab?_modifyTab, if_pos]
  cases w.tab? i <;> rfl

theorem claims_of_liveClaims? {k : SessionCache} {c : Claims}
    (h : k.liveClaims? now = some c) : k.isLive now = true ∧ k.claims = some c := by
  rw [SessionCache.liveClaims?] at h
  split at h
  · rename_i hlive
    exact ⟨hlive, h⟩
  · cases h

section Dropping

variable {s : StoredSession} (hr : w.Records v s) (hw : w.Shares v) (hi : (w.tab? i).isSome)
  (hf : Faithful (some s) (w.cache i))
include hr hw hi hf

/-- The end gives the tab away, and so do the claims. -/
theorem Records.seamless_of_answersLike (hl : AnswersLike w i (w.forget i) i now) :
    (w.cache i).Seamless now := by
  have hafter : AnswersAfter s (w.forget i) i now := hr.answersAfter_forget hw hi
  intro e he
  have hstored : s.expiry.startOfSecond = e := by
    have hsame := hl.expiresAt
    rw [hafter.expiresAt, hr.expiresAt_eq hw hi, he] at hsame
    exact Option.some.inj hsame
  refine ⟨?_, fun hlt c hc => ?_⟩
  · rw [← hstored, Instant.startOfSecond_startOfSecond]
  · have hlive : (w.cache i).liveClaims? now = some c :=
      (if_pos (isLive_iff.mpr ⟨e, he, hlt⟩)).trans hc
    have hsame := hl.claims
    rw [hafter.claims, hr.claims_eq hw hi hf, hlive, hstored, if_pos hlt, Option.some_or] at hsame
    simpa using (Option.filter_eq_some_iff.mp hsame).2

/-- Nothing else does. -/
theorem Records.answersLike_of_seamless (hb : (w.cache i).Belongs)
    (hs : (w.cache i).Seamless now) : AnswersLike w i (w.forget i) i now := by
  have hafter : AnswersAfter s (w.forget i) i now := hr.answersAfter_forget hw hi
  have hend : ∀ e, (w.cache i).expiresAt = some e → e = s.expiry.startOfSecond :=
    fun e he => hf.end_of_some he (hs e he).1
  have hgetD : (w.cache i).expiresAt.getD s.expiry.startOfSecond = s.expiry.startOfSecond := by
    cases he : (w.cache i).expiresAt with
    | none => rfl
    | some e => exact hend e he
  have hlasts : (w.cache i).isLive now = true → now < s.expiry.startOfSecond := by
    intro hlive
    obtain ⟨e, he, hlt⟩ := isLive_iff.mp hlive
    exact hend e he ▸ hlt
  have hsameEnds : ((w.forget i).expiresAt i).1 = (w.expiresAt i).1 := by
    rw [hafter.expiresAt, hr.expiresAt_eq hw hi, hgetD]
  have hsameClaims : ((w.forget i).claims i now).1 = (w.claims i now).1 := by
    rw [hafter.claims, hr.claims_eq hw hi hf, hgetD]
    cases hlive : (w.cache i).liveClaims? now with
    | none => rw [Option.none_or]
    | some c =>
        obtain ⟨hl, hc⟩ := claims_of_liveClaims? hlive
        obtain ⟨e, he, hlt⟩ := isLive_iff.mp hl
        obtain ⟨t, ht, hdecode⟩ := hb c hc
        obtain rfl := hf.token_of_some ht
        rw [if_pos (hlasts hl), Option.some_or, BearerToken.lastingClaims?, hdecode]
        simp [Except.toOption, Option.filter, (hs e he).2 hlt c hc]
  constructor
  · rw [hafter.token, hr.token_eq hw hi]
    cases hlive : (w.cache i).liveToken? now with
    | none => rw [Option.none_or]
    | some t =>
        obtain ⟨hl, ht⟩ := isLive_of_liveToken? hlive
        rw [if_pos (hlasts hl), Option.some_or, hf.token_of_some ht]
  · exact hsameClaims
  · rw [userId, userId, hsameClaims]
  · exact hsameEnds
  · simp only [isExpired, hsameEnds]
  · simp only [needsRefresh, hsameEnds, refreshBuffer_forget]
  · rw [hafter.hasToken, hr.hasToken_eq hw hi]

/-- A tab that remembers only what is stored is not found out to have dropped it if and only if the
end that it remembers is a whole second, and its claims do not end before. -/
theorem Records.answersLike_forget_iff (hb : (w.cache i).Belongs) :
    AnswersLike w i (w.forget i) i now ↔ (w.cache i).Seamless now :=
  ⟨hr.seamless_of_answersLike hw hi hf, hr.answersLike_of_seamless hw hi hf hb⟩

end Dropping

/-- Where nothing is remembered nothing is dropped. -/
theorem answersLike_forget_of_empty (h : w.backend.Healthy) (hc : w.cache i = .empty) :
    AnswersLike w i (w.forget i) i now := by
  have hb : (w.forget i).backend = w.backend := rfl
  have hv : (w.forget i).vault i = w.vault i :=
    vault_congr (fun j => bare?_setCache w i j .empty) i
  have hsame : (w.forget i).cache i = w.cache i := (cache_forget w i).trans hc.symm
  exact answersLike_of_same h hb hv hsame (refreshBuffer_forget w i) now

end Tabs

open Tabs

theorem Faithful.eq_empty {k : SessionCache} (hf : Faithful none k) (hb : k.Belongs) :
    k = .empty := by
  obtain ⟨token, expiresAt, claims⟩ := k
  have htoken : token = none := by
    cases token with
    | none => rfl
    | some t =>
        obtain ⟨_, hs, -⟩ := hf.token t rfl
        cases hs
  have hexpiry : expiresAt = none := by
    cases expiresAt with
    | none => rfl
    | some e =>
        obtain ⟨_, hs, -⟩ := hf.expiry e rfl
        cases hs
  have hclaims : claims = none := by
    cases claims with
    | none => rfl
    | some c =>
        obtain ⟨t, ht, -⟩ := hb c rfl
        rw [htoken] at ht
        cases ht
  rw [htoken, hexpiry, hclaims, SessionCache.empty]

/-- A tab that is alone is not overtaken: the claims that it remembers are of the stored token. -/
theorem Faithful.not_overtaken {w : Tabs} {v : Vault} {i : Nat} {now : Instant}
    {s : Option StoredSession} (hf : Faithful s (w.cache i)) (hb : (w.cache i).Belongs)
    (hw : w.Shares v) (hi : (w.tab? i).isSome) (hs : w.Holds v s) : ¬w.Overtaken i now := by
  rintro ⟨-, t, e, c, hstored, -, -, hc, hne⟩
  obtain ⟨s', rfl, hr, rfl⟩ := of_storedToken hw hi hs hstored
  obtain ⟨t, ht, hdecode⟩ := hb c hc
  obtain rfl := hf.token_of_some ht
  exact hne hdecode

/-- What is so of a lone tab after any visits: it remembers only what is stored, with its claims. -/
theorem Visits.lone {w w' : Tabs} {i : Nat} {visits : List Visit}
    {earlier : Option StoredSession} (h : Visits w visits w') (hl : w.Lone i)
    (hempty : w.cache i = .empty) (hs : w.Holds (w.vault i) earlier) :
    w'.Shares (w.vault i) ∧ (w'.tab? i).isSome ∧
      w'.Holds (w.vault i) (lastSession earlier visits) ∧
        Faithful (lastSession earlier visits) (w'.cache i) ∧ (w'.cache i).Belongs := by
  let A (visits : List Visit) (u : Tabs) : Prop :=
    (∀ j, (u.tab? j).isSome ↔ j = i) ∧ u.Holds (w.vault i) (lastSession earlier visits) ∧
      Faithful (lastSession earlier visits) (u.cache i) ∧ (u.cache i).Belongs
  have hstart : A [] w := by
    refine ⟨fun j => ⟨fun hj => ?_, fun hj => hj ▸ hl.here⟩, hs, ?_, ?_⟩
    · by_contra hji
      rw [hl.alone j hji] at hj
      cases hj
    · rw [hempty]
      exact .empty _
    · rw [hempty]
      exact SessionCache.belongs_empty
  obtain ⟨hshares, hopen, hholds, hfaithful, hbelongs⟩ := h.invariant (A := A) hl.shares hstart (by
    rintro visits x u hw hi hleaves ⟨hopen, hholds, hfaithful, hbelongs⟩
    obtain rfl : x.tab = i := (hopen x.tab).mp hi
    have halone : ∀ j, (x.found.cache j).Belongs := by
      intro j
      by_cases hj : j = x.tab
      · rw [hj]
        exact hbelongs
      · rw [cache_of_tab?_none]
        · exact SessionCache.belongs_empty
        · rw [← Option.not_isSome_iff_eq_none, hopen]
          exact hj
    have hover : ¬x.found.Overtaken x.tab x.now := hfaithful.not_overtaken hbelongs hw hi hholds
    refine ⟨fun j => ?_, ?_, ?_, ?_⟩
    · rw [hleaves.isSome_tab?]
      exact hopen j
    · rw [lastSession_snoc]
      exact hleaves.holds hholds
    · rw [lastSession_snoc]
      exact hfaithful.leaves hw hi hholds hleaves
    · exact SessionCache.Belongs.leaves halone hi hleaves (fun _ => hover) x.tab)
  exact ⟨hshares, (hopen i).mpr rfl, hholds, hfaithful, hbelongs⟩

/-- Whether a lone tab drops what it remembers, or is closed and opened anew: no answer changes if
and only if the end that it remembers is a whole second, and the claims that it remembers do not end
before. -/
theorem Visits.answersLike_iff_seamless {w w' : Tabs} {i : Nat} {visits : List Visit}
    {earlier : Option StoredSession} (h : Visits w visits w') (hl : w.Lone i)
    (hempty : w.cache i = .empty) (hs : w.Holds (w.vault i) earlier) (now : Instant) :
    (w'.AnswersLike i (w'.forget i) i now ↔ (w'.cache i).Seamless now) ∧
      (w'.AnswersLike i (w'.reopened i) w'.slots.length now ↔ (w'.cache i).Seamless now) := by
  obtain ⟨hshares, hi, hholds, hfaithful, hbelongs⟩ := h.lone hl hempty hs
  have hforget : w'.AnswersLike i (w'.forget i) i now ↔ (w'.cache i).Seamless now := by
    cases hsession : lastSession earlier visits with
    | none =>
        rw [hsession] at hfaithful
        have hcache := hfaithful.eq_empty hbelongs
        refine iff_of_true (answersLike_forget_of_empty hshares.healthy hcache) ?_
        rw [hcache]
        exact nofun
    | some s =>
        rw [hsession] at hfaithful hholds
        have hr : w'.Records (w.vault i) s := hholds
        exact hr.answersLike_forget_iff hshares hi hfaithful hbelongs
  have hreopened := answersLike_reopened hshares.healthy i now
  refine ⟨hforget, ?_⟩
  rw [← hforget]
  exact ⟨fun ha => ha.trans hreopened.symm, fun ha => ha.trans hreopened⟩

theorem lone_plain : Client.plain.tabs.Lone 0 := by
  refine ⟨⟨rfl, rfl⟩, rfl, fun j hj => ?_⟩
  match j, hj with
  | 0, hj => exact absurd rfl hj
  | j + 1, _ => rfl

theorem holds_plain : Client.plain.tabs.Holds (Client.plain.tabs.vault 0) none :=
  show Client.plain.tabs.keeps _ tokenKey = false from rfl

/-- A lone tab that has stored the token of the first user until its claims end never gives itself
away. -/
theorem answersLike_iff_seamless_plain : ∃ (visits : List Visit) (w' : Tabs),
    Visits Client.plain.tabs visits w' ∧ Client.plain.tabs.Lone 0 ∧
      Client.plain.tabs.cache 0 = .empty ∧
        Client.plain.tabs.Holds (Client.plain.tabs.vault 0) none ∧
          (w'.cache 0).claims.isSome ∧ ∀ now,
            w'.AnswersLike 0 (w'.forget 0) 0 now ∧
              w'.AnswersLike 0 (w'.reopened 0) w'.slots.length now := by
  let ends : Instant := ⟨1748782800000000000⟩
  have hpasses : Visits.passes Client.plain.tabs
      [(0, ⟨1748779200000000000⟩, .act (.install firstUser (some ends)))] (fun _ w' =>
        decide ((w'.cache 0).expiresAt = some ends ∧
          (w'.cache 0).claims.map (·.expiry) = some 1748782800)) = true := by
    decide +kernel
  obtain ⟨visits, w', hvisits, htest⟩ := Visits.exists_of_passes hpasses
  obtain ⟨hends, hexpiry⟩ := of_decide_eq_true htest
  obtain ⟨c, hc, hlast⟩ := Option.map_eq_some_iff.mp hexpiry
  have hseamless : ∀ now, (w'.cache 0).Seamless now := by
    intro now e he
    rw [hends] at he
    obtain rfl := Option.some.inj he
    refine ⟨by decide, fun hlt c' hc' => ?_⟩
    rw [hc] at hc'
    obtain rfl := Option.some.inj hc'
    have hfloor : now.floorSeconds < 1748782800 := Int.ediv_lt_of_lt_mul (by decide) hlt
    rw [Claims.isExpiredAt, hlast]
    exact decide_eq_false (Int.not_le.mpr hfloor)
  refine ⟨visits, w', hvisits, lone_plain, rfl, holds_plain, ?_, fun now => ?_⟩
  · rw [hc]
    rfl
  · have hiff := Visits.answersLike_iff_seamless hvisits lone_plain rfl holds_plain now
    exact ⟨hiff.1.mpr (hseamless now), hiff.2.mpr (hseamless now)⟩

/-- A lone tab stores a token without claims until half a second past the minute. -/
def pastMinute : List (Nat × Instant × Deed) :=
  [(0, ⟨1748779200000000000⟩, .act (.install ⟨"t1"⟩ (some ⟨1748779260500000000⟩)))]

/-- In the last half second the token is given no longer once the tab has dropped what it
remembered. -/
theorem not_answersLike_forget : ¬∀ (w w' : Tabs) (i : Nat) (visits : List Visit), w.Lone i →
    w.cache i = .empty → w.Holds (w.vault i) none → Visits w visits w' →
      ∀ now, (∀ x ∈ visits, x.now ≤ now) → w'.AnswersLike i (w'.forget i) i now := by
  intro hclaim
  let now : Instant := ⟨1748779260200000000⟩
  have hpasses : Visits.passes Client.plain.tabs pastMinute (fun visits w' =>
      decide ((∀ x ∈ visits, x.now ≤ now) ∧
        ((w'.forget 0).token 0 now).1 ≠ (w'.token 0 now).1)) = true := by
    decide +kernel
  obtain ⟨visits, w', hvisits, htest⟩ := Visits.exists_of_passes hpasses
  obtain ⟨hclock, hne⟩ := of_decide_eq_true htest
  exact hne (hclaim _ w' 0 visits lone_plain rfl holds_plain hvisits now hclock).token

end ClientSession
