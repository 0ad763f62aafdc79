import ClientSession.Proofs.Client.Sharing
import ClientSession.Proofs.Tabs.Visits

/-!
# Tokens and their claims

A tab remembers the claims of the token that it remembers, but for one case: asked for the token
when its session has ended, it finds the one that is stored now and goes on remembering the claims
that it did. Where another tab has stored that token these are the claims of another session.

- `Visits.paired_iff`: the claims are those of the token at every read if and only if no tab is
  overtaken at one.
- `not_paired`: a run of two tabs in which one is.
-/

namespace ClientSession

open Tabs

/-- The claims that are remembered are those of the token that is. -/
def SessionCache.Belongs (k : SessionCache) : Prop :=
  ∀ c, k.claims = some c → ∃ t, k.token = some t ∧ Claims.decode t = .ok c

namespace Tabs

variable {w : Tabs} {i : Nat} {now : Instant}

/-- If a token is given and claims are given next, they are its claims and the user is its subject.
-/
def Paired (w : Tabs) (i : Nat) (now : Instant) : Prop :=
  ∀ t c, (w.token i now).1 = some t → ((w.token i now).2.claims i now).1 = some c →
    Claims.decode t = .ok c ∧
      (((w.token i now).2.claims i now).2.userId i now).1 = some c.subject

/-- The session that the tab remembers has ended, and a token is stored that lasts and that the
remembered claims are not those of. -/
def Overtaken (w : Tabs) (i : Nat) (now : Instant) : Prop :=
  (w.cache i).isLive now = false ∧ ∃ t e c, (w.storedToken i).1 = some t ∧
    w.storedEnd? i t = some e ∧ now < e ∧ (w.cache i).claims = some c ∧ Claims.decode t ≠ .ok c

theorem isLive_iff {k : SessionCache} :
    k.isLive now = true ↔ ∃ e, k.expiresAt = some e ∧ now < e := by
  rw [SessionCache.isLive]
  cases k.expiresAt with
  | none => simp
  | some e => simp

theorem isLive_of_liveToken? {k : SessionCache} {t : BearerToken}
    (h : k.liveToken? now = some t) : k.isLive now = true ∧ k.token = some t := by
  rw [SessionCache.liveToken?] at h
  split at h
  · rename_i hlive
    exact ⟨hlive, h⟩
  · cases h

theorem claims_of_remembered {c : Claims} (hlive : (w.cache i).isLive now = true)
    (hc : (w.cache i).claims = some c) : w.claims i now = (some c, w) := by
  have hremembered : (w.cache i).liveClaims? now = some c := (if_pos hlive).trans hc
  simp only [Tabs.claims, hremembered]

/-- Once a token was given the tab remembers it, and that it lasts; its claims it remembers only if
it did before. -/
theorem remembers_of_token (h : w.backend.Healthy) (hi : (w.tab? i).isSome) {t : BearerToken}
    (ht : (w.token i now).1 = some t) :
    (w.token i now).2.backend = w.backend ∧ ((w.token i now).2.tab? i).isSome ∧
      ((w.token i now).2.cache i).isLive now = true ∧
        ((w.token i now).2.cache i).token = some t ∧
          ((w.token i now).2.cache i).claims = (w.cache i).claims := by
  have hread := tokenRead h i now
  generalize w.token i now = r at hread ht ⊢
  cases hread with
  | remembered hlive =>
      obtain rfl := Option.some.inj ht
      obtain ⟨hl, htoken⟩ := isLive_of_liveToken? hlive
      exact ⟨rfl, hi, hl, htoken, rfl⟩
  | past hcold hpast => cases ht
  | found hcold hstored he hlt =>
      obtain rfl := Option.some.inj ht
      refine ⟨rfl, ?_, ?_⟩
      · rw [isSome_tab?_congr fun j => bare?_setCache w i j _]
        exact hi
      · rw [cache_setCache_self hi]
        exact ⟨isLive_iff.mpr ⟨_, rfl, hlt⟩, rfl, rfl⟩

/-- Where a token is remembered that lasts, its claims are given or those that are remembered, and
the user is the subject of what is given. -/
theorem claims_of_isLive (h : w.backend.Healthy) (hi : (w.tab? i).isSome) {t : BearerToken}
    (hlive : (w.cache i).isLive now = true) (ht : (w.cache i).token = some t) {c : Claims}
    (hc : (w.claims i now).1 = some c) :
    ((w.cache i).claims = some c ∨ Claims.decode t = .ok c) ∧
      ((w.claims i now).2.userId i now).1 = some c.subject := by
  have hread := claimsRead h i now
  generalize w.claims i now = r at hread hc ⊢
  cases hread with
  | remembered hremembered =>
      obtain rfl := Option.some.inj hc
      have hclaims := (if_pos hlive).symm.trans hremembered
      refine ⟨.inl hclaims, ?_⟩
      simp [userId, claims_of_remembered hlive hclaims]
  | past hcold hpast => cases hc
  | unknown hcold hlasts hnone => cases hc
  | @decoded t' c' hcold hlasts hknown hdecode hvalid =>
      obtain rfl := Option.some.inj hc
      have htoken : t' = t := by
        simp only [knownToken, ht] at hknown
        exact (Option.some.inj hknown).symm
      obtain ⟨e, he, hlt⟩ := isLive_iff.mp hlive
      refine ⟨.inr (htoken ▸ hdecode), ?_⟩
      rw [expiresAt_of_remembered he]
      generalize hk : SessionCache.mk (some t') ((some e).or c'.expiresAt.toOption) (some c') = k
      have hcache : (w.setCache i k).cache i = k := cache_setCache_self hi k
      have hagain : (w.setCache i k).claims i now = (some c', w.setCache i k) := by
        refine claims_of_remembered ?_ ?_
        · rw [hcache, ← hk]
          exact isLive_iff.mpr ⟨e, rfl, hlt⟩
        · rw [hcache, ← hk]
      simp [userId, hagain]

/-- A session whose token is not given from memory has ended, as far as the tab remembers. -/
theorem isLive_eq_false_of_belongs (hb : (w.cache i).Belongs) {c : Claims}
    (hc : (w.cache i).claims = some c) (hcold : (w.cache i).liveToken? now = none) :
    (w.cache i).isLive now = false := by
  obtain ⟨t, ht, -⟩ := hb c hc
  by_contra hlive
  rw [SessionCache.liveToken?, if_pos (by simpa using hlive), ht] at hcold
  cases hcold

/-- A tab whose claims are those of its token gives the claims of the token unless it is overtaken.
-/
theorem paired_iff_of_belongs (h : w.backend.Healthy) (hi : (w.tab? i).isSome)
    (hb : (w.cache i).Belongs) : w.Paired i now ↔ ¬w.Overtaken i now := by
  constructor
  · rintro hp ⟨hended, t, e, c, hstored, hend, hlt, hc, hne⟩
    have ht : (w.token i now).1 = some t := by
      have hread := tokenRead h i now
      generalize w.token i now = r at hread ⊢
      cases hread with
      | remembered hlive =>
          rw [(isLive_of_liveToken? hlive).1] at hended
          cases hended
      | past hcold hpast => exact absurd hlt (Int.not_lt.mpr (hpast t e hstored hend))
      | found hcold hstored' he' hlt' => exact hstored'.symm.trans hstored
    obtain ⟨hbackend, hopen, hlive, htoken, hsame⟩ := remembers_of_token h hi ht
    have hgiven := claims_of_remembered hlive (hsame.trans hc)
    exact hne (hp t c ht (by rw [hgiven])).1
  · intro ho t c ht hc
    obtain ⟨hbackend, hopen, hlive, htoken, hsame⟩ := remembers_of_token h hi ht
    obtain ⟨hgiven, huser⟩ := claims_of_isLive (hbackend ▸ h) hopen hlive htoken hc
    refine ⟨?_, huser⟩
    rcases hgiven with hremembered | hdecode
    · rw [hsame] at hremembered
      have hread := tokenRead h i now
      generalize w.token i now = r at hread ht
      cases hread with
      | remembered hlive' =>
          obtain rfl := Option.some.inj ht
          obtain ⟨t', ht', hdecode⟩ := hb c hremembered
          rw [(isLive_of_liveToken? hlive').2] at ht'
          obtain rfl := Option.some.inj ht'
          exact hdecode
      | past hcold hpast => cases ht
      | found hcold hstored hend hlt =>
          obtain rfl := Option.some.inj ht
          by_contra hne
          have hended := isLive_eq_false_of_belongs hb hremembered hcold
          exact ho ⟨hended, _, _, c, hstored, hend, hlt, hremembered, hne⟩
    · exact hdecode

end Tabs

/-! ## Any number of visits -/

namespace SessionCache

variable {v : Vault} {x : Visit} {w : Tabs}

theorem belongs_empty : SessionCache.empty.Belongs := nofun

/-- A visit at which the tab is not overtaken leaves every tab with the claims of its token. -/
theorem Belongs.leaves (hb : ∀ j, (x.found.cache j).Belongs)
    (hi : (x.found.tab? x.tab).isSome) (h : x.Leaves v w)
    (ho : x.deed.asksToken = true → ¬x.found.Overtaken x.tab x.now) (j : Nat) :
    (w.cache j).Belongs := by
  have hread : ∀ k : SessionCache, k.Belongs → ((x.found.setCache x.tab k).cache j).Belongs := by
    intro k hk
    by_cases hj : j = x.tab
    · rw [hj, cache_setCache_self hi]
      exact hk
    · rw [cache_setCache_of_ne hj]
      exact hb j
  cases h with
  | same hstored h =>
      rw [h.cache]
      exact hb j
  | forgets hstored => exact hread _ belongs_empty
  | @finds t e hstored hask hcold ht he hlt =>
      -- The claims that stay are those of the token that was found, as the tab is not overtaken.
      refine hread _ fun c hc => ⟨t, rfl, ?_⟩
      by_contra hne
      have hended := isLive_eq_false_of_belongs (hb x.tab) hc hcold
      exact ho hask ⟨hended, t, e, c, ht, he, hlt, hc, hne⟩
  | @decodes t c hstored ht hc =>
      refine hread _ fun c' hc' => ⟨t, rfl, ?_⟩
      obtain rfl := Option.some.inj hc'
      exact hc
  | clears hstored h =>
      rcases h.erodes.cache j with he | he
      · rw [he]
        exact belongs_empty
      · rw [he]
        exact hb j
  | @stores t e _ hstored ht he h =>
      by_cases hj : j = x.tab
      · rw [hj, h.cache_self]
        intro c hc
        refine ⟨t, rfl, ?_⟩
        cases hdecode : Claims.decode t with
        | error err =>
            rw [hdecode] at hc
            cases hc
        | ok c' =>
            rw [hdecode] at hc
            exact congrArg Except.ok (Option.some.inj hc)
      · rw [h.cache_other j hj]
        exact hb j

end SessionCache

/-- Of tabs that remember nothing at first: whenever one gives a token, the claims that it gives
next are those of the token, if and only if no tab is overtaken when it is asked for a token. -/
theorem Visits.paired_iff {v : Vault} {w w' : Tabs} {visits : List Visit}
    (h : Visits w visits w') (hw : w.Shares v) (hempty : ∀ j, w.cache j = .empty) :
    (∀ x ∈ visits, x.deed.asksToken = true → x.found.Paired x.tab x.now) ↔
      ∀ x ∈ visits, x.deed.asksToken = true → ¬x.found.Overtaken x.tab x.now := by
  -- As long as either side holds of what was, every tab remembers the claims of its token.
  let Right (visits : List Visit) : Prop :=
    ∀ x ∈ visits, x.deed.asksToken = true → x.found.Paired x.tab x.now
  let Unspoilt (visits : List Visit) : Prop :=
    ∀ x ∈ visits, x.deed.asksToken = true → ¬x.found.Overtaken x.tab x.now
  let A (visits : List Visit) (u : Tabs) : Prop :=
    (Right visits ↔ Unspoilt visits) ∧ (Unspoilt visits → ∀ j, (u.cache j).Belongs)
  have hstart : A [] w := by
    refine ⟨by simp [Right, Unspoilt], fun _ j => ?_⟩
    rw [hempty]
    exact SessionCache.belongs_empty
  refine (h.invariant (A := A) hw hstart ?_).2.1
  rintro visits x u hshares hi hleaves ⟨hiff, hbelongs⟩
  have hx : Unspoilt visits → (x.found.Paired x.tab x.now ↔ ¬x.found.Overtaken x.tab x.now) :=
    fun hu => paired_iff_of_belongs hshares.healthy hi (hbelongs hu x.tab)
  have hright : Right (visits ++ [x]) ↔
      Right visits ∧ (x.deed.asksToken = true → x.found.Paired x.tab x.now) := by
    simp only [Right, List.forall_mem_append, List.forall_mem_singleton]
  have hunspoilt : Unspoilt (visits ++ [x]) ↔
      Unspoilt visits ∧ (x.deed.asksToken = true → ¬x.found.Overtaken x.tab x.now) := by
    simp only [Unspoilt, List.forall_mem_append, List.forall_mem_singleton]
  constructor
  · rw [hright, hunspoilt, hiff]
    constructor
    · rintro ⟨hu, hp⟩
      exact ⟨hu, fun hask => (hx hu).mp (hp hask)⟩
    · rintro ⟨hu, ho⟩
      exact ⟨hu, fun hask => (hx hu).mpr (ho hask)⟩
  · intro hall j
    obtain ⟨hu, ho⟩ := hunspoilt.mp hall
    exact SessionCache.Belongs.leaves (hbelongs hu) hi hleaves ho j

/-- Tokens of two users, for an hour. -/
def firstUser : BearerToken := ⟨"e30.eyJzdWIiOiJ1MSIsImV4cCI6MTc0ODc4MjgwMH0.s"⟩
def secondUser : BearerToken := ⟨"e30.eyJzdWIiOiJ1MiIsImV4cCI6MTc0ODc4MjgwMH0.s"⟩

/-- The first tab stores a token for a minute, and the second one another token for an hour. What
happens next is at the end of the minute. -/
def secondSignIn (next : Deed) : List (Nat × Instant × Deed) :=
  [(0, ⟨1748779200000000000⟩, .act (.install firstUser (some ⟨1748779260000000000⟩))),
    (1, ⟨1748779230000000000⟩, .act (.install secondUser (some ⟨1748782800000000000⟩))),
    (0, ⟨1748779260000000000⟩, next),
    (0, ⟨1748779260000000000⟩, .act .token)]

/-- A tab that has forgotten its session is not overtaken. -/
theorem paired_iff_plainPair : ∃ visits w',
    Client.plainPair.tabs.Shares ⟨Config.defaultNamespace, ⟨"", "", "", ""⟩⟩ ∧
      (∀ j, Client.plainPair.tabs.cache j = .empty) ∧ Visits Client.plainPair.tabs visits w' ∧
        (∃ x ∈ visits, x.deed.asksToken = true) ∧
          ((∀ x ∈ visits, x.deed.asksToken = true → x.found.Paired x.tab x.now) ↔
            ∀ x ∈ visits, x.deed.asksToken = true → ¬x.found.Overtaken x.tab x.now) := by
  have hpasses : Visits.passes Client.plainPair.tabs (secondSignIn (.act .forget))
      (fun visits _ => visits.any fun x => x.deed.asksToken) = true := by
    decide +kernel
  obtain ⟨visits, w', hvisits, hasks⟩ := Visits.exists_of_passes hpasses
  have hshares := Client.sharing_plainPair.shares
  exact ⟨visits, w', hshares, Client.cache_plainPair, hvisits, List.any_eq_true.mp hasks,
    hvisits.paired_iff hshares Client.cache_plainPair⟩

/-- The token is asked for, and the claims that are given next have another subject. -/
def Visit.confuses (x : Visit) : Bool :=
  x.deed.asksToken && (x.found.token x.tab x.now).1.any fun t =>
    ((x.found.token x.tab x.now).2.claims x.tab x.now).1.any fun c =>
      decide ((Claims.decode t).toOption.map (·.subject) ≠ some c.subject)

theorem Visit.not_paired_of_confuses {x : Visit} (h : x.confuses = true) :
    x.deed.asksToken = true ∧ ¬x.found.Paired x.tab x.now := by
  rw [confuses, Bool.and_eq_true] at h
  obtain ⟨hasks, hany⟩ := h
  obtain ⟨t, ht, hclaims⟩ := (Option.any_eq_true _ _).mp hany
  obtain ⟨c, hc, hne⟩ := (Option.any_eq_true _ _).mp hclaims
  refine ⟨hasks, fun hp => ?_⟩
  rw [(hp t c ht hc).1] at hne
  simp [Except.toOption] at hne

/-- A tab whose session has ended finds the token of the second user, and gives the claims of the
first one with it. -/
theorem not_paired : ¬∀ (v : Vault) (w w' : Tabs) (visits : List Visit), w.Shares v →
    (∀ j, w.cache j = .empty) → Visits w visits w' → visits.Pairwise (fun x y => x.now ≤ y.now) →
      ∀ x ∈ visits, x.deed.asksToken = true → x.found.Paired x.tab x.now := by
  intro hclaim
  have hpasses : Visits.passes Client.plainPair.tabs (secondSignIn (.act .isExpired))
      (fun visits _ => decide (visits.Pairwise (fun x y => x.now ≤ y.now) ∧
        ∃ x ∈ visits, x.confuses = true)) = true := by
    decide +kernel
  obtain ⟨visits, w', hvisits, htest⟩ := Visits.exists_of_passes hpasses
  obtain ⟨hclock, x, hx, hconfuses⟩ := of_decide_eq_true htest
  obtain ⟨hasks, hnot⟩ := Visit.not_paired_of_confuses hconfuses
  exact hnot (hclaim _ _ w' visits Client.sharing_plainPair.shares Client.cache_plainPair hvisits hclock
    x hx hasks)

end ClientSession
