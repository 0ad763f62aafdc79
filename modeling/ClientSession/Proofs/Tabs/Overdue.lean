import ClientSession.Proofs.Client.Sharing
import ClientSession.Proofs.Tabs.Visits

/-!
# Sessions that are overdue

A tab remembers when its session ends. When that end has come another session may be stored. Asked
for the token the tab then looks at what is stored, and answers as it would if it remembered
nothing. Asked when the session ends it does not look, so that its answers are those of a tab that
remembers nothing only where the stored end is the one that it remembers.

- `Visits.answersAfresh_iff`: which answers of a tab whose session is overdue are right.
- `not_answersAfresh`: a tab that takes the session of another tab for expired.
-/

namespace ClientSession

namespace Tabs

variable {w : Tabs} {v : Vault} {i : Nat} {now c e : Instant}

/-- The tab answers every question as it would if it remembered nothing. -/
structure AnswersAfresh (w : Tabs) (i : Nat) (now : Instant) : Prop where
  token : (w.token i now).1 = ((w.forget i).token i now).1
  claims : (w.claims i now).1 = ((w.forget i).claims i now).1
  userId : (w.userId i now).1 = ((w.forget i).userId i now).1
  expiresAt : (w.expiresAt i).1 = ((w.forget i).expiresAt i).1
  isExpired : (w.isExpired i now).1 = ((w.forget i).isExpired i now).1
  needsRefresh : (w.needsRefresh i now).1 = ((w.forget i).needsRefresh i now).1

theorem storedExpiry_forget (h : w.backend.Healthy) (i : Nat) :
    ((w.forget i).storedExpiry i).1 = (w.storedExpiry i).1 := by
  have hbare : ∀ j, (w.forget i).bare? j = w.bare? j := fun j => bare?_setCache w i j .empty
  have hb : (w.forget i).backend = w.backend := rfl
  exact storedExpiry_congr hb hbare h i

theorem storedToken_forget (h : w.backend.Healthy) (i : Nat) :
    ((w.forget i).storedToken i).1 = (w.storedToken i).1 := by
  have hvault : (w.forget i).vault i = w.vault i :=
    vault_congr (fun j => bare?_setCache w i j .empty) i
  have hh : (w.forget i).backend.Healthy := h
  rw [storedToken, storedToken, readKey_of_healthy h, readKey_of_healthy hh, hvault]
  rfl

/-- A token that is not given from memory is the stored one, if that lasts. -/
theorem token_of_cold (h : w.backend.Healthy) (hcold : (w.cache i).liveToken? now = none) :
    (w.token i now).1 = (w.storedToken i).1.filter fun t =>
      (w.storedEnd? i t).any fun e => decide (now < e) := by
  have hread := tokenRead h i now
  generalize w.token i now = r at hread ⊢
  cases hread with
  | remembered hlive =>
      rw [hcold] at hlive
      cases hlive
  | past _ hpast =>
      cases ht : (w.storedToken i).1 with
      | none => rfl
      | some t =>
          cases he : w.storedEnd? i t with
          | none => simp [Option.filter, he]
          | some e =>
              have hle : ¬now < e := Int.not_lt.mpr (hpast t e ht he)
              simp [Option.filter, he, hle]
  | found _ ht he hlt => simp [ht, Option.filter, he, hlt]

section Overdue

variable (hc : (w.cache i).expiresAt = some c) (hnow : c ≤ now)
include hc hnow

theorem isLive_of_overdue : (w.cache i).isLive now = false := by
  have hlt : ¬now < c := Int.not_lt.mpr hnow
  simp [SessionCache.isLive, hc, hlt]

/-- The token of a session that is overdue is asked of the storage. -/
theorem token_forget_of_overdue (h : w.backend.Healthy) :
    (w.token i now).1 = ((w.forget i).token i now).1 := by
  have hcold : (w.cache i).liveToken? now = none := by
    simp [SessionCache.liveToken?, isLive_of_overdue hc hnow]
  have hforgotten : ((w.forget i).cache i).liveToken? now = none := by
    rw [cache_forget]
    rfl
  have hh : (w.forget i).backend.Healthy := h
  rw [token_of_cold h hcold, token_of_cold hh hforgotten, storedToken_forget h]
  simp only [storedEnd?, storedExpiry_forget h]

theorem claims_of_overdue : (w.claims i now).1 = none := by
  have hpast : ((w.expiresAt i).1.any fun t => decide (t ≤ now)) = true := by
    rw [expiresAt_of_remembered hc]
    exact decide_eq_true hnow
  have hcold : (w.cache i).liveClaims? now = none := by
    simp [SessionCache.liveClaims?, isLive_of_overdue hc hnow]
  simp only [claims, hcold, hpast, if_true]

end Overdue

/-- A tab that remembers nothing says that the session ends when the stored one does. -/
theorem expiresAt_forget (h : w.backend.Healthy) (he : (w.storedExpiry i).1 = some e) :
    ((w.forget i).expiresAt i).1 = some e := by
  refine expiresAt_of_stored ?_ ((storedExpiry_forget h i).trans he)
  rw [cache_forget]
  rfl

theorem claims_forget (h : w.backend.Healthy) (he : (w.storedExpiry i).1 = some e)
    (hnow : e ≤ now) : ((w.forget i).claims i now).1 = none := by
  have hpast : (((w.forget i).expiresAt i).1.any fun t => decide (t ≤ now)) = true := by
    rw [expiresAt_forget h he]
    exact decide_eq_true hnow
  have hcold : ((w.forget i).cache i).liveClaims? now = none := by
    rw [cache_forget]
    rfl
  simp only [claims, hcold, hpast, if_true]

/-- Where the session is overdue the tab answers afresh if and only if the stored end is the one
that it remembers. -/
theorem answersAfresh_iff_of_overdue (h : w.backend.Healthy)
    (hc : (w.cache i).expiresAt = some c) (hnow : c ≤ now)
    (he : (w.storedExpiry i).1 = some e) : w.AnswersAfresh i now ↔ e = c := by
  have hremembered : (w.expiresAt i).1 = some c := expiresAt_of_remembered hc
  have hstored : ((w.forget i).expiresAt i).1 = some e := expiresAt_forget h he
  constructor
  · intro ha
    have hends := ha.expiresAt
    rw [hremembered, hstored] at hends
    exact (Option.some.inj hends).symm
  · intro hec
    subst hec
    have hends : (w.expiresAt i).1 = ((w.forget i).expiresAt i).1 := hremembered.trans hstored.symm
    have hclaims : (w.claims i now).1 = ((w.forget i).claims i now).1 := by
      rw [claims_of_overdue hc hnow, claims_forget h he hnow]
    have hbuffer : ((w.forget i).tab i).refreshBuffer = (w.tab i).refreshBuffer := by
      simp only [tab, forget, setCache, tab?_modifyTab, if_pos]
      cases w.tab? i <;> rfl
    constructor
    · exact token_forget_of_overdue hc hnow h
    · exact hclaims
    · simp only [userId, hclaims]
    · exact hends
    · simp only [isExpired, hends]
    · simp only [needsRefresh, hends, hbuffer]

/-- It says rightly whether the session has expired if and only if the stored end has come. -/
theorem isExpired_forget_iff_of_overdue (h : w.backend.Healthy)
    (hc : (w.cache i).expiresAt = some c) (hnow : c ≤ now)
    (he : (w.storedExpiry i).1 = some e) :
    (w.isExpired i now).1 = ((w.forget i).isExpired i now).1 ↔ e ≤ now := by
  have hremembered : (w.isExpired i now).1 = true := by
    simp only [isExpired, expiresAt_of_remembered hc]
    exact decide_eq_true hnow
  rw [hremembered]
  simp only [isExpired, expiresAt_forget h he]
  constructor
  · intro heq
    exact of_decide_eq_true heq.symm
  · intro hle
    exact (decide_eq_true hle).symm

end Tabs

open Tabs

/-- While no session is stored no tab remembers one, and every open tab listens. -/
structure Attentive (s : Option StoredSession) (w : Tabs) : Prop where
  listening : ∀ j, (w.tab? j).isSome → w.Listening j
  forgotten : s = none → ∀ j, w.cache j = .empty

theorem Attentive.leaves {v : Vault} {x : Visit} {w : Tabs} {s : Option StoredSession}
    (ha : Attentive s x.found) (hw : x.found.Shares v) (hi : (x.found.tab? x.tab).isSome)
    (hs : x.found.Holds v s) (h : x.Leaves v w) : Attentive (x.deed.stored s) w := by
  have hopen := h.isSome_tab?
  constructor
  · intro j hj
    rw [listening_congr hopen h.listeners]
    exact ha.listening j (hopen j ▸ hj)
  · -- Without a session that is stored or remembered nothing can be found to remember.
    have hnothing : s = none → (x.found.storedToken x.tab).1 = none ∧
        (x.found.knownToken x.tab).1 = none := by
      rintro rfl
      have hstored := hs.eq_none hw hi
      refine ⟨hstored, ?_⟩
      have hempty := ha.forgotten rfl x.tab
      simp only [knownToken, hempty, SessionCache.empty]
      exact hstored
    intro hnone j
    cases h with
    | same hstored h =>
        rw [hstored] at hnone
        rw [h.cache]
        exact ha.forgotten hnone j
    | forgets hstored =>
        rw [hstored] at hnone
        by_cases hj : j = x.tab
        · rw [hj]
          exact cache_forget _ _
        · rw [forget, cache_setCache_of_ne hj]
          exact ha.forgotten hnone j
    | finds hstored hask hcold ht he hlt =>
        rw [hstored] at hnone
        rw [(hnothing hnone).1] at ht
        cases ht
    | decodes hstored ht hc =>
        rw [hstored] at hnone
        rw [(hnothing hnone).2] at ht
        cases ht
    | clears hstored h =>
        cases s with
        | none => exact h.erodes.cache_eq_empty (ha.forgotten rfl j)
        | some s =>
            have hr : x.found.Records v s := hs
            have hkept : x.found.keeps v tokenKey = true := by
              rw [keeps, hr.token]
              rfl
            by_cases hj : (x.found.tab? j).isSome
            · exact h.others hkept j (ha.listening j hj)
            · refine cache_of_tab?_none ?_
              rw [← Option.not_isSome_iff_eq_none, h.erodes.isSome_tab?]
              exact hj
    | stores hstored ht he h =>
        rw [hstored] at hnone
        cases hnone

/-- Of tabs that remember nothing at first and all listen: when the end that a tab remembers has
come, a session is stored. The tab gives the token that it would if it remembered nothing. It tells
rightly whether the session has expired if and only if the second of the stored end has begun, and
gives no wrong answer at all if and only if that second is what it remembers. -/
theorem Visits.answersAfresh_iff {v : Vault} {w w' : Tabs} {visits : List Visit}
    {earlier : Option StoredSession} (h : Visits w visits w') (hw : w.Shares v)
    (hl : ∀ j, (w.tab? j).isSome → w.Listening j) (hempty : ∀ j, w.cache j = .empty)
    (hs : w.Holds v earlier) {i : Nat} {c now : Instant} (hc : (w'.cache i).expiresAt = some c)
    (hnow : c ≤ now) :
    ∃ s, lastSession earlier visits = some s ∧
      (w'.token i now).1 = ((w'.forget i).token i now).1 ∧
      ((w'.isExpired i now).1 = ((w'.forget i).isExpired i now).1 ↔
        s.expiry.startOfSecond ≤ now) ∧
      (w'.AnswersAfresh i now ↔ s.expiry.startOfSecond = c) := by
  let A (visits : List Visit) (u : Tabs) : Prop :=
    u.Holds v (lastSession earlier visits) ∧ Attentive (lastSession earlier visits) u
  have hstart : A [] w := ⟨hs, hl, fun _ => hempty⟩
  obtain ⟨hshares, hholds, hattentive⟩ := h.invariant (A := A) hw hstart (by
    rintro visits x u hx hi hleaves ⟨hheld, ha⟩
    have hstored := lastSession_snoc earlier visits x
    constructor
    · rw [hstored]
      exact hleaves.holds hheld
    · rw [hstored]
      exact ha.leaves hx hi hheld hleaves)
  have hopen : (w'.tab? i).isSome := by
    by_contra hclosed
    rw [cache_of_tab?_none (Option.not_isSome_iff_eq_none.mp hclosed)] at hc
    cases hc
  cases hsession : lastSession earlier visits with
  | none =>
      rw [hattentive.forgotten hsession] at hc
      cases hc
  | some s =>
      rw [hsession] at hholds
      have hr : w'.Records v s := hholds
      have he := hr.storedExpiry hshares hopen
      have hh := hshares.healthy
      refine ⟨s, rfl, token_forget_of_overdue hc hnow hh, ?_, ?_⟩
      · exact isExpired_forget_iff_of_overdue hh hc hnow he
      · exact answersAfresh_iff_of_overdue hh hc hnow he

/-- The first tab stores a token for a minute, and then the second one does for some time. -/
def prolonged (later : Instant) : List (Nat × Instant × Deed) :=
  [(0, ⟨1748779200000000000⟩, .act (.install ⟨"t1"⟩ (some ⟨1748779260000000000⟩))),
    (1, ⟨1748779230000000000⟩, .act (.install ⟨"t2"⟩ (some later)))]

theorem listening_plainPair (j : Nat) (hj : (Client.plainPair.tabs.tab? j).isSome) :
    Client.plainPair.tabs.Listening j := by
  refine ⟨hj, ?_⟩
  match j, hj with
  | 0, _ => decide
  | 1, _ => decide
  | j + 2, hj => cases hj

/-- When both sessions are over the first tab is right that the session has expired. -/
theorem answersAfresh_iff_plainPair : ∃ (visits : List Visit) (w' : Tabs) (c now : Instant),
    Client.plainPair.tabs.Shares ⟨Config.defaultNamespace, ⟨"", "", "", ""⟩⟩ ∧
      (∀ j, (Client.plainPair.tabs.tab? j).isSome → Client.plainPair.tabs.Listening j) ∧
        (∀ j, Client.plainPair.tabs.cache j = .empty) ∧
          Visits Client.plainPair.tabs visits w' ∧ (w'.cache 0).expiresAt = some c ∧ c ≤ now ∧
            ∃ s, lastSession none visits = some s ∧
              (w'.token 0 now).1 = ((w'.forget 0).token 0 now).1 ∧
              ((w'.isExpired 0 now).1 = ((w'.forget 0).isExpired 0 now).1 ↔
                s.expiry.startOfSecond ≤ now) ∧
              (w'.AnswersAfresh 0 now ↔ s.expiry.startOfSecond = c) := by
  have hpasses : Visits.passes Client.plainPair.tabs (prolonged ⟨1748779240000000000⟩)
      (fun _ w' => decide ((w'.cache 0).expiresAt = some ⟨1748779260000000000⟩)) = true := by
    decide +kernel
  obtain ⟨visits, w', hvisits, hc⟩ := Visits.exists_of_passes hpasses
  have hremembered := of_decide_eq_true hc
  have hshares := Client.sharing_plainPair.shares
  have hnone : Client.plainPair.tabs.Holds ⟨Config.defaultNamespace, ⟨"", "", "", ""⟩⟩ none :=
    show Client.plainPair.tabs.keeps _ tokenKey = false from rfl
  have hnow : (⟨1748779260000000000⟩ : Instant) ≤ ⟨1748779261000000000⟩ := by decide
  exact ⟨visits, w', _, _, hshares, listening_plainPair, Client.cache_plainPair, hvisits,
    hremembered, hnow, hvisits.answersAfresh_iff hshares listening_plainPair
      Client.cache_plainPair hnone hremembered hnow⟩

/-- A tab takes for expired what another tab has prolonged. -/
theorem not_answersAfresh : ¬∀ (v : Vault) (w w' : Tabs) (visits : List Visit), w.Shares v →
    (∀ j, (w.tab? j).isSome → w.Listening j) → (∀ j, w.cache j = .empty) →
      w.Holds v none → Visits w visits w' → ∀ i c now, (w'.cache i).expiresAt = some c → c ≤ now →
        (∀ x ∈ visits, x.now ≤ now) → w'.AnswersAfresh i now := by
  intro hclaim
  let now : Instant := ⟨1748779261000000000⟩
  have hpasses : Visits.passes Client.plainPair.tabs (prolonged ⟨1748782800000000000⟩)
      (fun visits w' => decide ((w'.cache 0).expiresAt = some ⟨1748779260000000000⟩ ∧
        (∀ x ∈ visits, x.now ≤ now) ∧
          (w'.isExpired 0 now).1 ≠ ((w'.forget 0).isExpired 0 now).1)) = true := by
    decide +kernel
  obtain ⟨visits, w', hvisits, htest⟩ := Visits.exists_of_passes hpasses
  obtain ⟨hc, hclock, hne⟩ := of_decide_eq_true htest
  have hnone : Client.plainPair.tabs.Holds ⟨Config.defaultNamespace, ⟨"", "", "", ""⟩⟩ none :=
    show Client.plainPair.tabs.keeps _ tokenKey = false from rfl
  have hnow : (⟨1748779260000000000⟩ : Instant) ≤ now := by decide
  have hafresh := hclaim _ _ w' visits Client.sharing_plainPair.shares listening_plainPair
    Client.cache_plainPair hnone hvisits 0 _ now hc hnow hclock
  exact hne hafresh.isExpired

end ClientSession
