import ClientSession.Proofs.Tabs.Faithful
import ClientSession.Proofs.Tabs.Pairing
import ClientSession.Proofs.Tabs.Totality

/-!
# The time that remains

A session has an end, and the claims of its token have one. Asked how long the session lasts yet, a
tab counts the seconds to the end of the claims. That is too much where the session was stored under
an earlier end. Over a healthy backend it never is where every session was stored under an end that
does not come before that of its claims.

- `Span.secondsUp_le_iff`: rounding up gives the least number of seconds that cover a span.
- `Claims.rest_le_lasting_iff`: when the seconds to the end of claims are not too many.
- `SessionCache.Bears.leaves`: of the claims that a tab remembers, and of those of its token, any
  relation to the end that it remembers stays, if later ends keep it and stored sessions have it.
- `Tabs.remaining_le_iff`: when the remaining time does not exceed that of the session.
- `not_remaining_le`: a session of which it does.
-/

namespace ClientSession

open Tabs

theorem eq_ok_of_toOption {ε α : Type} {x : Except ε α} {a : α} (h : x.toOption = some a) :
    x = .ok a := by
  cases x with
  | error e => cases h
  | ok b =>
      cases h
      rfl

/-! ## Seconds -/

/-- The least number of whole seconds that cover the span. -/
def Span.secondsUp (s : Span) : Int := -(-s.nanos / nanosPerSecond)

theorem Span.secondsUp_le_iff {s : Span} {k : Int} : s.secondsUp ≤ k ↔ s ≤ ofSeconds k := by
  show -(-s.nanos / 1000000000) ≤ k ↔ s.nanos ≤ k * 1000000000
  omega

/-- What is left of the second in which the instant lies. -/
def Instant.restOfSecond (t : Instant) : Span :=
  ⟨Span.nanosPerSecond - t.nanos % Span.nanosPerSecond⟩

/-- Any instant that does not come after another one is left behind by less than the rest of any
second. -/
theorem Instant.not_restOfSecond_le {s t : Instant} (h : s ≤ t) (now : Instant) :
    ¬now.restOfSecond ≤ s.since t := by
  have hle : s.nanos ≤ t.nanos := h
  show ¬1000000000 - now.nanos % 1000000000 ≤ s.nanos - t.nanos
  omega

namespace Claims

/-- When the claims end. The calendar need not have that instant. -/
def ends (c : Claims) : Instant := ⟨c.expiry * Span.nanosPerSecond⟩

/-- As claims end with a second, they end before an instant only if they do before its second. -/
theorem ends_le_startOfSecond {c : Claims} {e : Instant} (h : c.ends ≤ e) :
    c.ends ≤ e.startOfSecond := by
  have hle : c.expiry * 1000000000 ≤ e.nanos := h
  show c.expiry * 1000000000 ≤ e.nanos / 1000000000 * 1000000000
  omega

end Claims

/-- How long a session with this end lasts yet, rounded up to whole seconds. One that has ended or
has no end does not last. -/
def lasting (e? : Option Instant) (now : Instant) : Span :=
  Span.ofSeconds (e?.elim 0 fun e => max 0 (e.since now).secondsUp)

theorem Span.ofSeconds_le_ofSeconds_iff {m n : Int} : ofSeconds m ≤ ofSeconds n ↔ m ≤ n := by
  show m * 1000000000 ≤ n * 1000000000 ↔ m ≤ n
  omega

/-- The seconds to the end of claims are too many for a session if the claims have not ended, and
end later than the session by the rest of the current second or more. -/
theorem Claims.rest_le_lasting_iff (c : Claims) (e? : Option Instant) (now : Instant) :
    Span.ofSeconds (max (c.expiry - now.floorSeconds) 0) ≤ lasting e? now ↔
      ¬(now < c.ends ∧ ∀ e, e? = some e → now.restOfSecond ≤ c.ends.since e) := by
  rw [lasting, Span.ofSeconds_le_ofSeconds_iff]
  cases e? with
  | none =>
      have hends : now < c.ends ↔ now.nanos < c.expiry * 1000000000 := Iff.rfl
      have hfloor : now.floorSeconds = now.nanos / 1000000000 := rfl
      simp only [Option.elim_none, hends, hfloor, reduceCtorEq, false_imp_iff, implies_true,
        and_true]
      omega
  | some e =>
      have hends : now < c.ends ↔ now.nanos < c.expiry * 1000000000 := Iff.rfl
      have hfloor : now.floorSeconds = now.nanos / 1000000000 := rfl
      have hup : (e.since now).secondsUp = -(-(e.nanos - now.nanos) / 1000000000) := rfl
      have hrest : now.restOfSecond ≤ c.ends.since e ↔
          1000000000 - now.nanos % 1000000000 ≤ c.expiry * 1000000000 - e.nanos := Iff.rfl
      simp only [Option.elim_some, hends, hfloor, hup, Option.some.injEq, forall_eq', hrest]
      omega

/-! ## What a tab remembers of claims -/

/-- The session was not stored under an end that comes before that of the claims of its token. -/
def StoredSession.Covers (s : StoredSession) : Prop :=
  ∀ c, Claims.decode s.token = .ok c → c.ends ≤ s.expiry

instance (s : StoredSession) : Decidable s.Covers :=
  match h : Claims.decode s.token with
  | .ok c => decidable_of_iff (c.ends ≤ s.expiry)
      ⟨fun hle _ hc => Except.ok.inj (h.symm.trans hc) ▸ hle, fun hall => hall c h⟩
  | .error _ => isTrue fun _ hc => nomatch h.symm.trans hc

section Bears

-- What claims are to the end under which a token is stored or remembered.
variable (R : Claims → Instant → Prop)

/-- The claims of the token bear the relation to the end, as it is read back. -/
def StoredSession.Bears (s : StoredSession) : Prop :=
  ∀ c, Claims.decode s.token = .ok c → R c s.expiry.startOfSecond

/-- A tab remembers nothing, or else a token and an end. The claims that it remembers and those of
the token bear the relation to that end. -/
inductive SessionCache.Bears : SessionCache → Prop where
  | nothing : Bears .empty
  | session {t : BearerToken} {e : Instant} {claims : Option Claims}
      (htoken : ∀ c, Claims.decode t = .ok c → R c e) (hclaims : ∀ c, claims = some c → R c e) :
      Bears ⟨some t, some e, claims⟩

end Bears

section Relation

variable {R : Claims → Instant → Prop} {v : Vault} {w : Tabs} {i : Nat} {now : Instant}
  {s : Option StoredSession}

/-- Wherever a token is known, so is an end that its claims bear the relation to. -/
theorem SessionCache.Bears.exists_end (hb : (w.cache i).Bears R) (hw : w.Shares v)
    (hi : (w.tab? i).isSome) (hs : w.Holds v s) (hfair : ∀ s', s = some s' → s'.Bears R)
    {t : BearerToken} (ht : (w.knownToken i).1 = some t) :
    ∃ e, (w.expiresAt i).1 = some e ∧ ∀ c, Claims.decode t = .ok c → R c e := by
  generalize hk : w.cache i = k at hb
  cases hb with
  | nothing =>
      have hknown : (w.storedToken i).1 = some t := by
        simpa only [knownToken, hk, SessionCache.empty] using ht
      obtain ⟨s', rfl, hr, rfl⟩ := Faithful.of_storedToken hw hi hs hknown
      have hcold : (w.cache i).expiresAt = none := by rw [hk]; rfl
      exact ⟨_, expiresAt_of_stored hcold (hr.storedExpiry hw hi), hfair s' rfl⟩
  | @session t' e claims htoken hclaims =>
      have hknown : t' = t := by
        simpa only [knownToken, hk, Option.some.injEq] using ht
      exact ⟨e, expiresAt_of_remembered (by rw [hk]), hknown ▸ htoken⟩

/-- Claims that are given bear the relation to the end of the session, which there is. -/
theorem SessionCache.Bears.of_claims (hb : (w.cache i).Bears R) (hw : w.Shares v)
    (hi : (w.tab? i).isSome) (hs : w.Holds v s) (hfair : ∀ s', s = some s' → s'.Bears R)
    {c : Claims} (hc : (w.claims i now).1 = some c) :
    ∃ e, (w.expiresAt i).1 = some e ∧ R c e := by
  have hread := claimsRead hw.healthy i now
  generalize w.claims i now = r at hread hc
  cases hread with
  | @remembered c' hlive =>
      obtain rfl := Option.some.inj hc
      have hremembered := SessionCache.claims_of_live hlive
      generalize hk : w.cache i = k at hb hremembered
      cases hb with
      | nothing => cases hremembered
      | @session t e claims htoken hclaims =>
          exact ⟨e, expiresAt_of_remembered (by rw [hk]), hclaims c' hremembered⟩
  | past hcold hpast => cases hc
  | unknown hcold hlasts hnone => cases hc
  | @decoded t c' hcold hlasts ht hdecode hvalid =>
      obtain rfl := Option.some.inj hc
      obtain ⟨e, he, hR⟩ := hb.exists_end hw hi hs hfair ht
      exact ⟨e, he, hR c' hdecode⟩

/-- Whatever a visit stores, its claims bear the relation to its end if those of what was stored
before do and those of what is stored now. -/
theorem StoredSession.bears_of_stored {d : Deed} (hfair : ∀ s', s = some s' → s'.Bears R)
    (hd : ∀ s', d.session? = some s' → s'.Bears R) :
    ∀ s', d.stored s = some s' → s'.Bears R := by
  intro s' hs'
  cases d with
  | act action =>
      cases action with
      | install t given =>
          rw [Deed.session?_install] at hd
          rw [Deed.stored] at hs'
          cases hterm : (term? t given).map (StoredSession.mk t) with
          | none =>
              rw [hterm, Option.none_or] at hs'
              exact hfair s' hs'
          | some s'' =>
              rw [hterm, Option.some_or] at hs'
              exact hd s' (hterm.trans hs')
      | clear => cases hs'
      | finish reason => cases hs'
      | _ => exact hfair s' hs'
  | _ => exact hfair s' hs'

/-- A visit leaves the claims of every tab in the relation to its end. -/
theorem SessionCache.Bears.leaves {x : Visit} (hlater : ∀ c e e', R c e → e ≤ e' → R c e')
    (hb : ∀ j, (x.found.cache j).Bears R) (hw : x.found.Shares v)
    (hi : (x.found.tab? x.tab).isSome) (hs : x.found.Holds v s)
    (hfair : ∀ s', s = some s' → s'.Bears R)
    (hd : ∀ s', x.deed.session? = some s' → s'.Bears R) (h : x.Leaves v w) (j : Nat) :
    (w.cache j).Bears R := by
  have hread : ∀ k : SessionCache, k.Bears R → ((x.found.setCache x.tab k).cache j).Bears R := by
    intro k hk
    by_cases hj : j = x.tab
    · rw [hj, cache_setCache_self hi]
      exact hk
    · rw [cache_setCache_of_ne hj]
      exact hb j
  cases h with
  | same hstored h =>
      rw [h.cache]
      exact hb j
  | forgets hstored => exact hread _ .nothing
  | @finds t e hstored hask hcold ht he hlt =>
      obtain ⟨s', rfl, hr, rfl⟩ := Faithful.of_storedToken hw hi hs ht
      rw [hr.storedEnd? hw hi] at he
      cases he
      refine hread _ (.session (hfair s' rfl) fun c hc => ?_)
      -- The claims that stay were remembered with an end that has come, unlike the new one.
      have hbefore := hb x.tab
      generalize x.found.cache x.tab = k at hbefore hcold hc
      cases hbefore with
      | nothing => cases hc
      | @session t' e' claims htoken hclaims =>
          have hended : e' ≤ x.now := by
            by_contra hlasts
            have hlive : SessionCache.isLive ⟨some t', some e', claims⟩ x.now = true :=
              isLive_iff.mpr ⟨e', rfl, Int.not_le.mp hlasts⟩
            rw [SessionCache.liveToken?, if_pos hlive] at hcold
            cases hcold
          exact hlater c e' _ (hclaims c hc) (Int.le_trans hended (Int.le_of_lt hlt))
  | @decodes t c hstored ht hc =>
      obtain ⟨e, he, hR⟩ := (hb x.tab).exists_end hw hi hs hfair ht
      rw [he, Option.some_or]
      refine hread _ (.session hR fun c' hc' => ?_)
      cases hc'
      exact hR c hc
  | clears hstored h =>
      rcases h.erodes.cache j with hgone | hkept
      · rw [hgone]
        exact .nothing
      · rw [hkept]
        exact hb j
  | @stores t e _ hstored ht he h =>
      by_cases hj : j = x.tab
      · have hR : ∀ c, Claims.decode t = .ok c → R c e := fun c hc =>
          hlater c _ e (hd ⟨t, e⟩ (hstored none) c hc) e.startOfSecond_le
        rw [hj, h.cache_self]
        exact .session hR fun c hc => hR c (eq_ok_of_toOption hc)
      · rw [h.cache_other j hj]
        exact hb j

/-- After any visits, claims that are given bear the relation to the end of the session. -/
theorem Visits.of_claims {w₀ : Tabs} {visits : List Visit}
    (hlater : ∀ c e e', R c e → e ≤ e' → R c e') (h : Visits w₀ visits w) (hw : w₀.Shares v)
    (hempty : ∀ j, w₀.cache j = .empty) (hs : w₀.Holds v s)
    (hfair : ∀ s', s = some s' → s'.Bears R)
    (hdeeds : ∀ x ∈ visits, ∀ s', x.deed.session? = some s' → s'.Bears R)
    (hi : (w.tab? i).isSome) {c : Claims} (hc : (w.claims i now).1 = some c) :
    ∃ e, (w.expiresAt i).1 = some e ∧ R c e := by
  let A (visits : List Visit) (u : Tabs) : Prop :=
    (∀ x ∈ visits, ∀ s', x.deed.session? = some s' → s'.Bears R) →
      u.Holds v (lastSession s visits) ∧ (∀ s', lastSession s visits = some s' → s'.Bears R) ∧
        ∀ j, (u.cache j).Bears R
  have hstart : A [] w₀ := by
    refine fun _ => ⟨hs, hfair, fun j => ?_⟩
    rw [hempty]
    exact .nothing
  obtain ⟨hshares, hA⟩ := h.invariant (A := A) hw hstart (by
    intro visits x u hshares hopen hleaves hA hall
    obtain ⟨hholds, hstored, hbears⟩ := hA fun y hy => hall y (List.mem_append_left _ hy)
    have hx := hall x (List.mem_append_right _ (List.mem_singleton_self x))
    rw [lastSession_snoc]
    exact ⟨hleaves.holds hholds, StoredSession.bears_of_stored hstored hx,
      SessionCache.Bears.leaves hlater hbears hshares hopen hholds hstored hx hleaves⟩)
  obtain ⟨hholds, hstored, hbears⟩ := hA hdeeds
  exact (hbears i).of_claims hshares hi hholds hstored hc

end Relation

/-! ## The remaining time -/

namespace Tabs

variable {w : Tabs} {i : Nat} {now : Instant}

/-- The claims that are given have not ended, and end later than the session, which is asked for its
end first: by the rest of the current second or more, or at all where the session has no end. -/
def Outlasted (w : Tabs) (i : Nat) (now : Instant) : Prop :=
  ∃ c, ((w.expiresAt i).2.claims i now).1 = some c ∧ now < c.ends ∧
    ∀ e, (w.expiresAt i).1 = some e → now.restOfSecond ≤ c.ends.since e

/-- The remaining time is the rest of the claims that are given, so what matters is their end. -/
theorem le_lasting_iff {r : Span × Tabs} (h : (w.expiresAt i).2.remaining i now = .ok r) :
    r.1 ≤ lasting (w.expiresAt i).1 now ↔ ¬w.Outlasted i now := by
  rw [(inRange_of_remaining h).1, claimedRest, Outlasted]
  cases (w.expiresAt i).2.claims i now |>.1 with
  | none =>
      have hzero : Span.ofSeconds 0 ≤ lasting (w.expiresAt i).1 now := by
        rw [lasting, Span.ofSeconds_le_ofSeconds_iff]
        cases (w.expiresAt i).1 with
        | none => exact Int.le_refl 0
        | some e => exact Int.le_max_left 0 _
      simp [hzero]
  | some c =>
      rw [Option.elim_some, Claims.rest_le_lasting_iff]
      simp

/-- No time remains where no claims are given. -/
theorem remaining_eq_zero {r : Span × Tabs} (h : w.remaining i now = .ok r)
    (hc : (w.claims i now).1 = none) : r.1 = Span.zero := by
  rw [(inRange_of_remaining h).1, claimedRest, hc]
  rfl

/-- A token that is stored under an end that is still to come, and long before that of its claims,
is outlasted by them. -/
theorem outlasted_install {v : Vault} (hw : w.Shares v) (hi : (w.tab? i).isSome) {t : BearerToken}
    {e : Instant} {c : Claims} (ht : t.isBlank = false) (hc : Claims.decode t = .ok c)
    (hnow : now < e) (hrest : now.restOfSecond ≤ c.ends.since e) :
    (w.install i t (some e)).2.Outlasted i now := by
  have hterm : term? t (some e) = some e := by
    rw [term?, ht]
    rfl
  have hinstalled := install_of_term hterm hw hi
  generalize (w.install i t (some e)).2 = w' at hinstalled ⊢
  have hcache : w'.cache i = ⟨some t, some e, some c⟩ := by
    rw [hinstalled.cache_self, hc]
    rfl
  have hexpires : (w'.expiresAt i).1 = some e := expiresAt_of_remembered (by rw [hcache])
  have hlive : (w'.cache i).isLive now = true :=
    isLive_iff.mpr ⟨e, by rw [hcache], hnow⟩
  have hclaims := claims_of_remembered hlive (by rw [hcache])
  refine ⟨c, ?_, ?_, fun e' he' => ?_⟩
  · rw [expiresAt_state hinstalled.shares.healthy, hclaims]
  · by_contra hover
    exact Instant.not_restOfSecond_le (Int.le_of_lt (Int.lt_of_le_of_lt (Int.not_lt.mp hover) hnow))
      now hrest
  · rw [hexpires] at he'
    cases he'
    exact hrest

end Tabs

section Visits

variable {v : Vault} {w w' : Tabs} {i : Nat} {now : Instant} {visits : List Visit}
  {earlier : Option StoredSession} (h : Visits w visits w') (hw : w.Shares v)
include h hw

theorem Visits.shares : w'.Shares v :=
  (h.invariant (A := fun _ _ => True) hw trivial fun _ _ _ _ _ _ _ => trivial).1

variable (hempty : ∀ j, w.cache j = .empty) (hs : w.Holds v earlier) (hi : (w'.tab? i).isSome)
include hempty hs hi

/-- No claims are given of a session without an end. -/
theorem Visits.claims_eq_none (hnone : (w'.expiresAt i).1 = none) : (w'.claims i now).1 = none := by
  cases hc : (w'.claims i now).1 with
  | none => rfl
  | some c =>
      obtain ⟨e, he, -⟩ := h.of_claims (R := fun _ _ => True) (fun _ _ _ _ _ => trivial) hw hempty
        hs (fun _ _ _ _ => trivial) (fun _ _ _ _ _ _ => trivial) hi hc
      rw [hnone] at he
      cases he

/-- Where every session was stored under an end that covers its claims, none is outlasted. -/
theorem Visits.not_outlasted (hearlier : ∀ s ∈ earlier, s.Covers)
    (hdeeds : ∀ x ∈ visits, ∀ s ∈ x.deed.session?, s.Covers) : ¬w'.Outlasted i now := by
  have hbears : ∀ s : StoredSession, s.Covers → s.Bears fun c e => c.ends ≤ e :=
    fun s hs c hc => Claims.ends_le_startOfSecond (hs c hc)
  rintro ⟨c, hc, -, hrest⟩
  rw [expiresAt_state (h.shares hw).healthy] at hc
  obtain ⟨e, he, hle⟩ := h.of_claims (R := fun c e => c.ends ≤ e)
    (fun c e e' hle hlater => Int.le_trans hle hlater) hw hempty hs
    (fun s hs => hbears s (hearlier s hs)) (fun x hx s hs => hbears s (hdeeds x hx s hs)) hi hc
  exact Instant.not_restOfSecond_le hle now (hrest e he)

end Visits

/-- The remaining time, where it is told, is never negative. It is at most the time that the session
lasts yet, rounded up to whole seconds, if and only if the session is not outlasted by the claims
that are given. After any visits to tabs that remember nothing at first, over a healthy backend that
they share, no time remains of a session without an end; if no session was stored under an end that
comes before that of its claims, the time that remains is at most that of the session; and a session
that is stored under such an end is outlasted at once, unless it is over or the ends are close. -/
theorem Tabs.remaining_le_iff {w : Tabs} {i : Nat} {now : Instant} {r : Span × Tabs}
    (h : (w.expiresAt i).2.remaining i now = .ok r) :
    Span.zero ≤ r.1 ∧ (r.1 ≤ lasting (w.expiresAt i).1 now ↔ ¬w.Outlasted i now) ∧
      ∀ (v : Vault) (w₀ : Tabs) (earlier : Option StoredSession) (visits : List Visit),
        w₀.Shares v → (∀ j, w₀.cache j = .empty) → w₀.Holds v earlier → Visits w₀ visits w →
        (w.tab? i).isSome →
          ((w.expiresAt i).1 = none → r.1 = Span.zero) ∧
          ((∀ s ∈ earlier, s.Covers) → (∀ x ∈ visits, ∀ s ∈ x.deed.session?, s.Covers) →
            r.1 ≤ lasting (w.expiresAt i).1 now) ∧
          ∀ (t : BearerToken) (e : Instant) (c : Claims), t.isBlank = false →
            Claims.decode t = .ok c → now < e → now.restOfSecond ≤ c.ends.since e →
              (w.install i t (some e)).2.Outlasted i now := by
  refine ⟨?_, le_lasting_iff h, fun v w₀ earlier visits hw hempty hs hvisits hi =>
    ⟨fun hnone => ?_, fun hearlier hdeeds => ?_, fun t e c ht hc hnow hrest => ?_⟩⟩
  · rw [(inRange_of_remaining h).1]
    exact Span.ofSeconds_le_ofSeconds_iff.mpr (Int.le_max_right _ 0)
  · rw [expiresAt_state (hvisits.shares hw).healthy] at h
    exact remaining_eq_zero h (hvisits.claims_eq_none hw hempty hs hi hnone)
  · exact (le_lasting_iff h).mpr (hvisits.not_outlasted hw hempty hs hi hearlier hdeeds)
  · exact outlasted_install (hvisits.shares hw) hi ht hc hnow hrest

/-- A tab stores the token of the first user, and another one is asked for its claims. -/
def signIn (given : Option Instant) : List (Nat × Instant × Deed) :=
  [(0, noon, .act (.install firstUser given)), (1, noon, .act .claims)]

/-- Under the end of its claims, an hour later, the other tab tells an hour at noon. Once that tab
has stored the token of the second user for half a minute, it would tell too much. -/
theorem Tabs.remaining_le_iff_signIn : ∃ visits w' r,
    Client.plainPair.tabs.Shares ⟨Config.defaultNamespace, ⟨"", "", "", ""⟩⟩ ∧
      (∀ j, Client.plainPair.tabs.cache j = .empty) ∧
      Client.plainPair.tabs.Holds ⟨Config.defaultNamespace, ⟨"", "", "", ""⟩⟩ none ∧
      Visits Client.plainPair.tabs visits w' ∧ (w'.tab? 1).isSome ∧
      (∀ x ∈ visits, ∀ s ∈ x.deed.session?, s.Covers) ∧
      (w'.expiresAt 1).2.remaining 1 noon = .ok r ∧ r.1 = Span.ofSeconds 3600 ∧
      ¬w'.Outlasted 1 noon ∧ r.1 ≤ lasting (w'.expiresAt 1).1 noon ∧
      (w'.install 1 secondUser (some ⟨1748779230000000000⟩)).2.Outlasted 1 noon := by
  have hpasses : Visits.passes Client.plainPair.tabs (signIn none) (fun visits w' =>
      decide ((w'.tab? 1).isSome ∧ (∀ x ∈ visits, ∀ s ∈ x.deed.session?, s.Covers)) &&
        ((w'.expiresAt 1).2.remaining 1 noon).toOption.any fun r =>
          decide (r.1 = Span.ofSeconds 3600)) = true := by
    decide +kernel
  obtain ⟨visits, w', hvisits, htest⟩ := Visits.exists_of_passes hpasses
  obtain ⟨hfair, htold⟩ := Bool.and_eq_true_iff.mp htest
  obtain ⟨hi, hcovers⟩ := of_decide_eq_true hfair
  obtain ⟨r, hr, hhour⟩ := (Option.any_eq_true _ _).mp htold
  have hshares := Client.sharing_plainPair.shares
  have hnone : Client.plainPair.tabs.Holds ⟨Config.defaultNamespace, ⟨"", "", "", ""⟩⟩ none :=
    show Client.plainPair.tabs.keeps _ tokenKey = false from rfl
  obtain ⟨-, hiff, hhistory⟩ := Tabs.remaining_le_iff (eq_ok_of_toOption hr)
  obtain ⟨-, hfits, hoversteps⟩ :=
    hhistory _ _ none visits hshares Client.cache_plainPair hnone hvisits hi
  have hle := hfits nofun hcovers
  have hlong : (Claims.decode secondUser).toOption.any (fun c =>
      decide (noon.restOfSecond ≤ c.ends.since ⟨1748779230000000000⟩)) = true := by
    decide +kernel
  obtain ⟨c, hc, hrest⟩ := (Option.any_eq_true _ _).mp hlong
  exact ⟨visits, w', r, hshares, Client.cache_plainPair, hnone, hvisits, hi, hcovers,
    eq_ok_of_toOption hr, of_decide_eq_true hhour, hiff.mp hle, hle,
    hoversteps secondUser _ c rfl (eq_ok_of_toOption hc) (by decide) (of_decide_eq_true hrest)⟩

/-- Under an end half a minute later, an hour is told as well. -/
theorem not_remaining_le : ¬∀ (v : Vault) (w w' : Tabs) (visits : List Visit), w.Shares v →
    (∀ j, w.cache j = .empty) → w.Holds v none → Visits w visits w' →
      ∀ (i : Nat) (now : Instant) (r : Span × Tabs), (∀ x ∈ visits, x.now ≤ now) →
        (w'.expiresAt i).2.remaining i now = .ok r →
          Span.zero ≤ r.1 ∧ r.1 ≤ lasting (w'.expiresAt i).1 now := by
  intro hclaim
  have hpasses : Visits.passes Client.plainPair.tabs (signIn (some ⟨1748779230000000000⟩))
      (fun visits w' => decide (∀ x ∈ visits, x.now ≤ noon) &&
        ((w'.expiresAt 0).2.remaining 0 noon).toOption.any fun r =>
          decide (¬r.1 ≤ lasting (w'.expiresAt 0).1 noon)) = true := by
    decide +kernel
  obtain ⟨visits, w', hvisits, htest⟩ := Visits.exists_of_passes hpasses
  obtain ⟨hclock, htold⟩ := Bool.and_eq_true_iff.mp htest
  obtain ⟨r, hr, hlong⟩ := (Option.any_eq_true _ _).mp htold
  have hnone : Client.plainPair.tabs.Holds ⟨Config.defaultNamespace, ⟨"", "", "", ""⟩⟩ none :=
    show Client.plainPair.tabs.keeps _ tokenKey = false from rfl
  have hle := (hclaim _ _ w' visits Client.sharing_plainPair.shares Client.cache_plainPair hnone
    hvisits 0 noon r (of_decide_eq_true hclock) (eq_ok_of_toOption hr)).2
  exact of_decide_eq_true hlong hle

end ClientSession
