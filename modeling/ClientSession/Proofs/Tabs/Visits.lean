import ClientSession.Proofs.Client.Operations
import ClientSession.Proofs.Session.Hearing
import ClientSession.Proofs.Session.Terms

/-!
# Visits

Tabs that share a vault are visited one after another. Each visit does one thing with the session of
one tab, at a reading of the clock of its own. What the visits alone say of the stored session is
short: it is the last one that was accepted, unless one was cleared since.

- `Visit.leaves`: what a visit may make of the sessions of the tabs.
- `Visits.invariant`: what every visit keeps holds after any visits.
- `Visits.holds`: the session that the visits say is stored is stored.
-/

namespace ClientSession

/-- A token and the end under which it was stored. -/
structure StoredSession where
  token : BearerToken
  expiry : Instant
deriving DecidableEq

/-- What may be done with the session of a tab and with the reactions to its end. -/
inductive Deed where
  | act (action : TabAction)
  | remaining
  | addReaction (reaction : Reaction)
  | removeReaction (id : Nat)

namespace Deed

/-- The tabs after a deed; none if it faults. -/
def left? (w : Tabs) (i : Nat) (now : Instant) : Deed → Option Tabs
  | .act action => some (action.run w i now).2
  | .remaining => (w.remaining i now).toOption.map (·.2)
  | .addReaction reaction => some (w.addReaction i reaction).2
  | .removeReaction id => some (w.removeReaction i id)

/-- The end that is given for a token. -/
def given? : Deed → Option Instant
  | .act (.install _ e) => e
  | _ => none

/-- An end that is given is an instant of the calendar. -/
def Dated (d : Deed) : Prop := ∀ e ∈ d.given?, e.InCalendar

instance (d : Deed) : Decidable d.Dated :=
  inferInstanceAs (Decidable (∀ e ∈ d.given?, e.InCalendar))

/-- The session that is stored after a deed, by the one that was stored before. A token that is
refused leaves it. -/
def stored (before : Option StoredSession) : Deed → Option StoredSession
  | .act (.install t e) => ((Tabs.term? t e).map (StoredSession.mk t)).or before
  | .act .clear => none
  | .act (.finish _) => none
  | _ => before

/-- The token is asked for. -/
def asksToken : Deed → Bool
  | .act .token => true
  | _ => false

end Deed

/-- One thing done with the session of a tab, at a reading of the clock. -/
structure Visit where
  tab : Nat
  now : Instant
  deed : Deed
  /-- The tabs as the visit finds them. -/
  found : Tabs

/-- The tabs after a visit. There are none if it cannot be made: its tab is not open, it names an
instant outside of the calendar, or it faults. -/
def Visit.left? (x : Visit) : Option Tabs :=
  if (x.found.tab? x.tab).isSome ∧ x.deed.Dated then x.deed.left? x.found x.tab x.now else none

/-- Visits one after another. -/
inductive Visits (w : Tabs) : List Visit → Tabs → Prop where
  | nil : Visits w [] w
  | snoc {visits : List Visit} {x : Visit} {w' : Tabs} (h : Visits w visits x.found)
      (hx : x.left? = some w') : Visits w (visits ++ [x]) w'

/-- The session that is stored after visits, by the one that was stored before them. -/
def lastSession (earlier : Option StoredSession) (visits : List Visit) : Option StoredSession :=
  visits.foldl (fun s x => x.deed.stored s) earlier

theorem lastSession_snoc (earlier : Option StoredSession) (visits : List Visit) (x : Visit) :
    lastSession earlier (visits ++ [x]) = x.deed.stored (lastSession earlier visits) := by
  simp [lastSession]

/-! ## What a visit leaves -/

namespace Tabs

variable {w w' : Tabs} {v : Vault} {i : Nat}

/-- Nothing that a session depends on has changed. -/
structure Alike (w w' : Tabs) : Prop where
  backend : w'.backend = w.backend
  listeners : w'.listeners = w.listeners
  isSome_tab? : ∀ j, (w'.tab? j).isSome = (w.tab? j).isSome
  vault : ∀ j, w'.vault j = w.vault j
  cache : ∀ j, w'.cache j = w.cache j

protected theorem Alike.refl (w : Tabs) : Alike w w :=
  ⟨rfl, rfl, fun _ => rfl, fun _ => rfl, fun _ => rfl⟩

/-- A change of the reactions of a tab. -/
theorem alike_modifyTab (w : Tabs) (i : Nat) {f : Tab → Tab}
    (hf : ∀ t, (f t).vault = t.vault ∧ (f t).cache = t.cache) : Alike w (w.modifyTab i f) := by
  have htab : ∀ j, ((w.modifyTab i f).tab? j).isSome = (w.tab? j).isSome ∧
      (w.modifyTab i f).vault j = w.vault j ∧ (w.modifyTab i f).cache j = w.cache j := by
    intro j
    rw [vault, vault, cache, cache, tab, tab, tab?_modifyTab]
    split
    · cases w.tab? j with
      | none => exact ⟨rfl, rfl, rfl⟩
      | some t => exact ⟨rfl, hf t⟩
    · exact ⟨rfl, rfl, rfl⟩
  exact ⟨rfl, rfl, fun j => (htab j).1, fun j => (htab j).2.1, fun j => (htab j).2.2⟩

/-- The session of a tab was cleared. -/
structure Cleared (v : Vault) (i : Nat) (w w' : Tabs) : Prop where
  erodes : Erodes w w'
  gone : w'.keeps v tokenKey = false
  self : w'.cache i = .empty
  others : w.keeps v tokenKey = true → ∀ j, w.Listening j → w'.cache j = .empty

theorem clearSession_cleared (hw : w.Shares v) (hi : (w.tab? i).isSome) :
    Cleared v i w (w.clearSession i) where
  erodes := (clearSession_fades hw.fadeable hi).erodes
  gone := clearSession_keeps hw hi (List.mem_cons_self ..)
  self := clearSession_cache w i
  others hs _ hj := clearSession_forgets hw hi hs hj

theorem Cleared.erodes_after {w'' : Tabs} (h : Cleared v i w w') (he : Erodes w' w'') :
    Cleared v i w w'' where
  erodes := h.erodes.trans he
  gone := he.keeps_eq_false h.gone
  self := he.cache_eq_empty h.self
  others hs j hj := he.cache_eq_empty (h.others hs j hj)

theorem endSession_cleared (hw : w.Shares v) (hi : (w.tab? i).isSome) (reason : EndReason) :
    Cleared v i w (w.endSession i reason) :=
  (clearSession_cleared hw hi).erodes_after (endSession_fades_clearSession hw hi reason).erodes

theorem listening_congr (hopen : ∀ j, (w'.tab? j).isSome = (w.tab? j).isSome)
    (hl : w'.listeners = w.listeners) (j : Nat) : w'.Listening j ↔ w.Listening j := by
  rw [Listening, Listening, hopen, hl]

/-- An end under which a token is stored is one of the calendar if a given one is. -/
theorem inCalendar_of_term? {t : BearerToken} {given : Option Instant} {e : Instant}
    (h : term? t given = some e) (hgiven : ∀ e ∈ given, e.InCalendar) :
    t.isBlank = false ∧ e.InCalendar := by
  rw [term?] at h
  split at h
  · cases h
  · rename_i hblank
    refine ⟨Bool.eq_false_iff.mpr hblank, ?_⟩
    cases given with
    | some e' =>
        obtain rfl := Option.some.inj h
        exact hgiven e' rfl
    | none =>
        rw [Option.none_or, claimedExpiry?_eq] at h
        obtain ⟨c, -, hc⟩ := Option.bind_eq_some_iff.mp h
        rw [Claims.expiresAt] at hc
        split at hc
        · rename_i t' ht'
          obtain rfl := Option.some.inj hc
          exact Instant.inCalendar_of_ofSeconds? ht'
        · cases hc

end Tabs

open Tabs

/-- What a visit may make of the sessions of the tabs, and of the session that is stored. -/
inductive Visit.Leaves (v : Vault) (x : Visit) : Tabs → Prop where
  | same {w : Tabs} (hs : ∀ s, x.deed.stored s = s) (h : Alike x.found w) : Leaves v x w
  | forgets (hs : ∀ s, x.deed.stored s = s) : Leaves v x (x.found.forget x.tab)
  /-- The token was asked for, and found to last. -/
  | finds {t : BearerToken} {e : Instant} (hs : ∀ s, x.deed.stored s = s)
      (hask : x.deed.asksToken = true) (hcold : (x.found.cache x.tab).liveToken? x.now = none)
      (ht : (x.found.storedToken x.tab).1 = some t) (he : x.found.storedEnd? x.tab t = some e)
      (hlt : x.now < e) :
      Leaves v x (x.found.setCache x.tab
        { x.found.cache x.tab with token := some t, expiresAt := some e })
  | decodes {t : BearerToken} {c : Claims} (hs : ∀ s, x.deed.stored s = s)
      (ht : (x.found.knownToken x.tab).1 = some t) (hc : Claims.decode t = .ok c) :
      Leaves v x (x.found.setCache x.tab
        ⟨some t, (x.found.expiresAt x.tab).1.or c.expiresAt.toOption, some c⟩)
  | clears {w : Tabs} (hs : ∀ s, x.deed.stored s = none) (h : Cleared v x.tab x.found w) :
      Leaves v x w
  | stores {t : BearerToken} {e : Instant} {w : Tabs} (hs : ∀ s, x.deed.stored s = some ⟨t, e⟩)
      (ht : t.isBlank = false) (he : e.InCalendar) (h : Installed v x.tab t e x.found w) :
      Leaves v x w

namespace Visit

variable {v : Vault} {x : Visit} {w : Tabs}

theorem leaves_token (h : x.found.Shares v) (hdeed : x.deed = .act .token) :
    x.Leaves v (x.found.token x.tab x.now).2 := by
  have hs : ∀ s, x.deed.stored s = s := fun s => by
    rw [hdeed]
    rfl
  have hread := tokenRead h.healthy x.tab x.now
  generalize x.found.token x.tab x.now = r at hread ⊢
  cases hread with
  | remembered hlive => exact .same hs (.refl _)
  | past hcold hpast => exact .forgets hs
  | found hcold ht he hlt =>
      refine .finds hs ?_ hcold ht he hlt
      rw [hdeed]
      rfl

theorem leaves_claims (h : x.found.Shares v) (hs : ∀ s, x.deed.stored s = s) :
    x.Leaves v (x.found.claims x.tab x.now).2 := by
  have hread := claimsRead h.healthy x.tab x.now
  generalize x.found.claims x.tab x.now = r at hread ⊢
  cases hread with
  | remembered hlive => exact .same hs (.refl _)
  | past hcold hpast => exact .forgets hs
  | unknown hcold hlasts hnone => exact .same hs (.refl _)
  | decoded hcold hlasts ht hc hvalid => exact .decodes hs ht hc

theorem leaves_act (h : x.found.Shares v) (hi : (x.found.tab? x.tab).isSome) {action : TabAction}
    (hdeed : x.deed = .act action) (hdated : x.deed.Dated) :
    x.Leaves v (action.run x.found x.tab x.now).2 := by
  have hstored : ∀ s, x.deed.stored s = (Deed.act action).stored s := fun s => by rw [hdeed]
  have hsame : (∀ s, (Deed.act action).stored s = s) →
      ∀ {w}, w = x.found → x.Leaves v w := by
    intro hs w hw
    rw [hw]
    exact .same (fun s => (hstored s).trans (hs s)) (.refl _)
  cases action with
  | install t given =>
      cases hterm : term? t given with
      | none =>
          refine hsame (fun s => ?_) ?_
          · simp [Deed.stored, hterm]
          · simp [TabAction.run, install_of_term_none hterm]
      | some e =>
          have hgiven : ∀ e ∈ given, e.InCalendar := by
            rw [hdeed] at hdated
            exact hdated
          obtain ⟨ht, he⟩ := inCalendar_of_term? hterm hgiven
          refine .stores (fun s => ?_) ht he (install_of_term hterm h hi)
          rw [hstored]
          simp [Deed.stored, hterm]
  | clear => exact .clears hstored (clearSession_cleared h hi)
  | finish reason => exact .clears hstored (endSession_cleared h hi reason)
  | forget => exact .forgets hstored
  | token => exact leaves_token h hdeed
  | hasToken => exact hsame (fun _ => rfl) (hasToken_state h.healthy x.tab)
  | claims => exact leaves_claims h hstored
  | userId => exact leaves_claims h hstored
  | expiresAt => exact hsame (fun _ => rfl) (expiresAt_state h.healthy x.tab)
  | isExpired => exact hsame (fun _ => rfl) (isExpired_state h.healthy x.tab x.now)
  | needsRefresh => exact hsame (fun _ => rfl) (needsRefresh_state h.healthy x.tab x.now)

theorem isSome_of_left? (hx : x.left? = some w) :
    (x.found.tab? x.tab).isSome ∧ x.deed.Dated ∧ x.deed.left? x.found x.tab x.now = some w := by
  rw [Visit.left?] at hx
  split at hx
  · rename_i h
    exact ⟨h.1, h.2, hx⟩
  · cases hx

theorem leaves (h : x.found.Shares v) (hx : x.left? = some w) : x.Leaves v w := by
  obtain ⟨hi, hdated, hleft⟩ := isSome_of_left? hx
  cases hdeed : x.deed with
  | act action =>
      rw [hdeed] at hleft
      obtain rfl := Option.some.inj hleft
      exact leaves_act h hi hdeed hdated
  | remaining =>
      have hw : w = (x.found.claims x.tab x.now).2 := by
        rw [hdeed] at hleft
        obtain ⟨⟨span, w'⟩, hr, rfl⟩ := Option.map_eq_some_iff.mp hleft
        rw [remaining] at hr
        split at hr
        · obtain ⟨-, rfl⟩ := Prod.mk.inj (Option.some.inj hr)
          rfl
        · rename_i c _
          cases hc : c.remainingAt x.now with
          | error e =>
              rw [hc] at hr
              cases hr
          | ok span' =>
              rw [hc] at hr
              cases hr
              rfl
      rw [hw]
      refine leaves_claims h fun s => ?_
      rw [hdeed]
      rfl
  | addReaction reaction =>
      rw [hdeed] at hleft
      obtain rfl := Option.some.inj hleft
      refine .same (fun s => ?_) (alike_modifyTab _ _ fun t => ⟨rfl, rfl⟩)
      rw [hdeed]
      rfl
  | removeReaction id =>
      rw [hdeed] at hleft
      obtain rfl := Option.some.inj hleft
      refine .same (fun s => ?_) (alike_modifyTab _ _ fun t => ⟨rfl, rfl⟩)
      rw [hdeed]
      rfl

namespace Leaves

theorem isSome_tab? (h : x.Leaves v w) (j : Nat) :
    (w.tab? j).isSome = (x.found.tab? j).isSome := by
  have hread : ∀ k, ((x.found.setCache x.tab k).tab? j).isSome = (x.found.tab? j).isSome :=
    fun k => isSome_tab?_congr (fun j => bare?_setCache x.found x.tab j k) j
  cases h with
  | same hs h => exact h.isSome_tab? j
  | forgets hs => exact hread _
  | finds hs hask hcold ht he hlt => exact hread _
  | decodes hs ht hc => exact hread _
  | clears hs h => exact h.erodes.isSome_tab? j
  | stores hs ht he h => exact isSome_tab?_congr h.bare j

theorem shares (h : x.Leaves v w) (hw : x.found.Shares v) : w.Shares v := by
  cases h with
  | same hs h => exact hw.congr h.backend h.isSome_tab? h.vault
  | forgets hs => exact hw.setCache _ _
  | finds hs hask hcold ht he hlt => exact hw.setCache _ _
  | decodes hs ht hc => exact hw.setCache _ _
  | clears hs h => exact h.erodes.shares hw
  | stores hs ht he h => exact h.shares

theorem listeners (h : x.Leaves v w) : w.listeners = x.found.listeners := by
  cases h with
  | same hs h => exact h.listeners
  | forgets hs => rfl
  | finds hs hask hcold ht he hlt => rfl
  | decodes hs ht hc => rfl
  | clears hs h => exact h.erodes.listeners
  | stores hs ht he h => exact h.listeners

end Leaves

end Visit

/-! ## Any number of visits -/

namespace Visits

variable {v : Vault} {w w' u : Tabs} {visits : List Visit} {earlier : Option StoredSession}

/-- What every visit keeps holds after any visits. -/
theorem invariant {A : List Visit → Tabs → Prop} (h : Visits w visits w') (hw : w.Shares v)
    (hstart : A [] w)
    (hstep : ∀ visits x u, x.found.Shares v → (x.found.tab? x.tab).isSome → x.Leaves v u →
      A visits x.found → A (visits ++ [x]) u) : w'.Shares v ∧ A visits w' := by
  induction h with
  | nil => exact ⟨hw, hstart⟩
  | @snoc visits x w' h hx ih =>
      obtain ⟨hshares, hA⟩ := ih
      have hleaves := Visit.leaves hshares hx
      exact ⟨hleaves.shares hshares,
        hstep visits x w' hshares (Visit.isSome_of_left? hx).1 hleaves hA⟩

theorem cons {x : Visit} (hx : x.left? = some u) (h : Visits u visits w') :
    Visits x.found (x :: visits) w' := by
  induction h with
  | nil =>
      show Visits x.found ([] ++ [x]) u
      exact .snoc .nil hx
  | @snoc visits y w' h hy ih => exact .snoc ih hy

/-- The visits in which deeds are done, and the tabs after them, if all can be done. -/
def play (w : Tabs) : List (Nat × Instant × Deed) → Option (List Visit × Tabs)
  | [] => some ([], w)
  | (tab, now, deed) :: deeds =>
    (Visit.mk tab now deed w).left?.bind fun u =>
      (play u deeds).map fun r => (⟨tab, now, deed, w⟩ :: r.1, r.2)

theorem of_play {deeds : List (Nat × Instant × Deed)} (h : play w deeds = some (visits, w')) :
    Visits w visits w' := by
  induction deeds generalizing w visits with
  | nil =>
      cases h
      exact .nil
  | cons d deeds ih =>
      obtain ⟨tab, now, deed⟩ := d
      obtain ⟨u, hu, hrest⟩ := Option.bind_eq_some_iff.mp h
      obtain ⟨r, hr, heq⟩ := Option.map_eq_some_iff.mp hrest
      cases heq
      exact cons hu (ih hr)

/-- The deeds can be done, and the visits and the tabs after them pass a test. -/
def passes (w : Tabs) (deeds : List (Nat × Instant × Deed)) (test : List Visit → Tabs → Bool) :
    Bool :=
  (play w deeds).any fun r => test r.1 r.2

/-- What is tested in doing deeds is so after visits. -/
theorem exists_of_passes {deeds : List (Nat × Instant × Deed)} {test : List Visit → Tabs → Bool}
    (h : passes w deeds test = true) : ∃ visits w', Visits w visits w' ∧ test visits w' = true := by
  obtain ⟨⟨visits, w'⟩, hplay, htest⟩ := (Option.any_eq_true _ _).mp h
  exact ⟨visits, w', of_play hplay, htest⟩

end Visits

/-! ## The stored session -/

namespace Tabs

variable {v : Vault} {w w' : Tabs} {i : Nat}

/-- The session is stored, its end as the second in which it falls. -/
structure Records (v : Vault) (s : StoredSession) (w : Tabs) : Prop where
  usable : s.token.isBlank = false
  dated : s.expiry.InCalendar
  token : w.backend.items.find? (v.rawKey tokenKey) = some (v.conceal s.token.text)
  expiry : w.backend.items.find? (v.rawKey expiryKey) =
    some (v.conceal (toString s.expiry.floorSeconds))

/-- This session is stored, or no token is. -/
def Holds (v : Vault) (w : Tabs) : Option StoredSession → Prop
  | some s => w.Records v s
  | none => w.keeps v tokenKey = false

theorem Holds.congr {s : Option StoredSession} (h : w.Holds v s) (hb : w'.backend = w.backend) :
    w'.Holds v s := by
  cases s with
  | none =>
      show (w'.backend.items.find? _).isSome = false
      rw [hb]
      exact h
  | some s =>
      have hr : w.Records v s := h
      exact ⟨hr.usable, hr.dated, hb ▸ hr.token, hb ▸ hr.expiry⟩

theorem Records.storedToken {s : StoredSession} (h : w.Records v s) (hw : w.Shares v)
    (hi : (w.tab? i).isSome) : (w.storedToken i).1 = some s.token :=
  storedToken_of_item hw hi h.usable h.token

theorem Records.storedExpiry {s : StoredSession} (h : w.Records v s) (hw : w.Shares v)
    (hi : (w.tab? i).isSome) : (w.storedExpiry i).1 = some s.expiry.startOfSecond :=
  (storedExpiry_of_item hw hi h.expiry).trans (Instant.ofSeconds?_floorSeconds h.dated)

theorem Records.storedEnd? {s : StoredSession} (h : w.Records v s) (hw : w.Shares v)
    (hi : (w.tab? i).isSome) (t : BearerToken) :
    w.storedEnd? i t = some s.expiry.startOfSecond := by
  rw [Tabs.storedEnd?, h.storedExpiry hw hi]
  rfl

theorem Holds.eq_none (h : w.Holds v none) (hw : w.Shares v) (hi : (w.tab? i).isSome) :
    (w.storedToken i).1 = none := by
  have hs : w.stores i tokenKey = false := (hw.stores_eq hi tokenKey).trans h
  rw [storedToken, readKey_eq_none hw.healthy hs]
  rfl

end Tabs

theorem Visit.Leaves.holds {v : Vault} {x : Visit} {w : Tabs} {s : Option StoredSession}
    (h : x.Leaves v w) (hs : x.found.Holds v s) : w.Holds v (x.deed.stored s) := by
  have hkept : (∀ s, x.deed.stored s = s) → w.backend = x.found.backend →
      w.Holds v (x.deed.stored s) := by
    intro hstored hb
    rw [hstored]
    exact hs.congr hb
  cases h with
  | same hstored h => exact hkept hstored h.backend
  | forgets hstored => exact hkept hstored rfl
  | finds hstored hask hcold ht he hlt => exact hkept hstored rfl
  | decodes hstored ht hc => exact hkept hstored rfl
  | clears hstored h =>
      rw [hstored]
      exact h.gone
  | stores hstored ht he h =>
      rw [hstored]
      exact ⟨ht, he, h.token, h.expiry⟩

/-- After any visits the last session is stored. -/
theorem Visits.holds {v : Vault} {w w' : Tabs} {visits : List Visit}
    {earlier : Option StoredSession} (h : Visits w visits w') (hw : w.Shares v)
    (hs : w.Holds v earlier) : w'.Holds v (lastSession earlier visits) := by
  refine (h.invariant (A := fun visits u => u.Holds v (lastSession earlier visits)) hw hs ?_).2
  intro visits x u _ _ hleaves hheld
  rw [lastSession_snoc]
  exact hleaves.holds hheld

end ClientSession
