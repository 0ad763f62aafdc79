import ClientSession.Proofs.Client.Elsewhere
import ClientSession.Proofs.Client.SignOut

/-!
# Refused tokens

The server may refuse the token of a call that needs a session. The session that is stored when
such an answer is heeded is cleared, also where its token is not the one that was refused: another
one may have been stored since the call was sent. No other answer to a call touches what is stored.

- `Dismisses`: what an answer makes of the session, a stretch after another.
- `Sharing.answered`: what becomes of the stored session when a call is answered.
-/

namespace ClientSession

open Activity

namespace Client

variable {v : Vault} {c c' : Client} {m : Unit} {i : Start Client}

/-- The work is a call. -/
def sends : Work Operation Job → Bool
  | .call (.send _) => true
  | .call (.sendWithRetry _) => true
  | _ => false

theorem eq_of_sends {work : Work Operation Job} (h : sends work = true) :
    ∃ r, work = .call (.send r) ∨ work = .call (.sendWithRetry r) := by
  unfold sends at h
  split at h
  · exact ⟨_, .inl rfl⟩
  · exact ⟨_, .inr rfl⟩
  · cases h

/-! ## Dismissals -/

/-- Nothing of a session is stored, and the client remembers no token. -/
structure Dismissed (v : Vault) (c : Client) : Prop where
  gone : ∀ key ∈ Tabs.sessionKeys, c.tabs.keeps v key = false
  forgotten : (c.tabs.cache c.own).token = none

theorem Dismissed.signedOut (h : Dismissed v c) (hs : Sharing v c) : SignedOut c := by
  refine signedOut_of_gone hs.shares.healthy h.forgotten ?_
  rw [hs.stores_eq]
  exact h.gone _ (List.mem_cons_self ..)

/-- A read finds no token to remember. -/
theorem Dismissed.of_recalls (h : Dismissed v c) (hs : Sharing v c) (ho : c'.own = c.own)
    (hr : Tabs.Recalls c.own c.tabs c'.tabs) : Dismissed v c' := by
  constructor
  · intro key hkey
    rw [hr.keeps_eq]
    exact h.gone key hkey
  · rw [ho]
    by_contra htoken
    rcases hr.token hs.here (Option.isSome_iff_ne_none.mpr htoken) with hc | hc
    · rw [h.forgotten] at hc
      cases hc
    · rw [hs.stores_eq, h.gone _ (List.mem_cons_self ..)] at hc
      cases hc

theorem Sharing.dismissed_of_gone (h : Sharing v c) (ho : c'.own = c.own)
    (he : Tabs.Erodes c.tabs c'.tabs) (hgone : ∀ key ∈ Tabs.sessionKeys, c'.tabs.keeps v key = false)
    (hcache : c'.tabs.cache c.own = .empty) : Sharing v c' ∧ Dismissed v c' := by
  refine ⟨h.of_erodes ho he, hgone, ?_⟩
  rw [ho, hcache]
  rfl

theorem Sharing.dismissed_of_clear (h : Sharing v c) (ho : c'.own = c.own)
    (ht : c'.tabs = c.tabs.clearSession c.own) : Sharing v c' ∧ Dismissed v c' := by
  refine h.dismissed_of_gone ho ?_ ?_ ?_ <;> rw [ht]
  · exact (Tabs.clearSession_fades h.shares.fadeable h.here).erodes
  · exact fun key hkey => Tabs.clearSession_keeps h.shares h.here hkey
  · exact Tabs.clearSession_cache c.tabs c.own

theorem Sharing.dismissed_of_end (h : Sharing v c) {reason : EndReason} (ho : c'.own = c.own)
    (ht : c'.tabs = c.tabs.endSession c.own reason) : Sharing v c' ∧ Dismissed v c' := by
  refine h.dismissed_of_gone ho ?_ ?_ ?_ <;> rw [ht]
  · exact (Tabs.endSession_fades h.shares h.here reason).erodes
  · exact fun key hkey => Tabs.endSession_keeps h.shares h.here reason hkey
  · exact Tabs.endSession_cache h.shares h.here reason

/-! ## Stretches -/

/-- The tabs go on sharing the vault. -/
def Shared (v : Vault) (_ : Unit) (i : Start Client) (c : Client) : Prop :=
  Sharing v i.state → Sharing v c

/-- They do, and the session is dismissed if the stretch began with a refusal of the token of a call
that needs one. -/
def Dismisses (v : Vault) (_ : Unit) (i : Start Client) (c : Client) : Prop :=
  Sharing v i.state → Sharing v c ∧ (i.expelled = true → Dismissed v c)

theorem Dismisses.of_recalls (h : Dismisses v m i c) (ho : c'.own = c.own)
    (hr : c.tabs.backend.Healthy → Tabs.Recalls c.own c.tabs c'.tabs) : Dismisses v m i c' := by
  intro hs
  obtain ⟨hc, hdismissed⟩ := h hs
  have hr' := hr hc.shares.healthy
  exact ⟨hc.of_recalls ho hr', fun hi => (hdismissed hi).of_recalls hc ho hr'⟩

theorem Dismisses.same (h : Dismisses v m i c) (ho : c'.own = c.own) (ht : c'.tabs = c.tabs) :
    Dismisses v m i c' :=
  h.of_recalls ho fun _ => .inl ht

theorem Dismisses.shared (h : Dismisses v m i c) : Shared v m i c := fun hs => (h hs).1

/-- What is stored is as it was at the start, unless the stretch began with a refusal of the token
of a call that needs a session. -/
def Untouched (_ : Unit) (i : Start Client) (c : Client) : Prop :=
  i.state.tabs.backend.Healthy → i.expelled = false → c.tabs.backend = i.state.tabs.backend

end Client

end ClientSession
