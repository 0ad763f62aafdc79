import ClientSession.Proofs.Session.Setbacks
import ClientSession.Proofs.Tabs.Sightings

/-!
# Tabs of different spaces

The vaults of tabs over one backend may have different spaces, and then each space has a session of
its own. Still every tab hears of every removal, and is told the name of the key without the space.

- `Watched.Follows`: when a session ends, the token of the tab through which it ends is gone.
- `Tabs.Shared`: tabs after anything that is done with them, and all ends of sessions so far.
- `Tabs.Shared.fair`: what is so at each of these ends.
- `Tabs.ended_soundly_iff`: tabs of which none loses a session that is still stored to another one.
-/

namespace ClientSession

open Tabs

namespace Tabs

/-- Tabs over a backend in good order, each in one of some spaces. -/
structure Peers (spaces : String → Prop) (w : Tabs) : Prop where
  healthy : w.backend.Healthy
  space : ∀ j, (w.tab? j).isSome → spaces (w.vault j).space

variable {spaces : String → Prop} {w w' : Tabs}

theorem Peers.of_erodes (h : w.Peers spaces) (he : Erodes w w') : w'.Peers spaces where
  healthy := he.healthy h.healthy
  space j hj := by
    rw [vault_congr he.bare]
    exact h.space j (he.isSome_tab? j ▸ hj)

theorem Peers.of_abides (h : w.Peers spaces) (ha : Abides w w') : w'.Peers spaces where
  healthy := ha.healthy
  space j hj := by
    rw [ha.vault]
    exact h.space j ((ha.isSome_tab? j).symm.trans hj)

end Tabs

/-- A session ended among peers, when the token was gone of the tab through which it ended. -/
structure Sighting.Fair (spaces : String → Prop) (s : Sighting) : Prop where
  peers : s.tabs.Peers spaces
  tab : (s.tabs.tab? s.tab).isSome
  origin : (s.tabs.tab? s.origin).isSome
  gone : s.tabs.stores s.origin tokenKey = false

/-- In one space this is the token of the tab whose session ended. -/
theorem Sighting.Fair.stores_eq_false {spaces : String → Prop} {s : Sighting} (h : s.Fair spaces)
    (hspace : (s.tabs.vault s.tab).space = (s.tabs.vault s.origin).space) :
    s.tabs.stores s.tab tokenKey = false := by
  have hgone := h.gone
  unfold stores Vault.rawKey at hgone ⊢
  rw [hspace]
  exact hgone

namespace Watched

variable {spaces : String → Prop} {x x' x'' : Watched} {again : Nat → Watched → Watched}

/-- The tabs fade, and whatever end of a session is seen is one among peers. -/
structure Follows (spaces : String → Prop) (x x' : Watched) : Prop where
  erodes : Erodes x.tabs x'.tabs
  fair : ∀ s ∈ x'.seen, s ∈ x.seen ∨ s.Fair spaces

protected theorem Follows.refl (x : Watched) : Follows spaces x x := ⟨.refl _, fun _ hs => .inl hs⟩

protected theorem Follows.trans (h : Follows spaces x x') (h' : Follows spaces x' x'') :
    Follows spaces x x'' where
  erodes := h.erodes.trans h'.erodes
  fair s hs := (h'.fair s hs).elim (h.fair s) .inr

theorem Follows.on {f : Tabs → Tabs} (h : Erodes x.tabs (f x.tabs)) :
    Follows spaces x (x.on f) := ⟨h, fun _ hs => .inl hs⟩

theorem Follows.foldl {α : Type} {F : Watched → α → Watched} {l : List α}
    (h : ∀ x' a, a ∈ l → Follows spaces x x' → Follows spaces x' (F x' a)) :
    Follows spaces x (l.foldl F x) := by
  induction l generalizing x with
  | nil => exact .refl x
  | cons a l ih =>
      have hfirst := h x a List.mem_cons_self (.refl x)
      refine hfirst.trans (ih fun x' b hb hx' => ?_)
      exact h x' b (List.mem_cons_of_mem _ hb) (hfirst.trans hx')

section Consequences

variable (hagain : ∀ x i, x.tabs.Peers spaces → (x.tabs.tab? i).isSome →
  Follows spaces x (again i x)) (hx : x.tabs.Peers spaces)
include hagain hx

theorem follows_reactWith {i : Nat} (hi : (x.tabs.tab? i).isSome) (r : Reaction)
    (reason : EndReason) : Follows spaces x (reactWith again i r reason x) := by
  have hnote : Follows spaces x (x.on (·.note (.reacted i r reason))) := .on (.note _ _)
  cases r with
  | note name => exact hnote
  | stopWork => exact hnote
  | clear =>
      exact hnote.trans (hagain _ i (hx.of_erodes hnote.erodes)
        ((hnote.erodes.isSome_tab? i).trans hi))

theorem follows_endWith {i origin : Nat} (hi : (x.tabs.tab? i).isSome)
    (horigin : (x.tabs.tab? origin).isSome) (hgone : x.tabs.stores origin tokenKey = false)
    (reason : EndReason) : Follows spaces x (endWith again i reason origin x) := by
  have hsight : Follows spaces x (x.sight i reason origin) := by
    refine ⟨.note _ _, fun s hs => ?_⟩
    rcases List.mem_append.mp hs with hs | hs
    · exact .inl hs
    · obtain rfl := List.mem_singleton.mp hs
      exact .inr ⟨hx, hi, horigin, hgone⟩
  refine hsight.trans (.foldl fun x' r _ hx' => ?_)
  have hall := hsight.trans hx'
  exact follows_reactWith hagain (hx.of_erodes hall.erodes) ((hall.erodes.isSome_tab? i).trans hi)
    r.2 reason

theorem follows_hearWith {c : Change} (horigin : (x.tabs.tab? c.origin).isSome)
    (hgone : c.key = tokenKey → x.tabs.stores c.origin tokenKey = false) (l : Listener) :
    Follows spaces x (hearWith again c l x) := by
  cases l with
  | note name => exact Follows.on (f := (·.note (.heard name c.key))) (.note _ _)
  | tab j =>
      unfold hearWith
      dsimp only
      split
      · rename_i hhears
        obtain ⟨-, hj, htoken, -⟩ := hhears
        have hforget : Follows spaces x (x.on (·.forget j)) := .on (.forget _ j)
        have he := hforget.erodes
        exact hforget.trans (follows_endWith hagain (hx.of_erodes he) ((he.isSome_tab? j).trans hj)
          ((he.isSome_tab? _).trans horigin) (he.stores_eq_false (hgone htoken)) .crossTab)
      · exact .refl x

theorem follows_publishWith {c : Change} (horigin : (x.tabs.tab? c.origin).isSome)
    (hgone : c.key = tokenKey → x.tabs.stores c.origin tokenKey = false) :
    Follows spaces x (publishWith again c x) := by
  have hnote : Follows spaces x (x.on (·.note (.changed c))) := .on (.note _ _)
  refine hnote.trans (.foldl fun x' l _ hx' => ?_)
  have he := (hnote.trans hx').erodes
  exact follows_hearWith hagain (hx.of_erodes he) ((he.isSome_tab? _).trans horigin)
    (fun htoken => he.stores_eq_false (hgone htoken)) l.2

/-- By the time that a removal is made known the key is gone. -/
theorem follows_removeWith {i : Nat} (hi : (x.tabs.tab? i).isSome) (key : String) :
    Follows spaces x (removeWith again i key x) ∧
      (removeWith again i key x).tabs.stores i key = false := by
  let v := x.tabs.vault i
  have hdrop : Follows spaces x (x.on (·.without v key)) := .on (hushed_without v key x.tabs).erodes
  have hgone : (x.on (·.without v key)).tabs.stores i key = false := by
    show (Table.find? (x.tabs.backend.items.erase (v.rawKey key)) (v.rawKey key)).isSome = false
    rw [Table.find?_erase, if_pos rfl, Option.isSome_none]
  have hrest : Follows spaces (x.on (·.without v key))
      (publishWith again ⟨key, none, i⟩ (x.on (·.without v key))) := by
    refine follows_publishWith hagain (hx.of_erodes hdrop.erodes) hi fun htoken => ?_
    obtain rfl : key = tokenKey := htoken
    exact hgone
  unfold removeWith
  rw [Vault.remove_of_healthy hx.healthy]
  dsimp only
  split
  · exact ⟨hdrop.trans hrest, hrest.erodes.stores_eq_false hgone⟩
  · exact ⟨hdrop, hgone⟩

theorem follows_discardWith {i : Nat} (hi : (x.tabs.tab? i).isSome) (key : String) :
    Follows spaces x (discardWith again i key x) ∧
      (discardWith again i key x).tabs.stores i key = false := by
  unfold discardWith
  rw [hasKey_of_healthy hx.healthy]
  dsimp only
  split
  · exact follows_removeWith hagain hx hi key
  · rename_i hmissing
    exact ⟨.refl x, Bool.eq_false_iff.mpr hmissing⟩

theorem follows_clearWith {i : Nat} (hi : (x.tabs.tab? i).isSome) :
    Follows spaces x (clearWith again i x) ∧
      (clearWith again i x).tabs.stores i tokenKey = false := by
  obtain ⟨hfirst, hgone⟩ := follows_discardWith hagain hx hi tokenKey
  have hothers : Follows spaces (discardWith again i tokenKey x)
      ([expiryKey, claimsKey].foldl (fun x key => discardWith again i key x)
        (discardWith again i tokenKey x)) := by
    refine .foldl fun x' key _ hx' => ?_
    have he := (hfirst.trans hx').erodes
    exact (follows_discardWith hagain (hx.of_erodes he) ((he.isSome_tab? i).trans hi) key).1
  have hrest : Follows spaces (discardWith again i tokenKey x) (clearWith again i x) :=
    hothers.trans (.on (.forget _ i))
  exact ⟨hfirst.trans hrest, hrest.erodes.stores_eq_false hgone⟩

end Consequences

theorem follows_clearNested (depth : Nat) (x : Watched) (i : Nat) (hx : x.tabs.Peers spaces)
    (hi : (x.tabs.tab? i).isSome) : Follows spaces x (clearNested depth i x) := by
  induction depth generalizing x i with
  | zero => exact .on (.forget _ i)
  | succ depth ih => exact (follows_clearWith ih hx hi).1

section Operations

variable (hx : x.tabs.Peers spaces) {i : Nat} (hi : (x.tabs.tab? i).isSome)
include hx hi

theorem follows_removeKey (key : String) : Follows spaces x (x.removeKey i key) :=
  (follows_removeWith (follows_clearNested _) hx hi key).1

theorem follows_clearVault : Follows spaces x (x.clearVault i) := by
  have hlist : ((x.tabs.vault i).keys x.tabs.backend).2 = x.tabs.backend := hx.healthy.advance_eq
  have hsame : (x.on fun w => { w with backend := ((x.tabs.vault i).keys x.tabs.backend).2 }) = x := by
    rw [hlist]
    rfl
  unfold clearVault
  dsimp only
  rw [hsame]
  refine .foldl fun x' key _ hx' => ?_
  exact follows_removeKey (hx.of_erodes hx'.erodes) ((hx'.erodes.isSome_tab? i).trans hi) key

theorem follows_clearSession : Follows spaces x (x.clearSession i) ∧
    (x.clearSession i).tabs.stores i tokenKey = false :=
  follows_clearWith (follows_clearNested _) hx hi

theorem follows_endSession (reason : EndReason) : Follows spaces x (x.endSession i reason) := by
  obtain ⟨hclear, hgone⟩ := follows_clearSession hx hi
  have hi' := (hclear.erodes.isSome_tab? i).trans hi
  exact hclear.trans (follows_endWith (follows_clearNested _) (hx.of_erodes hclear.erodes) hi' hi'
    hgone reason)

end Operations

end Watched

/-! ## All that is done -/

/-- What may be done with tabs over one backend: with who listens, with the vault of a tab, and with
its session. -/
inductive Feat where
  | openTab (t : Tab)
  | closeTab (i : Nat)
  | listen (name : String)
  | unlisten (id : Nat)
  | read (i : Nat) (key : String)
  | has (i : Nat) (key : String)
  | write (i : Nat) (key value : String)
  | remove (i : Nat) (key : String)
  | removeAll (i : Nat)
  | deed (i : Nat) (now : Instant) (d : Deed)

namespace Feat

/-- The tabs afterwards; none if it faults. -/
def left? (w : Tabs) : Feat → Option Tabs
  | .openTab t => some (w.openTab t)
  | .closeTab i => some (w.closeTab i)
  | .listen name => some (w.listen (.note name)).2
  | .unlisten id => some (w.unlisten id)
  | .read i key => some (w.readKey i key).2
  | .has i key => some (w.hasKey i key).2
  | .write i key value => some (w.writeKey i key value)
  | .remove i key => some (w.removeKey i key)
  | .removeAll i => some (w.clearVault i)
  | .deed i now d => d.left? w i now

/-- The same, with the ends of sessions that are seen meanwhile. Only removals end sessions. -/
def watch? (w : Tabs) : Feat → Option Watched
  | .remove i key => some (Watched.removeKey i key ⟨w, []⟩)
  | .removeAll i => some (Watched.clearVault i ⟨w, []⟩)
  | .deed i _ (.act .clear) => some (Watched.clearSession i ⟨w, []⟩)
  | .deed i _ (.act (.finish reason)) => some (Watched.endSession i reason ⟨w, []⟩)
  | x => (x.left? w).map (⟨·, []⟩)

/-- A new tab has one of the spaces, and a tab that is used is open. -/
def Fits (spaces : String → Prop) (w : Tabs) : Feat → Prop
  | .openTab t => spaces t.vault.space
  | .closeTab _ => True
  | .listen _ => True
  | .unlisten _ => True
  | .read i _ => (w.tab? i).isSome
  | .has i _ => (w.tab? i).isSome
  | .write i _ _ => (w.tab? i).isSome
  | .remove i _ => (w.tab? i).isSome
  | .removeAll i => (w.tab? i).isSome
  | .deed i _ _ => (w.tab? i).isSome

/-- Of the ends of sessions that a feat brings about none is overlooked. -/
structure Sees (w : Tabs) (r : Watched) : Prop where
  ends : r.tabs.history.filter (·.isEnd) =
    w.history.filter (·.isEnd) ++ r.seen.map Sighting.occurrence

theorem watch?_of_mirrors {w : Tabs} {F : Watched → Watched} {f : Tabs → Tabs}
    (h : Watched.Mirrors F f) : (F ⟨w, []⟩).tabs = f w ∧ Sees w (F ⟨w, []⟩) :=
  ⟨h.tabs _, ⟨h.told _ _ (List.append_nil _).symm⟩⟩

/-- Where no end of a session is noted there is none to see. -/
theorem sees_nothing {w w' : Tabs}
    (h : w'.history.filter (·.isEnd) = w.history.filter (·.isEnd)) : Sees w ⟨w', []⟩ :=
  ⟨h.trans (List.append_nil _).symm⟩

theorem ends_removeKey {key : String} (hkey : key ≠ tokenKey) (w : Tabs) (i : Nat) :
    (w.removeKey i key).history.filter (·.isEnd) = w.history.filter (·.isEnd) := by
  unfold Tabs.removeKey Tabs.removeWith
  dsimp only
  split
  · unfold Tabs.publishWith
    rw [foldl_hearWith_of_ne hkey]
    have hechoes : (echoes key w.listeners).filter (·.isEnd) = [] := by
      rw [List.filter_eq_nil_iff]
      intro o ho
      obtain ⟨⟨n, l⟩, -, hl⟩ := List.mem_filterMap.mp ho
      cases l with
      | note name =>
          obtain rfl := Option.some.inj hl
          exact Bool.false_ne_true
      | tab k => cases hl
    show ((w.history ++ [Occurrence.changed ⟨key, none, i⟩]) ++ echoes key w.listeners).filter
      (·.isEnd) = _
    rw [List.filter_append, List.filter_append, hechoes]
    simp [Occurrence.isEnd]
  · rfl

theorem ends_install (w : Tabs) (i : Nat) (t : BearerToken) (given : Option Instant) :
    (w.install i t given).2.history.filter (·.isEnd) = w.history.filter (·.isEnd) := by
  unfold install
  split
  · rfl
  · dsimp only
    split
    · rfl
    · split
      · rfl
      · exact ends_removeKey (by decide) _ i

/-- The deed clears the session of a tab. -/
def clearsSession : Deed → Bool
  | .act .clear => true
  | .act (.finish _) => true
  | _ => false

/-- A deed that clears no session neither opens nor closes a tab, and no end of a session is noted.
-/
theorem quiet_of_deed {w w' : Tabs} (hb : w.backend.Healthy) {i : Nat} {now : Instant} {d : Deed}
    (hd : clearsSession d = false) (h : d.left? w i now = some w') :
    Abides w w' ∧ w'.history.filter (·.isEnd) = w.history.filter (·.isEnd) := by
  have hsame : ∀ {u : Tabs}, u = w →
      Abides w u ∧ u.history.filter (·.isEnd) = w.history.filter (·.isEnd) := by
    rintro u rfl
    exact ⟨.refl hb, rfl⟩
  have hrecalls : ∀ {u : Tabs}, Recalls i w u →
      Abides w u ∧ u.history.filter (·.isEnd) = w.history.filter (·.isEnd) :=
    fun hu => ⟨hu.abides hb, by rw [hu.history]⟩
  cases d with
  | act action =>
      obtain rfl := Option.some.inj h
      cases action with
      | install t given => exact ⟨abides_install hb i t given, ends_install w i t given⟩
      | clear => cases hd
      | finish reason => cases hd
      | forget => exact ⟨abides_setCache hb i _, rfl⟩
      | token => exact hrecalls (token_recalls hb i now)
      | hasToken => exact hsame (hasToken_state hb i)
      | claims => exact hrecalls (claims_recalls hb i now)
      | userId => exact hrecalls (userId_recalls hb i now)
      | expiresAt => exact hsame (expiresAt_state hb i)
      | isExpired => exact hsame (isExpired_state hb i now)
      | needsRefresh => exact hsame (needsRefresh_state hb i now)
  | remaining =>
      have hclaims := hrecalls (claims_recalls hb i now)
      cases hspan : w.remaining i now with
      | error e =>
          rw [Deed.left?, hspan] at h
          cases h
      | ok r =>
          rw [Deed.left?, hspan] at h
          obtain rfl := Option.some.inj h
          rw [← remaining_state hspan] at hclaims
          exact hclaims
  | addReaction reaction =>
      obtain rfl := Option.some.inj h
      exact ⟨abides_modifyTab hb i fun _ => ⟨rfl, rfl⟩, rfl⟩
  | removeReaction id =>
      obtain rfl := Option.some.inj h
      exact ⟨abides_modifyTab hb i fun _ => ⟨rfl, rfl⟩, rfl⟩

theorem watch?_deed {w : Tabs} {i : Nat} {now : Instant} {d : Deed}
    (hd : clearsSession d = false) :
    (Feat.deed i now d).watch? w = (d.left? w i now).map (⟨·, []⟩) := by
  cases d with
  | act action => cases action <;> first | rfl | cases hd
  | _ => rfl

/-- What is watched is what is done, and all ends of sessions are seen. -/
theorem watch?_spec {w : Tabs} (hb : w.backend.Healthy) {x : Feat} {r : Watched}
    (h : x.watch? w = some r) : x.left? w = some r.tabs ∧ Sees w r := by
  have hmirrors : ∀ {F : Watched → Watched} {f : Tabs → Tabs}, Watched.Mirrors F f →
      x.left? w = some (f w) → F ⟨w, []⟩ = r → x.left? w = some r.tabs ∧ Sees w r := by
    rintro F f hF hleft rfl
    obtain ⟨htabs, hsees⟩ := watch?_of_mirrors hF (w := w)
    exact ⟨hleft.trans (congrArg some htabs.symm), hsees⟩
  have hplain : ∀ {w' : Tabs}, x.left? w = some w' → ⟨w', []⟩ = r →
      w'.history.filter (·.isEnd) = w.history.filter (·.isEnd) →
        x.left? w = some r.tabs ∧ Sees w r := by
    rintro w' hleft rfl hends
    exact ⟨hleft, sees_nothing hends⟩
  cases x with
  | openTab t => exact hplain rfl (Option.some.inj h) rfl
  | closeTab i => exact hplain rfl (Option.some.inj h) rfl
  | listen name => exact hplain rfl (Option.some.inj h) rfl
  | unlisten id => exact hplain rfl (Option.some.inj h) rfl
  | read i key => exact hplain rfl (Option.some.inj h) rfl
  | has i key => exact hplain rfl (Option.some.inj h) rfl
  | write i key value => exact hplain rfl (Option.some.inj h) rfl
  | remove i key => exact hmirrors (Watched.mirrors_removeKey i key) rfl (Option.some.inj h)
  | removeAll i => exact hmirrors (Watched.mirrors_clearVault i) rfl (Option.some.inj h)
  | deed i now d =>
      cases hd : clearsSession d with
      | false =>
          rw [watch?_deed hd] at h
          obtain ⟨w', hleft, hr⟩ := Option.map_eq_some_iff.mp h
          exact hplain hleft hr (quiet_of_deed hb hd hleft).2
      | true =>
          cases d with
          | act action =>
              cases action with
              | clear =>
                  exact hmirrors (Watched.mirrors_clearSession i) rfl (Option.some.inj h)
              | finish reason =>
                  exact hmirrors (Watched.mirrors_endSession i reason) rfl (Option.some.inj h)
              | _ => cases hd
          | _ => cases hd

end Feat

namespace Tabs

variable {spaces : String → Prop} {w w' : Tabs} {seen : List Sighting}

theorem Peers.openTab (h : w.Peers spaces) {t : Tab} (ht : spaces t.vault.space) :
    (w.openTab t).Peers spaces where
  healthy := h.healthy
  space j hj := by
    rw [vault, tab, tab?_openTab]
    rw [tab?_openTab] at hj
    split
    · exact ht
    · rename_i hne
      rw [if_neg hne] at hj
      exact h.space j hj

theorem Peers.closeTab (h : w.Peers spaces) (i : Nat) : (w.closeTab i).Peers spaces where
  healthy := h.healthy
  space j hj := by
    rw [vault, tab, tab?_closeTab]
    rw [tab?_closeTab] at hj
    split
    · rename_i heq
      rw [if_pos heq] at hj
      cases hj
    · rename_i hne
      rw [if_neg hne] at hj
      exact h.space j hj

/-- After anything that is done with peers they are peers, and it was so at every end of a session
that was seen. -/
theorem Peers.watch (h : w.Peers spaces) {x : Feat} (hx : x.Fits spaces w) {r : Watched}
    (hr : x.watch? w = some r) : r.tabs.Peers spaces ∧ ∀ s ∈ r.seen, s.Fair spaces := by
  have hb := h.healthy
  have hfollows : Watched.Follows spaces ⟨w, []⟩ r →
      r.tabs.Peers spaces ∧ ∀ s ∈ r.seen, s.Fair spaces := fun hf =>
    ⟨h.of_erodes hf.erodes, fun s hs => (hf.fair s hs).resolve_left List.not_mem_nil⟩
  have hplain : ∀ {w' : Tabs}, w'.Peers spaces → ⟨w', []⟩ = r →
      r.tabs.Peers spaces ∧ ∀ s ∈ r.seen, s.Fair spaces := by
    rintro w' hw' rfl
    exact ⟨hw', List.forall_mem_nil _⟩
  have hopen : ∀ {i : Nat}, (w.tab? i).isSome → ((⟨w, []⟩ : Watched).tabs.tab? i).isSome :=
    fun hi => hi
  cases x with
  | openTab t => exact hplain (h.openTab hx) (Option.some.inj hr)
  | closeTab i => exact hplain (h.closeTab i) (Option.some.inj hr)
  | listen name =>
      have hlisten : (w.listen (.note name)).2.Peers spaces := ⟨hb, h.space⟩
      exact hplain hlisten (Option.some.inj hr)
  | unlisten id =>
      have hunlisten : (w.unlisten id).Peers spaces := ⟨hb, h.space⟩
      exact hplain hunlisten (Option.some.inj hr)
  | read i key =>
      refine hplain ?_ (Option.some.inj hr)
      rw [readKey_of_healthy hb]
      exact h
  | has i key =>
      refine hplain ?_ (Option.some.inj hr)
      rw [hasKey_of_healthy hb]
      exact h
  | write i key value =>
      exact hplain (h.of_abides (abides_writeKey hb i key value)) (Option.some.inj hr)
  | remove i key =>
      obtain rfl := Option.some.inj hr
      exact hfollows (Watched.follows_removeKey h (hopen hx) key)
  | removeAll i =>
      obtain rfl := Option.some.inj hr
      exact hfollows (Watched.follows_clearVault h (hopen hx))
  | deed i now d =>
      cases hd : Feat.clearsSession d with
      | false =>
          rw [Feat.watch?_deed hd] at hr
          obtain ⟨w', hleft, hr⟩ := Option.map_eq_some_iff.mp hr
          exact hplain (h.of_abides (Feat.quiet_of_deed hb hd hleft).1) hr
      | true =>
          cases d with
          | act action =>
              cases action with
              | clear =>
                  obtain rfl := Option.some.inj hr
                  exact hfollows (Watched.follows_clearSession h (hopen hx)).1
              | finish reason =>
                  obtain rfl := Option.some.inj hr
                  exact hfollows (Watched.follows_endSession h (hopen hx) reason)
              | _ => cases hd
          | _ => cases hd

/-- Tabs in some spaces after anything that is done with them, and the ends of sessions that were
seen. -/
inductive Shared (spaces : String → Prop) : Tabs → List Sighting → Prop where
  | start (b : Backend) (hb : b.Healthy) : Shared spaces (onBackend b) []
  | feat {w : Tabs} {seen : List Sighting} (h : Shared spaces w seen) (x : Feat)
      (hx : x.Fits spaces w) {r : Watched} (hr : x.watch? w = some r) :
      Shared spaces r.tabs (seen ++ r.seen)

/-- Every end of a session was one among peers. -/
theorem Shared.fair (h : Shared spaces w seen) :
    w.Peers spaces ∧ ∀ s ∈ seen, s.Fair spaces := by
  induction h with
  | start b hb => exact ⟨⟨hb, fun j hj => by cases hj⟩, List.forall_mem_nil _⟩
  | feat h x hx hr ih =>
      obtain ⟨hpeers, hseen⟩ := ih.1.watch hx hr
      refine ⟨hpeers, fun s hs => ?_⟩
      rcases List.mem_append.mp hs with hs | hs
      · exact ih.2 s hs
      · exact hseen s hs

/-- The ends of sessions that were noted are those that were seen, in the same order. -/
theorem Shared.ends (h : Shared spaces w seen) :
    w.history.filter (·.isEnd) = seen.map Sighting.occurrence := by
  induction h with
  | start b hb => rfl
  | feat h x hx hr ih =>
      obtain ⟨-, hsees⟩ := Feat.watch?_spec h.fair.1.healthy hr
      rw [hsees.ends, ih, List.map_append]

/-! ## Strangers -/

/-- Two tabs of different spaces; something is stored as the token of the first one. -/
def strangers (a b : String) : Tabs :=
  (((onBackend (.ofItems [])).openTab (.opened ⟨a, ⟨"", "", "", ""⟩⟩ (.ofSeconds 300))).openTab
    (.opened ⟨b, ⟨"", "", "", ""⟩⟩ (.ofSeconds 300))).writeKey 0 tokenKey "t"

theorem shared_strangers {a b : String} (ha : spaces a) (hb : spaces b) :
    Shared spaces (strangers a b) [] := by
  have hstart : Shared spaces (onBackend (.ofItems [])) [] := .start _ ⟨rfl, rfl⟩
  have hfirst := hstart.feat (.openTab (.opened ⟨a, ⟨"", "", "", ""⟩⟩ (.ofSeconds 300))) ha rfl
  have hboth := hfirst.feat (.openTab (.opened ⟨b, ⟨"", "", "", ""⟩⟩ (.ofSeconds 300))) hb rfl
  exact hboth.feat (.write 0 tokenKey "t") rfl rfl

/-- When the second one removes its own token, the first one loses its session to it, which is still
stored. -/
theorem strangers_removeKey {a b : String} (hne : a ≠ b) :
    ∃ s ∈ (Watched.removeKey 1 tokenKey ⟨strangers a b, []⟩).seen,
      s.reason = .crossTab ∧ s.tabs.stores s.tab tokenKey = true := by
  have hseen : ∃ u, (Watched.removeKey 1 tokenKey ⟨strangers a b, []⟩).seen =
      [⟨0, .crossTab, 1, u⟩] ∧ u.vault 0 = ⟨a, ⟨"", "", "", ""⟩⟩ ∧
        u.backend.items = (strangers a b).backend.items.erase (b ++ tokenKey) :=
    ⟨_, rfl, rfl, rfl⟩
  obtain ⟨u, hseen, hvault, hitems⟩ := hseen
  refine ⟨_, by rw [hseen]; exact List.mem_singleton_self _, rfl, ?_⟩
  have hkeys : ¬b ++ tokenKey = a ++ tokenKey := by simpa using hne.symm
  have hstored : (strangers a b).backend.items.find? (a ++ tokenKey) =
      some (Vault.conceal ⟨a, ⟨"", "", "", ""⟩⟩ "t") := by
    show (Table.insert _ (a ++ tokenKey) _).find? (a ++ tokenKey) = _
    rw [Table.find?_insert, if_pos rfl]
    rfl
  unfold stores
  rw [hvault, hitems, Vault.rawKey, Table.find?_erase, if_neg hkeys, hstored, Option.isSome_some]

/-- No tab ever loses a session that is still stored to another tab, whatever is done with the tabs,
if and only if there is one space at most. -/
theorem ended_soundly_iff (spaces : String → Prop) :
    (∀ w seen, Shared spaces w seen → ∀ s ∈ seen, s.reason = .crossTab →
      s.tabs.stores s.tab tokenKey = false) ↔ ∀ a b, spaces a → spaces b → a = b := by
  constructor
  · intro hsound a b ha hb
    by_contra hne
    have hshared := (shared_strangers ha hb).feat (.remove 1 tokenKey) rfl rfl
    obtain ⟨s, hs, hreason, hstored⟩ := strangers_removeKey hne
    have hgone := hsound _ _ hshared s hs hreason
    rw [hstored] at hgone
    cases hgone
  · intro hone w seen h s hs _
    have hfair := h.fair.2 s hs
    exact hfair.stores_eq_false
      (hone _ _ (hfair.peers.space _ hfair.tab) (hfair.peers.space _ hfair.origin))

/-- So not every tab that loses its session to another one has lost what is stored of it. -/
theorem not_ended_soundly : ¬∀ (w : Tabs) (seen : List Sighting), Shared (fun _ => True) w seen →
    ∀ s ∈ seen, s.reason = .crossTab → s.tabs.stores s.tab tokenKey = false := by
  intro hsound
  have hshared : Shared (fun _ => True) (strangers "app_" "other_") [] :=
    shared_strangers trivial trivial
  have hne : "app_" ≠ "other_" := by decide
  obtain ⟨s, hs, hreason, hstored⟩ := strangers_removeKey hne
  have hgone := hsound _ _ (hshared.feat (.remove 1 tokenKey) rfl rfl) s hs hreason
  rw [hstored] at hgone
  cases hgone

end Tabs

end ClientSession
