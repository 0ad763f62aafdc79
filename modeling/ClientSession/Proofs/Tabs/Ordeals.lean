import ClientSession.Proofs.Session.Setbacks
import ClientSession.Proofs.Tabs.Gathering

/-!
# Visits while storage fails

The one open tab is visited again and again, at any readings of the clock. Before each visit it may
change in any way which calls of the backend fail.

- `Visit.yields`: what a visit may leave, whichever of its calls fail.
- `Ordeal.invariant`: what every visit and every change of the failures keeps holds after any
  visits.
-/

namespace ClientSession

open Tabs

namespace Deed

/-- The session that a deed is to store, if its token is accepted. -/
def session? (d : Deed) : Option StoredSession := d.stored none

theorem session?_install (t : BearerToken) (given : Option Instant) :
    (act (.install t given)).session? = (term? t given).map (StoredSession.mk t) :=
  Option.or_none

end Deed

namespace Tabs

variable {w w' : Tabs} {i : Nat}

/-- No other tab is open. -/
structure Sole (w : Tabs) (i : Nat) : Prop where
  here : (w.tab? i).isSome
  alone : ∀ j, (w.tab? j).isSome → j = i

theorem Sole.congr (h : w.Sole i) (hopen : ∀ j, (w'.tab? j).isSome = (w.tab? j).isSome) :
    w'.Sole i where
  here := by
    rw [hopen]
    exact h.here
  alone j hj := h.alone j (hopen j ▸ hj)

theorem sole_plain : Client.plain.tabs.Sole 0 := by
  refine ⟨rfl, fun j hj => ?_⟩
  match j, hj with
  | 0, _ => rfl
  | _ + 1, hj => cases hj

end Tabs

/-! ## What a visit leaves -/

/-- What a visit may leave, whichever of its calls fail. -/
inductive Visit.Yields (x : Visit) : Tabs → Prop where
  | reads {w : Tabs} (hs : x.deed.session? = none) (h : Gleans x.tab x.now x.found w) : Yields x w
  /-- Only the reactions to the end of the session have changed. -/
  | same {w : Tabs} (hs : x.deed.session? = none) (h : Alike x.found w) : Yields x w
  | clears {w : Tabs} (hs : x.deed.session? = none) (h : Erodes x.found w)
      (hc : w.cache x.tab = .empty) : Yields x w
  | stores {t : BearerToken} {given : Option Instant} {e : Instant} {w : Tabs}
      (hd : x.deed = .act (.install t given)) (he : term? t given = some e)
      (h : Enters x.tab t e x.found w) : Yields x w

namespace Visit

variable {x : Visit} {w : Tabs}

theorem yields_act {action : TabAction} (hd : x.deed = .act action)
    (hi : (x.found.tab? x.tab).isSome) : x.Yields (action.run x.found x.tab x.now).2 := by
  have hsession : x.deed.session? = (Deed.act action).session? := by rw [hd]
  have hread : (Deed.act action).session? = none → ∀ {u}, x.found.Undisturbed u → x.Yields u :=
    fun hs _ hu => .reads (hsession.trans hs) (hu.gleans x.tab x.now)
  cases action with
  | install t given =>
      cases he : term? t given with
      | none =>
          rw [TabAction.run, install_of_term_none he]
          refine hread ?_ (.refl _)
          rw [Deed.session?_install, he, Option.map_none]
      | some e => exact .stores hd he (install_enters he hi)
  | clear => exact .clears hsession (clearSession_erodes _ _) (clearSession_cache _ _)
  | finish reason => exact .clears hsession (endSession_erodes _ _ _) (endSession_forgets _ _ _)
  | forget => exact .reads hsession ((Undisturbed.refl _).gleans_forget hi _)
  | token => exact .reads hsession (token_gleans hi _)
  | hasToken => exact hread rfl (hasToken_undisturbed _ _)
  | claims => exact .reads hsession (claims_gleans hi _)
  | userId => exact .reads hsession (claims_gleans hi _)
  | expiresAt => exact hread rfl (expiresAt_undisturbed _ _)
  | isExpired => exact hread rfl (expiresAt_undisturbed _ _)
  | needsRefresh => exact hread rfl (expiresAt_undisturbed _ _)

theorem yields (hx : x.left? = some w) : x.Yields w := by
  obtain ⟨hi, -, hleft⟩ := isSome_of_left? hx
  cases hd : x.deed with
  | act action =>
      rw [hd] at hleft
      obtain rfl := Option.some.inj hleft
      exact yields_act hd hi
  | remaining =>
      rw [hd] at hleft
      obtain ⟨r, hr, rfl⟩ := Option.map_eq_some_iff.mp hleft
      cases hremaining : x.found.remaining x.tab x.now with
      | error fault =>
          rw [hremaining] at hr
          cases hr
      | ok r' =>
          rw [hremaining] at hr
          obtain rfl := Option.some.inj hr
          rw [remaining_state hremaining]
          exact .reads (by rw [hd]; rfl) (claims_gleans hi _)
  | addReaction reaction =>
      rw [hd] at hleft
      obtain rfl := Option.some.inj hleft
      exact .same (by rw [hd]; rfl) (alike_modifyTab _ _ fun _ => ⟨rfl, rfl⟩)
  | removeReaction id =>
      rw [hd] at hleft
      obtain rfl := Option.some.inj hleft
      exact .same (by rw [hd]; rfl) (alike_modifyTab _ _ fun _ => ⟨rfl, rfl⟩)

theorem Yields.isSome_tab? (h : x.Yields w) (j : Nat) :
    (w.tab? j).isSome = (x.found.tab? j).isSome := by
  cases h with
  | reads hs h => exact isSome_tab?_congr h.bare j
  | same hs h => exact h.isSome_tab? j
  | clears hs h hc => exact h.isSome_tab? j
  | stores hd he h => exact isSome_tab?_congr h.bare j

end Visit

/-! ## Any number of visits -/

/-- Visits one after another. Before each of them it may change which calls of the backend fail. -/
inductive Ordeal (w : Tabs) : List Visit → Tabs → Prop where
  | nil : Ordeal w [] w
  | snoc {visits : List Visit} {x : Visit} {u w' : Tabs} (h : Ordeal w visits u)
      (hu : u.Undisturbed x.found) (hx : x.left? = some w') : Ordeal w (visits ++ [x]) w'

namespace Ordeal

variable {w w' u : Tabs} {i : Nat} {visits : List Visit}

/-- What every visit and every change of the failures keeps holds after any visits. -/
theorem invariant {A : List Visit → Tabs → Prop} (h : Ordeal w visits w') (hw : w.Sole i)
    (hstart : A [] w) (hcalm : ∀ visits u u', u.Undisturbed u' → A visits u → A visits u')
    (hstep : ∀ visits x u, x.found.Sole i → x.tab = i → x.left? = some u → A visits x.found →
      A (visits ++ [x]) u) : w'.Sole i ∧ A visits w' := by
  induction h with
  | nil => exact ⟨hw, hstart⟩
  | @snoc visits x u w' h hu hx ih =>
      obtain ⟨hsole, hA⟩ := ih
      have hfound : x.found.Sole i := hsole.congr fun j => by rw [hu.tab?]
      have htab : x.tab = i := hfound.alone _ (Visit.isSome_of_left? hx).1
      refine ⟨hfound.congr (Visit.yields hx).isSome_tab?, ?_⟩
      exact hstep visits x w' hfound htab hx (hcalm visits u _ hu hA)

theorem sole (h : Ordeal w visits w') (hw : w.Sole i) : w'.Sole i :=
  (h.invariant (A := fun _ _ => True) hw trivial (fun _ _ _ _ => id) fun _ _ _ _ _ _ => id).1

theorem cons {x : Visit} (hw : w.Undisturbed x.found) (hx : x.left? = some u)
    (h : Ordeal u visits w') : Ordeal w (x :: visits) w' := by
  induction h with
  | nil => exact (nil : Ordeal w [] w).snoc hw hx
  | @snoc visits y u' w' h hu hy ih => exact .snoc ih hu hy

/-- The visits to a tab in which deeds are done, and the tabs after them, if all can be done. Each
deed comes with a reading of the clock and with which of its calls fail. -/
def play (i : Nat) (w : Tabs) : List (List Bool × Instant × Deed) → Option (List Visit × Tabs)
  | [] => some ([], w)
  | (faults, now, deed) :: deeds =>
    let x : Visit := ⟨i, now, deed, w.withFailures [] faults⟩
    x.left?.bind fun u => (play i u deeds).map fun r => (x :: r.1, r.2)

theorem of_play {deeds : List (List Bool × Instant × Deed)}
    (h : play i w deeds = some (visits, w')) : Ordeal w visits w' := by
  induction deeds generalizing w visits with
  | nil =>
      cases h
      exact .nil
  | cons d deeds ih =>
      obtain ⟨faults, now, deed⟩ := d
      obtain ⟨u, hu, hrest⟩ := Option.bind_eq_some_iff.mp h
      obtain ⟨r, hr, heq⟩ := Option.map_eq_some_iff.mp hrest
      cases heq
      exact cons ⟨_, _, rfl⟩ hu (ih hr)

/-- The deeds can be done, and the visits and the tabs after them pass a test. -/
def passes (i : Nat) (w : Tabs) (deeds : List (List Bool × Instant × Deed))
    (test : List Visit → Tabs → Bool) : Bool :=
  (play i w deeds).any fun r => test r.1 r.2

/-- What is tested in doing deeds is so after visits. -/
theorem exists_of_passes {deeds : List (List Bool × Instant × Deed)}
    {test : List Visit → Tabs → Bool} (h : passes i w deeds test = true) :
    ∃ visits w', Ordeal w visits w' ∧ test visits w' = true := by
  obtain ⟨⟨visits, w'⟩, hplay, htest⟩ := (Option.any_eq_true _ _).mp h
  exact ⟨visits, w', of_play hplay, htest⟩

end Ordeal

end ClientSession
