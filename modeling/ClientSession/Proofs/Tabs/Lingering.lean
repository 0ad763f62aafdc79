import ClientSession.Proofs.Tabs.Ordeals

/-!
# Sessions that outlast their clearing

A tab that clears its session forgets it, whatever fails. What is stored may stay: a look for the
token that fails is taken for its absence, and a removal that fails is not tried again. Where the
token stays, the tab finds it again.

- `Tabs.stores_endSession`: when the token is still stored after a session has ended.
- `Tabs.IsClear.of_yields`: a tab without a session is left without one unless one is stored.
- `Visit.staysClear_iff`: when a cleared session stays cleared.
- `not_staysClear`: a session that is back once storage has recovered.
-/

namespace ClientSession

open Tabs

namespace Tabs

variable {w w' : Tabs} {i : Nat}

/-- The tab remembers no token, and none is stored. -/
def IsClear (w : Tabs) (i : Nat) : Prop :=
  (w.cache i).token = none ∧ w.stores i tokenKey = false

/-- The tab gives no token and has none, however it is used and whichever calls fail, as long as no
session is stored. -/
def StaysClear (w : Tabs) (i : Nat) : Prop :=
  ∀ visits u u', Ordeal w visits u → (∀ x ∈ visits, x.deed.session? = none) → u.Undisturbed u' →
    (∀ now, (u'.token i now).1 = none) ∧ (u'.hasToken i).1 = false

theorem IsClear.of_undisturbed (h : w.IsClear i) (hu : w.Undisturbed w') : w'.IsClear i := by
  rw [IsClear, hu.cache, hu.stores]
  exact h

/-- A visit leaves a tab without a session as it is unless one is stored. -/
theorem IsClear.of_yields {x : Visit} (h : x.found.IsClear x.tab) (hx : x.Yields w)
    (hs : x.deed.session? = none) : w.IsClear x.tab := by
  obtain ⟨hcache, hstored⟩ := h
  cases hx with
  | reads _ h =>
      have hstores : w.stores x.tab tokenKey = false := by
        rw [stores_congr h.bare h.items, hstored]
      refine ⟨Option.not_isSome_iff_eq_none.mp fun htoken => ?_, hstores⟩
      rcases h.cache.token htoken with hc | hc
      · rw [hcache] at hc
        cases hc
      · rw [hstored] at hc
        cases hc
  | same _ h =>
      refine ⟨by rw [h.cache, hcache], ?_⟩
      rw [stores, h.backend, h.vault]
      exact hstored
  | clears _ h hc => exact ⟨by rw [hc]; rfl, h.stores_eq_false hstored⟩
  | stores hd he h =>
      rw [hd, Deed.session?_install, he] at hs
      cases hs

theorem IsClear.staysClear (h : w.IsClear i) (hw : w.Sole i) : w.StaysClear i := by
  intro visits u u' hordeal hquiet hu
  have hkept := (hordeal.invariant (A := fun visits u =>
    (∀ x ∈ visits, x.deed.session? = none) → u.IsClear i) hw (fun _ => h)
    (fun visits u u' hu hA hq => (hA hq).of_undisturbed hu) (by
      rintro visits x u - rfl hx hA hq
      exact (hA fun y hy => hq y (List.mem_append_left _ hy)).of_yields (Visit.yields hx)
        (hq x (List.mem_append_right _ (List.mem_singleton_self x))))).2
  obtain ⟨hcache, hstored⟩ := (hkept hquiet).of_undisturbed hu
  exact ⟨fun now => token_eq_none_of_gone now hcache hstored, hasToken_of_gone hcache hstored⟩

/-- A tab that has forgotten its session stays clear exactly if no token is stored. -/
theorem staysClear_iff_of_forgotten (hw : w.Sole i) (hc : w.cache i = .empty) :
    w.StaysClear i ↔ w.stores i tokenKey = false := by
  constructor
  · intro h
    -- Storage recovers, and the tab looks for its token.
    let u := w.withFailures [] []
    have hu : w.Undisturbed u := ⟨[], [], rfl⟩
    have hlooks := (h [] w u .nil (fun _ hx => absurd hx List.not_mem_nil) hu).2
    rw [hasToken, hu.cache, hc, SessionCache.empty, Option.isSome_none, if_neg Bool.false_ne_true,
      hasKey_fst, hu.stores] at hlooks
    exact hlooks
  · intro h
    exact IsClear.staysClear ⟨by rw [hc]; rfl, h⟩ hw

/-! ## Clearings -/

/-- The tabs as each reaction finds them that clears the session again. -/
def reclearings (depth i : Nat) (reason : EndReason) : List (Nat × Reaction) → Tabs → List Tabs
  | [], _ => []
  | r :: rs, w =>
    let rest := reclearings depth i reason rs (reactWith (clearNested depth) i r.2 reason w)
    if r.2 = .clear then w :: rest else rest

/-- The tabs as each clearing finds them when the session of a tab ends. -/
def clearings (w : Tabs) (i : Nat) (reason : EndReason) : List Tabs :=
  let u := w.clearSession i
  w :: reclearings u.depth i reason (u.tab i).reactions (u.note (.ended i reason))

theorem stores_reactWith (depth i : Nat) (r : Reaction) (reason : EndReason) (w : Tabs) :
    (reactWith (clearNested (depth + 1)) i r reason w).stores i tokenKey =
      (w.stores i tokenKey && !(decide (r = .clear) && w.backend.removesNext)) := by
  cases r with
  | note name => exact (Bool.and_true _).symm
  | stopWork => exact (Bool.and_true _).symm
  | clear => exact stores_clearWith (clearNested_erodes depth) i _

theorem stores_reclearings (depth i : Nat) (reason : EndReason) (rs : List (Nat × Reaction))
    (w : Tabs) :
    (rs.foldl (fun w r => reactWith (clearNested (depth + 1)) i r.2 reason w) w).stores i tokenKey =
      (w.stores i tokenKey &&
        (reclearings (depth + 1) i reason rs w).all (!·.backend.removesNext)) := by
  induction rs generalizing w with
  | nil => exact (Bool.and_true _).symm
  | cons r rs ih =>
      rw [List.foldl_cons, ih, stores_reactWith, reclearings]
      by_cases hr : r.2 = .clear <;> simp [hr, Bool.and_assoc]

theorem depth_pos_of_stores {key : String} (h : w.stores i key = true) : 0 < w.depth := by
  rw [depth, List.length_pos_iff]
  intro hempty
  rw [stores, Table.find?, hempty] at h
  cases h

theorem stores_clearSession (w : Tabs) (i : Nat) : (w.clearSession i).stores i tokenKey =
    (w.stores i tokenKey && !w.backend.removesNext) :=
  stores_clearWith (clearNested_erodes _) i w

/-- The token is still stored after a session has ended if no clearing of it got through. -/
theorem stores_endSession (w : Tabs) (i : Nat) (reason : EndReason) :
    (w.endSession i reason).stores i tokenKey =
      (w.stores i tokenKey && (w.clearings i reason).all (!·.backend.removesNext)) := by
  rw [clearings, List.all_cons, ← Bool.and_assoc, ← stores_clearSession]
  cases hs : (w.clearSession i).stores i tokenKey with
  | false =>
      rw [Bool.false_and]
      exact (endSession_erodes_clearSession w i reason).stores_eq_false hs
  | true =>
      -- As long as the token is stored, clearings by reactions are carried out.
      obtain ⟨depth, hdepth⟩ := Nat.exists_eq_succ_of_ne_zero
        (Nat.ne_of_gt (depth_pos_of_stores hs))
      rw [endSession, endWith, hdepth, stores_reclearings, ← hs]
      rfl

end Tabs

namespace Deed

/-- The deed is to clear the session. -/
def clears : Deed → Bool
  | .act .clear => true
  | .act (.finish _) => true
  | _ => false

/-- The tabs as each clearing that is part of a deed finds them. -/
def clearings (w : Tabs) (i : Nat) : Deed → List Tabs
  | .act .clear => [w]
  | .act (.finish reason) => w.clearings i reason
  | _ => []

end Deed

/-- A cleared session stays cleared exactly if no token was stored, or else the look for the token
and its removal both succeeded in one of the clearings. -/
theorem Visit.staysClear_iff {x : Visit} {w : Tabs} (hx : x.left? = some w)
    (hw : x.found.Sole x.tab) (hd : x.deed.clears = true) :
    w.StaysClear x.tab ↔ (x.found.stores x.tab tokenKey = true →
      ∃ u ∈ x.deed.clearings x.found x.tab, u.backend.removesNext = true) := by
  obtain ⟨-, -, hleft⟩ := isSome_of_left? hx
  have hsole : w.Sole x.tab := hw.congr (yields hx).isSome_tab?
  have hmain : w.cache x.tab = .empty ∧ w.stores x.tab tokenKey =
      (x.found.stores x.tab tokenKey &&
        (x.deed.clearings x.found x.tab).all (!·.backend.removesNext)) := by
    generalize x.deed = d at hd hleft
    match d, hd with
    | .act .clear, _ =>
        obtain rfl := Option.some.inj hleft
        refine ⟨clearSession_cache _ _, ?_⟩
        rw [Deed.clearings, List.all_cons, List.all_nil, Bool.and_true]
        exact stores_clearSession _ _
    | .act (.finish reason), _ =>
        obtain rfl := Option.some.inj hleft
        exact ⟨endSession_forgets _ _ _, stores_endSession _ _ _⟩
  rw [staysClear_iff_of_forgotten hsole hmain.1, hmain.2]
  cases x.found.stores x.tab tokenKey <;> simp

/-- A tab stores a token for an hour. -/
def signsIn : List Bool × Instant × Deed :=
  ([], ⟨1748779200000000000⟩, .act (.install ⟨"t1"⟩ (some ⟨1748782800000000000⟩)))

/-- The first look for the token fails, and a reaction to the end of the session clears it once
more. -/
theorem staysClear_iff_plain : ∃ (x : Visit) (w : Tabs), x.left? = some w ∧ x.found.Sole x.tab ∧
    x.deed.clears = true ∧ x.found.stores x.tab tokenKey = true ∧
      x.found.backend.removesNext = false ∧ w.StaysClear x.tab := by
  let x (u : Tabs) : Visit := ⟨0, ⟨1748779200000000000⟩, .act (.finish .logout),
    u.withFailures [] [true]⟩
  have hpasses : Ordeal.passes 0 Client.plain.tabs
      [signsIn, ([], ⟨1748779200000000000⟩, .addReaction .clear)] (fun _ u =>
        (x u).left?.isSome && u.stores 0 tokenKey &&
          ((x u).deed.clearings (x u).found 0).any (·.backend.removesNext)) = true := by
    decide +kernel
  obtain ⟨visits, u, hordeal, htest⟩ := Ordeal.exists_of_passes hpasses
  simp only [Bool.and_eq_true, List.any_eq_true] at htest
  obtain ⟨⟨hleft, hstored⟩, hcleared⟩ := htest
  obtain ⟨w, hw⟩ := Option.isSome_iff_exists.mp hleft
  have hsole : (x u).found.Sole 0 := (hordeal.sole sole_plain).congr fun _ => rfl
  refine ⟨x u, w, hw, hsole, rfl, hstored, rfl, ?_⟩
  exact (Visit.staysClear_iff hw hsole rfl).mpr fun _ => hcleared

/-- Every look for a key fails while the session is cleared. Once storage has recovered the tab has
its token again. -/
theorem not_staysClear : ¬∀ (w u w' : Tabs) (visits : List Visit) (x : Visit), w.Sole x.tab →
    Ordeal w visits u → u.Undisturbed x.found → x.left? = some w' → x.deed.clears = true →
      w'.StaysClear x.tab := by
  intro hclaim
  let x (u : Tabs) : Visit := ⟨0, ⟨1748779200000000000⟩, .act .clear, u.withFailures [.get] []⟩
  have hpasses : Ordeal.passes 0 Client.plain.tabs [signsIn] (fun _ u =>
      (x u).left?.any fun w => ((w.withFailures [] []).hasToken 0).1) = true := by
    decide +kernel
  obtain ⟨visits, u, hordeal, htest⟩ := Ordeal.exists_of_passes hpasses
  obtain ⟨w, hw, hfound⟩ := (Option.any_eq_true _ _).mp htest
  have hstays := hclaim _ u w visits (x u) sole_plain hordeal ⟨_, _, rfl⟩ hw rfl
  have hnone := (hstays [] w _ .nil (fun _ hx => absurd hx List.not_mem_nil) ⟨[], [], rfl⟩).2
  exact Bool.false_ne_true (hnone.symm.trans hfound)

end ClientSession
