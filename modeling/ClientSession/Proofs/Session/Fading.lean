import ClientSession.Proofs.Session.Slots
import Mathlib.Logic.Relation

/-!
# Sessions that fade

All that follows from clearing a session is made of three steps: a tab forgets its session,
something is noted, and a stored key of the session is removed and its removal made known. What
holds of these steps holds of every clearing, however deep the reactions of the tabs nest.

- `Tabs.endSession_fades`: ending a session is made of such steps.
- `Fades.erodes`: they add nothing to what is stored or remembered.
- `Fades.keeps_token`: the token stays exactly until its removal is made known.
- `Tabs.clearSession_keeps`: where a session was cleared none of its keys is stored.

No end of a session is among the steps where the token was gone before.
-/

namespace ClientSession

/-- What may be noted in passing; the end of a session only where that is said. -/
def Occurrence.Passing (ends : Bool) : Occurrence → Prop
  | .changed _ => False
  | .ended _ _ => ends = true
  | _ => True

/-- The removal of a key was made known. -/
def Occurrence.isRemovalOf (key : String) : Occurrence → Bool
  | .changed c => decide (c.key = key ∧ c.newValue = none)
  | _ => false

namespace Tabs

variable {w w' w'' : Tabs} {v : Vault} {ends : Bool}

/-- All open tabs have one vault, over a healthy backend. -/
structure Shares (v : Vault) (w : Tabs) : Prop where
  healthy : w.backend.Healthy
  vault_eq : ∀ j, (w.tab? j).isSome → w.vault j = v

/-- Something is stored under a key of the vault. -/
def keeps (v : Vault) (key : String) (w : Tabs) : Bool :=
  (w.backend.items.find? (v.rawKey key)).isSome

/-- All open tabs have one space in a healthy backend; each may have a device of its own. -/
structure Neighbours (v : Vault) (w : Tabs) : Prop where
  healthy : w.backend.Healthy
  space_eq : ∀ j, (w.tab? j).isSome → (w.vault j).space = v.space

theorem Shares.neighbours (h : w.Shares v) : w.Neighbours v :=
  ⟨h.healthy, fun j hj => congrArg Vault.space (h.vault_eq j hj)⟩

theorem Neighbours.rawKey_eq (h : w.Neighbours v) {i : Nat} (hi : (w.tab? i).isSome)
    (key : String) : (w.vault i).rawKey key = v.rawKey key := by
  rw [Vault.rawKey, Vault.rawKey, h.space_eq i hi]

theorem Neighbours.stores_eq (h : w.Neighbours v) {i : Nat} (hi : (w.tab? i).isSome)
    (key : String) : w.stores i key = w.keeps v key := by
  rw [stores, keeps, h.rawKey_eq hi]

theorem Shares.stores_eq (h : w.Shares v) {i : Nat} (hi : (w.tab? i).isSome) (key : String) :
    w.stores i key = w.keeps v key := h.neighbours.stores_eq hi key

theorem Shares.congr (hw : w.Shares v) (hb : w'.backend = w.backend)
    (hopen : ∀ j, (w'.tab? j).isSome = (w.tab? j).isSome) (hv : ∀ j, w'.vault j = w.vault j) :
    w'.Shares v where
  healthy := by
    rw [hb]
    exact hw.healthy
  vault_eq j hj := by
    rw [hv]
    exact hw.vault_eq j (hopen j ▸ hj)

theorem Shares.setCache (hw : w.Shares v) (i : Nat) (k : SessionCache) :
    (w.setCache i k).Shares v :=
  hw.congr rfl (isSome_tab?_congr fun j => bare?_setCache w i j k)
    (vault_congr fun j => bare?_setCache w i j k)

/-- The tabs with other items in their backend. -/
def withItems (w : Tabs) (items : Table String String) : Tabs :=
  { w with backend := { w.backend with items := items } }

@[simp] theorem withItems_withItems (w : Tabs) (items items' : Table String String) :
    (w.withItems items).withItems items' = w.withItems items' := rfl

@[simp] theorem items_withItems (w : Tabs) (items : Table String String) :
    (w.withItems items).backend.items = items := rfl

/-- Without a key of the vault. -/
def without (v : Vault) (key : String) (w : Tabs) : Tabs :=
  w.withItems (w.backend.items.erase (v.rawKey key))

theorem keeps_without (v : Vault) (key key' : String) (w : Tabs) :
    (w.without v key).keeps v key' = (decide (key ≠ key') && w.keeps v key') := by
  rw [keeps, without, withItems, Table.find?_erase]
  by_cases h : key = key' <;> simp [keeps, h, v.rawKey_inj]

@[simp] theorem keeps_setCache (w : Tabs) (i : Nat) (k : SessionCache) (key : String) :
    (w.setCache i k).keeps v key = w.keeps v key := rfl

@[simp] theorem keeps_note (w : Tabs) (o : Occurrence) (key : String) :
    (w.note o).keeps v key = w.keeps v key := rfl

theorem news_forget (w : Tabs) (i : Nat) : w.news (w.forget i) = [] := news_of_history rfl

theorem news_drop (v : Vault) (key : String) (w : Tabs) (o : Occurrence) :
    w.news ((w.without v key).note o) = [o] := news_note (w.without v key) o

/-- One step of a session that fades. -/
inductive FadeStep (v : Vault) (ends : Bool) (w : Tabs) : Tabs → Prop where
  | forget (i : Nat) : FadeStep v ends w (w.forget i)
  | note (o : Occurrence) (ho : o.Passing ends) : FadeStep v ends w (w.note o)
  | drop (i : Nat) (key : String) (hk : key ∈ sessionKeys) (hs : w.keeps v key = true) :
      FadeStep v ends w ((w.without v key).note (.changed ⟨key, none, i⟩))

/-- A session fades; the end of one is noted only where `ends` says so. -/
def Fades (v : Vault) (ends : Bool) : Tabs → Tabs → Prop := Relation.ReflTransGen (FadeStep v ends)

/-! ## Erosion -/

/-- Nothing is stored or remembered that was not, the tabs and their listeners are the same, and
what was noted stays noted. -/
structure Erodes (w w' : Tabs) : Prop where
  healthy : w.backend.Healthy → w'.backend.Healthy
  item : ∀ k, w'.backend.items.find? k = none ∨
    w'.backend.items.find? k = w.backend.items.find? k
  bare : ∀ j, w'.bare? j = w.bare? j
  cache : ∀ j, w'.cache j = .empty ∨ w'.cache j = w.cache j
  listeners : w'.listeners = w.listeners
  history : w.history <+: w'.history

namespace Erodes

protected theorem refl (w : Tabs) : Erodes w w where
  healthy := id
  item _ := .inr rfl
  bare _ := rfl
  cache _ := .inr rfl
  listeners := rfl
  history := List.prefix_rfl

protected theorem trans (h : Erodes w w') (h' : Erodes w' w'') : Erodes w w'' where
  healthy := h'.healthy ∘ h.healthy
  item k := by
    rcases h'.item k with e | e
    · exact .inl e
    · rw [e]
      exact h.item k
  bare j := (h'.bare j).trans (h.bare j)
  cache j := by
    rcases h'.cache j with e | e
    · exact .inl e
    · rw [e]
      exact h.cache j
  listeners := h'.listeners.trans h.listeners
  history := h.history.trans h'.history

theorem of_step (h : FadeStep v ends w w') : Erodes w w' := by
  cases h with
  | forget i =>
      refine ⟨id, fun _ => .inr rfl, fun j => bare?_setCache w i j _, fun j => ?_, rfl,
        List.prefix_rfl⟩
      by_cases hj : j = i
      · subst hj
        exact .inl (cache_forget w j)
      · exact .inr (cache_setCache_of_ne hj w _)
  | note o _ =>
      exact ⟨id, fun _ => .inr rfl, fun _ => rfl, fun _ => .inr rfl, rfl, List.prefix_append _ _⟩
  | drop i key _ _ =>
      refine ⟨id, fun k => ?_, fun _ => rfl, fun _ => .inr rfl, rfl, List.prefix_append _ _⟩
      rw [note, without, withItems, Table.find?_erase]
      split
      · exact .inl rfl
      · exact .inr rfl

theorem isSome_tab? (h : Erodes w w') (j : Nat) : (w'.tab? j).isSome = (w.tab? j).isSome :=
  isSome_tab?_congr h.bare j

theorem shares (h : Erodes w w') (hw : w.Shares v) : w'.Shares v where
  healthy := h.healthy hw.healthy
  vault_eq j hj := by
    rw [vault_congr h.bare]
    exact hw.vault_eq j (h.isSome_tab? j ▸ hj)

theorem keeps_eq_false (h : Erodes w w') {key : String} (hw : w.keeps v key = false) :
    w'.keeps v key = false := by
  rw [keeps] at hw ⊢
  rcases h.item (v.rawKey key) with e | e
  · rw [e, Option.isSome_none]
  · rw [e, hw]

theorem cache_eq_empty (h : Erodes w w') {i : Nat} (hw : w.cache i = .empty) :
    w'.cache i = .empty := by
  rcases h.cache i with e | e
  · exact e
  · rw [e, hw]

end Erodes

namespace Fades

protected theorem refl (w : Tabs) : Fades v ends w w := Relation.ReflTransGen.refl

protected theorem trans (h : Fades v ends w w') (h' : Fades v ends w' w'') : Fades v ends w w'' :=
  Relation.ReflTransGen.trans h h'

theorem of_step (h : FadeStep v ends w w') : Fades v ends w w' := Relation.ReflTransGen.single h

theorem erodes (h : Fades v ends w w') : Erodes w w' := by
  induction h with
  | refl => exact .refl w
  | tail _ hs ih => exact ih.trans (.of_step hs)

/-- A change that is repeated fades if each single one does. -/
theorem foldl {α : Type} {f : Tabs → α → Tabs} {l : List α}
    (h : ∀ w' a, a ∈ l → Fades v ends w w' → Fades v ends w' (f w' a)) :
    Fades v ends w (l.foldl f w) := by
  induction l generalizing w with
  | nil => exact .refl w
  | cons a l ih =>
      have hfirst := h w a (List.mem_cons_self ..) (.refl w)
      refine hfirst.trans (ih fun w' b hb hw' => ?_)
      exact h w' b (List.mem_cons_of_mem _ hb) (hfirst.trans hw')

/-- The token stays exactly until its removal is made known. -/
theorem keeps_token (h : Fades v ends w w') :
    w'.keeps v tokenKey =
      (w.keeps v tokenKey && !(w.news w').any (·.isRemovalOf tokenKey)) := by
  induction h with
  | refl => simp [news_self]
  | @tail u u' hu hs ih =>
      rw [news_trans (Fades.erodes hu).history (Erodes.of_step hs).history, List.any_append]
      cases hs with
      | forget i =>
          rw [news_forget, forget, keeps_setCache, ih]
          simp
      | note o ho =>
          rw [news_note, keeps_note, ih]
          cases o <;> simp_all [Occurrence.Passing, Occurrence.isRemovalOf]
      | drop i key hk hkept =>
          rw [news_drop, keeps_note, keeps_without, ih]
          by_cases hkey : key = tokenKey <;> simp [Occurrence.isRemovalOf, hkey]

/-- The token was stored if its removal is made known. -/
theorem keeps_of_removal (h : Fades v ends w w')
    (hr : (w.news w').any (·.isRemovalOf tokenKey) = true) : w.keeps v tokenKey = true := by
  induction h with
  | refl => simp [news_self] at hr
  | @tail u u' hu hs ih =>
      rw [news_trans (Fades.erodes hu).history (Erodes.of_step hs).history, List.any_append,
        Bool.or_eq_true] at hr
      rcases hr with hr | hr
      · exact ih hr
      cases hs with
      | forget i =>
          rw [news_forget] at hr
          cases hr
      | note o ho =>
          rw [news_note] at hr
          cases o <;> simp_all [Occurrence.Passing, Occurrence.isRemovalOf]
      | drop i key hk hkept =>
          have hkey : key = tokenKey := by
            rw [news_drop] at hr
            simpa [Occurrence.isRemovalOf] using hr
          rw [hkey] at hkept
          by_contra hgone
          rw [(Fades.erodes hu).keeps_eq_false (Bool.eq_false_iff.mpr hgone)] at hkept
          cases hkept

/-- What is noted is noted in passing or is the removal of a key. -/
theorem passing_or_removal (h : Fades v ends w w') {o : Occurrence} (ho : o ∈ w.news w') :
    o.Passing ends ∨ ∃ i, ∃ key ∈ sessionKeys, o = .changed ⟨key, none, i⟩ := by
  induction h with
  | refl => simp [news_self] at ho
  | @tail u u' hu hs ih =>
      rw [news_trans (Fades.erodes hu).history (Erodes.of_step hs).history, List.mem_append] at ho
      rcases ho with ho | ho
      · exact ih ho
      cases hs with
      | forget i =>
          rw [news_forget] at ho
          cases ho
      | note o' ho' =>
          rw [news_note, List.mem_singleton] at ho
          exact .inl (ho ▸ ho')
      | drop i key hk _ =>
          rw [news_drop, List.mem_singleton] at ho
          exact .inr ⟨i, key, hk, ho⟩

end Fades

/-! ## Clearing -/

/-- A session of the vault can fade: where no end of a session may be noted, the token is gone. -/
structure Fadeable (v : Vault) (ends : Bool) (w : Tabs) : Prop where
  shares : w.Shares v
  gone : ends = false → w.keeps v tokenKey = false

theorem Shares.fadeable (h : w.Shares v) : w.Fadeable v true := ⟨h, fun he => nomatch he⟩

theorem Fadeable.of_fades (h : w.Fadeable v ends) (hf : Fades v ends w w') :
    w'.Fadeable v ends where
  shares := hf.erodes.shares h.shares
  gone he := hf.erodes.keeps_eq_false (h.gone he)

section Consequences

variable {clearAgain : Nat → Tabs → Tabs}

/-- What clearing a session again is made of. -/
def ClearsAgain (v : Vault) (ends : Bool) (clearAgain : Nat → Tabs → Tabs) : Prop :=
  ∀ w i, w.Fadeable v ends → (w.tab? i).isSome → Fades v ends w (clearAgain i w)

theorem reactWith_fades (hc : ClearsAgain v ends clearAgain) (hw : w.Fadeable v ends) {i : Nat}
    (hi : (w.tab? i).isSome) (r : Reaction) (reason : EndReason) :
    Fades v ends w (reactWith clearAgain i r reason w) := by
  have hnote : Fades v ends w (w.note (.reacted i r reason)) := .of_step (.note _ trivial)
  cases r with
  | note name => exact hnote
  | stopWork => exact hnote
  | clear => exact hnote.trans (hc _ i (hw.of_fades hnote) hi)

theorem endWith_fades (hc : ClearsAgain v true clearAgain) (hw : w.Fadeable v true) {i : Nat}
    (hi : (w.tab? i).isSome) (reason : EndReason) :
    Fades v true w (endWith clearAgain i reason w) := by
  have hnote : Fades v true w (w.note (.ended i reason)) := .of_step (.note _ rfl)
  refine hnote.trans (.foldl fun w' r _ hw' => ?_)
  have hi' : (w'.tab? i).isSome := (hw'.erodes.isSome_tab? i).trans hi
  exact reactWith_fades hc ((hw.of_fades hnote).of_fades hw') hi' r.2 reason

/-- What is noted when listeners hear of another change than one of the token. -/
def echoes (key : String) (listeners : List (Nat × Listener)) : List Occurrence :=
  listeners.filterMap fun l => match l.2 with
    | .note name => some (.heard name key)
    | .tab _ => none

/-- Of another change than one of the token a tab takes no notice. -/
theorem hearWith_tab_of_ne {c : Change} (hkey : c.key ≠ tokenKey) (j : Nat) (w : Tabs) :
    hearWith clearAgain c (.tab j) w = w := by
  rw [hearWith, if_neg fun h => hkey h.2.2.1]

theorem foldl_hearWith_of_ne {c : Change} (hkey : c.key ≠ tokenKey)
    (listeners : List (Nat × Listener)) (w : Tabs) :
    listeners.foldl (fun w l => hearWith clearAgain c l.2 w) w =
      { w with history := w.history ++ echoes c.key listeners } := by
  induction listeners generalizing w with
  | nil => rw [echoes, List.filterMap_nil, List.append_nil]; rfl
  | cons l listeners ih =>
      obtain ⟨n, l⟩ := l
      cases l with
      | note name =>
          rw [List.foldl_cons, ih]
          simp [hearWith, note, echoes]
      | tab j =>
          rw [List.foldl_cons, hearWith_tab_of_ne hkey, ih]
          rfl

theorem hearWith_fades (hc : ClearsAgain v ends clearAgain) (hw : w.Fadeable v ends) {c : Change}
    (hkey : c.key = tokenKey → ends = true) (l : Listener) :
    Fades v ends w (hearWith clearAgain c l w) := by
  cases l with
  | note name => exact .of_step (.note _ trivial)
  | tab j =>
      simp only [hearWith]
      split
      · rename_i h
        obtain ⟨-, hj, htoken, -⟩ := h
        obtain rfl := hkey htoken
        have hforget : Fades v true w (w.forget j) := .of_step (.forget j)
        have hj' : ((w.forget j).tab? j).isSome := (hforget.erodes.isSome_tab? j).trans hj
        exact hforget.trans (endWith_fades hc (hw.of_fades hforget) hj' _)
      · exact .refl w

theorem heard_fades (hc : ClearsAgain v ends clearAgain) (hw : w.Fadeable v ends) {c : Change}
    (hkey : c.key = tokenKey → ends = true) (listeners : List (Nat × Listener)) :
    Fades v ends w (listeners.foldl (fun w l => hearWith clearAgain c l.2 w) w) :=
  .foldl fun _ l _ hw' => hearWith_fades hc (hw.of_fades hw') hkey l.2

theorem discardWith_of_keeps (hw : w.Neighbours v) {i : Nat} (hi : (w.tab? i).isSome) {key : String}
    (hk : key ∈ sessionKeys) (hs : w.keeps v key = true) :
    discardWith clearAgain i key w =
      publishWith clearAgain ⟨key, none, i⟩ (w.without v key) := by
  have hconcerns : Vault.concernsSession key = true := by
    revert hk
    simp only [sessionKeys, List.mem_cons, List.not_mem_nil, or_false]
    rintro (rfl | rfl | rfl) <;> rfl
  rw [discardWith, hasKey_of_healthy hw.healthy, hw.stores_eq hi, hs, if_pos rfl, removeWith,
    Vault.remove_of_healthy hw.healthy, hw.rawKey_eq hi, hconcerns, Bool.and_self, if_pos rfl]
  rfl

theorem discardWith_of_gone (hw : w.Neighbours v) {i : Nat} (hi : (w.tab? i).isSome) {key : String}
    (hs : w.keeps v key = false) : discardWith clearAgain i key w = w := by
  rw [discardWith, hasKey_of_healthy hw.healthy, hw.stores_eq hi, hs]
  rfl

theorem discardWith_fades (hc : ClearsAgain v ends clearAgain) (hw : w.Fadeable v ends) {i : Nat}
    (hi : (w.tab? i).isSome) {key : String} (hk : key ∈ sessionKeys) :
    Fades v ends w (discardWith clearAgain i key w) := by
  cases hs : w.keeps v key with
  | false =>
      rw [discardWith_of_gone hw.shares.neighbours hi hs]
      exact .refl w
  | true =>
      -- Where no end of a session may be noted the token is gone, so the key is another one.
      have hkey : key = tokenKey → ends = true := by
        rintro rfl
        by_contra h
        have hgone := hw.gone (by simpa using h)
        rw [hs] at hgone
        cases hgone
      have hdrop : Fades v ends w ((w.without v key).note (.changed ⟨key, none, i⟩)) :=
        .of_step (.drop i key hk hs)
      rw [discardWith_of_keeps hw.shares.neighbours hi hk hs]
      exact hdrop.trans (heard_fades hc (hw.of_fades hdrop) hkey _)

/-- A key that was discarded is not stored. -/
theorem discardWith_keeps (hc : ClearsAgain v true clearAgain) (hw : w.Shares v) {i : Nat}
    (hi : (w.tab? i).isSome) {key : String} (hk : key ∈ sessionKeys) :
    (discardWith clearAgain i key w).keeps v key = false := by
  cases hs : w.keeps v key with
  | false => rw [discardWith_of_gone hw.neighbours hi hs, hs]
  | true =>
      have hdrop : Fades v true w ((w.without v key).note (.changed ⟨key, none, i⟩)) :=
        .of_step (.drop i key hk hs)
      have hgone : ((w.without v key).note (.changed ⟨key, none, i⟩)).keeps v key = false := by
        rw [keeps_note, keeps_without]
        simp
      have hheard := heard_fades hc (hw.fadeable.of_fades hdrop) (c := ⟨key, none, i⟩)
        (fun _ => rfl) w.listeners
      rw [discardWith_of_keeps hw.neighbours hi hk hs]
      exact hheard.erodes.keeps_eq_false hgone

theorem discards_fade (hc : ClearsAgain v ends clearAgain) (hw : w.Fadeable v ends) {i : Nat}
    (hi : (w.tab? i).isSome) {keys : List String} (hk : ∀ key ∈ keys, key ∈ sessionKeys) :
    Fades v ends w (keys.foldl (fun w key => discardWith clearAgain i key w) w) :=
  .foldl fun _ key hkey hw' => discardWith_fades hc (hw.of_fades hw')
    ((hw'.erodes.isSome_tab? i).trans hi) (hk key hkey)

theorem clearWith_fades (hc : ClearsAgain v ends clearAgain) (hw : w.Fadeable v ends) {i : Nat}
    (hi : (w.tab? i).isSome) : Fades v ends w (clearWith clearAgain i w) :=
  (discards_fade hc hw hi fun _ h => h).trans (.of_step (.forget i))

/-- Keys that were discarded one after another are not stored. -/
theorem discards_keep (hc : ClearsAgain v true clearAgain) {i : Nat} {key : String}
    {keys : List String} (hk : ∀ key ∈ keys, key ∈ sessionKeys) (hkey : key ∈ keys)
    (hw : w.Shares v) (hi : (w.tab? i).isSome) :
    (keys.foldl (fun w key => discardWith clearAgain i key w) w).keeps v key = false := by
  induction keys generalizing w with
  | nil => cases hkey
  | cons k keys ih =>
      have hstep : Fades v true w (discardWith clearAgain i k w) :=
        discardWith_fades hc hw.fadeable hi (hk k (List.mem_cons_self ..))
      have hw' := hstep.erodes.shares hw
      have hi' := (hstep.erodes.isSome_tab? i).trans hi
      have hrest : ∀ key ∈ keys, key ∈ sessionKeys := fun k h => hk k (List.mem_cons_of_mem _ h)
      -- The key is gone once it was discarded, and nothing that follows stores it again.
      rcases List.mem_cons.mp hkey with rfl | h
      · have hgone := discardWith_keeps hc hw hi (hk key (List.mem_cons_self ..))
        exact (discards_fade hc hw'.fadeable hi' hrest).erodes.keeps_eq_false hgone
      · exact ih hrest h hw' hi'

theorem clearWith_keeps (hc : ClearsAgain v true clearAgain) (hw : w.Shares v) {i : Nat}
    (hi : (w.tab? i).isSome) {key : String} (hkey : key ∈ sessionKeys) :
    (clearWith clearAgain i w).keeps v key = false :=
  discards_keep hc (fun _ h => h) hkey hw hi

end Consequences

theorem clearNested_fades (v : Vault) (ends : Bool) (depth : Nat) :
    ClearsAgain v ends (clearNested depth) := by
  induction depth with
  | zero => exact fun w i _ _ => .of_step (.forget i)
  | succ depth ih => exact fun w i hw hi => clearWith_fades ih hw hi

theorem clearSession_fades (hw : w.Fadeable v ends) {i : Nat} (hi : (w.tab? i).isSome) :
    Fades v ends w (w.clearSession i) :=
  clearWith_fades (clearNested_fades v ends _) hw hi

theorem clearSession_keeps (hw : w.Shares v) {i : Nat} (hi : (w.tab? i).isSome) {key : String}
    (hkey : key ∈ sessionKeys) : (w.clearSession i).keeps v key = false :=
  clearWith_keeps (clearNested_fades v true _) hw hi hkey

theorem clearSession_cache (w : Tabs) (i : Nat) : (w.clearSession i).cache i = .empty :=
  cache_forget _ i

/-- Clearing a session makes the removal of the token known if one is stored. -/
theorem clearSession_removal (hw : w.Shares v) {i : Nat} (hi : (w.tab? i).isSome) :
    (w.news (w.clearSession i)).any (·.isRemovalOf tokenKey) = w.keeps v tokenKey := by
  have hfades : Fades v true w (w.clearSession i) := clearSession_fades hw.fadeable hi
  have hgone := hfades.keeps_token
  rw [clearSession_keeps hw hi (List.mem_cons_self ..)] at hgone
  cases hr : (w.news (w.clearSession i)).any (·.isRemovalOf tokenKey) with
  | true => exact (hfades.keeps_of_removal hr).symm
  | false =>
      rw [hr, Bool.not_false, Bool.and_true] at hgone
      exact hgone

/-- What follows once the session of a tab was cleared and has ended. -/
theorem endSession_fades_clearSession (hw : w.Shares v) {i : Nat} (hi : (w.tab? i).isSome)
    (reason : EndReason) : Fades v true (w.clearSession i) (w.endSession i reason) := by
  have hclear : Fades v true w (w.clearSession i) := clearSession_fades hw.fadeable hi
  exact endWith_fades (clearNested_fades v true _) (hw.fadeable.of_fades hclear)
    ((hclear.erodes.isSome_tab? i).trans hi) reason

theorem endSession_fades (hw : w.Shares v) {i : Nat} (hi : (w.tab? i).isSome)
    (reason : EndReason) : Fades v true w (w.endSession i reason) :=
  (clearSession_fades hw.fadeable hi).trans (endSession_fades_clearSession hw hi reason)

theorem endSession_keeps (hw : w.Shares v) {i : Nat} (hi : (w.tab? i).isSome)
    (reason : EndReason) {key : String} (hkey : key ∈ sessionKeys) :
    (w.endSession i reason).keeps v key = false :=
  (endSession_fades_clearSession hw hi reason).erodes.keeps_eq_false (clearSession_keeps hw hi hkey)

theorem endSession_cache (hw : w.Shares v) {i : Nat} (hi : (w.tab? i).isSome)
    (reason : EndReason) : (w.endSession i reason).cache i = .empty :=
  (endSession_fades_clearSession hw hi reason).erodes.cache_eq_empty (clearSession_cache w i)

end Tabs

end ClientSession
