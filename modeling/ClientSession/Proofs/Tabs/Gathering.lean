import ClientSession.Proofs.Tabs.Departure
import ClientSession.Proofs.Tabs.Visits

/-!
# Tabs that gather

Tabs are opened and closed over a backend in good order, in one space and each with a device of its
own, and anything is done with their sessions. An open tab listens all the while, and only once.

- `Tabs.abides_of_deed`: what no deed changes.
- `Tabs.Gathered.ordered`: the tabs that have gathered listen once.
- `Tabs.Gathered.clearSession_farewells`: what they do when one of them clears the session.
-/

namespace ClientSession

namespace Tabs

variable {w w' w'' : Tabs} {v : Vault} {i j : Nat}

/-- The same tabs are open, each with its vault, and listen as before; the backend stays in good
order. -/
structure Abides (w w' : Tabs) : Prop where
  healthy : w'.backend.Healthy
  isSome_tab? : ∀ j, (w'.tab? j).isSome = (w.tab? j).isSome
  vault : ∀ j, w'.vault j = w.vault j
  slots_eq : w'.slots.length = w.slots.length
  listeners : w'.listeners = w.listeners

theorem Abides.refl (hb : w.backend.Healthy) : Abides w w :=
  ⟨hb, fun _ => rfl, fun _ => rfl, rfl, rfl⟩

theorem Abides.trans (h : Abides w w') (h' : Abides w' w'') : Abides w w'' where
  healthy := h'.healthy
  isSome_tab? j := (h'.isSome_tab? j).trans (h.isSome_tab? j)
  vault j := (h'.vault j).trans (h.vault j)
  slots_eq := h'.slots_eq.trans h.slots_eq
  listeners := h'.listeners.trans h.listeners

/-- Whatever is stored, remembered and noted. -/
theorem abides_of_bare (hb : w'.backend.Healthy) (hbare : ∀ j, w'.bare? j = w.bare? j)
    (hs : w'.slots.length = w.slots.length) (hl : w'.listeners = w.listeners) : Abides w w' :=
  ⟨hb, isSome_tab?_congr hbare, vault_congr hbare, hs, hl⟩

theorem Brings.abides {l : Nat → List Occurrence} (h : Brings l w w') (hb : w.backend.Healthy) :
    Abides w w' :=
  abides_of_bare (h.erodes.healthy hb) h.erodes.bare h.slots_eq h.erodes.listeners

theorem abides_setCache (hb : w.backend.Healthy) (i : Nat) (k : SessionCache) :
    Abides w (w.setCache i k) :=
  abides_of_bare hb (fun j => bare?_setCache w i j k) (List.length_modify ..) rfl

theorem Recalls.abides (h : Recalls i w w') (hb : w.backend.Healthy) : Abides w w' := by
  rcases h with rfl | ⟨k, -, rfl⟩
  · exact .refl hb
  · exact abides_setCache hb i k

theorem abides_modifyTab (hb : w.backend.Healthy) (i : Nat) {f : Tab → Tab}
    (hf : ∀ t, (f t).vault = t.vault ∧ (f t).cache = t.cache) : Abides w (w.modifyTab i f) := by
  have halike := alike_modifyTab w i hf
  exact ⟨hb, halike.isSome_tab?, halike.vault, List.length_modify .., rfl⟩

/-! ## Deeds -/

theorem abides_writeKey (hb : w.backend.Healthy) (i : Nat) (key value : String) :
    Abides w (w.writeKey i key value) := by
  refine ⟨?_, fun _ => rfl, fun _ => rfl, rfl, rfl⟩
  rw [writeKey, Vault.set_of_healthy hb]
  exact hb

theorem abides_removeKey (hb : w.backend.Healthy) (i : Nat) {key : String}
    (hne : key ≠ tokenKey) : Abides w (w.removeKey i key) := by
  have hremoved : ∀ items, Abides w (w.withItems items) := fun items =>
    ⟨hb, fun _ => rfl, fun _ => rfl, rfl, rfl⟩
  rw [removeKey, removeWith, Vault.remove_of_healthy hb]
  dsimp only
  split
  · rw [publishWith, foldl_hearWith_of_ne hne]
    exact ⟨hb, fun _ => rfl, fun _ => rfl, rfl, rfl⟩
  · exact hremoved _

theorem abides_install (hb : w.backend.Healthy) (i : Nat) (t : BearerToken)
    (given : Option Instant) : Abides w (w.install i t given).2 := by
  unfold install
  split
  · exact .refl hb
  · dsimp only
    split
    · exact .refl hb
    · rename_i e _
      have htoken := abides_writeKey hb i tokenKey t.text
      have hexpiry := htoken.trans
        (abides_writeKey htoken.healthy i expiryKey (toString e.floorSeconds))
      split
      · rename_i c _
        have hclaims := hexpiry.trans
          (abides_writeKey hexpiry.healthy i claimsKey c.toJson.compact)
        exact hclaims.trans (abides_setCache hclaims.healthy i _)
      · have hne : claimsKey ≠ tokenKey := by decide
        have hclaims := hexpiry.trans (abides_removeKey hexpiry.healthy i hne)
        exact hclaims.trans (abides_setCache hclaims.healthy i _)

theorem mild_clearNested (v : Vault) (depth : Nat) : Mild v (clearNested depth) := by
  cases depth with
  | zero => exact fun w i _ _ => hushed_forget w i
  | succ depth => exact mild_clearWith v (clearNested depth)

/-- After a clearing the token is gone, whether or not one was stored. -/
theorem clearSession_bereft (hw : w.Neighbours v) (hi : (w.tab? i).isSome) :
    Abides w (w.clearSession i) ∧ (w.clearSession i).Bereft v := by
  cases hs : w.keeps v tokenKey with
  | false =>
      have hbereft : w.Bereft v := ⟨hw, hs⟩
      have hclear := mild_clearWith v (clearNested w.depth) w i hbereft hi
      exact ⟨hclear.abides hw.healthy, hbereft.of_erodes hclear.erodes⟩
  | true =>
      obtain ⟨again, hclear⟩ := clearSession_eq hs i
      have hc := mild_clearWith v again
      have hbrings := clearWith_brings hw hi hs hc
      rw [hclear]
      exact ⟨hbrings.abides hw.healthy, hw.of_erodes hbrings.erodes,
        clearWith_keeps_none hw hi hs hc (by decide)⟩

theorem abides_endSession (hw : w.Neighbours v) (hi : (w.tab? i).isSome) (reason : EndReason) :
    Abides w (w.endSession i reason) := by
  obtain ⟨hclear, hbereft⟩ := clearSession_bereft hw hi
  have hc := mild_clearNested v (w.clearSession i).depth
  have hend := endWith_brings hc hbereft ((hclear.isSome_tab? i).trans hi) reason
  exact hclear.trans (hend.abides hclear.healthy)

theorem abides_act (hw : w.Neighbours v) (hi : (w.tab? i).isSome) (now : Instant)
    (action : TabAction) : Abides w (action.run w i now).2 := by
  have hb := hw.healthy
  have hsame : ∀ {u : Tabs}, u = w → Abides w u := by
    rintro u rfl
    exact .refl hb
  cases action with
  | install t given => exact abides_install hb i t given
  | clear => exact (clearSession_bereft hw hi).1
  | finish reason => exact abides_endSession hw hi reason
  | forget => exact abides_setCache hb i _
  | token => exact (token_recalls hb i now).abides hb
  | hasToken => exact hsame (hasToken_state hb i)
  | claims => exact (claims_recalls hb i now).abides hb
  | userId => exact (userId_recalls hb i now).abides hb
  | expiresAt => exact hsame (expiresAt_state hb i)
  | isExpired => exact hsame (isExpired_state hb i now)
  | needsRefresh => exact hsame (needsRefresh_state hb i now)

theorem remaining_state {now : Instant} {r : Span × Tabs} (h : w.remaining i now = .ok r) :
    r.2 = (w.claims i now).2 := by
  unfold remaining at h
  split at h
  · cases h
    rfl
  · rename_i c _
    cases hspan : c.remainingAt now with
    | error e =>
        rw [hspan] at h
        cases h
    | ok span =>
        rw [hspan] at h
        cases h
        rfl

/-- No deed opens or closes a tab, or changes who listens. -/
theorem abides_of_deed (hw : w.Neighbours v) (hi : (w.tab? i).isSome) {now : Instant} {d : Deed}
    (h : d.left? w i now = some w') : Abides w w' := by
  have hb := hw.healthy
  cases d with
  | act action =>
      obtain rfl := Option.some.inj h
      exact abides_act hw hi now action
  | remaining =>
      have hclaims := (claims_recalls hb i now).abides hb
      cases hr : w.remaining i now with
      | error e =>
          rw [Deed.left?, hr] at h
          cases h
      | ok r =>
          rw [Deed.left?, hr] at h
          obtain rfl := Option.some.inj h
          rw [← remaining_state hr] at hclaims
          exact hclaims
  | addReaction reaction =>
      obtain rfl := Option.some.inj h
      exact abides_modifyTab hb i fun _ => ⟨rfl, rfl⟩
  | removeReaction id =>
      obtain rfl := Option.some.inj h
      exact abides_modifyTab hb i fun _ => ⟨rfl, rfl⟩

/-! ## Gathering -/

/-- Tabs over a backend in good order, in the space of a vault, after anything that is done with
them. -/
inductive Gathered (v : Vault) : Tabs → Prop where
  | start (b : Backend) (hb : b.Healthy) : Gathered v (onBackend b)
  | openTab {w : Tabs} (h : Gathered v w) (t : Tab) (ht : t.vault.space = v.space) :
      Gathered v (w.openTab t)
  | closeTab {w : Tabs} (h : Gathered v w) (i : Nat) : Gathered v (w.closeTab i)
  /-- Something else than a tab listens. -/
  | listen {w : Tabs} (h : Gathered v w) (name : String) : Gathered v (w.listen (.note name)).2
  | unlisten {w : Tabs} (h : Gathered v w) (id : Nat)
      (hid : ∀ l ∈ w.listeners, l.1 = id → ∃ name, l.2 = .note name) : Gathered v (w.unlisten id)
  | deed {w w' : Tabs} (h : Gathered v w) (i : Nat) (hi : (w.tab? i).isSome) (now : Instant)
      (d : Deed) (hd : d.left? w i now = some w') : Gathered v w'

/-- Tabs of a company are numbered in the order in which they came. -/
structure Ordered (v : Vault) (w : Tabs) : Prop extends Company v w where
  numbered : ∀ j, .tab j ∈ w.listeners.map (·.2) → j < w.slots.length

theorem Ordered.of_abides (h : Ordered v w) (ha : Abides w w') : Ordered v w' where
  healthy := ha.healthy
  space_eq j hj := by
    rw [ha.vault]
    exact h.space_eq j ((ha.isSome_tab? j).symm.trans hj)
  listens j hj := by
    rw [ha.listeners]
    exact h.listens j ((ha.isSome_tab? j).symm.trans hj)
  numbered j hj := by
    rw [ha.listeners] at hj
    rw [ha.slots_eq]
    exact h.numbered j hj

theorem tab?_openTab (w : Tabs) (t : Tab) (j : Nat) :
    (w.openTab t).tab? j = if j = w.slots.length then some t else w.tab? j := by
  rw [tab?, tab?, Tabs.openTab]
  show (w.slots ++ [some t])[j]?.join = _
  rcases Nat.lt_trichotomy j w.slots.length with hlt | rfl | hgt
  · rw [List.getElem?_append_left hlt, if_neg (Nat.ne_of_lt hlt)]
  · simp
  · have hnone : w.slots[j]? = none := List.getElem?_eq_none (Nat.le_of_lt hgt)
    have hnone' : (w.slots ++ [some t])[j]? = none :=
      List.getElem?_eq_none (by rw [List.length_append]; exact hgt)
    rw [hnone, hnone', if_neg (Nat.ne_of_gt hgt)]

theorem Ordered.openTab (h : Ordered v w) {t : Tab} (ht : t.vault.space = v.space) :
    Ordered v (w.openTab t) where
  healthy := h.healthy
  space_eq j hj := by
    rw [vault, tab, tab?_openTab]
    rw [tab?_openTab] at hj
    split
    · exact ht
    · rename_i hne
      rw [if_neg hne] at hj
      exact h.space_eq j hj
  listens j hj := by
    rw [tab?_openTab] at hj
    show ((w.listeners ++ [(w.nextListener, Listener.tab w.slots.length)]).map (·.2)).count _ = 1
    rw [List.map_append, List.count_append]
    by_cases hnew : j = w.slots.length
    · -- The number of the new tab is above all that listen.
      have hmissing : Listener.tab j ∉ w.listeners.map (·.2) :=
        fun hmem => Nat.ne_of_lt (h.numbered j hmem) hnew
      rw [List.count_eq_zero_of_not_mem hmissing, hnew]
      simp
    · rw [if_neg hnew] at hj
      rw [h.listens j hj, List.count_eq_zero_of_not_mem]
      simpa using hnew
  numbered j hj := by
    have hj' : Listener.tab j ∈ (w.listeners ++ [(w.nextListener,
      Listener.tab w.slots.length)]).map (·.2) := hj
    show j < (w.slots ++ [some t]).length
    rw [List.length_append]
    rw [List.map_append, List.mem_append] at hj'
    rcases hj' with hold | hnew
    · exact Nat.lt_succ_of_lt (h.numbered j hold)
    · obtain rfl : j = w.slots.length := by simpa using hnew
      exact Nat.lt_succ_self _

/-- Listeners of whom none is left out. -/
theorem count_filter_map {listeners : List (Nat × Listener)} {p : Nat × Listener → Bool}
    {a : Listener} (h : ∀ l ∈ listeners, l.2 = a → p l = true) :
    ((listeners.filter p).map (·.2)).count a = (listeners.map (·.2)).count a := by
  induction listeners with
  | nil => rfl
  | cons l listeners ih =>
      have hrest := ih fun l' hl' => h l' (List.mem_cons_of_mem _ hl')
      by_cases hp : p l = true
      · rw [List.filter_cons_of_pos hp, List.map_cons, List.map_cons, List.count_cons,
          List.count_cons, hrest]
      · have hne : l.2 ≠ a := fun heq => hp (h l List.mem_cons_self heq)
        rw [List.filter_cons_of_neg hp, hrest, List.map_cons, List.count_cons_of_ne hne]

theorem mem_of_mem_filter_map {listeners : List (Nat × Listener)} {p : Nat × Listener → Bool}
    {a : Listener} (h : a ∈ (listeners.filter p).map (·.2)) : a ∈ listeners.map (·.2) := by
  obtain ⟨l, hl, rfl⟩ := List.mem_map.mp h
  exact List.mem_map_of_mem (List.mem_filter.mp hl).1

theorem tab?_closeTab (w : Tabs) (i j : Nat) :
    (w.closeTab i).tab? j = if j = i then none else w.tab? j := by
  rw [tab?, tab?]
  show (w.slots.set i none)[j]?.join = _
  rw [List.getElem?_set]
  by_cases hj : j = i
  · subst hj
    rw [if_pos rfl, if_pos rfl]
    split <;> rfl
  · rw [if_neg (Ne.symm hj), if_neg hj]

theorem Ordered.closeTab (h : Ordered v w) (i : Nat) : Ordered v (w.closeTab i) where
  healthy := h.healthy
  space_eq j hj := by
    rw [vault, tab, tab?_closeTab]
    rw [tab?_closeTab] at hj
    split
    · rename_i heq
      rw [if_pos heq] at hj
      cases hj
    · rename_i hne
      rw [if_neg hne] at hj
      exact h.space_eq j hj
  listens j hj := by
    rw [tab?_closeTab] at hj
    by_cases heq : j = i
    · rw [if_pos heq] at hj
      cases hj
    · rw [if_neg heq] at hj
      rw [← h.listens j hj]
      refine count_filter_map fun l _ hl => ?_
      rw [hl, decide_eq_true_eq]
      exact fun hsame => heq (by cases hsame; rfl)
  numbered j hj := by
    show j < (w.slots.set i none).length
    rw [List.length_set]
    exact h.numbered j (mem_of_mem_filter_map hj)

theorem Ordered.listen (h : Ordered v w) (name : String) :
    Ordered v (w.listen (.note name)).2 where
  healthy := h.healthy
  space_eq := h.space_eq
  listens j hj := by
    show ((w.listeners ++ [(w.nextListener, Listener.note name)]).map (·.2)).count _ = 1
    rw [List.map_append, List.count_append, h.listens j hj]
    rfl
  numbered j hj := by
    have hj' : Listener.tab j ∈
      (w.listeners ++ [(w.nextListener, Listener.note name)]).map (·.2) := hj
    rw [List.map_append, List.mem_append] at hj'
    rcases hj' with hold | hnew
    · exact h.numbered j hold
    · simp at hnew

theorem Ordered.unlisten (h : Ordered v w) {id : Nat}
    (hid : ∀ l ∈ w.listeners, l.1 = id → ∃ name, l.2 = .note name) :
    Ordered v (w.unlisten id) where
  healthy := h.healthy
  space_eq := h.space_eq
  listens j hj := by
    rw [← h.listens j hj]
    refine count_filter_map fun l hmem hl => ?_
    rw [decide_eq_true_eq]
    intro heq
    obtain ⟨name, hname⟩ := hid l hmem heq
    rw [hl] at hname
    cases hname
  numbered j hj := h.numbered j (mem_of_mem_filter_map hj)

theorem Gathered.ordered (h : Gathered v w) : Ordered v w := by
  induction h with
  | start b hb => exact ⟨⟨⟨hb, fun j hj => by cases hj⟩, fun j hj => by cases hj⟩, nofun⟩
  | openTab h t ht ih => exact ih.openTab ht
  | closeTab h i ih => exact ih.closeTab i
  | listen h name ih => exact ih.listen name
  | unlisten h id hid ih => exact ih.unlisten hid
  | deed h i hi now d hd ih => exact ih.of_abides (abides_of_deed ih.toNeighbours hi hd)

/-- When one of the tabs clears the session that is stored, reactions may clear sessions again, but
no clearing stands inside those, whatever it would be. Every other open tab takes leave of its
session exactly once, the tab that clears does not, and afterwards nothing of a session is stored
and no tab gives a token. -/
theorem Gathered.clearSession_farewells (h : Gathered v w) (hi : (w.tab? i).isSome)
    (hs : w.stores i tokenKey = true) :
    (∀ again, clearWith (clearWith again) i w = w.clearSession i) ∧
      (∀ j, (w.news (w.clearSession i)).filter (·.concerns j) =
        if j ≠ i ∧ (w.tab? j).isSome then w.farewell j .crossTab else []) ∧
      ∀ j, (w.tab? j).isSome →
        (∀ key ∈ sessionKeys, (w.clearSession i).stores j key = false) ∧
          ((w.clearSession i).hasToken j).1 = false ∧
          ∀ now, ((w.clearSession i).token j now).1 = none := by
  have hcompany := h.ordered.toCompany
  obtain ⟨hends, hfarewells, hgone, hsilent⟩ := hcompany.departure hi hs
  obtain ⟨hclear, hbereft⟩ := clearSession_bereft hcompany.toNeighbours hi
  refine ⟨hends, hfarewells, fun j hj => ⟨fun key hk => ?_, hsilent j hj⟩⟩
  rw [hbereft.stores_eq ((hclear.isSome_tab? j).trans hj)]
  exact hgone key hk

/-- Two tabs on different devices that clear their sessions when these end; the first has just
installed a token. -/
def couple : Tabs :=
  let first := (onBackend (.ofItems [])).openTab (.opened ⟨"s:", ⟨"", "", "", ""⟩⟩ (.ofSeconds 300))
  let both := first.openTab (.opened ⟨"s:", ⟨"ua", "en", "", ""⟩⟩ (.ofSeconds 300))
  let ready := ((both.addReaction 0 .clear).2.addReaction 1 .clear).2
  (ready.install 0 ⟨"opaque"⟩ (some ⟨1748782800000000000⟩)).2

theorem gathered_couple : Gathered ⟨"s:", ⟨"", "", "", ""⟩⟩ couple := by
  have hstart := Gathered.start (v := ⟨"s:", ⟨"", "", "", ""⟩⟩) (.ofItems []) ⟨rfl, rfl⟩
  have hboth := (hstart.openTab (.opened ⟨"s:", ⟨"", "", "", ""⟩⟩ (.ofSeconds 300)) rfl).openTab
    (.opened ⟨"s:", ⟨"ua", "en", "", ""⟩⟩ (.ofSeconds 300)) rfl
  have hready := (hboth.deed 0 rfl ⟨0⟩ (.addReaction .clear) rfl).deed 1 rfl ⟨0⟩
    (.addReaction .clear) rfl
  exact hready.deed 0 rfl ⟨0⟩
    (.act (.install ⟨"opaque"⟩ (some ⟨1748782800000000000⟩))) rfl

theorem clearSession_farewells_couple :
    Gathered ⟨"s:", ⟨"", "", "", ""⟩⟩ couple ∧ (couple.tab? 0).isSome ∧
      couple.stores 0 tokenKey = true ∧
      (∀ again, clearWith (clearWith again) 0 couple = couple.clearSession 0) ∧
      (couple.news (couple.clearSession 0)).filter (·.concerns 0) = [] ∧
      (couple.news (couple.clearSession 0)).filter (·.concerns 1) =
        [.ended 1 .crossTab, .reacted 1 .clear .crossTab] ∧
      ∀ j < 2, (couple.clearSession 0).stores j tokenKey = false := by
  have hopen : (couple.tab? 0).isSome := by decide +kernel
  have hstored : couple.stores 0 tokenKey = true := by decide +kernel
  obtain ⟨hends, hfarewells, hgone⟩ :=
    gathered_couple.clearSession_farewells hopen hstored
  refine ⟨gathered_couple, hopen, hstored, hends, ?_, ?_, fun j hj => ?_⟩
  · rw [hfarewells 0, if_neg fun h => h.1 rfl]
  · have hsecond : (couple.tab? 1).isSome := by decide +kernel
    rw [hfarewells 1, if_pos ⟨Nat.one_ne_zero, hsecond⟩]
    decide +kernel
  · have hj' : (couple.tab? j).isSome := by
      revert j
      decide +kernel
    exact (hgone j hj').1 tokenKey (by decide)

end Tabs

end ClientSession
