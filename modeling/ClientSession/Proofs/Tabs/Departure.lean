import ClientSession.Proofs.Session.Recollection

/-!
# Taking leave of a session

When a tab clears the session that is stored, every other open tab hears of it once and takes leave
of its own session. Reactions may clear sessions in turn, each in the middle of the clearing that it
reacts to. That comes to an end: when a tab hears of the removal the token is gone, and without a
token a clearing brings about nothing that a tab takes notice of.

- `Tabs.clearWith_of_bereft`: clearing a session of which the token is gone.
- `Tabs.heard_brings`: what the tabs note when they hear that the token was removed.
- `Tabs.Company.departure`: what clearing a session that is stored brings about.
-/

namespace ClientSession

/-- The occurrence is the end of the tab's session, or a reaction to it. -/
def Occurrence.concerns (j : Nat) : Occurrence → Bool
  | .ended i _ => decide (i = j)
  | .reacted i _ _ => decide (i = j)
  | _ => false

namespace Tabs

variable {w w' w'' : Tabs} {v : Vault} {i j : Nat} {clearAgain clearAgain' : Nat → Tabs → Tabs}

/-- Neighbours of whom every one listens once. -/
structure Company (v : Vault) (w : Tabs) : Prop extends Neighbours v w where
  listens : ∀ j, (w.tab? j).isSome → (w.listeners.map (·.2)).count (.tab j) = 1

/-- The token of the neighbours is gone. -/
structure Bereft (v : Vault) (w : Tabs) : Prop extends Neighbours v w where
  gone : w.keeps v tokenKey = false

theorem Neighbours.of_erodes (h : w.Neighbours v) (he : Erodes w w') : w'.Neighbours v where
  healthy := he.healthy h.healthy
  space_eq j hj := by
    rw [vault_congr he.bare]
    exact h.space_eq j (he.isSome_tab? j ▸ hj)

theorem Bereft.of_erodes (h : w.Bereft v) (he : Erodes w w') : w'.Bereft v where
  toNeighbours := h.toNeighbours.of_erodes he
  gone := he.keeps_eq_false h.gone

/-! ## What is brought about -/

/-- What tabs note of the ends of their sessions, tab by tab. Nothing is stored or remembered that
was not. -/
structure Brings (farewells : Nat → List Occurrence) (w w' : Tabs) : Prop where
  erodes : Erodes w w'
  slots_eq : w'.slots.length = w.slots.length
  noted : ∀ j, (w.news w').filter (·.concerns j) = farewells j

/-- Nothing is brought about. -/
abbrev Hushed : Tabs → Tabs → Prop := Brings fun _ => []

theorem Hushed.refl (w : Tabs) : Hushed w w :=
  ⟨.refl w, rfl, fun _ => by rw [news_self, List.filter_nil]⟩

theorem Brings.trans {l l' : Nat → List Occurrence} (h : Brings l w w') (h' : Brings l' w' w'') :
    Brings (fun j => l j ++ l' j) w w'' where
  erodes := h.erodes.trans h'.erodes
  slots_eq := h'.slots_eq.trans h.slots_eq
  noted j := by
    rw [news_trans h.erodes.history h'.erodes.history, List.filter_append, h.noted, h'.noted]

theorem Brings.hushed {l : Nat → List Occurrence} (h : Brings l w w') (h' : Hushed w' w'') :
    Brings l w w'' := by
  have htrans := h.trans h'
  simpa only [List.append_nil] using htrans

theorem Hushed.brings {l : Nat → List Occurrence} (h : Hushed w w') (h' : Brings l w' w'') :
    Brings l w w'' := h.trans h'

theorem hushed_forget (w : Tabs) (i : Nat) : Hushed w (w.forget i) := by
  have hstep : FadeStep default true w (w.forget i) := .forget i
  exact ⟨.of_step hstep, List.length_modify .., fun j => by rw [news_forget, List.filter_nil]⟩

theorem brings_note (w : Tabs) (o : Occurrence) :
    Brings (fun j => if o.concerns j = true then [o] else []) w (w.note o) where
  erodes := ⟨id, fun _ => .inr rfl, fun _ => rfl, fun _ => .inr rfl, rfl, List.prefix_append _ _⟩
  slots_eq := rfl
  noted j := by simp only [news_note, List.filter_singleton, Bool.cond_eq_ite]

theorem hushed_note {o : Occurrence} (ho : ∀ j, o.concerns j = false) (w : Tabs) :
    Hushed w (w.note o) := by
  have hnote := brings_note w o
  simpa only [ho, Bool.false_eq_true, if_false] using hnote

theorem hushed_without (v : Vault) (key : String) (w : Tabs) : Hushed w (w.without v key) where
  erodes := by
    refine ⟨id, fun k => ?_, fun _ => rfl, fun _ => .inr rfl, rfl, List.prefix_rfl⟩
    rw [without, items_withItems, Table.find?_erase]
    split
    · exact .inl rfl
    · exact .inr rfl
  slots_eq := rfl
  noted j := by
    have hnone : w.news (w.without v key) = [] := news_of_history rfl
    rw [hnone, List.filter_nil]

/-- Listeners that are no tabs only note what they hear. -/
theorem hushed_echoes (key : String) (listeners : List (Nat × Listener)) (w : Tabs) :
    Hushed w { w with history := w.history ++ echoes key listeners } where
  erodes := ⟨id, fun _ => .inr rfl, fun _ => rfl, fun _ => .inr rfl, rfl, List.prefix_append _ _⟩
  slots_eq := rfl
  noted j := by
    rw [news, List.drop_left, List.filter_eq_nil_iff]
    intro o ho
    obtain ⟨⟨n, l⟩, -, hl⟩ := List.mem_filterMap.mp ho
    cases l with
    | note name =>
        obtain rfl := Option.some.inj hl
        exact Bool.false_ne_true
    | tab k => cases hl

/-! ## Without a token -/

/-- The tabs after another key than the token has been discarded. -/
def discarded (v : Vault) (i : Nat) (key : String) (w : Tabs) : Tabs :=
  if w.keeps v key = true then
    let u := (w.without v key).note (.changed ⟨key, none, i⟩)
    { u with history := u.history ++ echoes key w.listeners }
  else w

theorem hushed_discarded (v : Vault) (i : Nat) (key : String) (w : Tabs) :
    Hushed w (discarded v i key w) := by
  unfold discarded
  split
  · have hdrop : Hushed w ((w.without v key).note (.changed ⟨key, none, i⟩)) :=
      (hushed_without v key w).hushed (hushed_note (fun _ => rfl) _)
    exact hdrop.hushed (hushed_echoes key w.listeners _)
  · exact .refl w

theorem keeps_discarded (v : Vault) (i : Nat) (key : String) (w : Tabs) :
    (discarded v i key w).keeps v key = false := by
  unfold discarded
  split
  · show (w.without v key).keeps v key = false
    rw [keeps_without]
    simp
  · exact Bool.eq_false_iff.mpr ‹_›

theorem discardWith_of_ne (hw : w.Neighbours v) (hi : (w.tab? i).isSome) {key : String}
    (hk : key ∈ sessionKeys) (hne : key ≠ tokenKey) :
    discardWith clearAgain i key w = discarded v i key w := by
  unfold discarded
  split
  · rename_i hs
    rw [discardWith_of_keeps hw hi hk hs, publishWith]
    exact foldl_hearWith_of_ne hne w.listeners _
  · rename_i hs
    exact discardWith_of_gone hw hi (Bool.eq_false_iff.mpr hs)

/-- Once the token has been discarded a clearing removes what is left. -/
theorem clearWith_eq (hw : w.Neighbours v) (hi : (w.tab? i).isSome)
    (he : Erodes w (discardWith clearAgain i tokenKey w)) :
    clearWith clearAgain i w = (discarded v i claimsKey
      (discarded v i expiryKey (discardWith clearAgain i tokenKey w))).forget i := by
  generalize hu : discardWith clearAgain i tokenKey w = u at he
  have hexpiry : discardWith clearAgain i expiryKey u = discarded v i expiryKey u :=
    discardWith_of_ne (hw.of_erodes he) ((he.isSome_tab? i).trans hi) (by decide) (by decide)
  have he' := he.trans (hushed_discarded v i expiryKey u).erodes
  have hclaims : discardWith clearAgain i claimsKey (discarded v i expiryKey u) =
      discarded v i claimsKey (discarded v i expiryKey u) :=
    discardWith_of_ne (hw.of_erodes he') ((he'.isSome_tab? i).trans hi) (by decide) (by decide)
  rw [clearWith, sessionKeys, List.foldl_cons, hu, List.foldl_cons, hexpiry, List.foldl_cons,
    hclaims, List.foldl_nil]

theorem hushed_left (v : Vault) (i : Nat) (w : Tabs) :
    Hushed w ((discarded v i claimsKey (discarded v i expiryKey w)).forget i) :=
  ((hushed_discarded v i expiryKey w).hushed (hushed_discarded v i claimsKey _)).hushed
    (hushed_forget _ i)

/-- Where the token is gone it makes no difference what would be cleared again. -/
theorem clearWith_of_bereft (hw : w.Bereft v) (hi : (w.tab? i).isSome) :
    clearWith clearAgain i w =
      (discarded v i claimsKey (discarded v i expiryKey w)).forget i := by
  have htoken : discardWith clearAgain i tokenKey w = w :=
    discardWith_of_gone hw.toNeighbours hi hw.gone
  have herodes : Erodes w (discardWith clearAgain i tokenKey w) := by
    rw [htoken]
    exact .refl w
  rw [clearWith_eq hw.toNeighbours hi herodes, htoken]

/-- Clearing again brings nothing about where the token is gone. -/
def Mild (v : Vault) (clearAgain : Nat → Tabs → Tabs) : Prop :=
  ∀ w i, w.Bereft v → (w.tab? i).isSome → Hushed w (clearAgain i w)

theorem mild_clearWith (v : Vault) (clearAgain : Nat → Tabs → Tabs) :
    Mild v (clearWith clearAgain) := by
  intro w i hw hi
  rw [clearWith_of_bereft hw hi]
  exact hushed_left v i w

/-! ## Farewells -/

/-- What a tab notes when its session ends: the end, and then each of its reactions. -/
def farewell (w : Tabs) (j : Nat) (reason : EndReason) : List Occurrence :=
  .ended j reason :: (w.tab j).reactions.map fun r => .reacted j r.2 reason

/-- It does not depend on what the tab remembers. -/
theorem farewell_congr (h : w'.bare? j = w.bare? j) (reason : EndReason) :
    w'.farewell j reason = w.farewell j reason := by
  have hreactions : ∀ u : Tabs, (u.tab j).reactions = ((u.bare? j).getD default).reactions := by
    intro u
    cases hu : u.tab? j <;> simp [tab, bare?, hu, Tab.bare]
  rw [farewell, farewell, hreactions, hreactions w, h]

theorem Erodes.farewell_eq (h : Erodes w w') (j : Nat) (reason : EndReason) :
    w'.farewell j reason = w.farewell j reason := farewell_congr (h.bare j) reason

/-- What an open tab notes when another one has removed the token. -/
def leaving (w : Tabs) (i j : Nat) : List Occurrence :=
  if j ≠ i ∧ (w.tab? j).isSome then w.farewell j .crossTab else []

/-- What it notes if it listens more than once. -/
def leavings (w : Tabs) (i : Nat) (listeners : List (Nat × Listener)) (j : Nat) :
    List Occurrence :=
  (List.replicate ((listeners.map (·.2)).count (.tab j)) (w.leaving i j)).flatten

theorem Erodes.leaving_eq (h : Erodes w w') (i j : Nat) : w'.leaving i j = w.leaving i j := by
  rw [leaving, leaving, h.isSome_tab?, h.farewell_eq]

theorem leavings_cons (w : Tabs) (i : Nat) (l : Nat × Listener)
    (listeners : List (Nat × Listener)) (j : Nat) : w.leavings i (l :: listeners) j =
      (if l.2 = .tab j then w.leaving i j else []) ++ w.leavings i listeners j := by
  rw [leavings, leavings, List.map_cons, List.count_cons]
  by_cases hl : l.2 = .tab j
  · simp [hl, List.replicate_succ]
  · simp [hl]

section Farewells

variable (hc : Mild v clearAgain) (hw : w.Bereft v)

theorem brings_own {o : Occurrence} (ho : ∀ j, o.concerns j = decide (i = j)) (w : Tabs) :
    Brings (fun j => if i = j then [o] else []) w (w.note o) := by
  have hnote := brings_note w o
  simpa only [ho, decide_eq_true_eq] using hnote

include hc hw

theorem reactWith_brings (hi : (w.tab? i).isSome) (r : Reaction) (reason : EndReason) :
    Brings (fun j => if i = j then [.reacted i r reason] else []) w
      (reactWith clearAgain i r reason w) := by
  have hnote : Brings (fun j => if i = j then [.reacted i r reason] else []) w
      (w.note (.reacted i r reason)) := brings_own (fun _ => rfl) w
  cases r with
  | note name => exact hnote
  | stopWork => exact hnote
  | clear =>
      exact hnote.hushed (hc _ i (hw.of_erodes hnote.erodes)
        ((hnote.erodes.isSome_tab? i).trans hi))

theorem reactions_bring (hi : (w.tab? i).isSome) (reactions : List (Nat × Reaction))
    (reason : EndReason) :
    Brings (fun j => if i = j then reactions.map (fun r => .reacted i r.2 reason) else []) w
      (reactions.foldl (fun w r => reactWith clearAgain i r.2 reason w) w) := by
  induction reactions generalizing w with
  | nil => simpa using Hushed.refl w
  | cons r reactions ih =>
      have hfirst := reactWith_brings hc hw hi r.2 reason
      have hrest := ih (hw.of_erodes hfirst.erodes) ((hfirst.erodes.isSome_tab? i).trans hi)
      have hall := hfirst.trans hrest
      refine ⟨hall.erodes, hall.slots_eq, fun j => ?_⟩
      rw [List.foldl_cons, hall.noted]
      split <;> rfl

theorem endWith_brings (hi : (w.tab? i).isSome) (reason : EndReason) :
    Brings (fun j => if i = j then w.farewell i reason else []) w
      (endWith clearAgain i reason w) := by
  have hnote : Brings (fun j => if i = j then [.ended i reason] else []) w
      (w.note (.ended i reason)) := brings_own (fun _ => rfl) w
  have hall := hnote.trans (reactions_bring hc (hw.of_erodes hnote.erodes)
    ((hnote.erodes.isSome_tab? i).trans hi) (w.tab i).reactions reason)
  refine ⟨hall.erodes, hall.slots_eq, fun j => ?_⟩
  rw [endWith, hall.noted]
  split <;> rfl

/-- A tab that hears that another one has removed the token takes leave of its session. -/
theorem hearWith_brings (i : Nat) (l : Listener) :
    Brings (fun j => if l = .tab j then w.leaving i j else []) w
      (hearWith clearAgain ⟨tokenKey, none, i⟩ l w) := by
  cases l with
  | note name =>
      have hnote : Hushed w (w.note (.heard name tokenKey)) := hushed_note (fun _ => rfl) w
      simpa [hearWith] using hnote
  | tab k =>
      rw [hearWith]
      split
      · rename_i hk
        obtain ⟨hne, hopen, -, -⟩ := hk
        have hforget := hushed_forget w k
        have hend := endWith_brings hc (hw.of_erodes hforget.erodes)
          ((hforget.erodes.isSome_tab? k).trans hopen) .crossTab
        have hall := hforget.brings hend
        refine ⟨hall.erodes, hall.slots_eq, fun j => ?_⟩
        rw [hall.noted, hforget.erodes.farewell_eq]
        by_cases hkj : k = j
        · subst hkj
          rw [if_pos rfl, if_pos rfl, leaving, if_pos ⟨hne, hopen⟩]
        · rw [if_neg hkj, if_neg fun h => hkj (Listener.tab.inj h)]
      · rename_i hk
        refine ⟨.refl w, rfl, fun j => ?_⟩
        rw [news_self, List.filter_nil]
        split
        · rename_i heq
          obtain rfl := Listener.tab.inj heq
          exact (if_neg fun h => hk ⟨h.1, h.2, rfl, rfl⟩).symm
        · rfl

/-- The tabs that listen take leave as often as they listen. -/
theorem heard_brings (i : Nat) (listeners : List (Nat × Listener)) :
    Brings (w.leavings i listeners) w
      (listeners.foldl (fun w l => hearWith clearAgain ⟨tokenKey, none, i⟩ l.2 w) w) := by
  induction listeners generalizing w with
  | nil => exact Hushed.refl w
  | cons l listeners ih =>
      have hfirst := hearWith_brings hc hw i l.2
      have hall := hfirst.trans (ih (hw.of_erodes hfirst.erodes))
      refine ⟨hall.erodes, hall.slots_eq, fun j => ?_⟩
      rw [List.foldl_cons, hall.noted, leavings_cons, leavings, hfirst.erodes.leaving_eq, leavings]

/-- A tab that listens and is not the one that removed the token forgets its session. -/
theorem heard_forgets_own (hne : j ≠ i) (hj : (w.tab? j).isSome)
    {listeners : List (Nat × Listener)} (hl : Listener.tab j ∈ listeners.map (·.2)) :
    (listeners.foldl (fun w l => hearWith clearAgain ⟨tokenKey, none, i⟩ l.2 w) w).cache j =
      .empty := by
  induction listeners generalizing w with
  | nil => cases hl
  | cons l listeners ih =>
      have hfirst := hearWith_brings hc hw i l.2
      have hw' := hw.of_erodes hfirst.erodes
      rw [List.foldl_cons]
      rcases List.mem_cons.mp hl with hhead | htail
      · have hforget := hushed_forget w j
        have hend := endWith_brings hc (hw.of_erodes hforget.erodes)
          ((hforget.erodes.isSome_tab? j).trans hj) .crossTab
        have hhead' : l.2 = .tab j := hhead.symm
        have hempty : (hearWith clearAgain ⟨tokenKey, none, i⟩ l.2 w).cache j = .empty := by
          rw [hhead', hearWith, if_pos ⟨hne, hj, rfl, rfl⟩]
          exact hend.erodes.cache_eq_empty (cache_forget w j)
        exact (heard_brings hc hw' i listeners).erodes.cache_eq_empty hempty
      · exact ih hw' ((hfirst.erodes.isSome_tab? j).trans hj) htail

/-! ### What is cleared again makes no difference -/

variable (hsame : ∀ w i, w.Bereft v → (w.tab? i).isSome → clearAgain' i w = clearAgain i w)

include hsame

theorem reactions_congr (hi : (w.tab? i).isSome) (reactions : List (Nat × Reaction))
    (reason : EndReason) :
    reactions.foldl (fun w r => reactWith clearAgain' i r.2 reason w) w =
      reactions.foldl (fun w r => reactWith clearAgain i r.2 reason w) w := by
  induction reactions generalizing w with
  | nil => rfl
  | cons r reactions ih =>
      have hfirst := reactWith_brings hc hw hi r.2 reason
      have hone : reactWith clearAgain' i r.2 reason w = reactWith clearAgain i r.2 reason w := by
        have hnote := brings_note w (.reacted i r.2 reason)
        unfold reactWith
        split
        · exact hsame _ i (hw.of_erodes hnote.erodes) ((hnote.erodes.isSome_tab? i).trans hi)
        · rfl
      rw [List.foldl_cons, List.foldl_cons, hone]
      exact ih (hw.of_erodes hfirst.erodes) ((hfirst.erodes.isSome_tab? i).trans hi)

theorem hearWith_congr (l : Listener) :
    hearWith clearAgain' ⟨tokenKey, none, i⟩ l w = hearWith clearAgain ⟨tokenKey, none, i⟩ l w := by
  cases l with
  | note name => rfl
  | tab k =>
      rw [hearWith, hearWith]
      split
      · rename_i hk
        have hforget := hushed_forget w k
        have hnote := hforget.brings (brings_note (w.forget k) (.ended k .crossTab))
        exact reactions_congr hc (hw.of_erodes hnote.erodes) hsame
          ((hnote.erodes.isSome_tab? k).trans hk.2.1) _ _
      · rfl

theorem heard_congr (listeners : List (Nat × Listener)) :
    listeners.foldl (fun w l => hearWith clearAgain' ⟨tokenKey, none, i⟩ l.2 w) w =
      listeners.foldl (fun w l => hearWith clearAgain ⟨tokenKey, none, i⟩ l.2 w) w := by
  induction listeners generalizing w with
  | nil => rfl
  | cons l listeners ih =>
      have hfirst := hearWith_brings hc hw i l.2
      rw [List.foldl_cons, List.foldl_cons, hearWith_congr hc hw hsame]
      exact ih (hw.of_erodes hfirst.erodes)

end Farewells

/-! ## Clearing a session that is stored -/

section Stored

variable (hw : w.Neighbours v) (hi : (w.tab? i).isSome) (hs : w.keeps v tokenKey = true)

/-- The tabs when they hear that the token was removed. -/
def removed (v : Vault) (i : Nat) (w : Tabs) : Tabs :=
  (w.without v tokenKey).note (.changed ⟨tokenKey, none, i⟩)

theorem hushed_removed (v : Vault) (i : Nat) (w : Tabs) : Hushed w (removed v i w) :=
  (hushed_without v tokenKey w).hushed (hushed_note (fun _ => rfl) _)

include hw

theorem bereft_removed (i : Nat) : (removed v i w).Bereft v where
  toNeighbours := hw.of_erodes (hushed_removed v i w).erodes
  gone := by
    rw [removed, keeps_note, keeps_without]
    simp

include hi hs

theorem discardWith_token : discardWith clearAgain i tokenKey w =
    w.listeners.foldl (fun w l => hearWith clearAgain ⟨tokenKey, none, i⟩ l.2 w) (removed v i w) :=
  discardWith_of_keeps hw hi (by decide) hs

theorem discardWith_token_erodes (hc : Mild v clearAgain) :
    Erodes (removed v i w) (discardWith clearAgain i tokenKey w) := by
  rw [discardWith_token hw hi hs]
  exact (heard_brings hc (bereft_removed hw i) i w.listeners).erodes

/-- The other tabs take leave of their sessions as often as they listen. -/
theorem clearWith_brings (hc : Mild v clearAgain) :
    Brings (w.leavings i w.listeners) w (clearWith clearAgain i w) := by
  have hremoved := hushed_removed v i w
  have herodes := hremoved.erodes.trans (discardWith_token_erodes hw hi hs hc)
  have hheard := heard_brings hc (bereft_removed hw i) i w.listeners
  rw [clearWith_eq hw hi herodes, discardWith_token hw hi hs]
  have hall := (hremoved.brings hheard).hushed (hushed_left v i _)
  refine ⟨hall.erodes, hall.slots_eq, fun j => ?_⟩
  rw [hall.noted, leavings, hremoved.erodes.leaving_eq, leavings]

theorem clearWith_keeps_none (hc : Mild v clearAgain) {key : String} (hk : key ∈ sessionKeys) :
    (clearWith clearAgain i w).keeps v key = false := by
  have herodes := discardWith_token_erodes hw hi hs hc
  rw [clearWith_eq hw hi ((hushed_removed v i w).erodes.trans herodes)]
  generalize discardWith clearAgain i tokenKey w = u at herodes
  -- What has been removed once is not stored again.
  have hexpiry := hushed_discarded v i expiryKey u
  have hclaims := hushed_discarded v i claimsKey (discarded v i expiryKey u)
  rw [forget, keeps_setCache]
  simp only [sessionKeys, List.mem_cons, List.not_mem_nil, or_false] at hk
  rcases hk with rfl | rfl | rfl
  · exact (hexpiry.hushed hclaims).erodes.keeps_eq_false
      (herodes.keeps_eq_false (bereft_removed hw i).gone)
  · exact hclaims.erodes.keeps_eq_false (keeps_discarded v i expiryKey u)
  · exact keeps_discarded v i claimsKey _

theorem clearWith_forgets_all (hc : Mild v clearAgain) (hj : (w.tab? j).isSome)
    (hl : Listener.tab j ∈ w.listeners.map (·.2)) :
    (clearWith clearAgain i w).cache j = .empty := by
  by_cases hne : j = i
  · rw [hne]
    exact cache_forget _ i
  · have hremoved := hushed_removed v i w
    have hempty : (discardWith clearAgain i tokenKey w).cache j = .empty := by
      rw [discardWith_token hw hi hs]
      exact heard_forgets_own hc (bereft_removed hw i) hne
        ((hremoved.erodes.isSome_tab? j).trans hj) hl
    have herodes := hremoved.erodes.trans (discardWith_token_erodes hw hi hs hc)
    rw [clearWith_eq hw hi herodes]
    exact (hushed_left v i _).erodes.cache_eq_empty hempty

/-- It makes no difference what would be cleared in the third place. -/
theorem clearWith_congr (hc : Mild v clearAgain)
    (hsame : ∀ w i, w.Bereft v → (w.tab? i).isSome → clearAgain' i w = clearAgain i w) :
    clearWith clearAgain' i w = clearWith clearAgain i w := by
  have htoken : discardWith clearAgain' i tokenKey w = discardWith clearAgain i tokenKey w := by
    rw [discardWith_token hw hi hs, discardWith_token hw hi hs]
    exact heard_congr hc (bereft_removed hw i) hsame w.listeners
  have herodes := (hushed_removed v i w).erodes.trans (discardWith_token_erodes hw hi hs hc)
  rw [clearWith_eq hw hi herodes, clearWith_eq hw hi (by rw [htoken]; exact herodes), htoken]

end Stored

/-- Whoever listens once takes leave once. -/
theorem Company.leavings_eq (hw : w.Company v) (i j : Nat) :
    w.leavings i w.listeners j = w.leaving i j := by
  by_cases hj : (w.tab? j).isSome
  · rw [leavings, hw.listens j hj, List.replicate_one, List.flatten_singleton]
  · have hnone : w.leaving i j = [] := if_neg fun h => hj h.2
    rw [leavings, hnone, List.flatten_replicate_nil]

/-- Where something is stored clearings may nest. -/
theorem depth_of_keeps {key : String} (h : w.keeps v key = true) : ∃ d, w.depth = d + 1 := by
  refine Nat.exists_eq_succ_of_ne_zero fun hzero => ?_
  have hnone : w.backend.items.entries = [] := List.eq_nil_of_length_eq_zero hzero
  rw [keeps, Table.find?, hnone] at h
  cases h

theorem clearSession_eq {key : String} (h : w.keeps v key = true) (i : Nat) :
    ∃ again, w.clearSession i = clearWith (clearWith again) i w := by
  obtain ⟨d, hd⟩ := depth_of_keeps h
  exact ⟨clearNested d, by rw [clearSession, hd]; rfl⟩

/-- When a tab clears the session that is stored: reactions clear sessions again, but those
clearings have none inside them, whatever it would be; every other open tab takes leave of its
session exactly once, and the tab itself does not; and nothing of the session is stored or given by
any tab afterwards. -/
theorem Company.departure (hw : w.Company v) (hi : (w.tab? i).isSome)
    (hs : w.stores i tokenKey = true) :
    (∀ again, clearWith (clearWith again) i w = w.clearSession i) ∧
      (∀ j, (w.news (w.clearSession i)).filter (·.concerns j) =
        if j ≠ i ∧ (w.tab? j).isSome then w.farewell j .crossTab else []) ∧
      (∀ key ∈ sessionKeys, (w.clearSession i).keeps v key = false) ∧
      ∀ j, (w.tab? j).isSome → ((w.clearSession i).hasToken j).1 = false ∧
        ∀ now, ((w.clearSession i).token j now).1 = none := by
  have hn := hw.toNeighbours
  rw [hn.stores_eq hi] at hs
  obtain ⟨again, hclear⟩ := clearSession_eq hs i
  have hc := mild_clearWith v again
  rw [hclear]
  have hbrings := clearWith_brings hn hi hs hc
  have hgone : ∀ key ∈ sessionKeys, (clearWith (clearWith again) i w).keeps v key = false :=
    fun key hk => clearWith_keeps_none hn hi hs hc hk
  refine ⟨fun again' => ?_, fun j => ?_, hgone, fun j hj => ?_⟩
  · refine clearWith_congr hn hi hs hc fun u k hu hk => ?_
    rw [clearWith_of_bereft hu hk, clearWith_of_bereft hu hk]
  · rw [hbrings.noted, hw.leavings_eq, leaving]
  · have hafter := hn.of_erodes hbrings.erodes
    have hj' := (hbrings.erodes.isSome_tab? j).trans hj
    have hlistens : Listener.tab j ∈ w.listeners.map (·.2) := by
      rw [← List.count_pos_iff, hw.listens j hj]
      exact Nat.one_pos
    have hempty := clearWith_forgets_all hn hi hs hc hj hlistens
    have hmissing : (clearWith (clearWith again) i w).stores j tokenKey = false := by
      rw [hafter.stores_eq hj']
      exact hgone tokenKey (by decide)
    refine ⟨?_, fun now => token_eq_none hafter.healthy now (by rw [hempty]; rfl) hmissing⟩
    rw [hasToken_eq hafter.healthy, hempty, hmissing]
    rfl

end Tabs

end ClientSession
