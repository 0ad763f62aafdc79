import ClientSession.Proofs.Session.Slots
import ClientSession.Proofs.Storage.Keeping
import ClientSession.Proofs.Tables
import Mathlib.Data.List.Nodup

/-!
# Clearing a space

The keys of a vault are those of the backend that start with its space. They are listed as they are,
taken without the space and put behind it again, and each removal that concerns a session is made
known, which other tabs answer with what they do when a session ends. As long as none of them clears
a session then, exactly the space is cleared and each such removal is made known once.

- `Vault.mem_keys_iff`, `Vault.nodup_keys`: a vault lists what it has, each key once.
- `Vault.find?_clear`: what is stored afterwards.
- `Tabs.tells_publish`: a change that onlookers hear of leaves everything as it was.
- `Tabs.clears_its_space`: what a cleared vault leaves behind and what it makes known.
-/

namespace ClientSession

namespace Table

variable {κ α : Type} [KeyOrder κ]

theorem nodup_keys (t : Table κ α) : t.keys.Nodup := by
  rw [keys, List.nodup_iff_pairwise_ne, List.pairwise_map]
  refine t.sorted.imp fun {a b} hbefore heq => ?_
  rw [heq, KeyOrder.before_irrefl] at hbefore
  cases hbefore

theorem mem_keys_iff [DecidableEq κ] {t : Table κ α} {k : κ} :
    k ∈ t.keys ↔ (t.find? k).isSome = true := by
  rw [Option.isSome_iff_exists, keys, List.mem_map]
  constructor
  · rintro ⟨e, he, rfl⟩
    exact ⟨e.2, (find?_eq_some_iff t e.1 e.2).mpr he⟩
  · rintro ⟨v, hv⟩
    exact ⟨(k, v), (find?_eq_some_iff t k v).mp hv, rfl⟩

end Table

namespace Vault

variable {b : Backend} {v : Vault} {key raw : String}

/-! ## Keys -/

theorem toList_rawKey (v : Vault) (key : String) :
    (v.rawKey key).toList = v.space.toList ++ key.toList := String.toList_append

theorem exists_rawKey_iff : (∃ key, v.rawKey key = raw) ↔ v.space.toList <+: raw.toList := by
  constructor
  · rintro ⟨key, rfl⟩
    exact ⟨key.toList, (toList_rawKey v key).symm⟩
  · rintro ⟨rest, hrest⟩
    refine ⟨String.ofList rest, ?_⟩
    rw [← String.toList_inj, toList_rawKey, String.toList_ofList, hrest]

theorem ownKey?_eq_some_iff : v.ownKey? raw = some key ↔ v.rawKey key = raw := by
  have hraw : v.rawKey key = raw ↔ v.space.toList ++ key.toList = raw.toList := by
    rw [← String.toList_inj, toList_rawKey]
  rw [ownKey?, hraw]
  constructor
  · intro h
    split at h
    · rename_i hspace
      obtain ⟨rest, hrest⟩ := List.isPrefixOf_iff_prefix.mp hspace
      rw [← hrest, List.drop_left, Option.some_inj] at h
      rw [← h, String.toList_ofList, hrest]
    · cases h
  · intro h
    rw [← h, List.drop_left, String.ofList_toList,
      if_pos (List.isPrefixOf_iff_prefix.mpr ⟨key.toList, rfl⟩)]

theorem keys_eq (hb : b.Healthy) (v : Vault) : (v.keys b).1 = b.items.keys.filterMap v.ownKey? := by
  simp only [keys, Backend.keys, hb.fails_eq, Bool.false_eq_true, if_false]

/-- A vault lists what it has, -/
theorem mem_keys_iff (hb : b.Healthy) :
    key ∈ (v.keys b).1 ↔ (b.items.find? (v.rawKey key)).isSome = true := by
  rw [keys_eq hb, List.mem_filterMap, ← Table.mem_keys_iff]
  constructor
  · rintro ⟨raw, hraw, hown⟩
    rwa [ownKey?_eq_some_iff.mp hown]
  · intro h
    exact ⟨v.rawKey key, h, ownKey?_eq_some_iff.mpr rfl⟩

/-- and each key once. -/
theorem nodup_keys (hb : b.Healthy) : (v.keys b).1.Nodup := by
  rw [keys_eq hb]
  refine List.Nodup.filterMap (fun raw raw' key hraw hraw' => ?_) (Table.nodup_keys b.items)
  exact (ownKey?_eq_some_iff.mp hraw).symm.trans (ownKey?_eq_some_iff.mp hraw')

/-! ## What is stored afterwards -/

theorem find?_removes (hb : b.Healthy) (keys : List String) (raw : String) :
    (keys.foldl (fun b key => (v.remove key b).2) b).items.find? raw =
      if raw ∈ keys.map v.rawKey then none else b.items.find? raw := by
  induction keys generalizing b with
  | nil => rfl
  | cons key keys ih =>
      have hnext : (v.remove key b).2 = { b with items := b.items.erase (v.rawKey key) } := by
        rw [remove_of_healthy hb]
      have hrest := ih (b := { b with items := b.items.erase (v.rawKey key) }) hb
      rw [List.foldl_cons, hnext, hrest, Table.find?_erase, List.map_cons]
      by_cases hkey : v.rawKey key = raw
      · rw [if_pos hkey, if_pos (List.mem_cons.mpr (.inl hkey.symm)), ite_self]
      · rw [if_neg hkey]
        have hmem : raw ∈ v.rawKey key :: keys.map v.rawKey ↔ raw ∈ keys.map v.rawKey := by
          rw [List.mem_cons, or_iff_right fun h => hkey h.symm]
        simp only [hmem]

theorem find?_clear (hb : b.Healthy) (v : Vault) (raw : String) :
    (v.clear b).items.find? raw =
      if v.space.toList <+: raw.toList then none else b.items.find? raw := by
  rw [clear, Call.keys_of_healthy hb, find?_removes hb]
  by_cases hspace : v.space.toList <+: raw.toList
  · rw [if_pos hspace]
    obtain ⟨key, rfl⟩ := exists_rawKey_iff.mpr hspace
    split
    · rfl
    · rename_i hkey
      -- What is not listed was not there.
      have hgone : key ∉ (v.keys b).1 := fun h => hkey (List.mem_map_of_mem h)
      rwa [mem_keys_iff hb, Option.not_isSome_iff_eq_none] at hgone
  · have hkey : raw ∉ (v.keys b).1.map v.rawKey := by
      intro h
      obtain ⟨key, -, hraw⟩ := List.mem_map.mp h
      exact hspace (exists_rawKey_iff.mp ⟨key, hraw⟩)
    rw [if_neg hspace, if_neg hkey]

/-! ## Keys of sessions -/

theorem occurs_iff {part cs : List Char} : occurs part cs = true ↔ part <:+: cs := by
  induction cs with
  | nil => rw [occurs, List.isEmpty_iff, List.infix_nil]
  | cons c cs ih =>
      rw [occurs, Bool.or_eq_true, ih, List.isPrefixOf_iff_prefix, List.infix_cons_iff]

/-- The key speaks of a session, in whatever case it is written. -/
def AboutSession (key : String) : Prop :=
  ∃ word ∈ ["token", "auth", "claims"], word.toList <:+: (lowerCase key).toList

theorem concernsSession_iff : concernsSession key = true ↔ AboutSession key := by
  simp only [concernsSession, AboutSession, List.any_eq_true, occurs_iff]

end Vault

/-- What is made known by an occurrence. -/
def Occurrence.change? : Occurrence → Option Change
  | .changed c => some c
  | _ => none

namespace Tabs

variable {w w' w'' : Tabs} {i : Nat} {b b' : Backend} {told told' : List Change}

/-- What has been made known. -/
def changes (w : Tabs) : List Change := w.history.filterMap Occurrence.change?

/-- Of those who listen besides a tab none clears a session when one ends. -/
def Onlookers (i : Nat) (w : Tabs) : Prop :=
  ∀ l ∈ w.listeners, ∀ j, l.2 = .tab j → j ≠ i → ∀ r ∈ (w.tab j).reactions, r.2 ≠ .clear

/-! ## What onlookers do -/

/-- The backend is another one and changes are made known; the tabs are the same, but for what they
remember, and so are those who listen. -/
structure Tells (b : Backend) (told : List Change) (w w' : Tabs) : Prop where
  backend : w'.backend = b
  bare : ∀ j, w'.bare? j = w.bare? j
  listeners : w'.listeners = w.listeners
  changes : w'.changes = w.changes ++ told

namespace Tells

protected theorem refl (w : Tabs) : Tells w.backend [] w w where
  backend := rfl
  bare _ := rfl
  listeners := rfl
  changes := (List.append_nil _).symm

protected theorem trans (h : Tells b told w w') (h' : Tells b' told' w' w'') :
    Tells b' (told ++ told') w w'' where
  backend := h'.backend
  bare j := (h'.bare j).trans (h.bare j)
  listeners := h'.listeners.trans h.listeners
  changes := by rw [h'.changes, h.changes, List.append_assoc]

theorem foldl {α : Type} {f : Tabs → α → Tabs} {l : List α}
    (h : ∀ w', Tells w.backend [] w w' → ∀ a ∈ l, Tells w.backend [] w' (f w' a)) :
    Tells w.backend [] w (l.foldl f w) := by
  have hrest : ∀ w', Tells w.backend [] w w' → Tells w.backend [] w (l.foldl f w') := by
    induction l with
    | nil => exact fun _ hw => hw
    | cons a l ih =>
        intro w' hw
        have hfirst : Tells w.backend [] w (f w' a) := hw.trans (h w' hw a List.mem_cons_self)
        exact ih (fun u hu a' ha' => h u hu a' (List.mem_cons_of_mem a ha')) _ hfirst
  exact hrest w (.refl w)

theorem reactions_eq (h : Tells b told w w') (j : Nat) :
    (w'.tab j).reactions = (w.tab j).reactions := by
  have hbare : ∀ u : Tabs, (u.tab j).reactions = ((u.bare? j).getD default).reactions := by
    intro u
    cases hj : u.tab? j <;> simp [tab, bare?, hj, Tab.bare]
  rw [hbare, hbare, h.bare]

theorem onlookers (h : Tells b told w w') (hw : w.Onlookers i) : w'.Onlookers i := by
  intro l hl j hj hne
  rw [h.reactions_eq]
  exact hw l (h.listeners ▸ hl) j hj hne

end Tells

theorem changes_note (w : Tabs) (o : Occurrence) :
    (w.note o).changes = w.changes ++ o.change?.toList := by
  rw [changes, note, List.filterMap_append]
  cases h : o.change? <;> simp [changes, h]

theorem tells_note (w : Tabs) (o : Occurrence) :
    Tells w.backend o.change?.toList w (w.note o) where
  backend := rfl
  bare _ := rfl
  listeners := rfl
  changes := changes_note w o

theorem tells_forget (w : Tabs) (j : Nat) : Tells w.backend [] w (w.forget j) where
  backend := rfl
  bare k := bare?_setCache w j k .empty
  listeners := rfl
  changes := (List.append_nil _).symm

section Consequences

variable {clearAgain : Nat → Tabs → Tabs}

theorem tells_reactWith {r : Reaction} (hr : r ≠ .clear) (j : Nat) (reason : EndReason)
    (w : Tabs) : Tells w.backend [] w (reactWith clearAgain j r reason w) := by
  have hnote : Tells w.backend [] w (w.note (.reacted j r reason)) :=
    tells_note w (.reacted j r reason)
  cases r with
  | note name => exact hnote
  | stopWork => exact hnote
  | clear => exact absurd rfl hr

theorem tells_endWith {j : Nat} (h : ∀ r ∈ (w.tab j).reactions, r.2 ≠ .clear)
    (reason : EndReason) : Tells w.backend [] w (endWith clearAgain j reason w) := by
  have hnote : Tells w.backend [] w (w.note (.ended j reason)) :=
    tells_note w (.ended j reason)
  have hreactions : Tells (w.note (.ended j reason)).backend [] (w.note (.ended j reason))
      ((w.tab j).reactions.foldl (fun w r => reactWith clearAgain j r.2 reason w)
        (w.note (.ended j reason))) := by
    refine .foldl fun w' hw' r hr => ?_
    rw [← hw'.backend]
    exact tells_reactWith (h r hr) j reason w'
  exact hnote.trans hreactions

/-- Who listens may forget a session and take note of its end. -/
theorem tells_hearWith (h : w.Onlookers i) {c : Change} (hc : c.origin = i) {l : Nat × Listener}
    (hl : l ∈ w.listeners) : Tells w.backend [] w (hearWith clearAgain c l.2 w) := by
  obtain ⟨n, l⟩ := l
  cases l with
  | note name => exact tells_note w (.heard name c.key)
  | tab j =>
      simp only [hearWith]
      split
      · rename_i hheard
        have hforgot := tells_forget w j
        have hkept : ∀ r ∈ ((w.forget j).tab j).reactions, r.2 ≠ .clear := by
          rw [hforgot.reactions_eq]
          exact h _ hl j rfl (hc ▸ hheard.1)
        exact hforgot.trans (tells_endWith hkept .crossTab)
      · exact .refl w

theorem tells_publishWith (h : w.Onlookers i) {c : Change} (hc : c.origin = i) :
    Tells w.backend [c] w (publishWith clearAgain c w) := by
  have hnote : Tells w.backend [c] w (w.note (.changed c)) := tells_note w (.changed c)
  have hheard : Tells (w.note (.changed c)).backend [] (w.note (.changed c))
      (w.listeners.foldl (fun w l => hearWith clearAgain c l.2 w) (w.note (.changed c))) := by
    refine .foldl fun w' hw' l hl => ?_
    have hlistens : l ∈ w'.listeners := by
      rw [hw'.listeners]
      exact hl
    rw [← hw'.backend]
    exact tells_hearWith (hw'.onlookers (hnote.onlookers h)) hc hlistens
  exact hnote.trans hheard

end Consequences

/-! ## Removals one after another -/

/-- What a tab makes known when it removes a key. -/
def toldOf (i : Nat) (key : String) : List Change :=
  if Vault.concernsSession key then [⟨key, none, i⟩] else []

theorem tells_removeKey (hb : w.backend.Healthy) (h : w.Onlookers i) (key : String) :
    Tells ((w.vault i).remove key w.backend).2 (toldOf i key) w (w.removeKey i key) := by
  have hremoved : Tells ((w.vault i).remove key w.backend).2 [] w
      { w with backend := ((w.vault i).remove key w.backend).2 } :=
    ⟨rfl, fun _ => rfl, rfl, (List.append_nil _).symm⟩
  have hdone : ((w.vault i).remove key w.backend).1 = true := by
    rw [Vault.remove_of_healthy hb]
  simp only [removeKey, removeWith, hdone, Bool.true_and, toldOf]
  split
  · exact hremoved.trans (tells_publishWith (hremoved.onlookers h) rfl)
  · exact hremoved

theorem tells_removeKeys (hb : w.backend.Healthy) (h : w.Onlookers i) (keys : List String) :
    Tells (keys.foldl (fun b key => ((w.vault i).remove key b).2) w.backend)
      (keys.flatMap (toldOf i)) w (keys.foldl (fun w key => w.removeKey i key) w) := by
  induction keys generalizing w with
  | nil => exact .refl w
  | cons key keys ih =>
      have hfirst := tells_removeKey hb h key
      have hhealthy : (w.removeKey i key).backend.Healthy := by
        rw [hfirst.backend, Vault.remove_of_healthy hb]
        exact hb
      have hrest := ih hhealthy (hfirst.onlookers h)
      rw [hfirst.backend, vault_congr hfirst.bare] at hrest
      exact hfirst.trans hrest

theorem tells_clearVault (hb : w.backend.Healthy) (h : w.Onlookers i) :
    Tells ((w.vault i).clear w.backend) (((w.vault i).keys w.backend).1.flatMap (toldOf i)) w
      (w.clearVault i) := by
  have hremoved := tells_removeKeys hb h ((w.vault i).keys w.backend).1
  rw [clearVault, Vault.clear, Vault.Call.keys_of_healthy hb]
  exact hremoved

theorem mem_toldOf_iff {key : String} {c : Change} :
    c ∈ toldOf i key ↔
      c.key = key ∧ c.newValue = none ∧ c.origin = i ∧ Vault.AboutSession c.key := by
  obtain ⟨key', newValue, origin⟩ := c
  rw [toldOf]
  split
  · rename_i habout
    rw [List.mem_singleton, Change.mk.injEq]
    constructor
    · rintro ⟨rfl, rfl, rfl⟩
      exact ⟨rfl, rfl, rfl, Vault.concernsSession_iff.mp habout⟩
    · rintro ⟨rfl, rfl, rfl, -⟩
      exact ⟨rfl, rfl, rfl⟩
  · rename_i hother
    refine iff_of_false List.not_mem_nil ?_
    rintro ⟨rfl, -, -, habout⟩
    exact hother (Vault.concernsSession_iff.mpr habout)

theorem nodup_toldOf {keys : List String} (h : keys.Nodup) (i : Nat) :
    (keys.flatMap (toldOf i)).Nodup := by
  rw [List.nodup_flatMap]
  refine ⟨fun key _ => ?_, h.imp fun {key key'} hne c hc hc' => ?_⟩
  · rw [toldOf]
    split
    · exact List.nodup_singleton _
    · exact List.nodup_nil
  · exact hne ((mem_toldOf_iff.mp hc).1.symm.trans (mem_toldOf_iff.mp hc').1)

/-- **A tab that clears its vault clears the space of the vault**, whatever is stored and whatever
the space: no key that starts with it is left, every other one has what it had, and exactly the
removals of keys that speak of a session are made known, each once, by the key without the space
and by the tab that removed it. -/
theorem clears_its_space (hb : w.backend.Healthy) (h : w.Onlookers i) :
    (∀ raw, (w.clearVault i).backend.items.find? raw =
      if (w.vault i).space.toList <+: raw.toList then none else w.backend.items.find? raw) ∧
    ∃ told, (w.clearVault i).changes = w.changes ++ told ∧ told.Nodup ∧
      ∀ c, c ∈ told ↔ w.stores i c.key = true ∧ c.newValue = none ∧ c.origin = i ∧
        Vault.AboutSession c.key := by
  have htells := tells_clearVault hb h
  refine ⟨fun raw => ?_, _, htells.changes, nodup_toldOf (Vault.nodup_keys hb) i, fun c => ?_⟩
  · rw [htells.backend]
    exact Vault.find?_clear hb (w.vault i) raw
  · rw [List.mem_flatMap]
    constructor
    · rintro ⟨key, hkey, hc⟩
      obtain ⟨rfl, hrest⟩ := mem_toldOf_iff.mp hc
      exact ⟨(Vault.mem_keys_iff hb).mp hkey, hrest⟩
    · rintro ⟨hstored, hrest⟩
      exact ⟨c.key, (Vault.mem_keys_iff hb).mpr hstored, mem_toldOf_iff.mpr ⟨rfl, hrest⟩⟩

/-- Two tabs and somebody who takes notes, over a backend that others use as well; the second tab
stops its work when its session ends. -/
def neighbours : Tabs :=
  let items := [("host_token", "x"), ("s:auth_token", "t"), ("s:s:Claims", "c"), ("s:theme", "d")]
  let tab : Tab := .opened ⟨"s:", ⟨"", "", "", ""⟩⟩ (.ofSeconds 300)
  let both := ((onBackend (.ofItems items)).openTab tab).openTab tab
  ((both.addReaction 1 .stopWork).2.listen (.note "log")).2

theorem onlookers_neighbours : neighbours.Onlookers 0 := by
  intro l hl j hj hne r hr
  have hlisteners : neighbours.listeners = [(0, .tab 0), (1, .tab 1), (2, .note "log")] := rfl
  have hreactions : (neighbours.tab 1).reactions = [(0, .stopWork)] := rfl
  rw [hlisteners, List.mem_cons, List.mem_cons, List.mem_singleton] at hl
  rcases hl with rfl | rfl | rfl
  · cases hj
    exact absurd rfl hne
  · cases hj
    rw [hreactions, List.mem_singleton] at hr
    subst hr
    exact nofun
  · cases hj

theorem clears_its_space_neighbours :
    neighbours.backend.Healthy ∧ neighbours.Onlookers 0 ∧ neighbours.changes = [] ∧
      (neighbours.clearVault 0).backend.items.find? "s:s:Claims" = none ∧
      (neighbours.clearVault 0).backend.items.find? "host_token" = some "x" ∧
      (neighbours.clearVault 0).changes.Nodup ∧
      ⟨"auth_token", none, 0⟩ ∈ (neighbours.clearVault 0).changes ∧
      ⟨"s:Claims", none, 0⟩ ∈ (neighbours.clearVault 0).changes ∧
      ⟨"theme", none, 0⟩ ∉ (neighbours.clearVault 0).changes := by
  have hhealthy : neighbours.backend.Healthy := ⟨rfl, rfl⟩
  obtain ⟨hitems, told, htold, hnodup, hmem⟩ := clears_its_space hhealthy onlookers_neighbours
  have hnone : neighbours.changes = [] := rfl
  rw [hnone, List.nil_append] at htold
  rw [htold]
  refine ⟨hhealthy, onlookers_neighbours, hnone, ?_, ?_, hnodup, ?_, ?_, ?_⟩
  · rw [hitems]
    decide +kernel
  · rw [hitems]
    decide +kernel
  · refine (hmem _).mpr ⟨by decide +kernel, rfl, rfl, ?_⟩
    exact Vault.concernsSession_iff.mp (by decide +kernel)
  · refine (hmem _).mpr ⟨by decide +kernel, rfl, rfl, ?_⟩
    exact Vault.concernsSession_iff.mp (by decide +kernel)
  · intro h
    exact absurd (Vault.concernsSession_iff.mpr ((hmem _).mp h).2.2.2) (by decide +kernel)

end Tabs

end ClientSession
