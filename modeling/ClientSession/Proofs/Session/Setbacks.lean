import ClientSession.Proofs.Session.Terms

/-!
# Sessions over storage that fails

Any call of a backend may fail, and a failed call changes nothing that is stored. A tab takes no
notice: what cannot be read is absent to it, what cannot be written or removed stays as it was. This
is what holds of its session whichever calls fail.

- `Tabs.clearSession_erodes`, `Tabs.endSession_erodes`: clearing adds nothing to what is stored or
  remembered.
- `Tabs.stores_clearWith`: a clearing leaves the token exactly if the look for it or its removal
  fails.
- `Tabs.token_gleans`, `Tabs.claims_gleans`: what reads may leave a tab to remember.
- `Tabs.install_enters`: what storing a token leaves.
-/

namespace ClientSession

namespace Backend

variable {b : Backend}

theorem Healthy.advance (h : b.Healthy) : b.advance.Healthy := by
  rw [h.advance_eq]
  exact h

/-- The next two calls, a look for a key and its removal, both succeed. -/
def removesNext (b : Backend) : Bool := !b.fails .get && !b.advance.fails .remove

end Backend

namespace Vault

variable (v : Vault) (key value : String) (b : Backend)

theorem get_eq : v.get key b =
    (if b.fails .get then none else (b.items.find? (v.rawKey key)).map v.reveal, b.advance) := by
  cases h : b.fails .get <;> simp [get, Backend.get, h]

theorem has_eq : v.has key b =
    (!b.fails .get && (b.items.find? (v.rawKey key)).isSome, b.advance) := by
  cases h : b.fails .get <;> simp [has, Backend.get, h]

theorem set_eq : v.set key value b =
    if b.fails .set then b.advance
    else { b.advance with items := b.items.insert (v.rawKey key) (v.conceal value) } := by
  cases h : b.fails .set <;> simp [set, Backend.set, h]

theorem remove_eq : v.remove key b =
    if b.fails .remove then (false, b.advance)
    else (true, { b.advance with items := b.items.erase (v.rawKey key) }) := by
  cases h : b.fails .remove <;> simp [remove, Backend.remove, h]

end Vault

namespace Tabs

variable {w w' w'' u : Tabs} {i : Nat}

/-- What is stored under a key of the tab's vault. -/
def item (w : Tabs) (i : Nat) (key : String) : Option String :=
  w.backend.items.find? ((w.vault i).rawKey key)

theorem isSome_item (w : Tabs) (i : Nat) (key : String) :
    (w.item i key).isSome = w.stores i key := rfl

@[simp] theorem item_setCache (w : Tabs) (i j : Nat) (k : SessionCache) (key : String) :
    (w.setCache i k).item j key = w.item j key := by
  rw [item, item, backend_setCache, vault_congr fun l => bare?_setCache w i l k]

/-! ## Failures to come -/

/-- The tabs over a backend some of whose calls are to fail. -/
def withFailures (w : Tabs) (broken : List StorageCall) (faults : List Bool) : Tabs :=
  { w with backend := ⟨w.backend.items, broken, faults⟩ }

/-- Nothing has changed but which calls of the backend are to fail. -/
def Undisturbed (w w' : Tabs) : Prop := ∃ broken faults, w' = w.withFailures broken faults

namespace Undisturbed

protected theorem refl (w : Tabs) : Undisturbed w w := ⟨w.backend.broken, w.backend.faults, rfl⟩

protected theorem trans (h : Undisturbed w w') (h' : Undisturbed w' w'') : Undisturbed w w'' := by
  obtain ⟨_, _, rfl⟩ := h
  obtain ⟨broken, faults, rfl⟩ := h'
  exact ⟨broken, faults, rfl⟩

theorem items (h : Undisturbed w w') : w'.backend.items = w.backend.items := by
  obtain ⟨_, _, rfl⟩ := h
  rfl

theorem tab? (h : Undisturbed w w') (j : Nat) : w'.tab? j = w.tab? j := by
  obtain ⟨_, _, rfl⟩ := h
  rfl

theorem bare (h : Undisturbed w w') (j : Nat) : w'.bare? j = w.bare? j := by
  obtain ⟨_, _, rfl⟩ := h
  rfl

theorem cache (h : Undisturbed w w') (j : Nat) : w'.cache j = w.cache j := by
  obtain ⟨_, _, rfl⟩ := h
  rfl

theorem item (h : Undisturbed w w') (j : Nat) (key : String) : w'.item j key = w.item j key := by
  obtain ⟨_, _, rfl⟩ := h
  rfl

theorem stores (h : Undisturbed w w') (j : Nat) (key : String) :
    w'.stores j key = w.stores j key := by
  rw [← isSome_item, ← isSome_item, h.item]

end Undisturbed

/-! ## Reading -/

theorem readKey_undisturbed (w : Tabs) (i : Nat) (key : String) :
    w.Undisturbed (w.readKey i key).2 := ⟨w.backend.broken, w.backend.faults.tail, rfl⟩

theorem hasKey_undisturbed (w : Tabs) (i : Nat) (key : String) :
    w.Undisturbed (w.hasKey i key).2 := ⟨w.backend.broken, w.backend.faults.tail, rfl⟩

theorem readKey_eq_some {key text : String} (h : (w.readKey i key).1 = some text) :
    ∃ raw, w.item i key = some raw ∧ text = (w.vault i).reveal raw := by
  rw [readKey, Vault.get_eq] at h
  dsimp only at h
  split at h
  · cases h
  · obtain ⟨raw, hraw, rfl⟩ := Option.map_eq_some_iff.mp h
    exact ⟨raw, hraw, rfl⟩

theorem hasKey_fst (w : Tabs) (i : Nat) (key : String) :
    (w.hasKey i key).1 = (!w.backend.fails .get && w.stores i key) := by
  rw [hasKey, Vault.has_eq]
  rfl

theorem storedToken_undisturbed (w : Tabs) (i : Nat) : w.Undisturbed (w.storedToken i).2 :=
  readKey_undisturbed w i tokenKey

theorem storedExpiry_undisturbed (w : Tabs) (i : Nat) : w.Undisturbed (w.storedExpiry i).2 :=
  readKey_undisturbed w i expiryKey

theorem hasToken_undisturbed (w : Tabs) (i : Nat) : w.Undisturbed (w.hasToken i).2 := by
  rw [hasToken]
  split
  · exact .refl w
  · exact hasKey_undisturbed w i tokenKey

theorem knownToken_undisturbed (w : Tabs) (i : Nat) : w.Undisturbed (w.knownToken i).2 := by
  rw [knownToken]
  split
  · exact .refl w
  · exact storedToken_undisturbed w i

theorem expiresAt_undisturbed (w : Tabs) (i : Nat) : w.Undisturbed (w.expiresAt i).2 := by
  rw [expiresAt]
  split
  · exact .refl w
  · dsimp only
    split
    · exact storedExpiry_undisturbed w i
    · exact (storedExpiry_undisturbed w i).trans (storedToken_undisturbed _ i)

/-- A token that is read back is stored. -/
theorem stores_of_read {t : BearerToken} (ht : (w.storedToken i).1 = some t) :
    w.stores i tokenKey = true := by
  obtain ⟨text, hread, -⟩ := Option.map_eq_some_iff.mp ht
  obtain ⟨raw, hraw, -⟩ := readKey_eq_some hread
  rw [← isSome_item, hraw, Option.isSome_some]

/-- A token that is known is remembered or stored. -/
theorem known_or_stored {t : BearerToken} (ht : (w.knownToken i).1 = some t) :
    (w.cache i).token.isSome ∨ w.stores i tokenKey = true := by
  rw [knownToken] at ht
  split at ht
  · rename_i hc
    exact .inl (by rw [hc, Option.isSome_some])
  · exact .inr (stores_of_read ht)

/-- An expiry that is read back is an instant of the calendar, whatever was stored. -/
theorem inCalendar_of_storedExpiry {e : Instant} (he : (w.storedExpiry i).1 = some e) :
    e.InCalendar := by
  obtain ⟨text, -, htext⟩ := Option.bind_eq_some_iff.mp he
  obtain ⟨n, -, hn⟩ := Option.bind_eq_some_iff.mp htext
  exact Instant.inCalendar_of_ofSeconds? hn

end Tabs

theorem Claims.inCalendar_of_expiresAt {c : Claims} {e : Instant}
    (he : c.expiresAt.toOption = some e) : e.InCalendar := by
  rw [Claims.expiresAt] at he
  split at he
  · rename_i e' he'
    cases he
    exact Instant.inCalendar_of_ofSeconds? he'
  · cases he

namespace Tabs

variable {w w' w'' u : Tabs} {i : Nat}

theorem inCalendar_of_claimedExpiry {t : BearerToken} {e : Instant}
    (he : claimedExpiry? t = some e) : e.InCalendar := by
  rw [claimedExpiry?_eq] at he
  obtain ⟨c, -, hc⟩ := Option.bind_eq_some_iff.mp he
  exact Claims.inCalendar_of_expiresAt hc

theorem inCalendar_of_expiresAt {e : Instant} (he : (w.expiresAt i).1 = some e) :
    (w.cache i).expiresAt = some e ∨ e.InCalendar := by
  rw [expiresAt] at he
  split at he
  · rename_i hc
    cases he
    exact .inl hc
  · dsimp only at he
    split at he
    · rename_i hs
      cases he
      exact .inr (inCalendar_of_storedExpiry hs)
    · obtain ⟨t, -, ht⟩ := Option.bind_eq_some_iff.mp he
      exact .inr (inCalendar_of_claimedExpiry ht)

/-- What a tab may come to remember in a read: a token where it remembered one or one is stored, an
expiry of the calendar, and claims of a token that last. -/
structure Gleaned (w : Tabs) (i : Nat) (now : Instant) (k : SessionCache) : Prop where
  token : k.token.isSome → (w.cache i).token.isSome ∨ w.stores i tokenKey = true
  expiry : ∀ e, k.expiresAt = some e → (w.cache i).expiresAt = some e ∨ e.InCalendar
  claims : ∀ c, k.claims = some c → (w.cache i).claims = some c ∨
    (now.floorSeconds < c.expiry ∧ ∃ t, Claims.decode t = .ok c)

theorem Gleaned.empty (w : Tabs) (i : Nat) (now : Instant) : w.Gleaned i now .empty :=
  ⟨nofun, nofun, nofun⟩

theorem Gleaned.cache (w : Tabs) (i : Nat) (now : Instant) : w.Gleaned i now (w.cache i) :=
  ⟨.inl, fun _ => .inl, fun _ => .inl⟩

/-- A read has changed at most what the tab remembers. -/
structure Gleans (i : Nat) (now : Instant) (w w' : Tabs) : Prop where
  items : w'.backend.items = w.backend.items
  bare : ∀ j, w'.bare? j = w.bare? j
  cache : w.Gleaned i now (w'.cache i)

theorem Undisturbed.gleans (h : Undisturbed w w') (i : Nat) (now : Instant) :
    Gleans i now w w' where
  items := h.items
  bare := h.bare
  cache := by
    rw [h.cache]
    exact .cache w i now

theorem Undisturbed.gleans_setCache (h : Undisturbed w u) (hi : (w.tab? i).isSome) {now : Instant}
    {k : SessionCache} (hk : w.Gleaned i now k) : Gleans i now w (u.setCache i k) where
  items := h.items
  bare j := (bare?_setCache u i j k).trans (h.bare j)
  cache := by
    rw [cache_setCache_self (h.tab? i ▸ hi)]
    exact hk

theorem Undisturbed.gleans_forget (h : Undisturbed w u) (hi : (w.tab? i).isSome) (now : Instant) :
    Gleans i now w (u.forget i) := h.gleans_setCache hi (.empty w i now)

theorem token_gleans (hi : (w.tab? i).isSome) (now : Instant) :
    Gleans i now w (w.token i now).2 := by
  have hstored := storedToken_undisturbed w i
  have hexpiry : w.Undisturbed ((w.storedToken i).2.storedExpiry i).2 :=
    hstored.trans (storedExpiry_undisturbed _ i)
  rw [token]
  split
  · exact (Undisturbed.refl w).gleans i now
  · dsimp only
    split
    · exact hstored.gleans_forget hi now
    · rename_i t ht
      split
      · exact hexpiry.gleans_forget hi now
      · rename_i e he
        split
        · exact hexpiry.gleans_forget hi now
        · refine hexpiry.gleans_setCache hi ⟨fun _ => .inr (stores_of_read ht), ?_, ?_⟩
          · rintro _ ⟨⟩
            right
            rcases Option.or_eq_some_iff.mp he with he | ⟨-, he⟩
            · exact inCalendar_of_storedExpiry he
            · exact inCalendar_of_claimedExpiry he
          · intro c hc
            rw [hexpiry.cache] at hc
            exact .inl hc

theorem claims_gleans (hi : (w.tab? i).isSome) (now : Instant) :
    Gleans i now w (w.claims i now).2 := by
  have hexpiry := expiresAt_undisturbed w i
  have hknown : w.Undisturbed ((w.expiresAt i).2.knownToken i).2 :=
    hexpiry.trans (knownToken_undisturbed _ i)
  rw [claims]
  split
  · exact (Undisturbed.refl w).gleans i now
  · dsimp only
    split
    · exact hexpiry.gleans_forget hi now
    · split
      · exact hknown.gleans i now
      · rename_i t ht
        split
        · exact hknown.gleans_forget hi now
        · rename_i c hc
          split
          · exact hknown.gleans_forget hi now
          · rename_i hvalid
            have hlast := hknown.trans (expiresAt_undisturbed _ i)
            refine hlast.gleans_setCache hi ⟨fun _ => ?_, fun e he => ?_, ?_⟩
            · have h := known_or_stored ht
              rwa [hexpiry.cache, hexpiry.stores] at h
            · rcases Option.or_eq_some_iff.mp he with he | ⟨-, he⟩
              · have h := inCalendar_of_expiresAt he
                rwa [hknown.cache] at h
              · exact .inr (Claims.inCalendar_of_expiresAt he)
            · rintro _ ⟨⟩
              right
              exact ⟨by simpa [Claims.isExpiredAt] using hvalid, t, hc⟩

/-- Claims that are given are remembered, or those of a token, and last. -/
theorem claims_eq_some {now : Instant} {c : Claims} (hc : (w.claims i now).1 = some c) :
    (w.cache i).liveClaims? now = some c ∨
      (now.floorSeconds < c.expiry ∧ ∃ t, Claims.decode t = .ok c) := by
  rw [claims] at hc
  split at hc
  · rename_i c' hlive
    obtain rfl := Option.some.inj hc
    exact .inl hlive
  · dsimp only at hc
    split at hc
    · cases hc
    · split at hc
      · cases hc
      · rename_i t ht
        split at hc
        · cases hc
        · rename_i c' hdecode
          split at hc
          · cases hc
          · rename_i hvalid
            obtain rfl := Option.some.inj hc
            exact .inr ⟨by simpa [Claims.isExpiredAt] using hvalid, t, hdecode⟩

/-- Without a token to remember or to find there is none to give, whatever fails. -/
theorem token_eq_none_of_gone (now : Instant) (hc : (w.cache i).token = none)
    (hs : w.stores i tokenKey = false) : (w.token i now).1 = none := by
  have hlive : (w.cache i).liveToken? now = none := by
    rw [SessionCache.liveToken?, hc, ite_self]
  have hstored : (w.storedToken i).1 = none := by
    by_contra hread
    obtain ⟨t, ht⟩ := Option.ne_none_iff_exists'.mp hread
    rw [stores_of_read ht] at hs
    cases hs
  simp only [token, hlive, hstored]

theorem hasToken_of_gone (hc : (w.cache i).token = none) (hs : w.stores i tokenKey = false) :
    (w.hasToken i).1 = false := by
  rw [hasToken, hc, Option.isSome_none, if_neg Bool.false_ne_true, hasKey_fst, hs, Bool.and_false]

/-! ## Clearing -/

theorem Erodes.note (w : Tabs) (o : Occurrence) : Erodes w (w.note o) where
  healthy := id
  item _ := .inr rfl
  bare _ := rfl
  cache _ := .inr rfl
  listeners := rfl
  history := List.prefix_append _ _

theorem Erodes.forget (w : Tabs) (i : Nat) : Erodes w (w.forget i) :=
  .of_step (FadeStep.forget i : FadeStep default true w _)

theorem Erodes.of_backend {b : Backend} (hh : w.backend.Healthy → b.Healthy)
    (hitem : ∀ k, b.items.find? k = none ∨ b.items.find? k = w.backend.items.find? k) :
    Erodes w { w with backend := b } where
  healthy := hh
  item := hitem
  bare _ := rfl
  cache _ := .inr rfl
  listeners := rfl
  history := List.prefix_rfl

theorem Erodes.foldl {α : Type} {f : Tabs → α → Tabs} (h : ∀ w a, Erodes w (f w a)) (l : List α)
    (w : Tabs) : Erodes w (l.foldl f w) := by
  induction l generalizing w with
  | nil => exact .refl w
  | cons a l ih => exact (h w a).trans (ih (f w a))

theorem Erodes.stores_eq_false (h : Erodes w w') {key : String} (hs : w.stores i key = false) :
    w'.stores i key = false := by
  rw [stores, vault_congr h.bare] at *
  rcases h.item ((w.vault i).rawKey key) with e | e
  · rw [e, Option.isSome_none]
  · rw [e, hs]

theorem hasKey_erodes (w : Tabs) (i : Nat) (key : String) : Erodes w (w.hasKey i key).2 :=
  .of_backend Backend.Healthy.advance fun _ => .inr rfl

section Consequences

variable {clearAgain : Nat → Tabs → Tabs}

theorem reactWith_erodes (hc : ∀ w j, Erodes w (clearAgain j w)) (i : Nat) (r : Reaction)
    (reason : EndReason) (w : Tabs) : Erodes w (reactWith clearAgain i r reason w) := by
  have hnote := Erodes.note w (.reacted i r reason)
  cases r with
  | note name => exact hnote
  | stopWork => exact hnote
  | clear => exact hnote.trans (hc _ i)

theorem endWith_erodes (hc : ∀ w j, Erodes w (clearAgain j w)) (i : Nat) (reason : EndReason)
    (w : Tabs) : Erodes w (endWith clearAgain i reason w) :=
  (Erodes.note w (.ended i reason)).trans
    (.foldl (fun u (r : Nat × Reaction) => reactWith_erodes hc i r.2 reason u) _ _)

theorem hearWith_erodes (hc : ∀ w j, Erodes w (clearAgain j w)) (c : Change) (l : Listener)
    (w : Tabs) : Erodes w (hearWith clearAgain c l w) := by
  cases l with
  | note name => exact .note w _
  | tab j =>
      rw [hearWith]
      split
      · exact (Erodes.forget w j).trans (endWith_erodes hc j _ _)
      · exact .refl w

theorem publishWith_erodes (hc : ∀ w j, Erodes w (clearAgain j w)) (c : Change) (w : Tabs) :
    Erodes w (publishWith clearAgain c w) :=
  (Erodes.note w (.changed c)).trans
    (.foldl (fun u (l : Nat × Listener) => hearWith_erodes hc c l.2 u) _ _)

theorem removeWith_erodes (hc : ∀ w j, Erodes w (clearAgain j w)) (i : Nat) (key : String)
    (w : Tabs) : Erodes w (removeWith clearAgain i key w) := by
  have hbackend : Erodes w { w with backend := ((w.vault i).remove key w.backend).2 } := by
    refine .of_backend (fun hh => ?_) fun k => ?_
    · rw [Vault.remove_of_healthy hh]
      exact hh
    · rw [Vault.remove_eq]
      split
      · exact .inr rfl
      · rw [Table.find?_erase]
        split
        · exact .inl rfl
        · exact .inr rfl
  rw [removeWith]
  split
  · exact hbackend.trans (publishWith_erodes hc _ _)
  · exact hbackend

theorem discardWith_erodes (hc : ∀ w j, Erodes w (clearAgain j w)) (i : Nat) (key : String)
    (w : Tabs) : Erodes w (discardWith clearAgain i key w) := by
  rw [discardWith]
  split
  · exact (hasKey_erodes w i key).trans (removeWith_erodes hc i key _)
  · exact hasKey_erodes w i key

theorem clearWith_erodes (hc : ∀ w j, Erodes w (clearAgain j w)) (i : Nat) (w : Tabs) :
    Erodes w (clearWith clearAgain i w) :=
  (Erodes.foldl (fun u key => discardWith_erodes hc i key u) sessionKeys w).trans (.forget _ i)

/-- The removal of another key than the token touches nothing else that is stored or remembered. -/
theorem removeWith_of_ne (clearAgain : Nat → Tabs → Tabs) {key : String} (hkey : key ≠ tokenKey)
    (i : Nat) (w : Tabs) : ∃ l, removeWith clearAgain i key w =
      { w with backend := ((w.vault i).remove key w.backend).2, history := w.history ++ l } := by
  rw [removeWith]
  split
  · rw [publishWith, foldl_hearWith_of_ne hkey]
    refine ⟨.changed ⟨key, none, i⟩ :: echoes key w.listeners, ?_⟩
    simp only [note, List.append_assoc, List.singleton_append]
  · exact ⟨[], by rw [List.append_nil]⟩

theorem item_removeWith_of_ne {key key' : String} (hkey : key ≠ tokenKey) (hne : key ≠ key')
    (i : Nat) (w : Tabs) : (removeWith clearAgain i key w).item i key' = w.item i key' := by
  obtain ⟨l, hl⟩ := removeWith_of_ne clearAgain hkey i w
  have hraw : ¬(w.vault i).rawKey key = (w.vault i).rawKey key' := fun h =>
    hne ((Vault.rawKey_inj _).mp h)
  rw [hl, item, Vault.remove_eq]
  split
  · rfl
  · show Table.find? (w.backend.items.erase _) ((w.vault i).rawKey key') = _
    rw [Table.find?_erase, if_neg hraw]
    rfl

theorem item_discardWith_of_ne {key key' : String} (hkey : key ≠ tokenKey) (hne : key ≠ key')
    (i : Nat) (w : Tabs) : (discardWith clearAgain i key w).item i key' = w.item i key' := by
  have hlook := hasKey_undisturbed w i key
  rw [discardWith]
  split
  · rw [item_removeWith_of_ne hkey hne, hlook.item]
  · exact hlook.item i key'

theorem stores_removeWith (hc : ∀ w j, Erodes w (clearAgain j w)) (i : Nat) (w : Tabs) :
    (removeWith clearAgain i tokenKey w).stores i tokenKey =
      (w.stores i tokenKey && w.backend.fails .remove) := by
  cases hs : w.stores i tokenKey with
  | false => exact (removeWith_erodes hc i tokenKey w).stores_eq_false hs
  | true =>
      rw [removeWith, Vault.remove_eq]
      cases hremove : w.backend.fails .remove with
      | true => exact hs
      | false =>
          -- What follows once the removal is made known stores nothing again.
          refine (publishWith_erodes hc _ _).stores_eq_false ?_
          show (Table.find? (w.backend.items.erase ((w.vault i).rawKey tokenKey))
            ((w.vault i).rawKey tokenKey)).isSome = false
          rw [Table.find?_erase, if_pos rfl, Option.isSome_none]

/-- Discarding the token leaves it exactly if the look for it or its removal fails. -/
theorem stores_discardWith (hc : ∀ w j, Erodes w (clearAgain j w)) (i : Nat) (w : Tabs) :
    (discardWith clearAgain i tokenKey w).stores i tokenKey =
      (w.stores i tokenKey && !w.backend.removesNext) := by
  have hlook := hasKey_undisturbed w i tokenKey
  have hnext : (w.hasKey i tokenKey).2.backend.fails .remove = w.backend.advance.fails .remove :=
    rfl
  rw [discardWith, hasKey_fst, Backend.removesNext]
  split
  · rename_i hfound
    rw [Bool.and_eq_true] at hfound
    rw [stores_removeWith hc, hlook.stores, hnext, hfound.1, Bool.true_and, Bool.not_not]
  · rename_i hlost
    rw [hlook.stores]
    cases hs : w.stores i tokenKey <;> simp_all

/-- A clearing leaves the token exactly if the look for it or its removal fails. -/
theorem stores_clearWith (hc : ∀ w j, Erodes w (clearAgain j w)) (i : Nat) (w : Tabs) :
    (clearWith clearAgain i w).stores i tokenKey =
      (w.stores i tokenKey && !w.backend.removesNext) := by
  rw [← stores_discardWith hc, clearWith, forget, stores_setCache, sessionKeys, List.foldl_cons,
    List.foldl_cons, List.foldl_cons, List.foldl_nil, ← isSome_item,
    item_discardWith_of_ne (by decide) (by decide), item_discardWith_of_ne (by decide) (by decide),
    isSome_item]

end Consequences

theorem clearNested_erodes (depth : Nat) (w : Tabs) (i : Nat) : Erodes w (clearNested depth i w) := by
  induction depth generalizing w i with
  | zero => exact .forget w i
  | succ depth ih => exact clearWith_erodes ih i w

theorem clearSession_erodes (w : Tabs) (i : Nat) : Erodes w (w.clearSession i) :=
  clearWith_erodes (clearNested_erodes _) i w

theorem endSession_erodes_clearSession (w : Tabs) (i : Nat) (reason : EndReason) :
    Erodes (w.clearSession i) (w.endSession i reason) :=
  endWith_erodes (clearNested_erodes _) i reason _

theorem endSession_erodes (w : Tabs) (i : Nat) (reason : EndReason) :
    Erodes w (w.endSession i reason) :=
  (clearSession_erodes w i).trans (endSession_erodes_clearSession w i reason)

theorem endSession_forgets (w : Tabs) (i : Nat) (reason : EndReason) :
    (w.endSession i reason).cache i = .empty :=
  (endSession_erodes_clearSession w i reason).cache_eq_empty (clearSession_cache w i)

/-! ## Storing -/

/-- A token was accepted. It is remembered; what could not be written is stored as it was. -/
structure Enters (i : Nat) (t : BearerToken) (e : Instant) (w w' : Tabs) : Prop where
  bare : ∀ j, w'.bare? j = w.bare? j
  token : w'.item i tokenKey =
    if w.backend.fails .set then w.item i tokenKey else some ((w.vault i).conceal t.text)
  expiry : w'.item i expiryKey =
    if w.backend.advance.fails .set then w.item i expiryKey
    else some ((w.vault i).conceal (toString e.floorSeconds))
  cache : w'.cache i = ⟨some t, some e, (Claims.decode t).toOption⟩

theorem item_writeKey (w : Tabs) (i : Nat) (key key' value : String) :
    (w.writeKey i key value).item i key' =
      if w.backend.fails .set = false ∧ key = key' then some ((w.vault i).conceal value)
      else w.item i key' := by
  rw [writeKey, item, Vault.set_eq]
  cases w.backend.fails .set with
  | true => rfl
  | false =>
      show Table.find? (w.backend.items.insert _ _) ((w.vault i).rawKey key') = _
      rw [Table.find?_insert]
      simp [item, Vault.rawKey_inj]

theorem tab?_writeKey (w : Tabs) (i j : Nat) (key value : String) :
    (w.writeKey i key value).tab? j = w.tab? j := rfl

theorem vault_writeKey (w : Tabs) (i j : Nat) (key value : String) :
    (w.writeKey i key value).vault j = w.vault j := rfl

theorem fails_writeKey (w : Tabs) (i : Nat) (key value : String) (call : StorageCall) :
    (w.writeKey i key value).backend.fails call = w.backend.advance.fails call := by
  rw [writeKey, Vault.set_eq]
  split <;> rfl

theorem install_enters {t : BearerToken} {given : Option Instant} {e : Instant}
    (h : term? t given = some e) (hi : (w.tab? i).isSome) :
    Enters i t e w (w.install i t given).2 := by
  have hblank : t.isBlank ≠ true := by
    intro hb
    rw [term?, if_pos hb] at h
    cases h
  rw [term?, if_neg hblank, claimedExpiry?_eq] at h
  simp only [install, if_neg hblank, h]
  -- What is stored under the two keys before the claims are written or removed, which touches
  -- neither of them.
  let u := (w.writeKey i tokenKey t.text).writeKey i expiryKey (toString e.floorSeconds)
  have htab : ∀ j, u.tab? j = w.tab? j := fun j => by rw [tab?_writeKey, tab?_writeKey]
  have htoken : u.item i tokenKey = if w.backend.fails .set then w.item i tokenKey
      else some ((w.vault i).conceal t.text) := by
    rw [item_writeKey, if_neg fun h => absurd h.2 (by decide), item_writeKey]
    cases w.backend.fails .set <;> simp
  have hexpiry : u.item i expiryKey = if w.backend.advance.fails .set then w.item i expiryKey
      else some ((w.vault i).conceal (toString e.floorSeconds)) := by
    have hbefore : (w.writeKey i tokenKey t.text).item i expiryKey = w.item i expiryKey := by
      rw [item_writeKey, if_neg fun h => absurd h.2 (by decide)]
    rw [item_writeKey, fails_writeKey, vault_writeKey, hbefore]
    cases w.backend.advance.fails .set <;> simp
  have hdone : ∀ (u' : Tabs) (claims : Option Claims), (Claims.decode t).toOption = claims →
      (∀ j, u'.tab? j = u.tab? j) → (∀ key, claimsKey ≠ key → u'.item i key = u.item i key) →
      Enters i t e w (u'.setCache i ⟨some t, some e, claims⟩) := by
    rintro u' _ rfl hsame hitem
    have hopen : (u'.tab? i).isSome := by rwa [hsame, htab]
    refine ⟨fun j => ?_, ?_, ?_, cache_setCache_self hopen _⟩
    · rw [bare?_setCache, bare?, bare?, hsame, htab]
    · rw [item_setCache, hitem _ (by decide), htoken]
    · rw [item_setCache, hitem _ (by decide), hexpiry]
  cases hclaims : (Claims.decode t).toOption with
  | some c =>
      refine hdone _ _ hclaims (fun j => tab?_writeKey u i j _ _) fun key hkey => ?_
      rw [item_writeKey, if_neg fun h => hkey h.2]
  | none =>
      refine hdone _ _ hclaims (fun j => ?_) fun key hkey => ?_
      · obtain ⟨l, hl⟩ := removeWith_of_ne (clearNested u.depth)
          (show claimsKey ≠ tokenKey by decide) i u
        have hframe : ∀ b l, ({ u with backend := b, history := l } : Tabs).tab? j = u.tab? j :=
          fun _ _ => rfl
        rw [removeKey, hl, hframe]
      · exact item_removeWith_of_ne (by decide) hkey i u

end Tabs

end ClientSession
