import ClientSession.Proofs.Session.Recollection
import ClientSession.Proofs.Storage.Sealing
import ClientSession.Proofs.Text.Numerals

/-!
# When a stored session ends

The expiry of a session is stored as a numeral of whole seconds and read back as the instant of that
second. A tab may remember another end of the session than the stored one; it is in step as long as
it remembers none that is earlier.

- `Tabs.storedToken_of_item`, `Tabs.storedExpiry_of_item`: what is read back.
- `Tabs.InStep.lasts`: a tab in step does not take a session for expired that is stored and lasts.
-/

namespace ClientSession

/-- The instant at which the second of an instant began. -/
def Instant.startOfSecond (t : Instant) : Instant := ⟨t.floorSeconds * Span.nanosPerSecond⟩

theorem Instant.startOfSecond_le (t : Instant) : t.startOfSecond ≤ t :=
  Int.ediv_mul_le _ (by decide)

/-- An instant of the calendar is read back as the start of its second. -/
theorem Instant.ofSeconds?_floorSeconds {t : Instant} (h : t.InCalendar) :
    ofSeconds? t.floorSeconds = some t.startOfSecond := by
  obtain ⟨hfirst, hlast⟩ := h
  refine if_pos ⟨Int.le_ediv_of_mul_le (by decide) hfirst, ?_⟩
  exact Int.lt_add_one_iff.mp (Int.ediv_lt_of_lt_mul (by decide) hlast)

theorem Instant.eq_startOfSecond {e t : Instant} (h : ofSeconds? e.floorSeconds = some t) :
    t = e.startOfSecond := by
  unfold ofSeconds? at h
  split at h
  · exact (Option.some.inj h).symm
  · cases h

theorem Instant.ofSeconds?_floorSeconds_le {e t : Instant}
    (h : Instant.ofSeconds? e.floorSeconds = some t) : t ≤ e := by
  rw [eq_startOfSecond h]
  exact e.startOfSecond_le

theorem Instant.inCalendar_of_ofSeconds? {n : Int} {t : Instant} (h : ofSeconds? n = some t) :
    t.InCalendar := by
  unfold ofSeconds? at h
  split at h
  · rename_i hn
    obtain rfl := Option.some.inj h
    simp only [InCalendar, firstSecond, lastSecond, Span.nanosPerSecond] at hn ⊢
    omega
  · cases h

namespace Tabs

variable {w w' : Tabs} {v : Vault} {i : Nat}

theorem instant?_toString (n : Int) : instant? (toString n) = Instant.ofSeconds? n := by
  rw [instant?, Text.trim_toString, Text.integer64?_toString]
  split
  · rw [Option.bind_some]
  · rename_i hn
    -- What does not fit 64 bits is outside of the calendar.
    rw [Option.bind_none, Instant.ofSeconds?, if_neg]
    simp only [Instant.firstSecond, Instant.lastSecond, maxSigned64] at hn ⊢
    omega

theorem storedExpiry_eq (h : w.backend.Healthy) (i : Nat) :
    (w.storedExpiry i).1 = ((w.backend.items.find? ((w.vault i).rawKey expiryKey)).map
      (w.vault i).reveal).bind instant? := by
  rw [storedExpiry, readKey_of_healthy h]

theorem toString_ne_empty (n : Int) : toString n ≠ "" := by
  intro h
  have hlist := Text.toList_toString n
  rw [h] at hlist
  split at hlist
  · exact Nat.toDigits_ne_nil hlist.symm
  · cases hlist

/-- What is stored for an expiry is read back as the instant of its second. -/
theorem storedExpiry_of_item (h : w.Shares v) (hi : (w.tab? i).isSome) {e : Instant}
    (hitem : w.backend.items.find? (v.rawKey expiryKey) =
      some (v.conceal (toString e.floorSeconds))) :
    (w.storedExpiry i).1 = Instant.ofSeconds? e.floorSeconds := by
  rw [storedExpiry_eq h.healthy, h.vault_eq i hi, hitem, Option.map_some, Option.bind_some,
    Vault.reveal_conceal v (toString_ne_empty _), instant?_toString]

/-- A stored token is read back. -/
theorem storedToken_of_item (h : w.Shares v) (hi : (w.tab? i).isSome) {t : BearerToken}
    (ht : t.isBlank = false)
    (hitem : w.backend.items.find? (v.rawKey tokenKey) = some (v.conceal t.text)) :
    (w.storedToken i).1 = some t := by
  have hempty : t.text ≠ "" := by
    intro he
    rw [BearerToken.isBlank, he] at ht
    cases ht
  rw [storedToken, readKey_of_healthy h.healthy, h.vault_eq i hi, hitem]
  simp only [Option.map_some, Vault.reveal_conceal v hempty]

/-- A token is stored whose stored expiry is still to come. -/
def StoresLive (w : Tabs) (i : Nat) (now : Instant) : Prop :=
  w.stores i tokenKey = true ∧ ∃ t, (w.storedExpiry i).1 = some t ∧ now < t

instance (w : Tabs) (i : Nat) (now : Instant) : Decidable (w.StoresLive i now) :=
  decidable_of_iff (w.stores i tokenKey = true ∧
    (w.storedExpiry i).1.any (fun t => decide (now < t)) = true)
    (by simp [StoresLive, Option.any_eq_true])

/-- Where a token is stored, the tab remembers no end of its session before the stored one. -/
def InStep (w : Tabs) (i : Nat) : Prop :=
  w.stores i tokenKey = true →
    ∀ e e', (w.cache i).expiresAt = some e → (w.storedExpiry i).1 = some e' → e' ≤ e

theorem InStep.of_gone (h : w.stores i tokenKey = false) : w.InStep i := by
  intro hs
  rw [h] at hs
  cases hs

theorem InStep.of_empty (h : w.cache i = .empty) : w.InStep i := by
  intro _ e e' he
  rw [h] at he
  cases he

/-- A tab in step does not take a session for expired that is stored and lasts. -/
theorem InStep.lasts (h : w.InStep i) {now : Instant} (hl : w.StoresLive i now) :
    ∃ t, (w.expiresAt i).1 = some t ∧ now < t := by
  obtain ⟨hs, t, ht, hnow⟩ := hl
  cases hc : (w.cache i).expiresAt with
  | none => exact ⟨t, expiresAt_of_stored hc ht, hnow⟩
  | some e =>
      have hle : t ≤ e := h hs e t hc ht
      exact ⟨e, expiresAt_of_remembered hc, Int.lt_of_lt_of_le hnow hle⟩

/-- What is stored for a tab, when the tabs are the same but for what they remember. -/
theorem storedExpiry_congr (hb : w'.backend = w.backend) (hbare : ∀ j, w'.bare? j = w.bare? j)
    (h : w.backend.Healthy) (i : Nat) : (w'.storedExpiry i).1 = (w.storedExpiry i).1 := by
  rw [storedExpiry_eq h, storedExpiry_eq (hb ▸ h), hb, vault_congr hbare]

theorem InStep.of_recalls (h : w.InStep i) (hh : w.backend.Healthy) (hi : (w.tab? i).isSome)
    (hr : Recalls i w w') : w'.InStep i := by
  rcases hr with rfl | ⟨k, hk, rfl⟩
  · exact h
  · intro hs e e' he he'
    rw [stores_setCache] at hs
    rw [cache_setCache_self hi] at he
    rw [storedExpiry_congr (backend_setCache w i k) (fun j => bare?_setCache w i j k) hh] at he'
    rcases hk.expiry e he with hc | hstored
    · exact h hs e e' hc he'
    · rw [hstored e' he']
      exact Int.le_refl _

/-- What another tab remembers does not matter. -/
theorem InStep.setCache_of_ne (h : w.InStep i) (hh : w.backend.Healthy) {j : Nat} (hj : i ≠ j)
    (k : SessionCache) : (w.setCache j k).InStep i := by
  intro hs e e' he he'
  rw [stores_setCache] at hs
  rw [cache_setCache_of_ne hj] at he
  rw [storedExpiry_congr (backend_setCache w j k) (fun l => bare?_setCache w j l k) hh] at he'
  exact h hs e e' he he'

/-- A tab that has stored a token is in step. -/
theorem Installed.inStep {t : BearerToken} {e : Instant} (h : Installed v i t e w w')
    (hi : (w'.tab? i).isSome) : w'.InStep i := by
  intro _ e₁ e' he₁ he'
  rw [h.cache_self] at he₁
  obtain rfl := Option.some.inj he₁
  rw [storedExpiry_of_item h.shares hi h.expiry] at he'
  exact Instant.ofSeconds?_floorSeconds_le he'

end Tabs

end ClientSession
