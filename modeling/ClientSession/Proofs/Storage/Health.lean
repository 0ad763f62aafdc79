import ClientSession.Session.Tabs

/-!
# Storage in good order

Over a healthy backend no call fails, so what a vault does to the stored items is what its
operations say, and the backend stays healthy. The keys of one vault are told apart by their names.
-/

namespace ClientSession

namespace Backend

variable {b : Backend}

theorem Healthy.fails_eq (h : b.Healthy) (call : StorageCall) : b.fails call = false := by
  simp [fails, h.1, h.2]

theorem Healthy.advance_eq (h : b.Healthy) : b.advance = b := by
  obtain ⟨items, broken, faults⟩ := b
  obtain ⟨rfl, rfl⟩ := h
  rfl

theorem Healthy.get_eq (h : b.Healthy) (key : String) :
    b.get key = (.ok (b.items.find? key), b) := by
  simp [get, h.fails_eq, h.advance_eq]

theorem Healthy.set_eq (h : b.Healthy) (key value : String) :
    b.set key value = (.ok (), { b with items := b.items.insert key value }) := by
  simp [set, h.fails_eq, h.advance_eq]

theorem Healthy.remove_eq (h : b.Healthy) (key : String) :
    b.remove key = (.ok (), { b with items := b.items.erase key }) := by
  simp [remove, h.fails_eq, h.advance_eq]

end Backend

namespace Vault

variable {b : Backend}

theorem rawKey_inj (v : Vault) {k k' : String} : v.rawKey k = v.rawKey k' ↔ k = k' := by
  simp [rawKey]

theorem get_of_healthy (h : b.Healthy) (v : Vault) (key : String) :
    v.get key b = ((b.items.find? (v.rawKey key)).map v.reveal, b) := by
  simp [get, h.get_eq]

theorem has_of_healthy (h : b.Healthy) (v : Vault) (key : String) :
    v.has key b = ((b.items.find? (v.rawKey key)).isSome, b) := by
  simp [has, h.get_eq]

theorem set_of_healthy (h : b.Healthy) (v : Vault) (key value : String) :
    v.set key value b = { b with items := b.items.insert (v.rawKey key) (v.conceal value) } := by
  simp [set, h.set_eq]

theorem remove_of_healthy (h : b.Healthy) (v : Vault) (key : String) :
    v.remove key b = (true, { b with items := b.items.erase (v.rawKey key) }) := by
  simp [remove, h.remove_eq]

end Vault

namespace Tabs

variable {w : Tabs}

/-- The vault of a tab has something under a key. -/
def stores (w : Tabs) (i : Nat) (key : String) : Bool :=
  (w.backend.items.find? ((w.vault i).rawKey key)).isSome

theorem readKey_of_healthy (h : w.backend.Healthy) (i : Nat) (key : String) :
    w.readKey i key =
      ((w.backend.items.find? ((w.vault i).rawKey key)).map (w.vault i).reveal, w) := by
  simp [readKey, Vault.get_of_healthy h]

theorem readKey_eq_none (h : w.backend.Healthy) {i : Nat} {key : String}
    (hs : w.stores i key = false) : w.readKey i key = (none, w) := by
  have hnone : w.backend.items.find? ((w.vault i).rawKey key) = none := by
    simpa [stores] using hs
  rw [readKey_of_healthy h, hnone, Option.map_none]

theorem stores_of_readKey (h : w.backend.Healthy) {i : Nat} {key text : String}
    (hr : (w.readKey i key).1 = some text) : w.stores i key = true := by
  cases hs : w.stores i key with
  | true => rfl
  | false =>
      rw [readKey_eq_none h hs] at hr
      cases hr

theorem hasKey_of_healthy (h : w.backend.Healthy) (i : Nat) (key : String) :
    w.hasKey i key = (w.stores i key, w) := by
  simp [hasKey, Vault.has_of_healthy h, stores]

end Tabs

end ClientSession
