import ClientSession.Proofs.Storage.Unsealing

/-!
# What a vault keeps

Vaults of any devices and spaces share a backend in good order. What one of them stores under a key
is there until that key is set or removed, whatever else is done with any of the vaults. It is given
back as it was, unless it was empty and has been sealed: the sealed empty text opens to nothing,
which is taken for a text that was never sealed, and so its mark is given back.

- `Vault.Call`: what may be done with vaults.
- `Vault.Call.spares_calls`: calls that do not touch what is stored leave it there.
- `Vault.reveal_conceal_iff`: the texts that a vault gives back.
- `Vault.kept_iff`: what is read of what was stored.
- `Tabs.backend_clearVault`: a tab clears its vault by the call of the vault.
-/

namespace ClientSession

namespace Vault

/-! ## The text that stands for one -/

/-- Without a key a text stands for itself. -/
theorem conceal_of_blank {v : Vault} (hv : v.profile.isBlank = true) (plain : String) :
    v.conceal plain = plain := by
  rw [conceal, DeviceProfile.sealText, DeviceProfile.key?, hv]
  rfl

theorem reveal_of_blank {v : Vault} (hv : v.profile.isBlank = true) (raw : String) :
    v.reveal raw = raw := by
  rw [reveal, DeviceProfile.openText, DeviceProfile.key?, hv]
  rfl

/-- The mark alone is the empty text when it is sealed. -/
theorem conceal_empty {v : Vault} (hv : v.profile.isBlank = false) :
    v.conceal "" = String.ofList sealMark := by
  rw [conceal, DeviceProfile.sealText, DeviceProfile.key?_of_not_blank hv]
  rfl

/-- The mark alone opens to nothing, so it is given back as it is. -/
theorem reveal_mark (v : Vault) : v.reveal (String.ofList sealMark) = String.ofList sealMark := by
  cases hv : v.profile.isBlank with
  | true => exact reveal_of_blank hv _
  | false =>
      have hseal : v.profile.sealText "" = .ok (String.ofList sealMark) := by
        rw [DeviceProfile.sealText, DeviceProfile.key?_of_not_blank hv]
        rfl
      rw [reveal, DeviceProfile.openText_of_sealText hseal]
      rfl

/-- A vault gives back every text but the empty one, and that as well when it cannot seal. -/
theorem reveal_conceal_iff (v : Vault) (plain : String) :
    v.reveal (v.conceal plain) = plain ↔ (plain = "" → v.profile.isBlank = true) := by
  cases hv : v.profile.isBlank with
  | true =>
      rw [conceal_of_blank hv, reveal_of_blank hv]
      exact iff_of_true rfl fun _ => rfl
  | false =>
      by_cases hplain : plain = ""
      · subst hplain
        rw [conceal_empty hv, reveal_mark]
        exact iff_of_false (by decide) fun h => Bool.false_ne_true (h rfl)
      · exact iff_of_true (reveal_conceal v hplain) fun h => absurd h hplain

/-! ## Calls -/

/-- Removes every key of the vault. -/
def clear (v : Vault) (b : Backend) : Backend :=
  (v.keys b).1.foldl (fun b key => (v.remove key b).2) (v.keys b).2

/-- What may be done with a vault. -/
inductive Call where
  | get (v : Vault) (key : String)
  | has (v : Vault) (key : String)
  | keys (v : Vault)
  | set (v : Vault) (key value : String)
  | remove (v : Vault) (key : String)
  | clear (v : Vault)

namespace Call

/-- The backend afterwards. -/
def run (b : Backend) : Call → Backend
  | .get v key => (v.get key b).2
  | .has v key => (v.has key b).2
  | .keys v => (v.keys b).2
  | .set v key value => v.set key value b
  | .remove v key => (v.remove key b).2
  | .clear v => v.clear b

/-- The call sets or removes what is stored under a key of the backend. -/
def Touches (raw : String) : Call → Prop
  | .set v key _ => v.rawKey key = raw
  | .remove v key => v.rawKey key = raw
  | .clear v => ∃ key, v.rawKey key = raw
  | _ => False

/-- What a call leaves behind that does not touch a key of the backend. -/
structure Spares (raw : String) (b b' : Backend) : Prop where
  healthy : b'.Healthy
  find? : b'.items.find? raw = b.items.find? raw

variable {raw : String} {b b' b'' : Backend}

protected theorem Spares.trans (h : Spares raw b b') (h' : Spares raw b' b'') : Spares raw b b'' :=
  ⟨h'.healthy, h'.find?.trans h.find?⟩

theorem spares_remove (hb : b.Healthy) {v : Vault} {key : String} (h : v.rawKey key ≠ raw) :
    Spares raw b (v.remove key b).2 := by
  rw [remove_of_healthy hb]
  refine ⟨hb, ?_⟩
  rw [Table.find?_erase, if_neg h]

/-- A vault is cleared one key after another. -/
theorem spares_removes (hb : b.Healthy) {v : Vault} (h : ¬∃ key, v.rawKey key = raw)
    (keys : List String) :
    Spares raw b (keys.foldl (fun b key => (v.remove key b).2) b) := by
  induction keys generalizing b with
  | nil => exact ⟨hb, rfl⟩
  | cons key keys ih =>
      have hfirst : Spares raw b (v.remove key b).2 := spares_remove hb fun hkey => h ⟨key, hkey⟩
      exact hfirst.trans (ih hfirst.healthy)

theorem keys_of_healthy (hb : b.Healthy) (v : Vault) : (v.keys b).2 = b := by
  simp [Vault.keys, Backend.keys, hb.advance_eq]

theorem spares_run (hb : b.Healthy) {c : Call} (h : ¬c.Touches raw) : Spares raw b (c.run b) := by
  have hsame : ∀ {u : Backend}, u = b → Spares raw b u := by
    rintro u rfl
    exact ⟨hb, rfl⟩
  cases c with
  | get v key => exact hsame (congrArg Prod.snd (get_of_healthy hb v key))
  | has v key => exact hsame (congrArg Prod.snd (has_of_healthy hb v key))
  | keys v => exact hsame (keys_of_healthy hb v)
  | set v key value =>
      rw [run, set_of_healthy hb]
      refine ⟨hb, ?_⟩
      have hkey : v.rawKey key ≠ raw := h
      rw [Table.find?_insert, if_neg hkey]
  | remove v key => exact spares_remove hb h
  | clear v =>
      rw [run, Vault.clear, keys_of_healthy hb]
      exact spares_removes hb h _

/-- Calls that do not touch what is stored leave it there. -/
theorem spares_calls (hb : b.Healthy) {calls : List Call} (h : ∀ c ∈ calls, ¬c.Touches raw) :
    Spares raw b (calls.foldl run b) := by
  induction calls generalizing b with
  | nil => exact ⟨hb, rfl⟩
  | cons c calls ih =>
      have hfirst := spares_run hb (h c List.mem_cons_self)
      exact hfirst.trans (ih hfirst.healthy fun d hd => h d (List.mem_cons_of_mem c hd))

end Call

/-! ## What is read -/

/-- A vault has what it gives, whatever fails. -/
theorem has_eq_isSome_get (v : Vault) (key : String) (b : Backend) :
    (v.has key b).1 = (v.get key b).1.isSome := by
  rw [has, get]
  cases (b.get (v.rawKey key)).1 with
  | ok raw => exact Option.isSome_map.symm
  | error e => rfl

/-- What a vault has stored is there, and is read as it was unless it was empty and sealed, until
its key is set or removed; at once nothing else is read otherwise; and whatever fails, a vault has
exactly what it gives. -/
theorem kept_iff {b : Backend} (hb : b.Healthy) (v : Vault) (key value : String) :
    (∀ calls : List Call, (∀ c ∈ calls, ¬c.Touches (v.rawKey key)) →
      ((v.get key (calls.foldl Call.run (v.set key value b))).1 = some value ↔
        (value = "" → v.profile.isBlank = true)) ∧
      (v.has key (calls.foldl Call.run (v.set key value b))).1 = true) ∧
    (∀ other, other ≠ key → (v.get other (v.set key value b)).1 = (v.get other b).1) ∧
    ∀ b', (v.has key b').1 = (v.get key b').1.isSome := by
  have hset : (v.set key value b).Healthy := by
    rw [set_of_healthy hb]
    exact hb
  refine ⟨fun calls hcalls => ?_, fun other hother => ?_, has_eq_isSome_get v key⟩
  · have hspared := Call.spares_calls hset hcalls
    have hfind : (calls.foldl Call.run (v.set key value b)).items.find? (v.rawKey key) =
        some (v.conceal value) := by
      rw [hspared.find?, set_of_healthy hb, Table.find?_insert, if_pos rfl]
    rw [get_of_healthy hspared.healthy, has_of_healthy hspared.healthy, hfind]
    refine ⟨?_, rfl⟩
    rw [Option.map_some, Option.some_inj]
    exact reveal_conceal_iff v value
  · have hspared : Call.Spares (v.rawKey other) b (Call.run b (.set v key value)) :=
      Call.spares_run hb fun h => hother ((rawKey_inj v).mp h).symm
    rw [get_of_healthy hset, get_of_healthy hb, ← hspared.find?]
    rfl

/-- A device that says something about itself. -/
def agentVault : Vault := ⟨"app_", "agent", "en-US", "1280x720x24", "https://app.test"⟩

theorem kept_iff_agentVault :
    Backend.Healthy (.ofItems []) ∧
    (∀ calls : List Call, (∀ c ∈ calls, ¬c.Touches (agentVault.rawKey "k")) →
      ((agentVault.get "k" (calls.foldl Call.run (agentVault.set "k" "v" (.ofItems [])))).1 =
        some "v" ↔ ("v" = "" → agentVault.profile.isBlank = true)) ∧
      (agentVault.has "k" (calls.foldl Call.run (agentVault.set "k" "v" (.ofItems [])))).1 = true) ∧
    (∀ other, other ≠ "k" →
      (agentVault.get other (agentVault.set "k" "v" (.ofItems []))).1 =
        (agentVault.get other (.ofItems [])).1) ∧
    ∀ b', (agentVault.has "k" b').1 = (agentVault.get "k" b').1.isSome :=
  ⟨⟨rfl, rfl⟩, kept_iff ⟨rfl, rfl⟩ agentVault "k" "v"⟩

/-- Of the empty text the mark is given back. -/
theorem not_kept :
    Backend.Healthy (.ofItems []) ∧
    (agentVault.get "k" (agentVault.set "k" "" (.ofItems []))).1 = some "v1:" ∧
    (agentVault.get "k" (agentVault.set "k" "" (.ofItems []))).1 ≠ some "" := by
  refine ⟨⟨rfl, rfl⟩, ?_, ?_⟩
  · decide +kernel
  · decide +kernel

end Vault

/-! ## Clearing among tabs -/

namespace Tabs

/-- Where nobody listens a removal is nothing but the call of the vault. -/
theorem removeKey_of_unheard {w : Tabs} (h : w.listeners = []) (i : Nat) (key : String) :
    (w.removeKey i key).backend = ((w.vault i).remove key w.backend).2 ∧
      (w.removeKey i key).slots = w.slots ∧ (w.removeKey i key).listeners = [] := by
  unfold removeKey removeWith
  dsimp only
  split
  · rw [publishWith, h]
    exact ⟨rfl, rfl, rfl⟩
  · exact ⟨rfl, rfl, h⟩

/-- Where nobody listens a tab clears its vault by nothing but the call of the vault. -/
theorem backend_clearVault {w : Tabs} (h : w.listeners = []) (i : Nat) :
    (w.clearVault i).backend = (w.vault i).clear w.backend := by
  have hfold : ∀ (keys : List String) {u : Tabs}, u.listeners = [] → u.slots = w.slots →
      (keys.foldl (fun u key => u.removeKey i key) u).backend =
        keys.foldl (fun b key => ((w.vault i).remove key b).2) u.backend := by
    intro keys
    induction keys with
    | nil => exact fun _ _ => rfl
    | cons key keys ih =>
        intro u hu hslots
        obtain ⟨hbackend, hslots', hlisteners⟩ := removeKey_of_unheard hu i key
        have hvault : u.vault i = w.vault i := by
          rw [vault, vault, tab, tab, tab?, tab?, hslots]
        rw [List.foldl_cons, List.foldl_cons, ih hlisteners (hslots'.trans hslots), hbackend,
          hvault]
  exact hfold _ h rfl

end Tabs

end ClientSession
