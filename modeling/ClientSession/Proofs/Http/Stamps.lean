import ClientSession.Http.SecurityHeaders

/-!
# What a request is stamped with

A request is stamped with headers of different names. Whatever it carried under these names, in
whatever letters, gives way; the rest of it stays.

- `Request.header?_stamp`: a stamp is found under its name.
- `Request.stamped_secure`: the stamps of every request.
- `SecurityHeaders.idText_injective`: requests of different numbers have different ids.
-/

namespace ClientSession

namespace Request

/-- The request with headers of these names and values. -/
def stamp (r : Request) (stamps : List (String × String)) : Request :=
  stamps.foldl (fun r h => r.setHeader h.1 h.2) r

/-- The requests are the same but for their headers. -/
structure Alike (r r' : Request) : Prop where
  method : r'.method = r.method
  path : r'.path = r.path
  body : r'.body = r.body

theorem header?_setHeader (r : Request) (name name' value : String) :
    (r.setHeader name value).header? name' =
      if lowerCase name = lowerCase name' then some value else r.header? name' :=
  Table.find?_insert ..

theorem alike_stamp (r : Request) (stamps : List (String × String)) : Alike r (r.stamp stamps) := by
  induction stamps generalizing r with
  | nil => exact ⟨rfl, rfl, rfl⟩
  | cons h stamps ih =>
      have hrest := ih (r.setHeader h.1 h.2)
      exact ⟨hrest.method, hrest.path, hrest.body⟩

/-- A header of another name is as it was. -/
theorem header?_stamp_of_ne (r : Request) {stamps : List (String × String)} {name : String}
    (h : ∀ s ∈ stamps, lowerCase s.1 ≠ lowerCase name) :
    (r.stamp stamps).header? name = r.header? name := by
  induction stamps generalizing r with
  | nil => rfl
  | cons s stamps ih =>
      rw [stamp, List.foldl_cons, ← stamp, ih _ fun s hs => h s (List.mem_cons_of_mem _ hs),
        header?_setHeader, if_neg (h s (List.mem_cons_self ..))]

/-- A stamp is found under its name. -/
theorem header?_stamp (r : Request) {stamps : List (String × String)}
    (hdistinct : (stamps.map fun s => lowerCase s.1).Nodup) {s : String × String}
    (hs : s ∈ stamps) : (r.stamp stamps).header? s.1 = some s.2 := by
  induction stamps generalizing r with
  | nil => cases hs
  | cons first stamps ih =>
      rw [List.map_cons, List.nodup_cons] at hdistinct
      rw [stamp, List.foldl_cons, ← stamp]
      rcases List.mem_cons.mp hs with rfl | hs
      · have hne : ∀ s' ∈ stamps, lowerCase s'.1 ≠ lowerCase s.1 := fun s' hs' he =>
          hdistinct.1 (List.mem_map.mpr ⟨s', hs', he⟩)
        rw [header?_stamp_of_ne _ hne, header?_setHeader, if_pos rfl]
      · exact ih _ hdistinct.2 hs

end Request

namespace SecurityHeaders

/-- The token against forgery, if the request may change something. -/
def csrfStamp (method : Method) : Option String → List (String × String)
  | some token => if method.isReadOnly || token.isEmpty then [] else [(csrf, token)]
  | none => []

/-- The stamps of a request. -/
def stamps (method : Method) (profile : DeviceProfile) (csrfToken : Option String) (now : Instant)
    (nonce : Nat) : List (String × String) :=
  hardening ++ [(fingerprint, profile.fingerprint), (requestId, idText nonce),
    (timestamp, timestampText now)] ++ csrfStamp method csrfToken

/-- The names of all stamps. -/
def stampNames : List String := hardening.map (·.1) ++ [fingerprint, requestId, timestamp, csrf]

theorem names_stamps (method : Method) (profile : DeviceProfile) (csrfToken : Option String)
    (now : Instant) (nonce : Nat) :
    ((stamps method profile csrfToken now nonce).map (·.1)).Sublist stampNames := by
  rw [stamps, List.map_append, List.map_append, List.append_assoc]
  refine (List.Sublist.refl _).append (List.Sublist.append (List.Sublist.refl _) ?_)
  cases csrfToken with
  | none => exact List.nil_sublist _
  | some token =>
      rw [csrfStamp]
      split
      · exact List.nil_sublist _
      · exact List.Sublist.refl _

theorem stamps_distinct (method : Method) (profile : DeviceProfile) (csrfToken : Option String)
    (now : Instant) (nonce : Nat) :
    ((stamps method profile csrfToken now nonce).map fun s => lowerCase s.1).Nodup := by
  have hall : (stampNames.map lowerCase).Nodup := by decide
  have hsub := hall.sublist ((names_stamps method profile csrfToken now nonce).map lowerCase)
  rwa [List.map_map] at hsub

theorem hexDigit_injective {a b : Nat} (ha : a < 16) (hb : b < 16)
    (h : Json.hexDigit a = Json.hexDigit b) : a = b := by
  have hall : ∀ a < 16, ∀ b < 16, Json.hexDigit a = Json.hexDigit b → a = b := by decide
  exact hall a ha b hb h

/-- How many ids there are. -/
def idCount : Nat := Nat.pow 16 32

/-- Numbers with the same last hexadecimal digits agree as far as these go. -/
theorem mod_eq_of_digits {n n' k : Nat}
    (h : ∀ j < k, n / Nat.pow 16 j % 16 = n' / Nat.pow 16 j % 16) :
    n % Nat.pow 16 k = n' % Nat.pow 16 k := by
  induction k with
  | zero => exact (Nat.mod_one n).trans (Nat.mod_one n').symm
  | succ k ih =>
      have hlast : ∀ m, m % Nat.pow 16 (k + 1) =
          m % Nat.pow 16 k + Nat.pow 16 k * (m / Nat.pow 16 k % 16) := fun m => Nat.mod_pow_succ
      rw [hlast, hlast, ih fun j hj => h j (Nat.lt_succ_of_lt hj), h k (Nat.lt_succ_self k)]

/-- Different numbers of 128 bits have different texts. -/
theorem idText_injective {n n' : Nat} (hn : n < idCount) (hn' : n' < idCount)
    (h : idText n = idText n') : n = n' := by
  have hdigits : ∀ j < 32, n / Nat.pow 16 j % 16 = n' / Nat.pow 16 j % 16 := by
    intro j hj
    have hchars := List.map_inj_left.mp (String.ofList_inj.mp h) (31 - j)
      (List.mem_range.mpr (by omega))
    rw [show 31 - (31 - j) = j by omega] at hchars
    exact hexDigit_injective (Nat.mod_lt _ (by decide)) (Nat.mod_lt _ (by decide)) hchars
  have hmod : n % idCount = n' % idCount := mod_eq_of_digits hdigits
  rwa [Nat.mod_eq_of_lt hn, Nat.mod_eq_of_lt hn'] at hmod

end SecurityHeaders

namespace Request

open SecurityHeaders

theorem secure_eq (r : Request) (profile : DeviceProfile) (csrfToken : Option String)
    (now : Instant) (nonce : Nat) :
    r.secure profile csrfToken now nonce =
      r.stamp (stamps r.method profile csrfToken now nonce) := by
  have hmethod := (alike_stamp r (hardening ++ [(fingerprint, profile.fingerprint),
    (requestId, idText nonce), (timestamp, timestampText now)])).method
  rw [stamp, stamps, List.foldl_append]
  rw [stamp, List.foldl_append] at hmethod
  rw [List.foldl_append]
  unfold secure
  extract_lets hardened marked named stamped
  change stamped.method = r.method at hmethod
  change _ = (csrfStamp r.method csrfToken).foldl (fun r h => r.setHeader h.1 h.2) stamped
  -- What the headers are must not be computed.
  clear_value stamped
  cases csrfToken with
  | none => rfl
  | some token =>
      rw [csrfStamp, hmethod]
      dsimp only
      split <;> rfl

theorem alike_secure (r : Request) (profile : DeviceProfile) (csrfToken : Option String)
    (now : Instant) (nonce : Nat) : Alike r (r.secure profile csrfToken now nonce) := by
  rw [secure_eq]
  exact alike_stamp ..

/-- The request carries its stamps. -/
def Stamped (profile : DeviceProfile) (csrfToken : Option String) (now : Instant) (nonce : Nat)
    (r : Request) : Prop :=
  ∀ s ∈ stamps r.method profile csrfToken now nonce, r.header? s.1 = some s.2

theorem stamped_secure (r : Request) (profile : DeviceProfile) (csrfToken : Option String)
    (now : Instant) (nonce : Nat) :
    Stamped profile csrfToken now nonce (r.secure profile csrfToken now nonce) := by
  intro s hs
  rw [(alike_secure r profile csrfToken now nonce).method] at hs
  rw [secure_eq]
  exact header?_stamp r (stamps_distinct ..) hs

variable {profile : DeviceProfile} {csrfToken : Option String} {now : Instant} {nonce : Nat}

/-- Stamps stay when a header of another name is set. -/
theorem Stamped.setHeader {r : Request} (h : Stamped profile csrfToken now nonce r)
    {name : String} (hname : lowerCase name ∉ stampNames.map lowerCase) (value : String) :
    Stamped profile csrfToken now nonce (r.setHeader name value) := by
  intro s hs
  have hmem : s.1 ∈ stampNames :=
    (names_stamps ..).subset (List.mem_map.mpr ⟨s, hs, rfl⟩)
  have hne : lowerCase name ≠ lowerCase s.1 := fun heq =>
    hname (List.mem_map.mpr ⟨s.1, hmem, heq.symm⟩)
  rw [header?_setHeader, if_neg hne]
  exact h s hs

theorem Stamped.requestId {r : Request} (h : Stamped profile csrfToken now nonce r) :
    r.header? SecurityHeaders.requestId = some (idText nonce) :=
  h (SecurityHeaders.requestId, idText nonce) (by simp [stamps])

end Request

end ClientSession
