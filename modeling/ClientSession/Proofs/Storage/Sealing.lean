import ClientSession.Proofs.Storage.Health

/-!
# Seals that open

What was sealed with the key of a device opens to the same text, so a vault gives back what it was
given, unless that was empty.

- `Base64.decode?_encode`: padded texts are read back.
- `veil_veil`: veiling twice gives the bytes back.
- `Vault.reveal_conceal`: a vault gives back what it was given.
-/

namespace ClientSession

namespace Base64

/-- The alphabet can be read back: its last two characters are of their own. -/
def Alphabet.Readable (a : Alphabet) : Prop :=
  (∀ n < 64, a.value? (a.spell n) = some n) ∧ ∀ n < 64, a.spell n ≠ '='

theorem readable_standard : standard.Readable := ⟨by decide, by decide⟩

section RoundTrip

variable {a : Alphabet} (ha : a.Readable)
include ha

theorem lastOne?_spell (x : UInt8) :
    lastOne? a (a.spell (x.toNat / 4)) (a.spell (x.toNat % 4 * 16)) = some [x] := by
  have hx := x.toNat_lt
  rw [lastOne?, ha.1 _ (by omega), ha.1 _ (by omega)]
  have hbyte : x.toNat / 4 * 4 + x.toNat % 4 * 16 / 16 = x.toNat := by omega
  simp only [Option.bind_eq_bind, Option.bind_some, Nat.mul_mod_left, if_true, hbyte,
    UInt8.ofNat_toNat]

theorem lastTwo?_spell (x y : UInt8) :
    lastTwo? a (a.spell (x.toNat / 4)) (a.spell (x.toNat % 4 * 16 + y.toNat / 16))
      (a.spell (y.toNat % 16 * 4)) = some [x, y] := by
  have hx := x.toNat_lt
  have hy := y.toNat_lt
  rw [lastTwo?, ha.1 _ (by omega), ha.1 _ (by omega), ha.1 _ (by omega)]
  have hfirst : x.toNat / 4 * 4 + (x.toNat % 4 * 16 + y.toNat / 16) / 16 = x.toNat := by omega
  have hsecond : (x.toNat % 4 * 16 + y.toNat / 16) % 16 * 16 + y.toNat % 16 * 4 / 4 =
    y.toNat := by omega
  have hbits : y.toNat % 16 * 4 % 4 = 0 := by omega
  simp only [Option.bind_eq_bind, Option.bind_some, hbits, if_true, hfirst, hsecond,
    UInt8.ofNat_toNat]

theorem group?_spell (x y z : UInt8) :
    group? a (a.spell (x.toNat / 4)) (a.spell (x.toNat % 4 * 16 + y.toNat / 16))
      (a.spell (y.toNat % 16 * 4 + z.toNat / 64)) (a.spell (z.toNat % 64)) = some [x, y, z] := by
  have hx := x.toNat_lt
  have hy := y.toNat_lt
  have hz := z.toNat_lt
  rw [group?, ha.1 _ (by omega), ha.1 _ (by omega), ha.1 _ (by omega), ha.1 _ (by omega)]
  have hfirst : x.toNat / 4 * 4 + (x.toNat % 4 * 16 + y.toNat / 16) / 16 = x.toNat := by omega
  have hsecond : (x.toNat % 4 * 16 + y.toNat / 16) % 16 * 16 +
    (y.toNat % 16 * 4 + z.toNat / 64) / 4 = y.toNat := by omega
  have hthird : (y.toNat % 16 * 4 + z.toNat / 64) % 4 * 64 + z.toNat % 64 = z.toNat := by omega
  simp only [Option.bind_eq_bind, Option.bind_some, hfirst, hsecond, hthird, UInt8.ofNat_toNat]

/-- Padded texts are read back. -/
theorem decode?_encode (bytes : List UInt8) : decode? a (encode a bytes) = some bytes := by
  induction bytes using encode.induct with
  | case1 => rfl
  | case2 x => simp [encode, decode?, lastOne?_spell ha]
  | case3 x y =>
      have hy : a.spell (y.toNat % 16 * 4) ≠ '=' := ha.2 _ (by omega)
      simp [encode, decode?, lastTwo?_spell ha, hy]
  | case4 x y z rest ih =>
      have hz : a.spell (z.toNat % 64) ≠ '=' := ha.2 _ (by omega)
      simp [encode, decode?, group?_spell ha, hz, ih]

end RoundTrip

end Base64

theorem Utf8.decode?_encode (s : String) : Utf8.decode? (Utf8.encode s) = some s := by
  rw [Utf8.decode?, Utf8.encode, Array.toArray_toList]
  show String.fromUTF8? s.toByteArray = some s
  rw [String.fromUTF8?, dif_pos s.isValidUTF8]
  rfl

/-! ## Veils -/

theorem length_digest (message : List UInt8) : (Sha256.digest message).length = 32 := rfl

theorem length_stream (key : List UInt8) (blocks i : Nat) :
    (stream key blocks i).length = blocks * 32 := by
  induction blocks generalizing i with
  | zero => rw [stream, List.length_nil, Nat.zero_mul]
  | succ blocks ih =>
      rw [stream, List.length_append, ih, streamBlock, length_digest]
      omega

theorem zipWith_xor_zipWith {l m : List UInt8} (h : l.length ≤ m.length) :
    (l.zipWith (· ^^^ ·) m).zipWith (· ^^^ ·) m = l := by
  induction l generalizing m with
  | nil => simp
  | cons x l ih =>
      cases m with
      | nil => simp at h
      | cons y m =>
          rw [List.zipWith_cons_cons, List.zipWith_cons_cons, ih (Nat.le_of_succ_le_succ h),
            UInt8.xor_assoc, UInt8.xor_self, UInt8.xor_zero]

/-- Veiling twice gives the bytes back. -/
theorem veil_veil (key bytes : List UInt8) : veil key (veil key bytes) = bytes := by
  have hstream : bytes.length ≤ (stream key ((bytes.length + 31) / 32) 0).length := by
    rw [length_stream]
    omega
  have hlength : (veil key bytes).length = bytes.length := by
    rw [veil, List.length_zipWith, Nat.min_eq_left hstream]
  rw [veil, hlength, veil, zipWith_xor_zipWith hstream]

/-! ## Seals -/

/-- What was sealed opens to the same text. -/
theorem DeviceProfile.openText_of_sealText {p : DeviceProfile} {plain sealed : String}
    (h : p.sealText plain = .ok sealed) : p.openText sealed = .ok plain := by
  unfold sealText at h
  unfold openText
  cases hkey : p.key? with
  | error e =>
      rw [hkey] at h
      cases h
  | ok key =>
      rw [hkey] at h
      cases h
      have hprefix : sealMark.isPrefixOf
          (sealMark ++ Base64.encode Base64.standard (veil key (Utf8.encode plain))) = true := by
        simp
      have hdrop : (sealMark ++ Base64.encode Base64.standard
          (veil key (Utf8.encode plain))).drop 3 =
            Base64.encode Base64.standard (veil key (Utf8.encode plain)) := rfl
      simp only [bind, Except.bind, String.toList_ofList, hprefix, if_true, hdrop,
        Base64.decode?_encode Base64.readable_standard, veil_veil, Utf8.decode?_encode]
      rfl

/-- A vault gives back what it was given. -/
theorem Vault.reveal_conceal (v : Vault) {plain : String} (h : plain ≠ "") :
    v.reveal (v.conceal plain) = plain := by
  unfold conceal
  cases hseal : v.profile.sealText plain with
  | error e =>
      have hopen : v.profile.openText plain = .error e := by
        unfold DeviceProfile.sealText at hseal
        unfold DeviceProfile.openText
        cases hkey : v.profile.key? with
        | error e' =>
            rw [hkey] at hseal
            cases hseal
            rfl
        | ok key =>
            rw [hkey] at hseal
            cases hseal
      rw [reveal, hopen]
  | ok sealed =>
      have hempty : plain.isEmpty = false := by simpa using h
      rw [reveal, DeviceProfile.openText_of_sealText hseal]
      simp [hempty]

end ClientSession
