import ClientSession.Proofs.Storage.Sealing

/-!
# What opens was sealed

Sealing and opening undo each other. Reading accepts exactly the texts that writing produces, of
padded texts and of characters alike, so a stored text that opens to something was sealed from it,
and no other stored text opens to the same.

- `Base64.encode_of_decode?`: a padded text that is read is the one its bytes are written as.
- `Utf8.encode_of_decode?`: bytes that are a text are the bytes of that text.
- `DeviceProfile.sealText_of_openText`: a stored text that opens to something was sealed from it.
- `DeviceProfile.openText_iff_sealText`: sealing and opening are inverse to each other.
-/

namespace ClientSession

namespace Base64

/-- What has a value is the spelling of it, and the value is one of sixty-four. -/
def Alphabet.Canonical (a : Alphabet) : Prop :=
  ∀ {c : Char} {n : Nat}, a.value? c = some n → n < 64 ∧ a.spell n = c

/-- A character between two others has its number between theirs. -/
theorem toNat_mem_of_between {c low high : Char} (h : low ≤ c ∧ c ≤ high) :
    low.toNat ≤ c.toNat ∧ c.toNat ≤ high.toNat :=
  ⟨UInt32.le_iff_toNat_le.1 h.1, UInt32.le_iff_toNat_le.1 h.2⟩

theorem canonical_standard : standard.Canonical := by
  intro c n h
  unfold Alphabet.value? at h
  split at h
  · rename_i hupper
    obtain ⟨hlow, hhigh⟩ := toNat_mem_of_between hupper
    cases h
    have hcode : 65 + (c.toNat - 65) = c.toNat := Nat.add_sub_cancel' hlow
    have hhigh : c.toNat ≤ 90 := hhigh
    refine ⟨by omega, ?_⟩
    rw [Alphabet.spell, if_pos (by omega), hcode, Char.ofNat_toNat]
  · split at h
    · rename_i hlower
      obtain ⟨hlow, hhigh⟩ := toNat_mem_of_between hlower
      cases h
      have hlow : 97 ≤ c.toNat := hlow
      have hhigh : c.toNat ≤ 122 := hhigh
      have hcode : 71 + (c.toNat - 71) = c.toNat := by omega
      refine ⟨by omega, ?_⟩
      rw [Alphabet.spell, if_neg (by omega), if_pos (by omega), hcode, Char.ofNat_toNat]
    · split at h
      · rename_i hdigit
        obtain ⟨hlow, hhigh⟩ := toNat_mem_of_between hdigit
        cases h
        have hlow : 48 ≤ c.toNat := hlow
        have hhigh : c.toNat ≤ 57 := hhigh
        refine ⟨by omega, ?_⟩
        rw [Alphabet.spell, if_neg (by omega), if_neg (by omega), if_pos (by omega),
          Nat.add_sub_cancel, Char.ofNat_toNat]
      · split at h
        · rename_i hlast
          cases h
          exact ⟨by decide, hlast.symm⟩
        · split at h
          · rename_i hlast
            cases h
            exact ⟨by decide, hlast.symm⟩
          · cases h

section Rewriting

variable {a : Alphabet} (ha : a.Canonical)
include ha

theorem encode_of_lastOne? {p q : Char} {bytes : List UInt8} (h : lastOne? a p q = some bytes) :
    encode a bytes = [p, q, '=', '='] := by
  obtain ⟨x, hx, h⟩ := Option.bind_eq_some_iff.1 h
  obtain ⟨y, hy, h⟩ := Option.bind_eq_some_iff.1 h
  obtain ⟨hx64, hxp⟩ := ha hx
  obtain ⟨hy64, hyq⟩ := ha hy
  split at h
  · rename_i hbits
    cases h
    have hbyte : (UInt8.ofNat (x * 4 + y / 16)).toNat = x * 4 + y / 16 :=
      UInt8.toNat_ofNat_of_lt' (by show _ < 256; omega)
    have hfirst : (x * 4 + y / 16) / 4 = x := by omega
    have hsecond : (x * 4 + y / 16) % 4 * 16 = y := by omega
    rw [encode, hbyte, hfirst, hsecond, hxp, hyq]
  · cases h

theorem encode_of_lastTwo? {p q r : Char} {bytes : List UInt8}
    (h : lastTwo? a p q r = some bytes) : encode a bytes = [p, q, r, '='] := by
  obtain ⟨x, hx, h⟩ := Option.bind_eq_some_iff.1 h
  obtain ⟨y, hy, h⟩ := Option.bind_eq_some_iff.1 h
  obtain ⟨z, hz, h⟩ := Option.bind_eq_some_iff.1 h
  obtain ⟨hx64, hxp⟩ := ha hx
  obtain ⟨hy64, hyq⟩ := ha hy
  obtain ⟨hz64, hzr⟩ := ha hz
  split at h
  · rename_i hbits
    cases h
    have hbyte : (UInt8.ofNat (x * 4 + y / 16)).toNat = x * 4 + y / 16 :=
      UInt8.toNat_ofNat_of_lt' (by show _ < 256; omega)
    have hbyte' : (UInt8.ofNat (y % 16 * 16 + z / 4)).toNat = y % 16 * 16 + z / 4 :=
      UInt8.toNat_ofNat_of_lt' (by show _ < 256; omega)
    have hfirst : (x * 4 + y / 16) / 4 = x := by omega
    have hsecond : (x * 4 + y / 16) % 4 * 16 + (y % 16 * 16 + z / 4) / 16 = y := by omega
    have hthird : (y % 16 * 16 + z / 4) % 16 * 4 = z := by omega
    rw [encode, hbyte, hbyte', hfirst, hsecond, hthird, hxp, hyq, hzr]
  · cases h

theorem encode_of_group? {p q r s : Char} {bytes : List UInt8} (rest : List UInt8)
    (h : group? a p q r s = some bytes) :
    encode a (bytes ++ rest) = p :: q :: r :: s :: encode a rest := by
  obtain ⟨x, hx, h⟩ := Option.bind_eq_some_iff.1 h
  obtain ⟨y, hy, h⟩ := Option.bind_eq_some_iff.1 h
  obtain ⟨z, hz, h⟩ := Option.bind_eq_some_iff.1 h
  obtain ⟨w, hw, h⟩ := Option.bind_eq_some_iff.1 h
  obtain ⟨hx64, hxp⟩ := ha hx
  obtain ⟨hy64, hyq⟩ := ha hy
  obtain ⟨hz64, hzr⟩ := ha hz
  obtain ⟨hw64, hws⟩ := ha hw
  cases h
  have hbyte : (UInt8.ofNat (x * 4 + y / 16)).toNat = x * 4 + y / 16 :=
    UInt8.toNat_ofNat_of_lt' (by show _ < 256; omega)
  have hbyte' : (UInt8.ofNat (y % 16 * 16 + z / 4)).toNat = y % 16 * 16 + z / 4 :=
    UInt8.toNat_ofNat_of_lt' (by show _ < 256; omega)
  have hbyte'' : (UInt8.ofNat (z % 4 * 64 + w)).toNat = z % 4 * 64 + w :=
    UInt8.toNat_ofNat_of_lt' (by show _ < 256; omega)
  have hfirst : (x * 4 + y / 16) / 4 = x := by omega
  have hsecond : (x * 4 + y / 16) % 4 * 16 + (y % 16 * 16 + z / 4) / 16 = y := by omega
  have hthird : (y % 16 * 16 + z / 4) % 16 * 4 + (z % 4 * 64 + w) / 64 = z := by omega
  have hfourth : (z % 4 * 64 + w) % 64 = w := by omega
  show encode a (_ :: _ :: _ :: rest) = _
  rw [encode, hbyte, hbyte', hbyte'', hfirst, hsecond, hthird, hfourth, hxp, hyq, hzr, hws]

/-- A padded text that is read is the one its bytes are written as. -/
theorem encode_of_decode? {text : List Char} {bytes : List UInt8}
    (h : decode? a text = some bytes) : encode a bytes = text := by
  induction text using decode?.induct generalizing bytes with
  | case1 =>
      cases h
      rfl
  | case2 p q rest hrest =>
      rw [decode?, if_pos rfl, if_pos hrest, if_pos rfl] at h
      rw [encode_of_lastOne? ha h, List.isEmpty_iff.1 hrest]
  | case3 p q r rest hrest hr =>
      rw [decode?, if_pos rfl, if_pos hrest, if_neg hr] at h
      rw [encode_of_lastTwo? ha h, List.isEmpty_iff.1 hrest]
  | case4 p q r rest hrest =>
      rw [decode?, if_pos rfl, if_neg hrest] at h
      cases h
  | case5 p q r s rest hs ih =>
      rw [decode?, if_neg hs] at h
      obtain ⟨first, hfirst, h⟩ := Option.bind_eq_some_iff.1 h
      obtain ⟨others, hothers, h⟩ := Option.bind_eq_some_iff.1 h
      cases h
      rw [encode_of_group? ha others hfirst, ih hothers]
  | case6 text hnil hfour =>
      rw [decode?] at h
      · cases h
      · exact hnil
      · exact hfour

end Rewriting

end Base64

/-- Bytes that are a text are the bytes of that text. -/
theorem Utf8.encode_of_decode? {bytes : List UInt8} {s : String}
    (h : Utf8.decode? bytes = some s) : Utf8.encode s = bytes := by
  unfold Utf8.decode? String.fromUTF8? at h
  split at h
  · cases h
    rfl
  · cases h

namespace DeviceProfile

variable {p : DeviceProfile}

/-- A profile that is not blank has a key. -/
theorem key?_of_not_blank (hp : p.isBlank = false) :
    p.key? = .ok (Sha256.digest (p.signals.flatMap fun s => Utf8.encode s ++ [0x1f])) := by
  rw [key?, hp]
  rfl

/-- A profile that is not blank seals every text. -/
theorem exists_sealText (hp : p.isBlank = false) (plain : String) :
    ∃ sealed, p.sealText plain = .ok sealed := by
  rw [sealText, key?_of_not_blank hp]
  exact ⟨_, rfl⟩

/-- A stored text that opens to something was sealed from it. -/
theorem sealText_of_openText {sealed plain : String} (h : p.openText sealed = .ok plain)
    (hplain : plain ≠ "") : p.sealText plain = .ok sealed := by
  unfold openText at h
  unfold sealText
  cases hkey : p.key? with
  | error e =>
      rw [hkey] at h
      cases h
  | ok key =>
      rw [hkey] at h
      simp only [bind, Except.bind] at h
      split at h
      · rename_i hmark
        obtain ⟨body, hbody⟩ := List.isPrefixOf_iff_prefix.1 hmark
        have hdrop : sealed.toList.drop 3 = body := by rw [← hbody]; rfl
        rw [hdrop] at h
        split at h
        · cases h
        · rename_i bytes hbytes
          obtain ⟨text, htext⟩ : ∃ text, Utf8.decode? (veil key bytes) = some text := by
            cases htext : Utf8.decode? (veil key bytes) with
            | some text => exact ⟨text, rfl⟩
            | none =>
                -- what is no text opens to nothing
                rw [htext] at h
                cases h
                exact absurd rfl hplain
          rw [htext] at h
          cases h
          show Except.ok (String.ofList (sealMark ++ Base64.encode Base64.standard
            (veil key (Utf8.encode text)))) = _
          rw [Utf8.encode_of_decode? htext, veil_veil,
            Base64.encode_of_decode? Base64.canonical_standard hbytes, hbody, String.ofList_toList]
      · -- a text without the mark opens to nothing
        cases h
        exact absurd rfl hplain

/-- Sealing and opening are inverse to each other: every text is sealed and opens again, the stored
text that opens to something is the one it is sealed as, and so there is no second one. -/
theorem openText_iff_sealText (hp : p.isBlank = false) :
    (∀ plain, ∃ sealed, p.sealText plain = .ok sealed ∧ p.openText sealed = .ok plain) ∧
    (∀ sealed plain, plain ≠ "" →
      (p.openText sealed = .ok plain ↔ p.sealText plain = .ok sealed)) ∧
    ∀ sealed other plain, plain ≠ "" → p.openText sealed = .ok plain →
      p.openText other = .ok plain → sealed = other := by
  refine ⟨fun plain => ?_, fun sealed plain hplain => ⟨fun h => sealText_of_openText h hplain,
    openText_of_sealText⟩, fun sealed other plain hplain hsealed hother => ?_⟩
  · obtain ⟨sealed, hsealed⟩ := exists_sealText hp plain
    exact ⟨sealed, hsealed, openText_of_sealText hsealed⟩
  · have hsame := (sealText_of_openText hsealed hplain).symm.trans
      (sealText_of_openText hother hplain)
    exact Except.ok.inj hsame

/-- A device that says something about itself. -/
theorem openText_iff_sealText_agent :
    let p : DeviceProfile := ⟨"agent", "en-US", "1280x720x24", "https://app.test"⟩
    p.isBlank = false ∧
    (∀ plain, ∃ sealed, p.sealText plain = .ok sealed ∧ p.openText sealed = .ok plain) ∧
    (∀ sealed plain, plain ≠ "" →
      (p.openText sealed = .ok plain ↔ p.sealText plain = .ok sealed)) ∧
    ∀ sealed other plain, plain ≠ "" → p.openText sealed = .ok plain →
      p.openText other = .ok plain → sealed = other :=
  have hp : DeviceProfile.isBlank ⟨"agent", "en-US", "1280x720x24", "https://app.test"⟩ = false :=
    by decide +kernel
  ⟨hp, openText_iff_sealText hp⟩

end DeviceProfile

end ClientSession
