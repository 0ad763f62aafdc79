import ClientSession.Proofs.Http.Routing
import ClientSession.Proofs.Url.Hosts

/-!
# URLs are read back

A web URL that was read holds nothing that would be encoded, resolved or left out once more, so that
its text is read as it: all but a host whose labels are too long to be decoded.

- `Regular`: the parts of a web URL as they are after reading.
- `regular_of_parse`, `Regular.withSlash`: what is read is regular, also with a slash at its end.
- `Regular.parse_text`: the text of a regular URL is read as that URL, or its host is refused.
- `parse_of_host`: what a text is read as that names a host alone.
-/

namespace ClientSession.Url

open Text (splitOnChar)
open Route (isPlainChar isPlainSegment)

/-! ## Encoded texts -/

/-- Nothing of the text is to be encoded. -/
def Encoded (set : EncodeSet) (cs : List Char) : Prop := ∀ c ∈ cs, c.toNat < 0x80 ∧ set c = false

/-- The signs of encoded bytes are not encoded themselves. -/
def LeavesSigns (set : EncodeSet) : Prop :=
  set '%' = false ∧ ∀ n < 16, set (upperHexDigit n) = false

instance (set : EncodeSet) : Decidable (LeavesSigns set) := inferInstanceAs (Decidable (_ ∧ _))

theorem leavesSigns_path : LeavesSigns pathSet := by decide
theorem leavesSigns_fragment : LeavesSigns fragmentSet := by decide
theorem leavesSigns_userinfo : LeavesSigns userinfoSet := by decide
theorem leavesSigns_query : LeavesSigns specialQuerySet := by decide

theorem utf8_encode_singleton (c : Char) :
    Utf8.encode (String.singleton c) = String.utf8EncodeChar c := by
  rw [Utf8.encode, String.singleton_eq_ofList]
  show (String.ofList [c]).toByteArray.data.toList = String.utf8EncodeChar c
  rw [String.toByteArray_ofList, List.utf8Encode]
  simp

/-- The bytes of a character beyond ASCII start with a large one. -/
theorem exists_first_byte {c : Char} (h : 0x80 ≤ c.toNat) :
    ∃ b rest, Utf8.encode (String.singleton c) = b :: rest ∧ 0xC0 ≤ b.toNat := by
  have hlarge : ¬ c.val.toNat ≤ 0x7F := Nat.not_le.mpr h
  rw [utf8_encode_singleton, String.utf8EncodeChar.eq_def]
  simp only [hlarge, if_false]
  split
  · exact ⟨_, _, rfl, by simp; omega⟩
  · split
    · exact ⟨_, _, rfl, by simp; omega⟩
    · exact ⟨_, _, rfl, by simp; omega⟩

section

variable {set : EncodeSet} {cs : List Char}

theorem Encoded.encode (h : Encoded set cs) : encode set cs = cs := by
  induction cs with
  | nil => rfl
  | cons c cs ih =>
      obtain ⟨hascii, hset⟩ := h c List.mem_cons_self
      rw [Url.encode, List.flatMap_cons, encodeChar, if_neg (Nat.not_le.mpr hascii), hset]
      exact congrArg (c :: ·) (ih fun d hd => h d (List.mem_cons_of_mem c hd))

theorem encoded_encodeByte (h : LeavesSigns set) (b : UInt8) : Encoded set (encodeByte b) := by
  have hdigits : ∀ n < 16, (upperHexDigit n).toNat < 0x80 := by decide
  have hb : b.toNat < 256 := b.toNat_lt
  have hdigit : ∀ n < 16, (upperHexDigit n).toNat < 0x80 ∧ set (upperHexDigit n) = false :=
    fun n hn => ⟨hdigits n hn, h.2 n hn⟩
  simp only [Encoded, encodeByte, List.forall_mem_cons]
  exact ⟨⟨by decide, h.1⟩, hdigit _ (by omega), hdigit _ (by omega), nofun⟩

/-- What is encoded is not encoded once more. -/
theorem encoded_encode (h : LeavesSigns set) (cs : List Char) : Encoded set (Url.encode set cs) := by
  intro c hc
  obtain ⟨d, -, hc⟩ := List.mem_flatMap.mp hc
  rw [encodeChar] at hc
  split at hc
  · obtain ⟨b, -, hc⟩ := List.mem_flatMap.mp hc
    exact encoded_encodeByte h b c hc
  · rename_i hascii
    split at hc
    · exact encoded_encodeByte h _ c hc
    · rename_i hset
      rw [List.mem_singleton.mp hc]
      exact ⟨Nat.not_le.mp hascii, Bool.eq_false_iff.mpr hset⟩

theorem encode_encode (h : LeavesSigns set) (cs : List Char) :
    Url.encode set (Url.encode set cs) = Url.encode set cs :=
  (encoded_encode h cs).encode

/-- A character stays as it is, or becomes bytes of which the first is its own or a large one. -/
theorem encodeChar_cases (set : EncodeSet) (c : Char) :
    encodeChar set c = [c] ∨ ∃ b rest, encodeChar set c = encodeByte b ++ rest ∧
      (0xC0 ≤ b.toNat ∨ c.toNat < 0x80 ∧ set c = true ∧ b.toNat = c.toNat) := by
  rw [encodeChar]
  split
  · rename_i hcode
    obtain ⟨b, rest, hbytes, hb⟩ := exists_first_byte hcode
    exact .inr ⟨b, rest.flatMap encodeByte, by rw [hbytes, List.flatMap_cons], .inl hb⟩
  · rename_i hcode
    split
    · refine .inr ⟨UInt8.ofNat c.toNat, [], (List.append_nil _).symm, .inr ⟨?_, ‹_›, ?_⟩⟩
      · omega
      · rw [UInt8.toNat_ofNat']
        omega
    · exact .inl rfl

theorem encode_eq_nil_iff : Url.encode set cs = [] ↔ cs = [] := by
  cases cs with
  | nil => exact iff_of_true rfl rfl
  | cons c cs =>
      refine iff_of_false ?_ (List.cons_ne_nil c cs)
      rw [Url.encode, List.flatMap_cons]
      rcases encodeChar_cases set c with hkept | ⟨b, rest, hbytes, -⟩
      · rw [hkept]
        exact List.cons_ne_nil _ _
      · rw [hbytes, encodeByte]
        exact List.cons_ne_nil _ _

end

/-! ## Segments -/

/-- No dot is made by encoding. -/
theorem not_dot_of_encodeChar {c : Char} {b : UInt8}
    (h : 0xC0 ≤ b.toNat ∨ c.toNat < 0x80 ∧ pathSet c = true ∧ b.toNat = c.toNat) :
    upperHexDigit (b.toNat % 16) ≠ 'e' ∧
      ¬ (upperHexDigit (b.toNat / 16) = '2' ∧ upperHexDigit (b.toNat % 16) = 'E') := by
  have hdigits : ∀ n < 16, upperHexDigit n ≠ 'e' := by decide
  refine ⟨hdigits _ (Nat.mod_lt _ (by decide)), ?_⟩
  rcases h with hlarge | ⟨hcode, hset, hb⟩
  · have hfirst : ∀ n < 16, 12 ≤ n → upperHexDigit n ≠ '2' := by decide
    have hlt := b.toNat_lt
    exact fun hdot => hfirst _ (by omega) (by omega) hdot.1
  · have hchars : ∀ n < 0x80, pathSet (Char.ofNat n) = true →
        ¬ (upperHexDigit (n / 16) = '2' ∧ upperHexDigit (n % 16) = 'E') := by decide
    rw [hb]
    exact hchars c.toNat hcode (by rwa [Char.ofNat_toNat])

/-- What starts with a digit after encoding did so before. -/
theorem exists_of_encode_cons {cs rest : List Char} {c : Char} (hc : c ≠ '%')
    (h : encode pathSet cs = c :: rest) : ∃ ds, cs = c :: ds ∧ encode pathSet ds = rest := by
  cases cs with
  | nil => cases h
  | cons d ds =>
      rw [encode, List.flatMap_cons] at h
      rcases encodeChar_cases pathSet d with hkept | ⟨b, more, hbytes, -⟩
      · rw [hkept] at h
        obtain ⟨rfl, hrest⟩ := List.cons.inj h
        exact ⟨ds, rfl, hrest⟩
      · rw [hbytes, encodeByte] at h
        exact absurd (List.cons.inj h).1.symm hc

theorem decodeDots_cons {c : Char} {cs : List Char}
    (h : ∀ ds, c = '%' → cs ≠ '2' :: 'e' :: ds ∧ cs ≠ '2' :: 'E' :: ds) :
    decodeDots (c :: cs) = c :: decodeDots cs := by
  rw [decodeDots]
  · exact fun ds hc hcs => (h ds hc).1 hcs
  · exact fun ds hc hcs => (h ds hc).2 hcs

/-- A text that is nothing but dots, perhaps encoded ones, is not encoded further. -/
theorem encode_of_dots {cs : List Char} (h : ∀ c ∈ decodeDots (encode pathSet cs), c = '.') :
    encode pathSet cs = cs := by
  induction hlength : cs.length using Nat.strongRecOn generalizing cs with
  | _ n ih =>
      cases cs with
      | nil => rfl
      | cons c cs =>
          subst hlength
          have hcons : encode pathSet (c :: cs) = encodeChar pathSet c ++ encode pathSet cs :=
            List.flatMap_cons
          rw [hcons] at h ⊢
          rcases encodeChar_cases pathSet c with hkept | ⟨b, rest, hbytes, hb⟩
          · rw [hkept, List.singleton_append] at h ⊢
            have hdot : ∀ x ds, c = '%' → x = 'e' ∨ x = 'E' → encode pathSet cs = '2' :: x :: ds →
                encode pathSet cs = cs := by
              rintro x ds rfl hx hds
              obtain ⟨cs', rfl, hcs'⟩ := exists_of_encode_cons (by decide) hds
              obtain ⟨cs'', rfl, rfl⟩ := exists_of_encode_cons (by
                rcases hx with rfl | rfl <;> decide) hcs'
              have hdecoded : ∀ d ∈ decodeDots (encode pathSet cs''), d = '.' := by
                intro d hd
                refine h d ?_
                rw [hds]
                rcases hx with rfl | rfl <;> exact List.mem_cons_of_mem _ hd
              have hsame := ih cs''.length (by simp only [List.length_cons]; omega) hdecoded rfl
              rw [hds, hsame]
            by_cases he : ∃ x ds, c = '%' ∧ (x = 'e' ∨ x = 'E') ∧ encode pathSet cs = '2' :: x :: ds
            · obtain ⟨x, ds, hc, hx, hds⟩ := he
              rw [hdot x ds hc hx hds]
            · rw [decodeDots_cons fun ds hc => ⟨fun hds => he ⟨_, ds, hc, .inl rfl, hds⟩,
                fun hds => he ⟨_, ds, hc, .inr rfl, hds⟩⟩] at h
              rw [ih cs.length (Nat.lt_succ_self _) (fun d hd => h d (List.mem_cons_of_mem c hd)) rfl]
          · -- An encoded character is no dot.
            obtain ⟨hlower, hupper⟩ := not_dot_of_encodeChar hb
            rw [hbytes, encodeByte, List.append_assoc, List.cons_append, decodeDots_cons] at h
            · exact absurd (h '%' List.mem_cons_self) (by decide)
            · refine fun ds _ => ⟨fun hds => ?_, fun hds => ?_⟩
              · exact hlower (List.cons.inj (List.cons.inj hds).2).1
              · exact hupper ⟨(List.cons.inj hds).1, (List.cons.inj (List.cons.inj hds).2).1⟩

theorem isPlainSegment_encode {part : List Char} (h : isPlainSegment part = true) :
    isPlainSegment (encode pathSet part) = true := by
  rw [isPlainSegment, Bool.and_eq_true, decide_eq_true_eq, decide_eq_true_eq] at h ⊢
  constructor
  · intro hdots
    have hsame := encode_of_dots fun c hc => by
      rw [hdots] at hc
      exact List.mem_singleton.mp hc
    exact h.1 (hsame ▸ hdots)
  · intro hdots
    have hsame := encode_of_dots fun c hc => by
      rw [hdots] at hc
      simpa using hc
    exact h.2 (hsame ▸ hdots)

/-- What is encoded is made of what was there and the signs of bytes. -/
theorem mem_encode {set : EncodeSet} {c : Char} {cs : List Char} (h : c ∈ encode set cs) :
    c ∈ cs ∨ c = '%' ∨ ∃ n < 16, c = upperHexDigit n := by
  have hbyte : ∀ b : UInt8, c ∈ encodeByte b → c = '%' ∨ ∃ n < 16, c = upperHexDigit n := by
    intro b hb
    have hlt := b.toNat_lt
    simp only [encodeByte, List.mem_cons, List.not_mem_nil, or_false] at hb
    rcases hb with hb | hb | hb
    · exact .inl hb
    · exact .inr ⟨_, by omega, hb⟩
    · exact .inr ⟨_, by omega, hb⟩
  obtain ⟨d, hd, hc⟩ := List.mem_flatMap.mp h
  rw [encodeChar] at hc
  split at hc
  · obtain ⟨b, -, hc⟩ := List.mem_flatMap.mp hc
    exact .inr (hbyte b hc)
  · split at hc
    · exact .inr (hbyte _ hc)
    · exact .inl (List.mem_singleton.mp hc ▸ hd)

/-- Segments that are read as they are written. -/
def Tidy (ss : List (List Char)) : Prop :=
  ∀ s ∈ ss, isPlainSegment s = true ∧ ∀ c ∈ s, isPlainChar c = true ∧ c ≠ '/'

theorem tidy_nil : Tidy [] := nofun

theorem tidy_empty : Tidy [[]] := by
  intro s hs
  rw [List.mem_singleton.mp hs]
  exact ⟨by decide, nofun⟩

theorem Tidy.append {ss ts : List (List Char)} (hs : Tidy ss) (ht : Tidy ts) : Tidy (ss ++ ts) :=
  List.forall_mem_append.mpr ⟨hs, ht⟩

theorem tidy_ending (parts : List (List Char)) : Tidy (ending parts) := by
  cases parts with
  | nil => exact tidy_empty
  | cons part parts => exact tidy_nil

theorem Tidy.parent {ss : List (List Char)} (h : Tidy ss) : Tidy (parent ss) := by
  rw [Url.parent]
  split
  · exact h
  · exact fun s hs => h s (List.mem_of_mem_dropLast hs)

theorem tidy_encode {part : List Char} (hdots : isPlainSegment part = true)
    (hpart : ∀ c ∈ part, c ≠ '/' ∧ c ≠ '\\') : Tidy [encode pathSet part] := by
  intro s hs
  rw [List.mem_singleton.mp hs]
  refine ⟨isPlainSegment_encode hdots, fun c hc => ?_⟩
  have hsigns : ∀ n < 16, upperHexDigit n ≠ '/' ∧ upperHexDigit n ≠ '\\' := by decide
  have hsplit : c ≠ '/' ∧ c ≠ '\\' := by
    rcases mem_encode hc with hmem | rfl | ⟨n, hn, rfl⟩
    · exact hpart c hmem
    · decide
    · exact hsigns n hn
  obtain ⟨hcode, hset⟩ := encoded_encode leavesSigns_path part c hc
  exact ⟨by simp [isPlainChar, hcode, hset, hsplit.2], hsplit.1⟩

theorem tidy_appendParts {scheme : List Char} (hs : scheme ≠ fileScheme)
    {ss parts : List (List Char)} (hss : Tidy ss)
    (hparts : ∀ part ∈ parts, ∀ c ∈ part, c ≠ '/' ∧ c ≠ '\\') :
    Tidy (appendParts scheme ss parts) := by
  induction parts generalizing ss with
  | nil => exact hss
  | cons part parts ih =>
      have hrest := fun p hp => hparts p (List.mem_cons_of_mem part hp)
      by_cases hup : decodeDots part = ['.', '.']
      · rw [appendParts_up hup]
        exact ih (hss.parent.append (tidy_ending parts)) hrest
      · by_cases hstay : decodeDots part = ['.']
        · rw [appendParts_stay hstay]
          exact ih (hss.append (tidy_ending parts)) hrest
        · rw [appendParts_down hs hup hstay]
          refine ih (hss.append (tidy_encode ?_ (hparts part List.mem_cons_self))) hrest
          simp [isPlainSegment, hup, hstay]

theorem not_separator_of_mem_splitPath {cs part : List Char} {c : Char}
    (hpart : part ∈ splitPath true cs) (hc : c ∈ part) : c ≠ '/' ∧ c ≠ '\\' := by
  have hslash : c ≠ '/' := fun he => Text.not_mem_of_mem_splitOnChar hpart (he ▸ hc)
  refine ⟨hslash, ?_⟩
  rintro rfl
  have hmem := (List.mem_cons.mp (Text.mem_of_mem_splitOnChar hpart hc)).resolve_left hslash
  obtain ⟨d, -, hd⟩ := List.mem_map.mp hmem
  split at hd
  · exact hslash hd.symm
  · rename_i hseparates
    subst hd
    exact hseparates (by decide)

/-- The segments of a path are tidy, and there is one. -/
theorem tidy_readSegments {scheme : List Char} (hspecial : isSpecial scheme = true)
    (hs : scheme ≠ fileScheme) (cs : List Char) :
    readSegments scheme [] cs ≠ [] ∧ Tidy (readSegments scheme [] cs) := by
  rw [readSegments, hspecial]
  exact ⟨appendParts_ne_nil hs (splitPath_ne_nil _ _),
    tidy_appendParts hs tidy_nil fun part hpart c hc => not_separator_of_mem_splitPath hpart hc⟩

/-- The text of segments, behind its first slash. -/
theorem text_segments {ss : List (List Char)} (hne : ss ≠ []) (h : Tidy ss) :
    (Path.segments ss).text = '/' :: ['/'].intercalate ss := by
  have hsplit : splitOnChar '/' (['/'].intercalate ss) = ss :=
    Text.splitOnChar_intercalate hne fun s hs hslash => ((h s hs).2 '/' hslash).2 rfl
  rw [Path.text, ← Text.flatMap_splitOnChar, hsplit]

/-- Tidy segments are read back from their text. -/
theorem Tidy.readSegments {scheme : List Char} (hspecial : isSpecial scheme = true)
    (hs : scheme ≠ fileScheme) {ss : List (List Char)} (hne : ss ≠ []) (h : Tidy ss)
    {tail : List Char} (htail : tail.head?.all startsQuery = true) :
    readSegments scheme [] (['/'].intercalate ss ++ tail) = ss := by
  have hsplit : splitOnChar '/' (['/'].intercalate ss) = ss :=
    Text.splitOnChar_intercalate hne fun s hs hslash => ((h s hs).2 '/' hslash).2 rfl
  rw [readSegments_of_plain hspecial hs [] (fun c hc => ?_) (fun part hpart => ?_) htail, hsplit,
    List.nil_append]
  · rcases Text.mem_of_mem_intercalate hc with rfl | ⟨s, hs, hc⟩
    · decide
    · exact ((h s hs).2 c hc).1
  · rw [hsplit] at hpart
    exact (h part hpart).1

theorem Tidy.isPlainChar_of_mem {ss : List (List Char)} (h : Tidy ss) :
    ∀ c ∈ '/' :: ['/'].intercalate ss, isPlainChar c = true := by
  intro c hc
  rcases List.mem_cons.mp hc with rfl | hc
  · decide
  · rcases Text.mem_of_mem_intercalate hc with rfl | ⟨s, hs, hc⟩
    · decide
    · exact ((h s hs).2 c hc).1

/-! ## Authorities -/

/-- A character that neither ends an authority nor is left out. -/
def staysInAuthority (c : Char) : Bool := !isOuter c && !endsAuthority true c && c ≠ '@'

theorem of_userinfoSet {c : Char} (hcode : c.toNat < 0x80) (h : userinfoSet c = false) :
    staysInAuthority c = true ∧ c ≠ ':' := by
  have hchars : ∀ n < 0x80, userinfoSet (Char.ofNat n) = false →
      staysInAuthority (Char.ofNat n) = true ∧ Char.ofNat n ≠ ':' := by decide
  have hc := hchars c.toNat hcode
  rw [Char.ofNat_toNat] at hc
  exact hc h

/-- A name, and a password if there is one. -/
theorem userinfoText_eq {name password : List Char} (h : ':' ∉ name) :
    userinfoText (name ++ ':' :: password) = encode userinfoSet name ++
      if password.isEmpty then [] else ':' :: encode userinfoSet password := by
  have hname : ∀ c ∈ name, decide (c ≠ ':') = true := fun c hc =>
    decide_eq_true fun he => h (he ▸ hc)
  rw [userinfoText, List.takeWhile_append_of_pos hname, List.dropWhile_append_of_pos hname]
  simp

theorem userinfoText_of_no_colon {name : List Char} (h : ':' ∉ name) :
    userinfoText name = encode userinfoSet name := by
  have hname : ∀ c ∈ name, decide (c ≠ ':') = true := fun c hc =>
    decide_eq_true fun he => h (he ▸ hc)
  have htake : name.takeWhile (· ≠ ':') = name := List.takeWhile_eq_self_iff.mpr hname
  have hdrop : name.dropWhile (· ≠ ':') = [] := List.dropWhile_eq_nil_iff.mpr hname
  rw [userinfoText, htake, hdrop]
  simp

theorem exists_userinfo (raw : List Char) : ∃ name password,
    userinfoText raw = encode userinfoSet name ++
      if password = [] then [] else ':' :: encode userinfoSet password := by
  refine ⟨raw.takeWhile (· ≠ ':'), (raw.dropWhile (· ≠ ':')).drop 1, ?_⟩
  simp only [userinfoText, List.isEmpty_iff]

/-- User information is written in one way. -/
theorem userinfoText_userinfoText (raw : List Char) :
    userinfoText (userinfoText raw) = userinfoText raw := by
  obtain ⟨name, password, htext⟩ := exists_userinfo raw
  have hcolon : ':' ∉ encode userinfoSet name := fun hc => by
    obtain ⟨hcode, hset⟩ := encoded_encode leavesSigns_userinfo name ':' hc
    exact (of_userinfoSet hcode hset).2 rfl
  rw [htext]
  split
  · rw [List.append_nil, userinfoText_of_no_colon hcolon, encode_encode leavesSigns_userinfo]
  · rename_i hpassword
    have hfilled : (encode userinfoSet password).isEmpty = false := by
      simpa [encode_eq_nil_iff] using hpassword
    rw [userinfoText_eq hcolon, hfilled, encode_encode leavesSigns_userinfo,
      encode_encode leavesSigns_userinfo]
    rfl

theorem stays_of_mem_userinfoText {raw : List Char} {c : Char} (h : c ∈ userinfoText raw) :
    staysInAuthority c = true := by
  have hencoded : ∀ {cs : List Char}, c ∈ encode userinfoSet cs → staysInAuthority c = true := by
    intro cs hc
    obtain ⟨hcode, hset⟩ := encoded_encode leavesSigns_userinfo cs c hc
    exact (of_userinfoSet hcode hset).1
  obtain ⟨name, password, htext⟩ := exists_userinfo raw
  rw [htext, List.mem_append] at h
  rcases h with h | h
  · exact hencoded h
  · split at h
    · exact absurd h List.not_mem_nil
    · rcases List.mem_cons.mp h with rfl | h
      · decide
      · exact hencoded h

theorem stays_of_isNameChar {c : Char} (h : Domain.IsNameChar c) :
    staysInAuthority c = true ∧ c ≠ ':' ∧ c ≠ '[' ∧ c ≠ ']' := by
  have hchars : ∀ n < 0x80, Domain.isForbidden (Char.ofNat n) = false →
      staysInAuthority (Char.ofNat n) = true ∧ Char.ofNat n ≠ ':' ∧ Char.ofNat n ≠ '[' ∧
        Char.ofNat n ≠ ']' := by decide
  have hc := hchars c.toNat h.1
  rw [Char.ofNat_toNat] at hc
  exact hc h.2.2

theorem of_mem_ipv6Text {pieces : List Nat} {c : Char} (h : c ∈ ipv6Text pieces) :
    staysInAuthority c = true ∧ c ≠ '[' ∧ c ≠ ']' := by
  have hdigits : ∀ k < 16, staysInAuthority k.digitChar = true ∧ k.digitChar ≠ '[' ∧
      k.digitChar ≠ ']' := by decide
  rcases mem_ipv6Text h with rfl | ⟨k, hk, rfl⟩
  · decide
  · exact hdigits k hk

theorem stays_of_mem_host {cs host : List Char} {c : Char} (h : specialHost cs = .ok host)
    (hc : c ∈ host) : staysInAuthority c = true := by
  rcases of_specialHost h with ⟨pieces, rfl⟩ | ⟨-, hchars⟩
  · simp only [List.mem_cons, List.mem_append, List.not_mem_nil, or_false] at hc
    rcases hc with rfl | hc | rfl
    · decide
    · exact (of_mem_ipv6Text hc).1
    · decide
  · exact (stays_of_isNameChar (hchars c hc)).1

theorem host_ne_nil {cs host : List Char} (h : specialHost cs = .ok host) : host ≠ [] := by
  rcases of_specialHost h with ⟨pieces, rfl⟩ | ⟨hne, -⟩
  · exact List.cons_ne_nil _ _
  · exact hne

/-- A host ends before the colon of a port. -/
theorem splitHost_append {cs host rest : List Char} (h : specialHost cs = .ok host)
    (hrest : ∀ c ∈ rest.head?, c = ':') : splitHost false (host ++ rest) = (host, rest) := by
  have hend : splitHost false rest = ([], rest) := by
    cases rest with
    | nil => rfl
    | cons c rest =>
        rw [hrest c rfl]
        rfl
  rcases of_specialHost h with ⟨pieces, rfl⟩ | ⟨-, hchars⟩
  · have hinside : ∀ text : List Char, (∀ c ∈ text, c ≠ '[' ∧ c ≠ ']') →
        splitHost true (text ++ ']' :: rest) = (text ++ [']'], rest) := by
      intro text
      induction text with
      | nil =>
          intro _
          rw [List.nil_append, splitHost]
          simp [hend]
      | cons c text ih =>
          intro htext
          obtain ⟨hopen, hclose⟩ := htext c List.mem_cons_self
          rw [List.cons_append, splitHost]
          simp [hopen, hclose, ih fun d hd => htext d (List.mem_cons_of_mem c hd)]
    rw [List.cons_append, List.append_assoc, List.singleton_append, splitHost]
    simp [hinside _ fun c hc => (of_mem_ipv6Text hc).2]
  · clear h
    induction host with
    | nil => exact hend
    | cons c host ih =>
        obtain ⟨-, hcolon, hopen, hclose⟩ := stays_of_isNameChar (hchars c List.mem_cons_self)
        rw [List.cons_append, splitHost]
        simp [hcolon, hopen, hclose, ih fun d hd => hchars d (List.mem_cons_of_mem c hd)]

/-- The text before the last sign is the user information. -/
theorem splitAtSign_append (front : List Char) {back : List Char} (h : '@' ∉ back) :
    splitAtSign (front ++ '@' :: back) = some (front, back) := by
  have hback : ∀ c ∈ back.reverse, decide (c ≠ '@') = true := fun c hc =>
    decide_eq_true fun he => h (he ▸ List.mem_reverse.mp hc)
  have htake : ((front ++ '@' :: back).reverse.takeWhile (· ≠ '@')).reverse = back := by
    rw [List.reverse_append, List.reverse_cons, List.append_assoc,
      List.takeWhile_append_of_pos hback]
    simp
  have hlength : (front ++ '@' :: back).length - back.length - 1 = front.length := by
    simp only [List.length_append, List.length_cons]
    omega
  rw [splitAtSign, if_pos (by simp), htake]
  dsimp only
  rw [hlength, List.take_left]

theorem splitAtSign_of_not_mem {cs : List Char} (h : '@' ∉ cs) : splitAtSign cs = none := by
  rw [splitAtSign, if_neg (by simpa using h)]

/-! ## Ports -/

/-- A digit is added to a number that stays a port. -/
def addDigit (acc : Option Nat) (c : Char) : Option Nat := do
  let n ← acc
  if '0' ≤ c ∧ c ≤ '9' ∧ n * 10 + (c.toNat - 48) < 65536 then some (n * 10 + (c.toNat - 48))
  else none

theorem readPort_eq (scheme cs : List Char) :
    readPort scheme cs = match cs.foldl addDigit (some 0) with
      | none => .error .badPort
      | some n => .ok (if cs.isEmpty || defaultPort? scheme = some n then none else some n) := rfl

theorem foldl_addDigit {n : Nat} (h : n < 65536) :
    (Nat.toDigits 10 n).foldl addDigit (some 0) = some n := by
  have hdigits : ∀ k < 10, ('0' ≤ k.digitChar ∧ k.digitChar ≤ '9') ∧ k.digitChar.toNat - 48 = k := by
    decide
  induction n using Nat.strongRecOn with
  | _ n ih =>
      rw [Nat.toDigits_eq_if (by decide)]
      split
      · rename_i hn
        obtain ⟨⟨hlow, hhigh⟩, hvalue⟩ := hdigits n hn
        simp [addDigit, hlow, hhigh, hvalue, h]
      · obtain ⟨⟨hlow, hhigh⟩, hvalue⟩ := hdigits (n % 10) (Nat.mod_lt _ (by decide))
        have hn : n / 10 * 10 + n % 10 = n := by omega
        rw [List.foldl_append, ih (n / 10) (by omega) (by omega), List.foldl_cons, List.foldl_nil,
          addDigit, Option.bind_eq_bind, Option.bind_some, hvalue, hn, if_pos ⟨hlow, hhigh, h⟩]

theorem lt_of_foldl_addDigit {cs : List Char} {n : Nat} (h : cs.foldl addDigit (some 0) = some n) :
    n < 65536 := by
  have hfold : ∀ (cs : List Char) (acc : Option Nat), (∀ m ∈ acc, m < 65536) →
      ∀ n ∈ cs.foldl addDigit acc, n < 65536 := by
    intro cs
    induction cs with
    | nil => exact fun acc hacc => hacc
    | cons c cs ih =>
        refine fun acc hacc => ih _ fun m hm => ?_
        obtain ⟨k, -, hk⟩ := Option.bind_eq_some_iff.mp hm
        split at hk
        · rename_i hfits
          cases hk
          exact hfits.2.2
        · cases hk
  exact hfold cs (some 0) (by simp) n h

/-- A port that is not the scheme's own is read back. -/
theorem readPort_toDigits {scheme : List Char} {p : Nat} (hp : p < 65536)
    (hown : defaultPort? scheme ≠ some p) : readPort scheme (Nat.toDigits 10 p) = .ok (some p) := by
  rw [readPort_eq, foldl_addDigit hp]
  simp [hown, Nat.toDigits_ne_nil]

/-! ## Reading authorities -/

/-- An authority as it is after reading. -/
structure Authority.Regular (scheme : List Char) (a : Authority) : Prop where
  userinfo : ∃ raw, a.userinfo = userinfoText raw
  host : ∃ cs, specialHost cs = .ok a.host
  port : ∀ p ∈ a.port, p < 65536 ∧ defaultPort? scheme ≠ some p

/-- The labels of the host can be decoded. -/
def Authority.isReadable (a : Authority) : Bool := (splitOnChar '.' a.host).all Domain.isShort

/-- The text of a port, behind its colon. -/
def portText (port : Option Nat) : List Char := (port.map fun p => ':' :: Nat.toDigits 10 p).getD []

theorem Authority.text_eq (a : Authority) :
    a.text = (if a.userinfo = [] then [] else a.userinfo ++ ['@']) ++ (a.host ++ portText a.port) := by
  obtain ⟨userinfo, host, port⟩ := a
  rw [Authority.text, List.append_assoc]
  simp only [List.isEmpty_iff]
  cases port with
  | none => rfl
  | some p => simp only [portText, Nat.toString_eq_repr, Nat.toList_repr]; rfl

theorem stays_of_mem_portText {port : Option Nat} {c : Char} (h : c ∈ portText port) :
    staysInAuthority c = true := by
  cases port with
  | none => exact absurd h List.not_mem_nil
  | some p =>
      rcases List.mem_cons.mp h with rfl | h
      · decide
      · exact (stays_of_isNameChar
          (Domain.isNameChar_of_isDigit (Text.isDigit_of_mem_toDigits h))).1

theorem at_not_mem {cs : List Char} (h : ∀ c ∈ cs, staysInAuthority c = true) : '@' ∉ cs :=
  fun hc => absurd (h '@' hc) (by decide)

section

variable {scheme : List Char} {a : Authority}

theorem Authority.Regular.stays (h : a.Regular scheme) :
    ∀ c ∈ a.host ++ portText a.port, staysInAuthority c = true := by
  obtain ⟨cs, hhost⟩ := h.host
  exact List.forall_mem_append.mpr ⟨fun c hc => stays_of_mem_host hhost hc,
    fun c hc => stays_of_mem_portText hc⟩

/-- The parts of an authority's text. -/
theorem Authority.Regular.splitAtSign_text (h : a.Regular scheme) :
    (splitAtSign a.text).getD ([], a.text) = (a.userinfo, a.host ++ portText a.port) := by
  have hnone := at_not_mem h.stays
  rw [Authority.text_eq]
  split
  · rename_i hempty
    rw [List.nil_append, splitAtSign_of_not_mem hnone, hempty]
    rfl
  · rw [List.append_assoc, List.singleton_append, splitAtSign_append _ hnone]
    rfl

/-- An authority is read back from its text, or its host is refused. -/
theorem Authority.Regular.readAuthority_text (h : a.Regular scheme)
    (hspecial : isSpecial scheme = true) :
    readAuthority scheme a.text = if a.isReadable then .ok a else .error .badDomain := by
  obtain ⟨raw, hraw⟩ := h.userinfo
  obtain ⟨cs, hhost⟩ := h.host
  have hwritten : userinfoText a.userinfo = a.userinfo := by rw [hraw, userinfoText_userinfoText]
  have hsplit : splitHost false (a.host ++ portText a.port) = (a.host, portText a.port) := by
    refine splitHost_append hhost fun c hc => ?_
    cases hport : a.port with
    | none =>
        rw [hport] at hc
        cases hc
    | some p =>
        rw [hport] at hc
        exact (Option.some.inj hc).symm
  have hfilled : a.host.isEmpty = false := by
    simpa using host_ne_nil hhost
  have hread := specialHost_specialHost hhost
  have hport := h.port
  have hparts := h.splitAtSign_text
  rw [readAuthority, hparts]
  simp only [hspecial, hsplit, hfilled, hwritten, Bool.and_false, Bool.false_eq_true, if_false,
    if_true, hread]
  rw [Authority.isReadable]
  cases (splitOnChar '.' a.host).all Domain.isShort with
  | false => rfl
  | true =>
      simp only [if_true, bind, Except.bind, hfilled, Bool.false_and, Bool.false_eq_true, if_false]
      obtain ⟨userinfo, host, port⟩ := a
      cases port with
      | none => rfl
      | some p =>
          obtain ⟨hlt, hown⟩ := hport p rfl
          simp only [portText, Option.map_some, Option.getD_some, readPort_toDigits hlt hown]
          rfl

/-- What is read as an authority is regular. -/
theorem regular_of_readAuthority {cs : List Char} (hspecial : isSpecial scheme = true)
    (h : readAuthority scheme cs = .ok a) : a.Regular scheme := by
  rw [readAuthority] at h
  simp only [hspecial, Bool.true_and, if_true] at h
  generalize (splitAtSign cs).getD ([], cs) = parts at h
  generalize splitHost false parts.2 = site at h
  split at h
  · cases h
  · obtain ⟨host, hhost, h⟩ := exists_of_bind_eq_ok h
    split at h
    · cases h
    · split at h
      · obtain ⟨port, hport, h⟩ := exists_of_bind_eq_ok h
        cases h
        refine ⟨⟨_, rfl⟩, ⟨_, hhost⟩, fun p hp => ?_⟩
        rw [readPort_eq] at hport
        split at hport
        · cases hport
        · rename_i n hn
          cases hport
          dsimp only at hp
          split at hp
          · cases hp
          · rename_i hown
            cases hp
            simp only [Bool.or_eq_true, decide_eq_true_eq, not_or] at hown
            exact ⟨lt_of_foldl_addDigit hn, hown.2⟩
      · obtain ⟨port, hport, h⟩ := exists_of_bind_eq_ok h
        cases hport
        cases h
        exact ⟨⟨_, rfl⟩, ⟨_, hhost⟩, nofun⟩

/-- No character of an authority's text ends it or is left out. -/
theorem Authority.Regular.of_mem_text (h : a.Regular scheme) :
    ∀ c ∈ a.text, isOuter c = false ∧ endsAuthority true c = false := by
  have hstays : ∀ c, staysInAuthority c = true → isOuter c = false ∧ endsAuthority true c = false := by
    intro c hc
    rw [staysInAuthority, Bool.and_eq_true, Bool.and_eq_true, Bool.not_eq_true',
      Bool.not_eq_true'] at hc
    exact hc.1
  obtain ⟨raw, hraw⟩ := h.userinfo
  rw [Authority.text_eq]
  intro c hc
  rcases List.mem_append.mp hc with hc | hc
  · split at hc
    · exact absurd hc List.not_mem_nil
    · rcases List.mem_append.mp hc with hc | hc
      · exact hstays c (stays_of_mem_userinfoText (hraw ▸ hc))
      · rw [List.mem_singleton.mp hc]
        decide
  · exact hstays c (h.stays c hc)

theorem Authority.Regular.text_ne (h : a.Regular scheme) : a.text ≠ [] ∧ a.text ≠ ['@'] := by
  obtain ⟨cs, hhost⟩ := h.host
  obtain ⟨c, host, hcons⟩ := List.exists_cons_of_ne_nil (host_ne_nil hhost)
  have hsite : a.host ++ portText a.port = c :: (host ++ portText a.port) := by
    rw [hcons, List.cons_append]
  have hsign : c ≠ '@' := fun hc => at_not_mem h.stays (by rw [hsite, hc]; exact List.mem_cons_self)
  rw [Authority.text_eq, hsite]
  split
  · simp [hsign]
  · rw [List.append_assoc, List.singleton_append]
    refine ⟨by simp, fun he => ?_⟩
    have hlength := congrArg List.length he
    simp only [List.length_append, List.length_cons, List.length_nil] at hlength
    omega

end

/-! ## Web URLs -/

/-- A web URL as it is after reading. -/
structure Regular (u : Url) : Prop where
  web : u.isWeb = true
  authority : ∃ a, u.authority = some a ∧ a.Regular u.scheme
  path : ∃ ss, u.path = .segments ss ∧ ss ≠ [] ∧ Tidy ss
  query : ∀ q ∈ u.query, Encoded specialQuerySet q
  fragment : ∀ f ∈ u.fragment, Encoded fragmentSet f

/-- The labels of the host can be decoded. -/
def isReadable (u : Url) : Bool := u.authority.all Authority.isReadable

/-- The text behind the path. -/
def tailText (u : Url) : List Char :=
  (u.query.map ('?' :: ·)).getD [] ++ (u.fragment.map ('#' :: ·)).getD []

theorem tailText_startsQuery (u : Url) : u.tailText.head?.all startsQuery = true := by
  rw [tailText]
  cases u.query with
  | some q => rfl
  | none => cases u.fragment <;> rfl

theorem scheme_of_isWeb {u : Url} (h : u.isWeb = true) :
    isSpecial u.scheme = true ∧ u.scheme ≠ fileScheme := by
  rw [isWeb, Bool.or_eq_true, decide_eq_true_eq, decide_eq_true_eq] at h
  rcases h with hs | hs <;> · rw [hs]; decide

theorem not_outer_of_encoded {set : EncodeSet}
    (hset : ∀ n < 0x80, set (Char.ofNat n) = false → isOuter (Char.ofNat n) = false) {cs : List Char}
    (h : Encoded set cs) : ∀ c ∈ cs, isOuter c = false := by
  intro c hc
  obtain ⟨hcode, hc⟩ := h c hc
  have hchar := hset c.toNat hcode
  rw [Char.ofNat_toNat] at hchar
  exact hchar hc

theorem clean_of_not_outer {cs : List Char} (h : ∀ c ∈ cs, isOuter c = false) : clean cs = cs := by
  rw [clean_eq, dropWhile_of_head fun c hc => h c (List.mem_of_mem_head? hc),
    dropWhile_of_head fun c hc => h c (List.mem_reverse.mp (List.mem_of_mem_head? hc)),
    List.reverse_reverse]
  exact List.filter_eq_self.mpr fun c hc => isKept_of_not_outer (h c hc)

theorem not_hash_of_encoded {q : List Char} (h : Encoded specialQuerySet q) : '#' ∉ q :=
  fun hc => absurd (h '#' hc).2 (by decide)

/-- The query and the fragment are read back from the text behind the path. -/
theorem Regular.withTail_tailText {u : Url} (h : u.Regular) (path : Path) :
    withTail ⟨u.scheme, u.authority, path, none, none⟩ u.tailText = { u with path := path } := by
  have hspecial := (scheme_of_isWeb h.web).1
  have hquery := h.query
  have hfragment := h.fragment
  obtain ⟨scheme, authority, _, query, fragment⟩ := u
  dsimp only at hspecial hquery hfragment ⊢
  have hpound : ∀ f ∈ fragment, encode fragmentSet f = f := fun f hf => (hfragment f hf).encode
  cases query with
  | none =>
      cases fragment with
      | none => rfl
      | some f => simp [tailText, withTail, hpound f rfl]
  | some q =>
      have hq := hquery q rfl
      have hkept : ∀ c ∈ q, decide (c ≠ '#') = true := fun c hc =>
        decide_eq_true fun he => not_hash_of_encoded hq (he ▸ hc)
      cases fragment with
      | none =>
          have htake : q.takeWhile (· ≠ '#') = q := List.takeWhile_eq_self_iff.mpr hkept
          have hdrop : q.dropWhile (· ≠ '#') = [] := List.dropWhile_eq_nil_iff.mpr hkept
          simp only [tailText, Option.map_some, Option.map_none, Option.getD_some, Option.getD_none,
            withTail, List.append_nil, hspecial, if_true, htake, hdrop, hq.encode]
      | some f =>
          have htake : (q ++ '#' :: f).takeWhile (· ≠ '#') = q := by
            rw [List.takeWhile_append_of_pos hkept, List.takeWhile_cons_of_neg (by simp),
              List.append_nil]
          have hdrop : (q ++ '#' :: f).dropWhile (· ≠ '#') = '#' :: f := by
            rw [List.dropWhile_append_of_pos hkept, List.dropWhile_cons_of_neg (by simp)]
          simp only [tailText, Option.map_some, Option.getD_some, withTail, List.cons_append,
            hspecial, if_true, htake, hdrop, hq.encode, hpound f rfl]

/-! ## Reading regular URLs -/

/-- What starts with a regular authority is read by its parts. -/
theorem Authority.Regular.readHierarchical_text {scheme : List Char} {a : Authority}
    (h : a.Regular scheme)
    (hspecial : isSpecial scheme = true) (hs : scheme ≠ fileScheme) {ss : List (List Char)}
    (hne : ss ≠ []) (htidy : Tidy ss) {tail : List Char}
    (htail : tail.head?.all startsQuery = true) :
    readHierarchical scheme (a.text ++ '/' :: (['/'].intercalate ss ++ tail)) =
      if a.isReadable then
        .ok (withTail ⟨scheme, some a, .segments ss, none, none⟩ tail)
      else .error .badDomain := by
  have hkept : ∀ c ∈ a.text, (!endsAuthority true c) = true := fun c hc => by
    rw [(h.of_mem_text c hc).2]
    rfl
  have hends : (!endsAuthority true '/') = false := rfl
  have htake : (a.text ++ '/' :: (['/'].intercalate ss ++ tail)).takeWhile
      (fun c => !endsAuthority true c) = a.text := by
    rw [List.takeWhile_append_of_pos hkept, List.takeWhile_cons_of_neg (by rw [hends]; decide),
      List.append_nil]
  have hdrop : (a.text ++ '/' :: (['/'].intercalate ss ++ tail)).dropWhile
      (fun c => !endsAuthority true c) = '/' :: (['/'].intercalate ss ++ tail) := by
    rw [List.dropWhile_append_of_pos hkept, List.dropWhile_cons_of_neg (by rw [hends]; decide)]
  have hbody : ∀ c ∈ '/' :: ['/'].intercalate ss, (!startsQuery c) = true := by
    intro c hc
    rw [not_startsQuery_of_isPlainChar (htidy.isPlainChar_of_mem c hc)]
    rfl
  have hstart : tail.dropWhile (fun c => !startsQuery c) = tail := by
    cases tail with
    | nil => rfl
    | cons c rest =>
        exact List.dropWhile_cons_of_neg (by rw [show startsQuery c = true from htail]; decide)
  have hbehind : behindPath ('/' :: (['/'].intercalate ss ++ tail)) = tail := by
    rw [behindPath, ← List.cons_append, List.dropWhile_append_of_pos hbody, hstart]
  rw [readHierarchical]
  simp only [hspecial, htake, hdrop, h.text_ne.2, decide_false, Bool.false_and, Bool.false_eq_true,
    if_false, h.readAuthority_text hspecial, hbehind, htidy.readSegments hspecial hs hne htail]
  cases a.isReadable <;> rfl

section

variable {u : Url}

theorem Regular.chars_eq (h : u.Regular) {a : Authority} {ss : List (List Char)}
    (ha : u.authority = some a) (hp : u.path = .segments ss) :
    u.chars = u.scheme ++
      ':' :: '/' :: '/' :: (a.text ++ '/' :: (['/'].intercalate ss ++ u.tailText)) := by
  obtain ⟨ts, hts, hne, htidy⟩ := h.path
  cases hp.symm.trans hts
  rw [chars, beforeQuery, ha, hp, text_segments hne htidy]
  rw [tailText]
  cases u.query <;> cases u.fragment <;> simp

theorem Regular.not_outer_of_mem_tailText (h : u.Regular) : ∀ c ∈ u.tailText, isOuter c = false := by
  have hquery : ∀ q ∈ u.query, ∀ c ∈ q, isOuter c = false := fun q hq =>
    not_outer_of_encoded (by decide) (h.query q hq)
  have hfragment : ∀ f ∈ u.fragment, ∀ c ∈ f, isOuter c = false := fun f hf =>
    not_outer_of_encoded (by decide) (h.fragment f hf)
  rw [tailText]
  intro c hc
  rcases List.mem_append.mp hc with hc | hc
  · cases hq : u.query with
    | none => rw [hq] at hc; cases hc
    | some q =>
      rw [hq] at hc
      rcases List.mem_cons.mp hc with rfl | hc
      · rfl
      · exact hquery q hq c hc
  · cases hf : u.fragment with
    | none => rw [hf] at hc; cases hc
    | some f =>
      rw [hf] at hc
      rcases List.mem_cons.mp hc with rfl | hc
      · rfl
      · exact hfragment f hf c hc

theorem scheme?_web {scheme : List Char}
    (h : scheme = "http".toList ∨ scheme = "https".toList) (rest : List Char) :
    scheme? (scheme ++ ':' :: rest) = some (scheme, rest) := by
  rcases h with rfl | rfl <;> rfl

/-- Two slashes stand in front of an authority. -/
theorem dropWhile_isSlash {c : Char} (h : endsAuthority true c = false) (rest : List Char) :
    ('/' :: '/' :: c :: rest).dropWhile isSlash = c :: rest := by
  have hslash : isSlash c = false := by
    rw [endsAuthority, Bool.or_eq_false_iff, separates, Bool.true_and] at h
    exact h.1
  rw [List.dropWhile_cons_of_pos rfl, List.dropWhile_cons_of_pos rfl,
    List.dropWhile_cons_of_neg (by rw [hslash]; decide)]

/-- **A regular URL is read back from its text**, or its host is refused. -/
theorem Regular.parse_text (h : u.Regular) :
    parse u.text = if u.isReadable then .ok u else .error .badDomain := by
  obtain ⟨a, ha, hregular⟩ := h.authority
  obtain ⟨ss, hp, hne, htidy⟩ := h.path
  obtain ⟨hspecial, hfile⟩ := scheme_of_isWeb h.web
  have hscheme : u.scheme = "http".toList ∨ u.scheme = "https".toList := by
    have hweb := h.web
    rwa [isWeb, Bool.or_eq_true, decide_eq_true_eq, decide_eq_true_eq] at hweb
  have hletters : ("http".toList ++ "https".toList).all (fun c => !isOuter c) = true := rfl
  have hclean : clean u.chars = u.chars := by
    refine clean_of_not_outer fun c hc => ?_
    rw [h.chars_eq ha hp] at hc
    simp only [List.mem_append, List.mem_cons] at hc
    rcases hc with hc | rfl | rfl | rfl | hc | rfl | hc | hc
    · rcases hscheme with hs | hs
      · simpa using List.all_eq_true.mp hletters c (List.mem_append_left _ (hs ▸ hc))
      · simpa using List.all_eq_true.mp hletters c (List.mem_append_right _ (hs ▸ hc))
    · rfl
    · rfl
    · rfl
    · exact (hregular.of_mem_text c hc).1
    · rfl
    · exact not_outer_of_isPlainChar (htidy.isPlainChar_of_mem c (List.mem_cons_of_mem _ hc))
    · exact h.not_outer_of_mem_tailText c hc
  have hslashes : ('/' :: '/' :: (a.text ++ '/' :: (['/'].intercalate ss ++ u.tailText))).dropWhile
      isSlash = a.text ++ '/' :: (['/'].intercalate ss ++ u.tailText) := by
    obtain ⟨c, rest, hcons⟩ := List.exists_cons_of_ne_nil hregular.text_ne.1
    have hends := (hregular.of_mem_text c (by rw [hcons]; exact List.mem_cons_self)).2
    rw [hcons]
    exact dropWhile_isSlash hends _
  rw [parse, read, text, String.toList_ofList, hclean, h.chars_eq ha hp,
    scheme?_web hscheme]
  dsimp only
  rw [readAbsolute, if_neg hfile, if_pos hspecial]
  dsimp only
  rw [hslashes, hregular.readHierarchical_text hspecial hfile hne htidy u.tailText_startsQuery,
    isReadable, ha, Option.all_some]
  rw [← ha, h.withTail_tailText, ← hp]

theorem fragment_withTail {u : Url} {cs f : List Char} (h : (withTail u cs).fragment = some f) :
    ∃ rest, f = encode fragmentSet rest := by
  unfold withTail at h
  split at h
  all_goals
    dsimp only at h
    split at h
    · exact ⟨_, (Option.some.inj h).symm⟩
    · cases h

/-- What stands behind a path is encoded. -/
theorem encoded_withTail (hspecial : isSpecial u.scheme = true) (cs : List Char) :
    (∀ q ∈ (withTail u cs).query, Encoded specialQuerySet q) ∧
      ∀ f ∈ (withTail u cs).fragment, Encoded fragmentSet f := by
  constructor
  · intro q hq
    unfold withTail at hq
    split at hq
    · rw [hspecial] at hq
      rw [← Option.some.inj hq]
      exact encoded_encode leavesSigns_query _
    · cases hq
  · intro f hf
    obtain ⟨rest, rfl⟩ := fragment_withTail hf
    exact encoded_encode leavesSigns_fragment rest

/-- What is read behind the scheme of the web is regular. -/
theorem regular_of_readHierarchical {scheme cs : List Char} (h : readHierarchical scheme cs = .ok u)
    (hweb : u.isWeb = true) : u.Regular := by
  have hscheme := (of_readHierarchical h).1
  obtain ⟨hspecial, hfile⟩ := scheme_of_isWeb hweb
  rw [hscheme] at hspecial hfile
  rw [readHierarchical] at h
  simp only [hspecial, if_true] at h
  split at h
  · cases h
  · obtain ⟨a, ha, h⟩ := exists_of_bind_eq_ok h
    have hsegments : ∃ ss, u = withTail ⟨scheme, some a, .segments ss, none, none⟩
        (behindPath (cs.dropWhile fun c => !endsAuthority true c)) ∧ ss ≠ [] ∧ Tidy ss := by
      cases h
      refine ⟨_, rfl, ?_⟩
      split
      · split
        · exact tidy_readSegments hspecial hfile _
        · exact ⟨List.cons_ne_nil _ _, tidy_empty⟩
      · exact ⟨List.cons_ne_nil _ _, tidy_empty⟩
    obtain ⟨ss, rfl, hne, htidy⟩ := hsegments
    obtain ⟨hquery, hfragment⟩ := encoded_withTail
      (u := ⟨scheme, some a, .segments ss, none, none⟩) hspecial
      (behindPath (cs.dropWhile fun c => !endsAuthority true c))
    refine ⟨hweb, ⟨a, withTail_authority .., ?_⟩, ⟨ss, withTail_path .., hne, htidy⟩, hquery,
      hfragment⟩
    rw [withTail_scheme]
    exact regular_of_readAuthority hspecial ha

theorem regular_of_parse {text : String} (h : parse text = .ok u) (hweb : u.isWeb = true) :
    u.Regular := by
  have hspecial := scheme_of_isWeb hweb
  unfold parse read at h
  dsimp only at h
  split at h
  · rename_i scheme rest _
    have hs : u.scheme = scheme := scheme_readAbsolute rfl (fun _ hb => by cases hb) h
    unfold readAbsolute at h
    rw [← hs, if_neg hspecial.2, if_pos hspecial.1] at h
    exact regular_of_readHierarchical h hweb
  · cases h

/-- A slash at the end changes nothing else. -/
theorem Regular.withSlash (h : u.Regular) : u.withSlash.Regular := by
  obtain ⟨ss, hp, hne, htidy⟩ := h.path
  rw [Url.withSlash]
  split
  · exact h
  · rw [hp]
    exact ⟨h.web, h.authority, ⟨_, rfl, by simp, htidy.append tidy_empty⟩, h.query, h.fragment⟩

theorem regular_of_asBase? {text : String} {base : Url} (h : parse text = .ok u)
    (hbase : u.asBase? = some base) : base.Regular := by
  rw [asBase?] at hbase
  split at hbase
  · rename_i hu
    rw [Bool.and_eq_true] at hu
    cases hbase
    exact (regular_of_parse h hu.1).withSlash
  · cases hbase

/-- What is taken as a base is taken as it is. -/
theorem IsBase.asBase? {base : Url} (h : base.IsBase) : base.asBase? = some base := by
  rw [Url.asBase?, h.web, h.notFlat, Url.withSlash, h.slash]
  rfl

end

/-! ## URLs that are a host alone -/

theorem splitHost_of_no_colon {cs : List Char} (h : ':' ∉ cs) (inside : Bool) :
    splitHost inside cs = (cs, []) := by
  induction cs generalizing inside with
  | nil => rfl
  | cons c cs ih =>
      rw [List.mem_cons, not_or] at h
      rw [splitHost, if_neg fun hc => h.1 hc.1.symm, ih h.2]

/-- A URL that is a host alone. -/
theorem parse_of_host {cs host : List Char} (hne : cs ≠ [])
    (hchars : ∀ c ∈ cs, staysInAuthority c = true) (hcolon : ':' ∉ cs)
    (hhost : specialHost cs = .ok host) :
    parse (String.ofList ("https".toList ++ ':' :: '/' :: '/' :: cs)) =
      .ok ⟨"https".toList, some ⟨[], host, none⟩, .segments [[]], none, none⟩ := by
  have hstays : ∀ c ∈ cs, isOuter c = false ∧ endsAuthority true c = false ∧ c ≠ '@' := by
    intro c hc
    have hc := hchars c hc
    simpa [staysInAuthority, and_assoc] using hc
  have hletters : ("https".toList ++ [':', '/', '/']).all (fun c => !isOuter c) = true := rfl
  have hclean : clean ("https".toList ++ ':' :: '/' :: '/' :: cs) =
      "https".toList ++ ':' :: '/' :: '/' :: cs := by
    refine clean_of_not_outer fun c hc => ?_
    rw [show "https".toList ++ ':' :: '/' :: '/' :: cs =
      ("https".toList ++ [':', '/', '/']) ++ cs by rw [List.append_assoc]; rfl] at hc
    rcases List.mem_append.mp hc with hc | hc
    · simpa using List.all_eq_true.mp hletters c hc
    · exact (hstays c hc).1
  have hslashes : ('/' :: '/' :: cs).dropWhile isSlash = cs := by
    obtain ⟨c, rest, rfl⟩ := List.exists_cons_of_ne_nil hne
    exact dropWhile_isSlash (hstays c List.mem_cons_self).2.1 rest
  have hkept : ∀ c ∈ cs, (!endsAuthority true c) = true := fun c hc => by
    rw [(hstays c hc).2.1]
    rfl
  have htake : cs.takeWhile (fun c => !endsAuthority true c) = cs :=
    List.takeWhile_eq_self_iff.mpr hkept
  have hdrop : cs.dropWhile (fun c => !endsAuthority true c) = [] :=
    List.dropWhile_eq_nil_iff.mpr hkept
  have hspecial : isSpecial "https".toList = true := by decide
  have hfilled : cs.isEmpty = false := by simpa using hne
  have hsign : splitAtSign cs = none :=
    splitAtSign_of_not_mem fun hc => (hstays '@' hc).2.2 rfl
  have hauthority : readAuthority "https".toList cs = .ok ⟨[], host, none⟩ := by
    have hempty : host.isEmpty = false := by simpa using host_ne_nil hhost
    have hnone : userinfoText [] = [] := rfl
    rw [readAuthority, hsign]
    simp only [Option.getD_none, splitHost_of_no_colon hcolon, hspecial, hfilled, hnone, hhost,
      Bool.and_false, Bool.false_eq_true, if_false, if_true, bind, Except.bind, hempty,
      Bool.false_and]
    rfl
  rw [parse, read, String.toList_ofList, hclean, scheme?_web (.inr rfl)]
  dsimp only
  rw [readAbsolute, if_neg (by decide), if_pos hspecial]
  dsimp only
  rw [hslashes, readHierarchical]
  simp only [hspecial, htake, hdrop, hauthority, List.isEmpty_nil, Bool.not_true, Bool.and_false,
    Bool.false_eq_true, if_false]
  rfl

end ClientSession.Url
