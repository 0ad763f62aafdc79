import ClientSession.Json.Decoder
import ClientSession.Json.Printer

/-!
# Quoted texts are read back

Every text, of whatever characters, is what is read from its quoted form, and the reader stops
right behind the closing quote.

- `readChars_escape`: one character is read back from its escaped form.
- `readString_quoted`: a text is read back.
- `decodeString_quote`: so is a text where a document has one, blanks before it or not.
-/

namespace ClientSession.Json

theorem hexValue?_hexDigit : ∀ n < 16, hexValue? (hexDigit n) = some n := by decide

/-- A control character is read back from its four digits. -/
theorem readUnicodeEscape_control {c : Char} (h : c.toNat < 0x20) (rest : List Char) :
    readUnicodeEscape ('0' :: '0' :: hexDigit (c.toNat / 16) :: hexDigit (c.toNat % 16) :: rest) =
      .ok (c, rest) := by
  have hzero : hexValue? '0' = some 0 := by decide
  have hhigh := hexValue?_hexDigit (c.toNat / 16) (by omega)
  have hlow := hexValue?_hexDigit (c.toNat % 16) (by omega)
  have hcode : ((0 * 16 + 0) * 16 + c.toNat / 16) * 16 + c.toNat % 16 = c.toNat := by omega
  have hread : readHex4 ('0' :: '0' :: hexDigit (c.toNat / 16) :: hexDigit (c.toNat % 16) :: rest) =
      .ok (c.toNat, rest) := by
    simp only [readHex4, hzero, hhigh, hlow, hcode]
  have hlone : ¬ (0xDC00 ≤ c.toNat ∧ c.toNat ≤ 0xDFFF) := by omega
  have hplain : c.toNat < 0xD800 ∨ 0xDBFF < c.toNat := by omega
  rw [readUnicodeEscape, hread]
  simp only [bind, Except.bind, hlone, hplain, if_true, if_false, Char.ofNat_toNat]
  rfl

/-- A character is escaped, in a way that is read back, or stands for itself. -/
theorem escape_cases (c : Char) :
    (∃ code, escape c = '\\' :: code ∧ ∀ rest, readEscape (code ++ rest) = .ok (c, rest)) ∨
      (escape c = [c] ∧ c ≠ '"' ∧ c ≠ '\\' ∧ ¬ c.toNat < 0x20) := by
  unfold escape
  split
  · subst_vars; exact .inl ⟨['"'], rfl, fun _ => rfl⟩
  split
  · subst_vars; exact .inl ⟨['\\'], rfl, fun _ => rfl⟩
  split
  · subst_vars; exact .inl ⟨['b'], rfl, fun _ => rfl⟩
  split
  · subst_vars; exact .inl ⟨['f'], rfl, fun _ => rfl⟩
  split
  · subst_vars; exact .inl ⟨['n'], rfl, fun _ => rfl⟩
  split
  · subst_vars; exact .inl ⟨['r'], rfl, fun _ => rfl⟩
  split
  · subst_vars; exact .inl ⟨['t'], rfl, fun _ => rfl⟩
  split
  · rename_i hcontrol
    exact .inl ⟨_, rfl, readUnicodeEscape_control hcontrol⟩
  · rename_i hquote hback _ _ _ _ _ hcontrol
    exact .inr ⟨rfl, hquote, hback, hcontrol⟩

/-- One character is read back from its escaped form. -/
theorem readChars_escape (c : Char) (fuel : Nat) (rest : List Char) :
    readChars (fuel + 1) (escape c ++ rest) = do
      let (xs, rest) ← readChars fuel rest
      return (c :: xs, rest) := by
  rcases escape_cases c with ⟨code, hcode, hread⟩ | ⟨hself, hquote, hback, hcontrol⟩
  · have hne : ¬ '\\' = '"' := by decide
    rw [hcode, List.cons_append, readChars, if_neg hne, if_pos rfl, hread]
    rfl
  · rw [hself, List.singleton_append, readChars, if_neg hquote, if_neg hback, if_neg hcontrol]

theorem readChars_quoted (s rest : List Char) {fuel : Nat} (h : s.length < fuel) :
    readChars fuel (s.flatMap escape ++ '"' :: rest) = .ok (s, rest) := by
  induction s generalizing fuel with
  | nil =>
      obtain ⟨fuel, rfl⟩ := Nat.exists_eq_succ_of_ne_zero (Nat.ne_of_gt h)
      simp [readChars]
  | cons c s ih =>
      obtain ⟨fuel, rfl⟩ := Nat.exists_eq_succ_of_ne_zero (Nat.ne_of_gt (Nat.zero_lt_of_lt h))
      have hs : s.length < fuel := by simpa using h
      rw [List.flatMap_cons, List.append_assoc, readChars_escape, ih hs]
      rfl

theorem escape_ne_nil (c : Char) : escape c ≠ [] := by
  rcases escape_cases c with ⟨code, hcode, -⟩ | ⟨hself, -⟩
  · rw [hcode]
    exact List.cons_ne_nil _ _
  · rw [hself]
    exact List.cons_ne_nil _ _

theorem length_le_escaped (s : List Char) : s.length ≤ (s.flatMap escape).length := by
  induction s with
  | nil => exact Nat.le_refl 0
  | cons c s ih =>
      have hc : 0 < (escape c).length := List.length_pos_iff.2 (escape_ne_nil c)
      rw [List.flatMap_cons, List.length_append, List.length_cons]
      omega

/-- A text is read back from between its quotes. -/
theorem readString_quoted (s : String) (rest : List Char) :
    readString (s.toList.flatMap escape ++ '"' :: rest) = .ok (s, rest) := by
  have hfuel : s.toList.length < (s.toList.flatMap escape ++ '"' :: rest).length + 1 := by
    have hlength := length_le_escaped s.toList
    rw [List.length_append]
    omega
  rw [readString, readChars_quoted s.toList rest hfuel]
  simp [bind, Except.bind, pure, Except.pure]

theorem quote_append (s : String) (rest : List Char) :
    quote s ++ rest = '"' :: (s.toList.flatMap escape ++ '"' :: rest) := by
  simp [quote]

/-- A quoted text is read back where a document has a text. -/
theorem decodeString_quote (s : String) (depth : Nat) (rest : List Char) :
    decodeString depth (' ' :: (quote s ++ rest)) = .ok (s, rest) := by
  have hskip : skipSpace (' ' :: (quote s ++ rest)) = quote s ++ rest := by
    rw [quote_append]
    rfl
  rw [decodeString, decodeText, hskip, quote_append]
  simp [bind, Except.bind, readString_quoted, pure, Except.pure]

end ClientSession.Json
