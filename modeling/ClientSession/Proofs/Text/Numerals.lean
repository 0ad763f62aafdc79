import ClientSession.Text.Basic

/-!
# Numerals that are read back

What is written for an integer is read as that integer, as long as it fits 64 signed bits, and holds
no blank.

- `Text.integer64?_toString`: the round trip.
- `Text.toString_injective`: two integers are never written alike.
-/

namespace ClientSession.Text

theorem digit?_of_isDigit {c : Char} (h : c.isDigit = true) :
    digit? c = some (c.toNat - '0'.toNat) := by
  have hrange : (48 : UInt32) ≤ c.val ∧ c.val ≤ 57 := by simpa [Char.isDigit] using h
  exact if_pos hrange

theorem isBlank_eq_false_of_isDigit {c : Char} (h : c.isDigit = true) : isBlank c = false := by
  have hdigit : 48 ≤ c.toNat ∧ c.toNat ≤ 57 := by
    simpa [Char.isDigit, UInt32.le_iff_toNat_le] using h
  simp only [isBlank, Bool.or_eq_false_iff, Bool.and_eq_false_iff, decide_eq_false_iff_not,
    beq_eq_false_iff_ne]
  omega

/-- A run of digits denotes the number that folding its digits gives. -/
theorem digits?_eq_ofDigitChars {cs : List Char} (h : ∀ c ∈ cs, c.isDigit = true) :
    digits? cs = some (Nat.ofDigitChars 10 cs 0) := by
  suffices hfold : ∀ n, cs.foldl (fun acc c => acc.bind fun n => (digit? c).map (n * 10 + ·))
      (some n) = some (Nat.ofDigitChars 10 cs n) from hfold 0
  induction cs with
  | nil => exact fun n => rfl
  | cons c cs ih =>
      intro n
      have hc := digit?_of_isDigit (h c (List.mem_cons_self ..))
      rw [List.foldl_cons, Option.bind_some, hc, Option.map_some,
        ih fun c hc => h c (List.mem_cons_of_mem _ hc), Nat.ofDigitChars_cons, Nat.mul_comm]

theorem isDigit_of_mem_toDigits {n : Nat} {c : Char} (h : c ∈ Nat.toDigits 10 n) :
    c.isDigit = true := Nat.isDigit_of_mem_toDigits (by decide) (by decide) h

theorem digits?_toDigits (n : Nat) : digits? (Nat.toDigits 10 n) = some n := by
  rw [digits?_eq_ofDigitChars fun _ => isDigit_of_mem_toDigits, Nat.ofDigitChars_ten_toDigits]

/-- The digits of a number do not start with a sign. -/
theorem toDigits_cons (n : Nat) :
    ∃ c cs, Nat.toDigits 10 n = c :: cs ∧ c ≠ '-' ∧ c ≠ '+' := by
  cases h : Nat.toDigits 10 n with
  | nil => exact absurd h Nat.toDigits_ne_nil
  | cons c cs =>
      have hc : c.isDigit = true := isDigit_of_mem_toDigits (h ▸ List.mem_cons_self ..)
      refine ⟨c, cs, rfl, ?_, ?_⟩ <;>
      · rintro rfl
        cases hc

theorem natural?_toDigits (bound n : Nat) :
    natural? bound (Nat.toDigits 10 n) = if n ≤ bound then some n else none := by
  have hread := digits?_toDigits n
  obtain ⟨c, cs, hcs, -, hplus⟩ := toDigits_cons n
  rw [hcs] at hread ⊢
  unfold natural?
  split
  · rename_i rest heq
    exact absurd (List.cons.inj heq).1 hplus
  · simp only [List.isEmpty_cons, Bool.false_eq_true, if_false, hread]

theorem toList_toString (n : Int) :
    (toString n).toList = if 0 ≤ n then Nat.toDigits 10 n.toNat else
      '-' :: Nat.toDigits 10 (-n).toNat := by
  rw [Int.toString_eq_repr, Int.repr_eq_if]
  split
  · rw [Nat.toList_repr]
  · rw [String.toList_append, Nat.toList_repr]
    rfl

theorem toDigits_injective {m n : Nat} (h : Nat.toDigits 10 m = Nat.toDigits 10 n) : m = n := by
  have hread := digits?_toDigits m
  rw [h, digits?_toDigits] at hread
  exact (Option.some.inj hread).symm

/-- Two integers that are written alike are the same. -/
theorem toString_injective {m n : Int} (h : toString m = toString n) : m = n := by
  have hchars := congrArg String.toList h
  rw [toList_toString, toList_toString] at hchars
  obtain ⟨c, cs, hm, hcm, -⟩ := toDigits_cons m.toNat
  obtain ⟨d, ds, hn, hdn, -⟩ := toDigits_cons n.toNat
  split at hchars <;> split at hchars
  · have := toDigits_injective hchars
    omega
  · rw [hm] at hchars
    exact absurd (List.cons.inj hchars).1 hcm
  · rw [hn] at hchars
    exact absurd (List.cons.inj hchars).1.symm hdn
  · have := toDigits_injective (List.cons.inj hchars).2
    omega

/-- An integer is read back from its text if it fits. -/
theorem integer64?_toString (n : Int) :
    integer64? (toString n).toList =
      if -(maxSigned64 + 1 : Int) ≤ n ∧ n ≤ maxSigned64 then some n else none := by
  rw [toList_toString]
  split
  · rename_i hn
    have hread := natural?_toDigits maxSigned64 n.toNat
    obtain ⟨c, cs, hcs, hminus, -⟩ := toDigits_cons n.toNat
    rw [hcs] at hread ⊢
    unfold integer64?
    split
    · rename_i rest heq
      exact absurd (List.cons.inj heq).1 hminus
    · rw [hread]
      have hcast : Int.ofNat n.toNat = n := Int.toNat_of_nonneg hn
      by_cases hle : n ≤ maxSigned64
      · rw [if_pos (by omega), if_pos (by omega), Option.map_some, hcast]
      · rw [if_neg (by omega), if_neg (by omega), Option.map_none]
  · rename_i hn
    have hcast : -(((-n).toNat : Nat) : Int) = n := by omega
    obtain ⟨c, cs, hcs, -, -⟩ := toDigits_cons (-n).toNat
    have hread := digits?_toDigits (-n).toNat
    rw [hcs] at hread ⊢
    simp only [integer64?, List.isEmpty_cons, Bool.false_eq_true, if_false, hread]
    by_cases hle : -(maxSigned64 + 1 : Int) ≤ n
    · rw [if_pos (by omega), if_pos (by omega), hcast]
    · rw [if_neg (by omega), if_neg (by omega)]

/-- A text without blanks is what it is when trimmed. -/
theorem trim_of_no_blank {s : String} (h : ∀ c ∈ s.toList, isBlank c = false) : trim s = s := by
  have hdrop : ∀ {cs : List Char}, (∀ c ∈ cs, isBlank c = false) → cs.dropWhile isBlank = cs := by
    intro cs hcs
    cases cs with
    | nil => rfl
    | cons c cs => rw [List.dropWhile_cons, hcs c (List.mem_cons_self ..)]; rfl
  rw [trim, trimStart, trimEnd, hdrop h, hdrop fun c hc => h c (List.mem_reverse.mp hc),
    List.reverse_reverse, String.ofList_toList]

theorem trim_toString (n : Int) : trim (toString n) = toString n := by
  refine trim_of_no_blank fun c hc => ?_
  rw [toList_toString] at hc
  split at hc
  · exact isBlank_eq_false_of_isDigit (isDigit_of_mem_toDigits hc)
  · rcases List.mem_cons.mp hc with rfl | hc
    · rfl
    · exact isBlank_eq_false_of_isDigit (isDigit_of_mem_toDigits hc)

end ClientSession.Text
