import ClientSession.Url.Punycode
import Mathlib

/-!
# Encoded labels are decoded

A label of at most a thousand characters is what is decoded from its encoded form. The code points
are written from the smallest to the largest, so that the reader at each time holds the characters
of the label below the one that is being written; the difference that is written next leads it from
where it stands to the place of the next character.

- `readNumber_writeNumber`: a number is read back, without leaving 32 bits.
- `Abreast.insert`, `readCodes_writeCode`, `readCodes_writeCodes`: one character, one code point,
  all of them.
- `decode?_encode`: a label is decoded from its encoded form.
-/

namespace ClientSession.Punycode

/-! ## Numbers -/

theorem value?_digit : ∀ n < 36, value? (digit n) = some n := by decide

theorem threshold_pos (k bias : Nat) : 1 ≤ threshold k bias := by
  rw [threshold]
  split
  · exact Nat.le_refl 1
  · split <;> omega

theorem threshold_le (k bias : Nat) : threshold k bias ≤ 26 := by
  rw [threshold]
  split
  · decide
  · split <;> omega

/-- The largest number that is written is smaller than this power of the largest step. -/
def reach : Nat := 35 ^ 6

/-- As long as the threshold may grow, all steps so far were the largest. -/
def Weighted (w k bias : Nat) : Prop := k ≤ bias + 25 → ∃ j, w = 35 ^ j

theorem Weighted.step {w k bias : Nat} (h : Weighted w k bias) :
    Weighted (w * (base - threshold k bias)) (k + base) bias := by
  intro hk
  have hsmall : k ≤ bias := by
    rw [base] at hk
    omega
  obtain ⟨j, rfl⟩ := h (by omega)
  refine ⟨j + 1, ?_⟩
  rw [threshold, if_pos hsmall, pow_succ]
  rfl

/-- A step from a weight that still counts does not leave 32 bits. -/
theorem Weighted.fits {w k bias q : Nat} (h : Weighted w k bias) (hq : threshold k bias ≤ q)
    (hreach : q * w < reach) : w * (base - threshold k bias) ≤ maxUnsigned32 := by
  have hpos := threshold_pos k bias
  have hweight : threshold k bias * w ≤ q * w := Nat.mul_le_mul_right w hq
  by_cases hk : k ≤ bias + 25
  · obtain ⟨j, rfl⟩ := h hk
    have hsmall : 35 ^ j < 35 ^ 6 := by
      calc 35 ^ j ≤ threshold k bias * 35 ^ j := Nat.le_mul_of_pos_left _ hpos
        _ ≤ q * 35 ^ j := hweight
        _ < 35 ^ 6 := hreach
    have hj : j ≤ 5 := Nat.le_of_lt_succ ((Nat.pow_lt_pow_iff_right (by decide)).mp hsmall)
    calc 35 ^ j * (base - threshold k bias) ≤ 35 ^ 5 * 35 :=
          Nat.mul_le_mul (Nat.pow_le_pow_right (by decide) hj) (by rw [base]; omega)
      _ ≤ maxUnsigned32 := by decide
  · have hlast : threshold k bias = 26 := by
      rw [threshold, if_neg (by omega), if_pos (by omega)]
    rw [hlast] at hweight ⊢
    have hbound : 26 * w < 35 ^ 6 := Nat.lt_of_le_of_lt hweight hreach
    simp only [base, maxUnsigned32]
    omega

theorem writeNumber_last {q k bias : Nat} (fuel : Nat) (h : q < threshold k bias) :
    writeNumber (fuel + 1) q k bias = [digit q] := by
  rw [writeNumber, if_pos h]

theorem readNumber_last {q i w k bias : Nat} (h : q < threshold k bias)
    (hreach : i + q * w < reach) (rest : List Char) :
    readNumber (digit q :: rest) i w k bias = some (i + q * w, rest) := by
  have hle := threshold_le k bias
  have hvalue : value? (digit q) = some q := value?_digit q (by omega)
  have hi : ¬ maxUnsigned32 < i + q * w := by
    simp only [reach, maxUnsigned32] at hreach ⊢
    omega
  simp only [readNumber, hvalue, Option.bind_eq_bind, Option.bind_some, hi, if_false, h, if_true]

theorem writeNumber_more {q k bias : Nat} (fuel : Nat) (h : threshold k bias ≤ q) :
    writeNumber (fuel + 1) q k bias =
      digit (threshold k bias + (q - threshold k bias) % (base - threshold k bias)) ::
        writeNumber fuel ((q - threshold k bias) / (base - threshold k bias)) (k + base) bias := by
  rw [writeNumber, if_neg (Nat.not_lt.mpr h)]

theorem readNumber_more {d i w k bias : Nat} (h : threshold k bias ≤ d) (hd : d < base)
    (hreach : i + d * w < reach) (hfits : w * (base - threshold k bias) ≤ maxUnsigned32)
    (rest : List Char) :
    readNumber (digit d :: rest) i w k bias =
      readNumber rest (i + d * w) (w * (base - threshold k bias)) (k + base) bias := by
  have hi : ¬ maxUnsigned32 < i + d * w := by
    simp only [reach, maxUnsigned32] at hreach ⊢
    omega
  rw [readNumber]
  simp only [value?_digit d hd, Option.bind_eq_bind, Option.bind_some, hi, if_false,
    Nat.not_lt.mpr h, Nat.not_lt.mpr hfits]

/-- A number is read back from its digits. -/
theorem readNumber_writeNumber (fuel : Nat) {q w i k bias : Nat} (hfuel : q < 10 ^ fuel) (hw : 0 < w)
    (hweight : Weighted w k bias) (hreach : i + q * w < reach) (rest : List Char) :
    readNumber (writeNumber (fuel + 1) q k bias ++ rest) i w k bias = some (i + q * w, rest) := by
  have hpos := threshold_pos k bias
  have hle := threshold_le k bias
  induction fuel generalizing q w i k with
  | zero =>
      have hq : q < threshold k bias := by
        rw [pow_zero] at hfuel
        omega
      rw [writeNumber_last 0 hq]
      exact readNumber_last hq hreach rest
  | succ fuel ih =>
      by_cases hq : q < threshold k bias
      · rw [writeNumber_last _ hq]
        exact readNumber_last hq hreach rest
      rw [Nat.not_lt] at hq
      -- A digit from the threshold up, and a smaller number.
      obtain ⟨r, hr⟩ : ∃ r, (q - threshold k bias) % (base - threshold k bias) = r := ⟨_, rfl⟩
      obtain ⟨q', hq'⟩ : ∃ q', (q - threshold k bias) / (base - threshold k bias) = q' := ⟨_, rfl⟩
      have hstep : 10 ≤ base - threshold k bias := by
        rw [base]
        omega
      have hlt : r < base - threshold k bias := hr ▸ Nat.mod_lt _ (by omega)
      have hparts := Nat.mod_add_div' (q - threshold k bias) (base - threshold k bias)
      rw [hr, hq'] at hparts
      have hsplit : q = threshold k bias + r + q' * (base - threshold k bias) := by omega
      have hsmaller : q' < 10 ^ fuel := by
        rw [pow_succ] at hfuel
        have hten : q' * 10 ≤ q' * (base - threshold k bias) := Nat.mul_le_mul_left _ hstep
        omega
      have htotal : i + (threshold k bias + r) * w + q' * (w * (base - threshold k bias)) =
          i + q * w := by
        rw [hsplit]
        ring
      have hfits := hweight.fits hq (Nat.lt_of_le_of_lt (Nat.le_add_left _ i) hreach)
      have hrest := ih (i := i + (threshold k bias + r) * w) hsmaller
        (Nat.mul_pos hw (by omega)) hweight.step (htotal ▸ hreach) (threshold_pos _ _)
        (threshold_le _ _)
      rw [writeNumber_more _ hq, hr, hq', List.cons_append,
        readNumber_more (Nat.le_add_right _ _) (by omega) (by omega) hfits, hrest, htotal]

theorem writeNumber_ne_nil (fuel q k bias : Nat) : writeNumber (fuel + 1) q k bias ≠ [] := by
  rw [writeNumber]
  split <;> exact List.cons_ne_nil _ _

/-! ## Characters -/

/-- The most characters of a label for which no number leaves its bounds. -/
def longestLabel : Nat := 1000

/-- The reader, which has read up to the code point `n` and stands at `i`, holds what the writer has
written, and is led by the difference to the code point `m` and the place `k`. -/
structure Abreast (basic m k : Nat) (p : Progress) (n i : Nat) (out : List Char) : Prop where
  handled : out.length = p.handled
  place : i + p.delta = (m - n) * (p.handled + 1) + k
  code : n ≤ m
  first : i = 0 ↔ p.handled = basic
  basic_le : basic ≤ p.handled

/-- What is known of the writer after it has written a character. -/
def Progress.written (basic : Nat) (p : Progress) : Progress :=
  { p with
    bias := adapt p.delta (p.handled + 1) (p.handled = basic), delta := 0, handled := p.handled + 1 }

section

variable {basic m k n i : Nat} {p : Progress} {out : List Char} {c : Char}

/-- A character is read to its place. -/
theorem Abreast.insert (h : Abreast basic m k p n i out) (hk : k ≤ out.length)
    (hlength : out.length ≤ longestLabel) (hc : c.toNat = m) (fuel : Nat) (rest : List Char) :
    readCodes (fuel + 1) (writeNumber 64 p.delta base p.bias ++ rest) n i p.bias out =
        readCodes fuel rest m (k + 1) (p.written basic).bias (out.take k ++ c :: out.drop k) ∧
      Abreast basic m (k + 1) (p.written basic) m (k + 1) (out.take k ++ c :: out.drop k) := by
  obtain ⟨hhandled, hplace, hcode, hfirst, hbasic⟩ := h
  have hchar : m < 1114112 := by
    have hvalid : c.toNat.isValidChar := c.valid
    rw [hc, Nat.isValidChar] at hvalid
    omega
  have hreach : i + p.delta < reach := by
    rw [hplace]
    have hle : (m - n) * (p.handled + 1) ≤ 1114111 * 1001 :=
      Nat.mul_le_mul (by omega) (by rw [longestLabel] at hlength; omega)
    rw [longestLabel] at hlength
    simp only [reach]
    omega
  have hnumber : readNumber (writeNumber 64 p.delta base p.bias ++ rest) i 1 base p.bias =
      some (i + p.delta, rest) := by
    have hfuel : p.delta < 10 ^ 63 := by
      simp only [reach] at hreach
      omega
    have hone : Weighted 1 base p.bias := fun _ => ⟨0, rfl⟩
    have hread := readNumber_writeNumber 63 (i := i) hfuel Nat.one_pos hone
      (by rwa [Nat.mul_one]) rest
    rwa [Nat.mul_one] at hread
  have hnext : n + (i + p.delta) / (out.length + 1) = m := by
    rw [hplace, hhandled, Nat.add_comm _ k, Nat.add_mul_div_right _ _ (Nat.succ_pos _),
      Nat.div_eq_of_lt (by omega)]
    omega
  have hindex : (i + p.delta) % (out.length + 1) = k := by
    rw [hplace, hhandled, Nat.add_comm _ k, Nat.add_mul_mod_self_right,
      Nat.mod_eq_of_lt (by omega)]
  have hadapt : adapt (i + p.delta - i) (out.length + 1) (i = 0) = (p.written basic).bias := by
    rw [Nat.add_sub_cancel_left, hhandled, Progress.written]
    simp only [hfirst]
  refine ⟨?_, ?_, ?_, ?_, ?_, ?_⟩
  · obtain ⟨x, xs, hxs⟩ := List.exists_cons_of_ne_nil (writeNumber_ne_nil 63 p.delta base p.bias)
    rw [hxs, List.cons_append] at hnumber ⊢
    have hvalid : c.toNat.isValidChar := c.valid
    rw [readCodes]
    simp only [hnumber, Option.bind_eq_bind, Option.bind_some, hnext, hindex, hadapt, ← hc, hvalid,
      Char.ofNat_toNat]
    · simp
    · exact List.cons_ne_nil _ _
  · have htake : (out.take k).length = k := List.length_take_of_le hk
    simp only [List.length_append, List.length_cons, List.length_drop, htake, Progress.written]
    omega
  · simp [Progress.written]
  · exact Nat.le_refl m
  · simp only [Progress.written]
    omega
  · simp only [Progress.written]
    omega

theorem writeCode_lt {c : Nat} (h : c < m) (rest : List Nat) :
    writeCode basic m (c :: rest) p = writeCode basic m rest { p with delta := p.delta + 1 } := by
  rw [writeCode, if_pos h]

theorem writeCode_self (rest : List Nat) :
    writeCode basic m (m :: rest) p =
      (writeNumber 64 p.delta base p.bias ++ (writeCode basic m rest (p.written basic)).1,
        (writeCode basic m rest (p.written basic)).2) := by
  rw [writeCode, if_neg (Nat.lt_irrefl m), if_pos rfl]
  rfl

theorem writeCode_gt {c : Nat} (h : m < c) (rest : List Nat) :
    writeCode basic m (c :: rest) p = writeCode basic m rest p := by
  rw [writeCode, if_neg (by omega), if_neg (by omega)]

/-! ## Code points -/

/-- The characters of a label that are there while a code point is written: behind the first part
only those below it. -/
def held (m : Nat) (before rest : List Char) : List Char :=
  before.filter (·.toNat ≤ m) ++ rest.filter (·.toNat < m)

/-- All characters of one code point are read to their places. -/
theorem readCodes_writeCode (before : List Char) {rest : List Char}
    (hlength : (before ++ rest).length ≤ longestLabel)
    (h : Abreast basic m (before.filter (·.toNat ≤ m)).length p n i (held m before rest))
    (more : List Char) {fuel : Nat}
    (hfuel : ((writeCode basic m (rest.map Char.toNat) p).1 ++ more).length ≤ fuel) :
    ∃ fuel' n' i', more.length ≤ fuel' ∧
      readCodes fuel ((writeCode basic m (rest.map Char.toNat) p).1 ++ more) n i p.bias
          (held m before rest) =
        readCodes fuel' more n' i' (writeCode basic m (rest.map Char.toNat) p).2.bias
          ((before ++ rest).filter (·.toNat ≤ m)) ∧
      Abreast basic m ((before ++ rest).filter (·.toNat ≤ m)).length
        (writeCode basic m (rest.map Char.toNat) p).2 n' i'
        ((before ++ rest).filter (·.toNat ≤ m)) := by
  induction rest generalizing before p n i fuel with
  | nil =>
      refine ⟨fuel, n, i, by simpa [writeCode] using hfuel, ?_, ?_⟩
      · simp [writeCode, held]
      · simpa [writeCode, held] using h
  | cons c rest ih =>
      have hassoc : before ++ c :: rest = before ++ [c] ++ rest := by simp
      rw [hassoc] at hlength ⊢
      rw [List.map_cons] at hfuel ⊢
      rcases Nat.lt_trichotomy c.toNat m with hlt | heq | hgt
      · -- The character is there already; the place moves on.
        have hheld : held m before (c :: rest) = held m (before ++ [c]) rest := by
          simp [held, hlt, Nat.le_of_lt hlt]
        have hk : ((before ++ [c]).filter (·.toNat ≤ m)).length =
            (before.filter (·.toNat ≤ m)).length + 1 := by
          simp [Nat.le_of_lt hlt]
        rw [writeCode_lt hlt] at hfuel ⊢
        rw [hheld] at h ⊢
        refine ih (before ++ [c]) (p := { p with delta := p.delta + 1 }) hlength ?_ hfuel
        rw [hk]
        exact ⟨h.handled, by simp only [← Nat.add_assoc, h.place], h.code, h.first, h.basic_le⟩
      · -- The character is written, and put behind those before it.
        have hlater : held m before (c :: rest) =
            before.filter (·.toNat ≤ m) ++ rest.filter (·.toNat < m) := by
          simp [held, heq]
        have hk : ((before ++ [c]).filter (·.toNat ≤ m)).length =
            (before.filter (·.toNat ≤ m)).length + 1 := by
          simp [heq]
        have hshort : (held m before (c :: rest)).length ≤ longestLabel := by
          have hfirst := List.length_filter_le (·.toNat ≤ m) before
          have hrest := List.length_filter_le (·.toNat < m) rest
          simp only [List.length_append, List.length_cons, List.length_nil] at hlength
          rw [hlater, List.length_append]
          omega
        rw [heq, writeCode_self] at hfuel ⊢
        have hnumber : 0 < (writeNumber 64 p.delta base p.bias).length :=
          List.length_pos_iff.mpr (writeNumber_ne_nil 63 _ _ _)
        simp only [List.length_append] at hfuel
        obtain ⟨fuel, rfl⟩ := Nat.exists_eq_succ_of_ne_zero (n := fuel) (by omega)
        obtain ⟨hread, habreast⟩ := h.insert (by rw [hlater, List.length_append]; omega) hshort heq
          fuel ((writeCode basic m (rest.map Char.toNat) (p.written basic)).1 ++ more)
        have hheld : (held m before (c :: rest)).take (before.filter (·.toNat ≤ m)).length ++
            c :: (held m before (c :: rest)).drop (before.filter (·.toNat ≤ m)).length =
              held m (before ++ [c]) rest := by
          rw [hlater, List.take_left, List.drop_left]
          simp [held, heq]
        rw [hheld, ← hk] at hread habreast
        rw [List.append_assoc, hread]
        exact ih (before ++ [c]) hlength habreast (by
          simp only [List.length_append]
          omega)
      · -- The character comes later.
        have hheld : held m before (c :: rest) = held m (before ++ [c]) rest := by
          simp [held, Nat.not_lt.mpr (Nat.le_of_lt hgt), Nat.not_le.mpr hgt]
        have hk : ((before ++ [c]).filter (·.toNat ≤ m)).length =
            (before.filter (·.toNat ≤ m)).length := by
          simp [Nat.not_le.mpr hgt]
        rw [writeCode_gt hgt] at hfuel ⊢
        rw [hheld] at h ⊢
        refine ih (before ++ [c]) hlength ?_ hfuel
        rw [hk]
        exact h

/-- Before the smallest code point from some code on there are only the smaller characters. -/
theorem held_of_min {cs : List Char} {code : Nat}
    (hm : ((cs.map Char.toNat).filter (code ≤ ·)).min? = some m) :
    held m [] cs = cs.filter (·.toNat < code) := by
  rw [List.min?_eq_some_iff] at hm
  obtain ⟨hmem, hmin⟩ := hm
  have hcode : code ≤ m := by simpa using (List.mem_filter.mp hmem).2
  rw [held, List.filter_nil, List.nil_append]
  refine List.filter_congr fun c hc => decide_eq_decide.mpr ⟨fun hlt => ?_, fun hlt => by omega⟩
  by_contra hle
  have := hmin c.toNat (List.mem_filter.mpr ⟨List.mem_map_of_mem hc, by simpa using hle⟩)
  omega

theorem filter_le_eq (cs : List Char) (m : Nat) :
    cs.filter (·.toNat ≤ m) = cs.filter (·.toNat < m + 1) :=
  List.filter_congr fun _ _ => decide_eq_decide.mpr Nat.lt_succ_iff.symm

/-- Fewer characters are left behind the smallest code point. -/
theorem length_filter_lt {codes : List Nat} {code : Nat}
    (hm : (codes.filter (code ≤ ·)).min? = some m) :
    (codes.filter (m + 1 ≤ ·)).length < (codes.filter (code ≤ ·)).length := by
  have hmem := List.min?_mem hm
  have hcode : code ≤ m := by simpa using (List.mem_filter.mp hmem).2
  have hsub : codes.filter (m + 1 ≤ ·) = (codes.filter (code ≤ ·)).filter (m + 1 ≤ ·) := by
    rw [List.filter_filter]
    refine List.filter_congr fun c _ => ?_
    rw [← Bool.decide_and]
    exact decide_eq_decide.mpr ⟨fun h => ⟨h, by omega⟩, And.left⟩
  rw [hsub]
  exact List.length_filter_lt_length_iff_exists.mpr ⟨m, hmem, by simp⟩

/-- All characters from a code on are read to their places. -/
theorem readCodes_writeCodes {cs : List Char} (hlength : cs.length ≤ longestLabel) {left : Nat}
    (hleft : ((cs.map Char.toNat).filter (p.code ≤ ·)).length < left)
    (h : Abreast basic p.code 0 p n i (cs.filter (·.toNat < p.code))) {fuel : Nat}
    (hfuel : (writeCodes basic (cs.map Char.toNat) left p).length ≤ fuel) :
    readCodes fuel (writeCodes basic (cs.map Char.toNat) left p) n i p.bias
      (cs.filter (·.toNat < p.code)) = some cs := by
  induction left generalizing p n i fuel with
  | zero => exact absurd hleft (Nat.not_lt_zero _)
  | succ left ih =>
      rw [writeCodes] at hfuel ⊢
      cases hmin : ((cs.map Char.toNat).filter (p.code ≤ ·)).min? with
      | none =>
          have hall : cs.filter (·.toNat < p.code) = cs := by
            rw [List.min?_eq_none_iff, List.filter_eq_nil_iff] at hmin
            refine List.filter_eq_self.mpr fun c hc => ?_
            simpa using hmin c.toNat (List.mem_map_of_mem hc)
          simp only [readCodes, hall]
      | some m =>
          have hcode : p.code ≤ m := by
            simpa using (List.mem_filter.mp (List.min?_mem hmin)).2
          have hheld := held_of_min hmin
          simp only [hmin] at hfuel ⊢
          have hstart : Abreast basic m 0
              { p with delta := p.delta + (m - p.code) * (p.handled + 1), code := m } n i
              (held m [] cs) := by
            rw [hheld]
            refine ⟨h.handled, ?_, Nat.le_trans h.code hcode, h.first, h.basic_le⟩
            have hplace := h.place
            have hn := h.code
            have hsum : m - n = (p.code - n) + (m - p.code) := by omega
            simp only
            rw [hsum, Nat.add_mul]
            omega
          obtain ⟨fuel', n', i', hfuel', hread, hend⟩ := readCodes_writeCode []
            (by simpa using hlength) hstart _ hfuel
          rw [List.nil_append, filter_le_eq] at hread hend
          rw [← hheld]
          refine hread.trans (ih (p := { (writeCode basic m _ _).2 with
            code := m + 1, delta := (writeCode basic m _ _).2.delta + 1 }) ?_ ?_ hfuel')
          · have hfewer := length_filter_lt hmin
            simp only
            omega
          · refine ⟨hend.handled, ?_, Nat.le_succ_of_le hend.code, hend.first, hend.basic_le⟩
            have hplace := hend.place
            have hhandled := hend.handled
            have hn := hend.code
            have hsum : m + 1 - n' = (m - n') + 1 := by omega
            simp only
            rw [hsum, Nat.add_mul]
            omega

end

/-! ## Labels -/

/-- Only digits are written. -/
def Written (cs : List Char) : Prop := ∀ c ∈ cs, ∃ n < 36, c = digit n

theorem written_writeNumber (fuel q k bias : Nat) : Written (writeNumber fuel q k bias) := by
  induction fuel generalizing q k with
  | zero => exact fun c hc => absurd hc List.not_mem_nil
  | succ fuel ih =>
      have hle := threshold_le k bias
      by_cases hq : q < threshold k bias
      · rw [writeNumber_last fuel hq]
        intro c hc
        exact ⟨q, by omega, List.mem_singleton.mp hc⟩
      · rw [writeNumber_more fuel (Nat.not_lt.mp hq)]
        intro c hc
        rcases List.mem_cons.mp hc with rfl | hc
        · refine ⟨_, ?_, rfl⟩
          have hmod : (q - threshold k bias) % (base - threshold k bias) <
              base - threshold k bias := Nat.mod_lt _ (by rw [base]; omega)
          simp only [base] at hmod ⊢
          omega
        · exact ih _ _ c hc

theorem written_writeCode (basic m : Nat) (codes : List Nat) (p : Progress) :
    Written (writeCode basic m codes p).1 := by
  induction codes generalizing p with
  | nil => exact fun c hc => absurd hc List.not_mem_nil
  | cons c codes ih =>
      rcases Nat.lt_trichotomy c m with hlt | rfl | hgt
      · rw [writeCode_lt hlt]
        exact ih _
      · rw [writeCode_self]
        exact List.forall_mem_append.mpr ⟨written_writeNumber _ _ _ _, ih _⟩
      · rw [writeCode_gt hgt]
        exact ih _

theorem written_writeCodes (basic : Nat) (codes : List Nat) (left : Nat) (p : Progress) :
    Written (writeCodes basic codes left p) := by
  induction left generalizing p with
  | zero => exact fun c hc => absurd hc List.not_mem_nil
  | succ left ih =>
      rw [writeCodes]
      split
      · exact fun c hc => absurd hc List.not_mem_nil
      · exact List.forall_mem_append.mpr ⟨written_writeCode _ _ _ _, ih _⟩

theorem digit_ne_hyphen : ∀ n < 36, digit n ≠ '-' := by decide

theorem Written.ne_hyphen {cs : List Char} (h : Written cs) : ∀ c ∈ cs, c ≠ '-' := by
  intro c hc
  obtain ⟨n, hn, rfl⟩ := h c hc
  exact digit_ne_hyphen n hn

/-- The characters of ASCII of a label. -/
def asciiPart (cs : List Char) : List Char := cs.filter (·.toNat < 0x80)

/-- The digits that stand for the other characters. -/
def digits (cs : List Char) : List Char :=
  writeCodes (asciiPart cs).length (cs.map Char.toNat) (cs.length + 1)
    ⟨initialCode, 0, initialBias, (asciiPart cs).length⟩

theorem written_digits (cs : List Char) : Written (digits cs) := written_writeCodes _ _ _ _

theorem encode_eq (cs : List Char) :
    encode cs = (if asciiPart cs = [] then [] else asciiPart cs ++ ['-']) ++ digits cs := by
  simp only [encode, List.length_eq_zero_iff]
  rfl

theorem readCodes_digits {cs : List Char} (h : cs.length ≤ longestLabel) (fuel : Nat)
    (hfuel : (digits cs).length ≤ fuel) :
    readCodes fuel (digits cs) initialCode 0 initialBias (asciiPart cs) = some cs := by
  refine readCodes_writeCodes (p := ⟨initialCode, 0, initialBias, (asciiPart cs).length⟩) h ?_ ?_
    hfuel
  · exact Nat.lt_succ_of_le (Nat.le_trans (List.length_filter_le _ _) (by simp))
  · exact ⟨rfl, by simp, Nat.le_refl _, by simp, Nat.le_refl _⟩

/-- The digits stand behind the last hyphen. -/
theorem takeWhile_digits (cs : List Char) {front : List Char} (hfront : front.getLast? = some '-') :
    ((front ++ digits cs).reverse.takeWhile (· ≠ '-')).reverse = digits cs := by
  obtain ⟨init, rfl⟩ := List.getLast?_eq_some_iff.mp hfront
  rw [List.reverse_append, List.takeWhile_append_of_pos fun c hc =>
    decide_eq_true ((written_digits cs).ne_hyphen c (List.mem_reverse.mp hc))]
  simp

/-- A label that is not all ASCII has digits. -/
theorem digits_ne_nil {cs : List Char} {c : Char} (hc : c ∈ cs) (hcode : 0x80 ≤ c.toNat) :
    digits cs ≠ [] := by
  have hmem : c.toNat ∈ (cs.map Char.toNat).filter (initialCode ≤ ·) :=
    List.mem_filter.mpr ⟨List.mem_map_of_mem hc, decide_eq_true hcode⟩
  rw [digits, writeCodes]
  split
  · rename_i hmin
    rw [List.min?_eq_none_iff] at hmin
    rw [hmin] at hmem
    exact absurd hmem List.not_mem_nil
  · rename_i m hmin
    have hfound := List.mem_of_mem_filter (List.min?_mem hmin)
    have hwritten : ∀ (codes : List Nat) (p : Progress), m ∈ codes →
        (writeCode (asciiPart cs).length m codes p).1 ≠ [] := by
      intro codes
      induction codes with
      | nil => exact fun p h => absurd h List.not_mem_nil
      | cons d codes ih =>
          intro p h
          rcases Nat.lt_trichotomy d m with hlt | rfl | hgt
          · rw [writeCode_lt hlt]
            exact ih _ ((List.mem_cons.mp h).resolve_left (by omega))
          · rw [writeCode_self]
            exact List.append_ne_nil_of_left_ne_nil (writeNumber_ne_nil 63 _ _ _) _
          · rw [writeCode_gt hgt]
            exact ih _ ((List.mem_cons.mp h).resolve_left (by omega))
    exact List.append_ne_nil_of_left_ne_nil (hwritten _ _ hfound) _

/-- A label is decoded from its encoded form. -/
theorem decode?_encode {cs : List Char} (h : cs.length ≤ longestLabel) :
    decode? (encode cs) = some cs := by
  have hascii : (asciiPart cs).any (0x80 ≤ ·.toNat) = false := by
    rw [List.any_eq_false]
    intro c hc
    simpa using (List.mem_filter.mp hc).2
  rw [encode_eq]
  split
  · rename_i hnone
    have htail : ((digits cs).reverse.takeWhile (· ≠ '-')).reverse = digits cs := by
      rw [List.takeWhile_eq_self_iff.mpr, List.reverse_reverse]
      exact fun c hc =>
        decide_eq_true ((written_digits cs).ne_hyphen c (List.mem_reverse.mp hc))
    have hhead : (digits cs).head? ≠ some '-' := fun hc =>
      (written_digits cs).ne_hyphen '-' (List.mem_of_head? hc) rfl
    have hread := readCodes_digits h _ (Nat.le_refl _)
    rw [hnone] at hread
    rw [List.nil_append, decode?]
    simp only [htail, if_true, List.any_nil, hhead, decide_false, Bool.false_and, Bool.or_false,
      Bool.false_eq_true, if_false, hread]
  · rename_i hsome
    have htail := takeWhile_digits cs (List.getLast?_append_cons (asciiPart cs) '-' [])
    have hlength : (asciiPart cs ++ ['-'] ++ digits cs).length - (digits cs).length - 1 =
        (asciiPart cs).length := by
      simp only [List.length_append, List.length_cons, List.length_nil]
      omega
    have hne : ¬ (digits cs).length = (asciiPart cs ++ ['-'] ++ digits cs).length := by
      simp
      omega
    have htake : (asciiPart cs ++ ['-'] ++ digits cs).take (asciiPart cs).length = asciiPart cs := by
      simp
    have hread := readCodes_digits h (asciiPart cs ++ ['-'] ++ digits cs).length
      (by simp only [List.length_append]; omega)
    have hfilled : (asciiPart cs).isEmpty = false := by
      simpa using hsome
    rw [decode?]
    simp only [htail, hne, if_false, hlength, htake, hascii, hfilled, Bool.and_false, Bool.or_false,
      Bool.false_eq_true, hread]

/-! ## How many digits there are -/

section

variable {m : Nat} {p : Progress} {before rest : List Nat}

end

end ClientSession.Punycode
