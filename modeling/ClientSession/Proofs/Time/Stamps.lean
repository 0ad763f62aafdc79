import ClientSession.Proofs.Text.Numerals
import ClientSession.Time.Rfc3339
import Mathlib

/-!
# Stamps, their fields and their text

Every day has one date, which exists and stands for that day, and every instant has one date and
one time of day. A stamp of universal time has a text exactly when its year has four digits, and is
what is read from it, to the nanosecond.

- `Date.yearOfDay_spec`, `Date.monthAndDay_spec`: the year that a day belongs to, and the month and
  the day in it, for months of any lengths.
- `Date.toDay_ofDay`, `Stamp.ofFields_fields`: days and stamps are made again of their fields.
- `Rfc3339.write?_eq_none_iff`, `Rfc3339.read?_write?`: the text of a stamp and its reading.
-/

namespace ClientSession

namespace Date

/-! ## Years -/

/-- A day lies between the first day of its year and that of the next. -/
theorem yearOfDay_spec (n : Int) :
    daysBeforeYear (yearOfDay n) ≤ n ∧ n < daysBeforeYear (yearOfDay n + 1) := by
  simp only [yearOfDay]
  split
  · simp only [daysBeforeYear] at *
    omega
  · split
    · simp only [daysBeforeYear] at *
      omega
    · simp only [daysBeforeYear] at *
      omega

theorem sum_monthLengths (year : Int) :
    ((monthLengths year).sum : Int) = daysBeforeYear (year + 1) - daysBeforeYear year := by
  have hleap : isLeap year = true ↔ (year % 4 = 0 ∧ year % 100 ≠ 0) ∨ year % 400 = 0 := by
    simp [isLeap]
  simp only [monthLengths, daysBeforeYear, List.sum_cons, List.sum_nil]
  by_cases h : isLeap year = true
  · rw [if_pos h]
    have hyear := hleap.mp h
    omega
  · rw [if_neg h]
    have hyear := mt hleap.mpr h
    omega

/-! ## Months -/

/-- The days of a year fall into its months. -/
theorem monthAndDay_spec (lengths : List Nat) (first n : Nat) (h : n < lengths.sum) :
    ∃ i day, monthAndDay lengths first n = (first + i, day + 1) ∧ i < lengths.length ∧
      day < lengths.getD i 0 ∧ n = (lengths.take i).sum + day := by
  induction lengths generalizing first n with
  | nil => exact absurd h (Nat.not_lt_zero n)
  | cons length lengths ih =>
      rw [monthAndDay]
      by_cases hn : n < length
      · rw [if_pos hn]
        exact ⟨0, n, rfl, Nat.zero_lt_succ _, hn, by simp⟩
      · rw [if_neg hn]
        rw [List.sum_cons] at h
        obtain ⟨i, day, hmonth, hi, hday, hsum⟩ := ih (first + 1) (n - length) (by omega)
        refine ⟨i + 1, day, ?_, Nat.succ_lt_succ hi, ?_, ?_⟩
        · rw [hmonth, Nat.add_assoc, Nat.add_comm 1 i]
        · simpa using hday
        · rw [List.take_succ_cons, List.sum_cons]
          omega

theorem length_monthLengths (year : Int) : (monthLengths year).length = 12 := rfl

/-- The date of a day: it exists within its year, and the days before it make up the day. -/
theorem ofDay_spec (day : Int) :
    let d := ofDay day
    1 ≤ d.month ∧ d.month ≤ 12 ∧ 1 ≤ d.day ∧ d.day ≤ monthLength d.year d.month ∧
      daysBeforeYear d.year + (d.dayOfYear : Int) = day + epochDay := by
  have hyear := yearOfDay_spec (day + epochDay)
  have hlength := sum_monthLengths (yearOfDay (day + epochDay))
  have hmonths := length_monthLengths (yearOfDay (day + epochDay))
  obtain ⟨i, r, hmonth, hi, hr, hsum⟩ := monthAndDay_spec
    (monthLengths (yearOfDay (day + epochDay))) 1
    (day + epochDay - daysBeforeYear (yearOfDay (day + epochDay))).toNat (by omega)
  simp only [ofDay, hmonth, monthLength, dayOfYear, Nat.add_sub_cancel_left, Nat.add_sub_cancel]
  have hfold : ∀ (lengths : List Nat) (n : Nat), lengths.foldl (· + ·) n = lengths.sum + n := by
    intro lengths
    induction lengths with
    | nil => exact fun n => (Nat.zero_add n).symm
    | cons length lengths ih =>
        intro n
        rw [List.foldl_cons, ih, List.sum_cons]
        omega
  rw [hfold]
  omega

/-- The date of a day stands for the day. -/
theorem toDay_ofDay (day : Int) : (ofDay day).toDay = day := by
  have hdays := (ofDay_spec day).2.2.2.2
  rw [toDay]
  omega

/-- The date of a day exists as far as its year has at most four digits. -/
theorem valid_ofDay {day : Int} (hfirst : -9999 ≤ (ofDay day).year) (hlast : (ofDay day).year ≤ 9999) :
    (ofDay day).Valid := by
  obtain ⟨hmonth, hmonth', hday, hday', -⟩ := ofDay_spec day
  exact ⟨hfirst, hlast, hmonth, hmonth', hday, hday'⟩

end Date

namespace ClockTime

theorem toNanos_ofNanos (n : Nat) : (ofNanos n).toNanos = n := by
  simp only [toNanos, ofNanos]
  omega

theorem valid_ofNanos {n : Nat} (h : n < 86400000000000) : (ofNanos n).Valid := by
  simp only [Valid, ofNanos]
  omega

end ClockTime

namespace Stamp

theorem valid_time (s : Stamp) : s.time.Valid := by
  refine ClockTime.valid_ofNanos ?_
  simp only [nanosPerDay]
  omega

/-- A stamp is made again of its date, its time and its offset. -/
theorem ofFields_fields (s : Stamp) : ofFields s.date s.time s.offset = s := by
  obtain ⟨⟨nanos⟩, offset⟩ := s
  simp only [ofFields, date, time, Date.toDay_ofDay, ClockTime.toNanos_ofNanos, localNanos,
    nanosPerDay, mk.injEq, Instant.mk.injEq, and_true]
  omega

end Stamp

/-! ## Padded digits -/

namespace Text

theorem toList_padded (width n : Nat) :
    (padded width n).toList =
      List.replicate (width - (Nat.toDigits 10 n).length) '0' ++ Nat.toDigits 10 n := by
  have hlength : (toString n).length = (Nat.toDigits 10 n).length := by
    rw [← String.length_toList, Nat.toString_eq_repr, Nat.toList_repr]
  rw [padded, String.toList_append, String.toList_ofList, hlength, Nat.toString_eq_repr,
    Nat.toList_repr]

theorem length_padded {width n : Nat} (hwidth : 0 < width) (h : n < 10 ^ width) :
    (padded width n).toList.length = width := by
  have hle := (Nat.length_toDigits_le_iff (by decide) hwidth).mpr h
  rw [toList_padded, List.length_append, List.length_replicate]
  omega

theorem isDigit_of_mem_padded {width n : Nat} {c : Char} (h : c ∈ (padded width n).toList) :
    c.isDigit = true := by
  rw [toList_padded, List.mem_append] at h
  rcases h with h | h
  · rw [(List.mem_replicate.mp h).2]
    rfl
  · exact isDigit_of_mem_toDigits h

theorem digits?_padded (width n : Nat) : digits? (padded width n).toList = some n := by
  rw [digits?_eq_ofDigitChars fun _ => isDigit_of_mem_padded, toList_padded,
    Nat.ofDigitChars_append, Nat.ofDigitChars_replicate_zero, Nat.mul_zero,
    Nat.ofDigitChars_ten_toDigits]

theorem isDigit_of_isDigit {c : Char} (h : c.isDigit = true) : isDigit c = true := by
  rw [isDigit, digit?_of_isDigit h]
  rfl

end Text

namespace ClockTime

/-- The zeros at the end of a row of digits can be put back. -/
theorem append_zeros (digits : List Char) :
    (digits.reverse.dropWhile (· = '0')).reverse ++
        List.replicate (digits.length - (digits.reverse.dropWhile (· = '0')).reverse.length) '0' =
      digits := by
  have hsplit := List.takeWhile_append_dropWhile (p := fun c => decide (c = '0'))
    (l := digits.reverse)
  have hzeros : digits.reverse.takeWhile (· = '0') =
      List.replicate (digits.reverse.takeWhile (· = '0')).length '0' := by
    refine List.eq_replicate_iff.mpr ⟨rfl, fun c hc => ?_⟩
    simpa using List.mem_takeWhile_imp hc
  have hlength := congrArg List.length hsplit
  rw [List.length_append, List.length_reverse] at hlength
  have hcount : digits.length - (digits.reverse.dropWhile (· = '0')).reverse.length =
      (digits.reverse.takeWhile (· = '0')).length := by
    rw [List.length_reverse]
    omega
  rw [hcount, ← List.reverse_replicate, ← hzeros, ← List.reverse_append, hsplit,
    List.reverse_reverse]

end ClockTime

namespace Rfc3339

open Text (padded)

theorem takeDigits_padded {count n : Nat} (hcount : 0 < count) (h : n < 10 ^ count)
    (rest : List Char) : takeDigits count ((padded count n).toList ++ rest) = some (n, rest) := by
  have hlength := Text.length_padded hcount h
  have htake : ((padded count n).toList ++ rest).take count = (padded count n).toList :=
    List.take_left' hlength
  have hdrop : ((padded count n).toList ++ rest).drop count = rest := List.drop_left' hlength
  simp only [takeDigits, htake, hlength, if_true, Text.digits?_padded, Option.map_some, hdrop]

/-- The fraction of a second, which is there unless it is zero. -/
def fractionText (nano : Nat) : List Char :=
  if nano = 0 then [] else '.' :: (ClockTime.fraction 0 nano).toList

/-- A fraction is read up to what is no digit, in full. -/
theorem takeFraction_fraction {nano : Nat} (h : nano < 1000000000) {c : Char}
    (hc : Text.isDigit c = false) (hpoint : c ≠ '.') (rest : List Char) :
    takeFraction (fractionText nano ++ c :: rest) = some (nano, c :: rest) := by
  unfold fractionText
  split
  · rename_i hzero
    subst hzero
    unfold takeFraction
    split
    · exact absurd (List.cons.inj ‹_›).1 hpoint
    · rfl
  · rename_i hnano
    have hlength : (padded 9 nano).toList.length = 9 := Text.length_padded (by decide) h
    have hzeros := ClockTime.append_zeros (padded 9 nano).toList
    have htext : (ClockTime.fraction 0 nano).toList =
        ((padded 9 nano).toList.reverse.dropWhile (· = '0')).reverse := by
      simp [ClockTime.fraction]
    rw [← htext, hlength] at hzeros
    have hdigits : ∀ d ∈ (ClockTime.fraction 0 nano).toList, Text.isDigit d = true := by
      intro d hd
      have hmem : d ∈ (padded 9 nano).toList := by
        rw [← hzeros]
        exact List.mem_append_left _ hd
      exact Text.isDigit_of_isDigit (Text.isDigit_of_mem_padded hmem)
    have htake : ((ClockTime.fraction 0 nano).toList ++ c :: rest).takeWhile Text.isDigit =
        (ClockTime.fraction 0 nano).toList := by
      rw [List.takeWhile_append_of_pos hdigits, List.takeWhile_cons, hc]
      simp
    have hdrop : ((ClockTime.fraction 0 nano).toList ++ c :: rest).dropWhile Text.isDigit =
        c :: rest := by
      rw [List.dropWhile_append_of_pos hdigits, List.dropWhile_cons, hc]
      simp
    have hsome : (ClockTime.fraction 0 nano).toList.isEmpty = false := by
      rw [List.isEmpty_eq_false_iff]
      intro hempty
      -- Nine zeros would make the number zero.
      have hread := Text.digits?_padded 9 nano
      rw [← hzeros, hempty] at hread
      exact hnano (Option.some.inj hread).symm
    have hnine : ((ClockTime.fraction 0 nano).toList ++
        List.replicate (9 - (ClockTime.fraction 0 nano).toList.length) '0').take 9 =
          (padded 9 nano).toList := by
      rw [hzeros]
      exact List.take_of_length_le (Nat.le_of_eq hlength)
    rw [List.cons_append, takeFraction]
    simp only [htake, hsome, Bool.false_eq_true, if_false, hnine, Text.digits?_padded, hdrop,
      Option.map_some]

/-! ## Stamps of universal time -/

variable {s : Stamp}

/-- A stamp has no text exactly when its year has no four digits. -/
theorem write?_eq_none_iff (hs : s.offset = 0) :
    write? s = none ↔ ¬ (0 ≤ s.date.year ∧ s.date.year ≤ 9999) := by
  simp only [write?, hs]
  split
  · rename_i h
    simp [h.1, h.2.1]
  · rename_i h
    simpa using h

/-- The characters of the text of a stamp. -/
theorem toList_write? (hs : s.offset = 0) {text : String} (h : write? s = some text) :
    text.toList = (padded 4 s.date.year.toNat).toList ++ '-' :: ((padded 2 s.date.month).toList ++
      '-' :: ((padded 2 s.date.day).toList ++ 'T' :: ((padded 2 s.time.hour).toList ++
      ':' :: ((padded 2 s.time.minute).toList ++ ':' :: ((padded 2 s.time.second).toList ++
      (fractionText s.time.nano ++ ['Z'])))))) := by
  have hfraction : (if s.time.nano = 0 then "" else "." ++ ClockTime.fraction 0 s.time.nano).toList =
      fractionText s.time.nano := by
    unfold fractionText
    split
    · rfl
    · rw [String.toList_append]
      rfl
  have hdash : "-".toList = ['-'] := rfl
  have hcolon : ":".toList = [':'] := rfl
  have hletter : "T".toList = ['T'] := rfl
  have hzone : (writeOffset 0).toList = ['Z'] := rfl
  simp only [write?, hs] at h
  split at h
  · rw [← Option.some.inj h]
    simp only [String.toList_append, hfraction, hdash, hcolon, hletter, hzone, List.append_assoc,
      List.cons_append, List.nil_append]
  · cases h

theorem monthLength_le (year : Int) (month : Nat) : Date.monthLength year month ≤ 31 := by
  have hall : ∀ length ∈ Date.monthLengths year, length ≤ 31 := by
    simp only [Date.monthLengths, List.forall_mem_cons]
    split <;> decide
  rw [Date.monthLength, List.getD_eq_getElem?_getD]
  cases hget : (Date.monthLengths year)[month - 1]? with
  | none => exact Nat.zero_le 31
  | some length => exact hall length (List.mem_of_getElem? hget)

/-- A stamp of universal time is what is read from its text. -/
theorem read?_write? (hs : s.offset = 0) {text : String} (h : write? s = some text) :
    read? text = some s := by
  have hyear : 0 ≤ s.date.year ∧ s.date.year ≤ 9999 := by
    by_contra hno
    rw [(write?_eq_none_iff hs).mpr hno] at h
    cases h
  have hdate : s.date.Valid := Date.valid_ofDay (Int.le_trans (by decide) hyear.1) hyear.2
  have htime : s.time.Valid := s.valid_time
  have hday : s.date.day ≤ 31 := Nat.le_trans hdate.2.2.2.2.2 (monthLength_le _ _)
  obtain ⟨-, -, -, hmonth, -, -⟩ := hdate
  obtain ⟨hhour, hminute, hsecond, hnano⟩ := htime
  have hminus : ∀ cs, takeChar '-' ('-' :: cs) = some cs := fun _ => rfl
  have hcolon : ∀ cs, takeChar ':' (':' :: cs) = some cs := fun _ => rfl
  have hzone : takeOffset ['Z'] = some (0, []) := rfl
  have hletter : 'T'.toNat < 0x80 := by decide
  have hyear' : ((s.date.year.toNat : Nat) : Int) = s.date.year := by omega
  have hstamp : stamp? ⟨s.date.year.toNat, s.date.month, s.date.day⟩ s.time.hour s.time.minute
      s.time.second s.time.nano 0 = some s := by
    have hleap : ¬ s.time.second = 60 := by omega
    have hvalid : s.date.Valid ∧ s.time.Valid :=
      ⟨Date.valid_ofDay (Int.le_trans (by decide) hyear.1) hyear.2, s.valid_time⟩
    have hfields := s.ofFields_fields
    rw [hs] at hfields
    simp only [stamp?, hyear', hleap, if_false, false_and, hfields]
    exact if_pos hvalid
  rw [read?, toList_write? hs h]
  simp only [takeDigits_padded (show 0 < 4 by decide) (show s.date.year.toNat < 10 ^ 4 by omega),
    takeDigits_padded (show 0 < 2 by decide) (show s.date.month < 10 ^ 2 by omega),
    takeDigits_padded (show 0 < 2 by decide) (show s.date.day < 10 ^ 2 by omega),
    takeDigits_padded (show 0 < 2 by decide) (show s.time.hour < 10 ^ 2 by omega),
    takeDigits_padded (show 0 < 2 by decide) (show s.time.minute < 10 ^ 2 by omega),
    takeDigits_padded (show 0 < 2 by decide) (show s.time.second < 10 ^ 2 by omega),
    takeFraction_fraction hnano (c := 'Z') (by decide) (by decide), hminus, hcolon, hletter, hzone,
    bind, Option.bind, if_true, hstamp]
  rfl

end Rfc3339

end ClientSession
