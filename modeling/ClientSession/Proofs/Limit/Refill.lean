import ClientSession.Limit.Bucket
import Mathlib.Algebra.Order.Ring.Int

/-!
# When a bucket is refilled

A refill does nothing until a whole interval has passed since the last one. Then the bucket is full,
and the instant of the refill has moved to the last whole number of intervals that has passed. So a
second refill at the same instant does nothing.

- `Bucket.refill_eq`: what a refill does, in these two cases.
- `Bucket.refill_refill`, `Bucket.refill_refill_of_le`: a second refill at the same instant, and one
  that is left out before another.
- `Bucket.plus_timeToNext`: the time to the next refill can be told where the calendar has it.
-/

namespace ClientSession

namespace EndpointLimit

variable (l : EndpointLimit)

/-- An interval is a count of milliseconds. -/
theorem exists_interval : ∃ n : Int, 0 ≤ n ∧ (0 < l.intervalMs → 0 < n) ∧
    l.interval.nanos = n * Span.nanosPerMilli ∧ l.interval.wholeMillis = n := by
  refine ⟨min (l.intervalMs : Int) (Span.maxCount : Int), ?_, fun h => ?_, rfl, ?_⟩
  · exact le_min (Int.natCast_nonneg _) (Int.natCast_nonneg _)
  · exact lt_min (Int.natCast_pos.mpr h) (by decide)
  · exact Int.mul_tdiv_cancel _ (by decide)

theorem nanos_interval_pos (h : 0 < l.intervalMs) : 0 < l.interval.nanos := by
  obtain ⟨n, -, hpos, hn, -⟩ := l.exists_interval
  rw [hn]
  exact Int.mul_pos (hpos h) (by decide)

end EndpointLimit

namespace Bucket

/-- A whole interval has passed since the last refill. -/
def Due (b : Bucket) (l : EndpointLimit) (now : Instant) : Prop :=
  b.lastRefill < now ∧ b.lastRefill.nanos + l.interval.nanos ≤ now.nanos

instance (b : Bucket) (l : EndpointLimit) (now : Instant) : Decidable (b.Due l now) :=
  inferInstanceAs (Decidable (_ ∧ _))

/-- The last instant that is a whole number of intervals after the last refill and has come; without
an interval every instant is one. -/
def lastStart (b : Bucket) (l : EndpointLimit) (now : Instant) : Instant :=
  if l.interval.nanos = 0 then now
  else
    ⟨b.lastRefill.nanos +
      (now.nanos - b.lastRefill.nanos) / l.interval.nanos * l.interval.nanos⟩

variable {b : Bucket} {l : EndpointLimit} {now : Instant}

/-- The whole intervals since the last refill are the same in milliseconds as exactly. -/
theorem wholeMillis_since_ediv (h : b.lastRefill < now) :
    (now.since b.lastRefill).wholeMillis / l.interval.wholeMillis =
      (now.nanos - b.lastRefill.nanos) / l.interval.nanos := by
  obtain ⟨n, hn, -, hnanos, hmillis⟩ := l.exists_interval
  have helapsed : 0 ≤ now.nanos - b.lastRefill.nanos := Int.sub_nonneg.mpr (Int.le_of_lt h)
  rw [hnanos, hmillis, Span.wholeMillis, Instant.since, Int.tdiv_eq_ediv_of_nonneg helapsed,
    Int.ediv_ediv_of_nonneg (by decide), Int.mul_comm n]

theorem refill_of_not_due (h : ¬b.Due l now) : b.refill l now = b := by
  unfold refill
  by_cases hpassed : now ≤ b.lastRefill
  · rw [if_pos hpassed]
  have hlt : b.lastRefill < now := Int.not_le.mp hpassed
  have hlt' : b.lastRefill.nanos < now.nanos := hlt
  -- An interval that is nothing would have passed.
  have hsoon : now.nanos < b.lastRefill.nanos + l.interval.nanos := by
    by_contra hdue
    exact h ⟨hlt, Int.not_lt.mp hdue⟩
  obtain ⟨n, hn, -, hnanos, hmillis⟩ := l.exists_interval
  have hpos : 0 < n := by
    refine lt_of_le_of_ne hn fun hzero => ?_
    rw [hnanos, ← hzero] at hsoon
    omega
  have hcount : (now.nanos - b.lastRefill.nanos) / l.interval.nanos = 0 :=
    Int.ediv_eq_zero_of_lt (by omega) (by omega)
  rw [if_neg hpassed]
  dsimp only
  rw [wholeMillis_since_ediv hlt, hcount, hmillis, if_neg (Int.not_le.mpr hpos), if_pos rfl]

theorem refill_of_due (h : b.Due l now) : b.refill l now = ⟨l.capacity, b.lastStart l now⟩ := by
  obtain ⟨hlt, hdue⟩ := h
  obtain ⟨n, hn, -, hnanos, hmillis⟩ := l.exists_interval
  have hpassed : ¬now ≤ b.lastRefill := Int.not_le.mpr hlt
  unfold refill lastStart
  rw [if_neg hpassed]
  dsimp only
  rw [wholeMillis_since_ediv hlt, hmillis]
  by_cases hzero : n = 0
  · rw [if_pos (le_of_eq hzero), if_pos (by rw [hnanos, hzero, Int.zero_mul])]
  have hpos : 0 < l.interval.nanos := by
    rw [hnanos]
    exact Int.mul_pos (by omega) (by decide)
  have hcount : 1 ≤ (now.nanos - b.lastRefill.nanos) / l.interval.nanos :=
    Int.le_ediv_of_mul_le hpos (by omega)
  have hfull : l.capacity ≤ b.tokens +
      ((now.nanos - b.lastRefill.nanos) / l.interval.nanos).toNat * l.capacity := by
    have htimes := Nat.le_mul_of_pos_left l.capacity (Int.pos_iff_toNat_pos.mp hcount)
    omega
  rw [if_neg (by omega), if_neg (by omega), if_neg (Int.ne_of_gt hpos), Nat.min_eq_right hfull,
    Span.ofMillis, hnanos, Int.mul_assoc]

/-- A refill fills the bucket up once a whole interval has passed, and does nothing before. -/
theorem refill_eq (b : Bucket) (l : EndpointLimit) (now : Instant) :
    b.refill l now = if b.Due l now then ⟨l.capacity, b.lastStart l now⟩ else b := by
  split
  · exact refill_of_due ‹_›
  · exact refill_of_not_due ‹_›

/-- After a refill no whole interval has passed. -/
theorem not_due_refill (b : Bucket) (l : EndpointLimit) (now : Instant) :
    ¬(b.refill l now).Due l now := by
  by_cases hdue : b.Due l now
  · rw [refill_of_due hdue, Due, lastStart]
    obtain ⟨n, hn, -, hnanos, -⟩ := l.exists_interval
    split
    · exact fun h => Int.lt_irrefl _ h.1
    · rename_i hzero
      rintro ⟨-, hpassed⟩
      dsimp only at hpassed
      have hpos : 0 < l.interval.nanos := by
        refine lt_of_le_of_ne ?_ (Ne.symm hzero)
        rw [hnanos]
        exact Int.mul_nonneg hn (by decide)
      have hrest := Int.lt_ediv_add_one_mul_self (now.nanos - b.lastRefill.nanos) hpos
      rw [Int.add_mul, Int.one_mul] at hrest
      omega
  · rw [refill_of_not_due hdue]
    exact hdue

theorem refill_refill (b : Bucket) (l : EndpointLimit) (now : Instant) :
    (b.refill l now).refill l now = b.refill l now :=
  refill_of_not_due (b.not_due_refill l now)

theorem tokens_refill_le (h : b.tokens ≤ l.capacity) (now : Instant) :
    (b.refill l now).tokens ≤ l.capacity := by
  rw [refill_eq]
  split
  · exact le_refl _
  · exact h

theorem refill_full (l : EndpointLimit) (now : Instant) : (full l now).refill l now = full l now :=
  refill_of_not_due fun h => Int.lt_irrefl _ h.1

theorem nanos_interval_nonneg (l : EndpointLimit) : 0 ≤ l.interval.nanos := by
  obtain ⟨n, hn, -, hnanos, -⟩ := l.exists_interval
  rw [hnanos]
  exact Int.mul_nonneg hn (by decide)

/-- The starts of intervals are the same, counted from an earlier one of them. -/
theorem lastStart_lastStart (b : Bucket) (l : EndpointLimit) (t now : Instant) (tokens : Nat) :
    lastStart ⟨tokens, b.lastStart l t⟩ l now = b.lastStart l now := by
  unfold lastStart
  by_cases hzero : l.interval.nanos = 0
  · rw [if_pos hzero, if_pos hzero]
  · rw [if_neg hzero, if_neg hzero, if_neg hzero]
    dsimp only
    generalize (t.nanos - b.lastRefill.nanos) / l.interval.nanos = k
    have hsub : now.nanos - (b.lastRefill.nanos + k * l.interval.nanos) =
        now.nanos - b.lastRefill.nanos + -k * l.interval.nanos := by
      rw [Int.neg_mul]
      omega
    rw [hsub, Int.add_mul_ediv_right _ _ hzero, Int.add_mul, Int.neg_mul]
    congr 1
    omega

/-- While the next start of an interval is still to come, the last one is where it was. -/
theorem lastStart_of_not_due {t now : Instant} {tokens : Nat} (h : t.nanos ≤ now.nanos)
    (hdue : ¬Due ⟨tokens, b.lastStart l t⟩ l now) : b.lastStart l t = b.lastStart l now := by
  unfold Due lastStart at hdue
  unfold lastStart
  by_cases hzero : l.interval.nanos = 0
  · -- Without an interval every later instant is a start.
    rw [if_pos hzero] at hdue
    rw [if_pos hzero, if_pos hzero]
    have hsame : t.nanos = now.nanos := by
      by_contra hne
      have hlt : t.nanos < now.nanos := lt_of_le_of_ne h hne
      exact hdue ⟨hlt, by dsimp only; omega⟩
    exact congrArg Instant.mk hsame
  · rw [if_neg hzero] at hdue
    rw [if_neg hzero, if_neg hzero]
    have hpos : 0 < l.interval.nanos := lt_of_le_of_ne (nanos_interval_nonneg l) (Ne.symm hzero)
    have hbegun := Int.ediv_mul_le (t.nanos - b.lastRefill.nanos) hzero
    have hmono : (t.nanos - b.lastRefill.nanos) / l.interval.nanos ≤
        (now.nanos - b.lastRefill.nanos) / l.interval.nanos :=
      Int.ediv_le_ediv hpos (Int.sub_le_sub_right h _)
    have hsoon : (now.nanos - b.lastRefill.nanos) / l.interval.nanos <
        (t.nanos - b.lastRefill.nanos) / l.interval.nanos + 1 := by
      rw [Int.ediv_lt_iff_lt_mul hpos, Int.add_mul, Int.one_mul]
      by_contra hpassed
      have hlt : b.lastRefill.nanos +
          (t.nanos - b.lastRefill.nanos) / l.interval.nanos * l.interval.nanos < now.nanos := by
        omega
      exact hdue ⟨hlt, by dsimp only; omega⟩
    rw [le_antisymm hmono (Int.lt_add_one_iff.mp hsoon)]

/-- A refill in between does not change what a later one does. -/
theorem refill_refill_of_le (b : Bucket) (l : EndpointLimit) {t now : Instant}
    (h : t.nanos ≤ now.nanos) : (b.refill l t).refill l now = b.refill l now := by
  by_cases hdue : b.Due l t
  · have hlater : b.Due l now := ⟨Int.lt_of_lt_of_le hdue.1 h, Int.le_trans hdue.2 h⟩
    rw [refill_of_due hdue, refill_of_due hlater, refill_eq]
    split
    · rw [lastStart_lastStart]
    · rw [lastStart_of_not_due h ‹_›]
  · rw [refill_of_not_due hdue]

/-- A bucket that was made a whole number of intervals before is as one that is made now. -/
theorem refill_full_of_dvd {t now : Instant} (h : t.nanos ≤ now.nanos)
    (hwhole : l.interval.nanos = 0 ∨ l.interval.nanos ∣ now.nanos - t.nanos) :
    (full l t).refill l now = full l now := by
  by_cases hsame : t.nanos = now.nanos
  · obtain rfl : t = now := congrArg Instant.mk hsame
    exact refill_full l t
  · have hlt : t.nanos < now.nanos := lt_of_le_of_ne h hsame
    by_cases hzero : l.interval.nanos = 0
    · have hdue : (full l t).Due l now := ⟨hlt, by dsimp only [full]; omega⟩
      rw [refill_of_due hdue, lastStart, if_pos hzero]
      rfl
    · have hdvd := hwhole.resolve_left hzero
      have hle := Int.le_of_dvd (by omega) hdvd
      have hdue : (full l t).Due l now := ⟨hlt, by dsimp only [full]; omega⟩
      rw [refill_of_due hdue, lastStart, if_neg hzero]
      dsimp only [full]
      rw [Int.ediv_mul_cancel hdvd]
      congr 2
      omega

/-! ## How long until the next refill -/

/-- The instant at which the next interval is over. -/
def nextRefill (b : Bucket) (l : EndpointLimit) : Instant :=
  ⟨b.lastRefill.nanos + l.interval.nanos⟩

theorem timeToNext_of_inCalendar (h : (b.nextRefill l).InCalendar) (now : Instant) :
    ∃ wait, b.timeToNext l now = .ok wait ∧
      (now.nanos + wait.nanos = now.nanos ∨
        now.nanos + wait.nanos = (b.nextRefill l).nanos) := by
  unfold timeToNext
  split
  · exact ⟨_, rfl, .inl (Int.add_zero _)⟩
  · have hplus? : b.lastRefill.plus? l.interval = some (b.nextRefill l) := if_pos h
    have hplus : b.lastRefill.plus l.interval = .ok (b.nextRefill l) := by
      rw [Instant.plus, hplus?]
    rw [hplus]
    refine ⟨_, rfl, ?_⟩
    split
    · exact .inl (Int.add_zero _)
    · exact .inr (add_sub_cancel _ _)

/-- The time to the next refill can be told, and the instant at which it is over. -/
theorem plus_timeToNext (hnow : now.InCalendar) (h : (b.nextRefill l).InCalendar) :
    ∃ wait next, b.timeToNext l now = .ok wait ∧ now.plus wait = .ok next := by
  obtain ⟨wait, hwait, hover⟩ := timeToNext_of_inCalendar h now
  have hcalendar : (⟨now.nanos + wait.nanos⟩ : Instant).InCalendar := by
    rcases hover with hover | hover
    · rw [hover]
      exact hnow
    · rw [hover]
      exact h
  have hplus? : now.plus? wait = some ⟨now.nanos + wait.nanos⟩ := if_pos hcalendar
  exact ⟨wait, _, hwait, by rw [Instant.plus, hplus?]⟩

end Bucket

end ClientSession
