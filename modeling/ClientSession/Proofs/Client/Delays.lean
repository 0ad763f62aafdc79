import ClientSession.Proofs.Client.Attempts
import Mathlib.Algebra.Order.Ring.Int

/-!
# The delays of a policy

A policy doubles its base delay with each retry up to its ceiling, in machine words: the power of
two, the product and the count of milliseconds all stop at the largest number of their size.

- `RetryPolicy.min_factor`: where the product is cut off, the power of two may be as well.
- `RetryPolicy.backoff_eq`: none of the cut-offs shows but the last one.
- `RetryPolicy.backoff_doubles`: what the delays of a policy are, and that there always is one.
-/

namespace ClientSession

namespace Span

theorem ofMillis_le_ofMillis {m n : Int} (h : m ≤ n) : ofMillis m ≤ ofMillis n := by
  show m * nanosPerMilli ≤ n * nanosPerMilli
  exact Int.mul_le_mul_of_nonneg_right h (by decide)

/-- A sum that does not fault is the exact one. -/
theorem nanos_of_plus {a b sum : Span} (h : a.plus b = .ok sum) :
    sum.nanos = a.nanos + b.nanos := by
  unfold plus at h
  dsimp only at h
  split at h
  · cases h
    rfl
  · cases h

end Span

namespace RetryPolicy

variable {p : RetryPolicy}

/-- A product that is cut off at the largest word does not tell a power of two from the largest
word, where the power is larger. -/
theorem min_factor (base retry : Nat) :
    min (base * factor retry) maxWord = min (base * 2 ^ retry) maxWord := by
  unfold factor
  by_cases hretry : retry < 64
  · rw [if_pos hretry]
    rfl
  · rw [if_neg hretry]
    rcases base.eq_zero_or_pos with rfl | hbase
    · simp
    · have hpower : maxWord ≤ 2 ^ retry :=
        calc maxWord ≤ 2 ^ 64 := by decide
          _ ≤ 2 ^ retry := Nat.pow_le_pow_right (by decide) (Nat.le_of_not_lt hretry)
      rw [Nat.min_eq_right (Nat.le_mul_of_pos_left maxWord hbase),
        Nat.min_eq_right (Nat.le_trans hpower (Nat.le_mul_of_pos_left _ hbase))]

/-- The milliseconds of the back-off, over all natural numbers. -/
def backoffMillis (p : RetryPolicy) (retry : Nat) : Nat :=
  min (min (p.baseDelayMs * 2 ^ retry) p.maxDelayMs) (2 ^ 63 - 1)

theorem backoff_eq (p : RetryPolicy) (retry : Nat) :
    p.backoff retry = Span.ofMillis (p.backoffMillis retry) := by
  have hcount : Span.maxCount = 2 ^ 63 - 1 ∧ Span.maxCount ≤ maxWord := by decide
  unfold backoff Span.clampedMillis backoffMillis
  rw [min_factor, ← hcount.1]
  congr 1
  omega

theorem backoffMillis_le {r s : Nat} (h : r ≤ s) : p.backoffMillis r ≤ p.backoffMillis s := by
  have hproduct : p.baseDelayMs * 2 ^ r ≤ p.baseDelayMs * 2 ^ s :=
    Nat.mul_le_mul_left _ (Nat.pow_le_pow_right (by decide) h)
  unfold backoffMillis
  omega

/-- A random part that fits 63 bits is added to the back-off as it is. -/
theorem nanos_of_delay {retry jitter : Nat} {span : Span} (h : p.delay retry jitter = .ok span)
    (hjitter : jitter ≤ 2 ^ 63 - 1) :
    span.nanos = (p.backoff retry).nanos + (Span.ofMillis jitter).nanos := by
  have hfits : jitter ≤ Span.maxCount := hjitter
  unfold delay at h
  rw [if_pos hfits] at h
  exact Span.nanos_of_plus h

/-- The back-off before a retry is the base delay, doubled once for each retry before it, up to the
ceiling and to the largest count of milliseconds; so a later retry never waits less. Whatever random
part is drawn there is a delay, between the back-off and that with all of the random part, and a
part that fits 63 bits is all of what is added. A client always finds such a delay to sleep for. -/
theorem backoff_doubles (p : RetryPolicy) :
    (∀ retry, p.backoff retry =
      Span.ofMillis (min (min (p.baseDelayMs * 2 ^ retry) p.maxDelayMs) (2 ^ 63 - 1) : Nat)) ∧
    (∀ r s, r ≤ s → p.backoff r ≤ p.backoff s) ∧
    (∀ retry jitter, jitter ≤ p.jitterMs → ∃ span, p.delay retry jitter = .ok span ∧
      p.backoff retry ≤ span ∧
      span.nanos ≤ (p.backoff retry).nanos + (Span.ofMillis p.jitterMs).nanos ∧
      (jitter ≤ 2 ^ 63 - 1 →
        span.nanos = (p.backoff retry).nanos + (Span.ofMillis jitter).nanos)) ∧
    ∀ retry now c, ∃ span c', p.backoff retry ≤ span ∧
      span.nanos ≤ (p.backoff retry).nanos + (Span.ofMillis p.jitterMs).nanos ∧
      Client.backOff p retry now c = Activity.sleep span now c' := by
  refine ⟨p.backoff_eq, fun r s h => ?_, fun retry jitter h => ?_, fun retry now c => ?_⟩
  · rw [backoff_eq, backoff_eq]
    exact Span.ofMillis_le_ofMillis (Int.ofNat_le.mpr (backoffMillis_le h))
  · obtain ⟨span, hspan, hleast, hmost⟩ := p.delay_eq_ok retry h
    exact ⟨span, hspan, hleast, hmost, nanos_of_delay hspan⟩
  · obtain ⟨span, c', ⟨hleast, hmost⟩, hback⟩ := Client.backOff_eq p retry now c
    exact ⟨span, c', hleast, hmost, hback⟩

/-- No number of it could be larger. -/
def boundless : RetryPolicy := ⟨maxWord, maxWord, maxUnsigned32, maxWord⟩

/-- The largest back-off of all stands from the first retry to the last one, and the largest random
part that can be drawn does not fit 63 bits. -/
theorem backoff_doubles_boundless :
    boundless.backoff 64 = Span.ofMillis (2 ^ 63 - 1) ∧
    (64 ≤ maxUnsigned32 ∧ boundless.backoff 64 ≤ boundless.backoff maxUnsigned32) ∧
    (maxWord ≤ boundless.jitterMs ∧ ∃ span, boundless.delay 64 maxWord = .ok span ∧
      boundless.backoff 64 ≤ span ∧
      span.nanos ≤ (boundless.backoff 64).nanos + (Span.ofMillis maxWord).nanos) ∧
    (2 ^ 63 - 1 ≤ boundless.jitterMs ∧ ∃ span, boundless.delay 64 (2 ^ 63 - 1) = .ok span ∧
      span.nanos = (boundless.backoff 64).nanos + (Span.ofMillis (2 ^ 63 - 1)).nanos) := by
  obtain ⟨hbackoff, hlater, hdelay, -⟩ := boundless.backoff_doubles
  obtain ⟨most, hmost, hleast, hbound, -⟩ := hdelay 64 maxWord (Nat.le_refl _)
  obtain ⟨fit, hfit, -, -, hexact⟩ := hdelay 64 (2 ^ 63 - 1) (by decide)
  have hlargest : boundless.backoff 64 = Span.ofMillis (2 ^ 63 - 1) :=
    (hbackoff 64).trans (by decide)
  exact ⟨hlargest, ⟨by decide, hlater 64 maxUnsigned32 (by decide)⟩,
    ⟨Nat.le_refl _, most, hmost, hleast, hbound⟩,
    by decide, fit, hfit, hexact (Nat.le_refl _)⟩

end RetryPolicy

end ClientSession
