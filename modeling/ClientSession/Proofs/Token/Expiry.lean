import ClientSession.Proofs.Tabs.Remaining

/-!
# When claims expire

Claims end with a second, and the clock is read to the nanosecond. Whether they have expired is
asked in three ways: the whole seconds of the clock are compared with the end, the reading itself is
compared with the instant of the end, and the seconds that remain are counted. All three agree
before and after 1970, as rounding the clock down leaves the time to a whole second rounded up.

- `Claims.isExpiredAt_iff`: the comparison of seconds is the one of instants.
- `Claims.secondsUp_since_ends`: the seconds that are counted are the time that is left, rounded up.
- `Claims.expiry_agrees`: the three ways at any reading of a clock, and what a tab that remembers
  the end gives then.
-/

namespace ClientSession

/-! ## Readings of a clock -/

namespace Instant

/-- How far from UTC a clock may be, in seconds: by less than 26 hours. -/
def largestOffset : Int := 26 * 3600 - 1

/-- A clock can read the instant: at some offset from UTC it is shown as a date of the calendar. -/
def Readable (t : Instant) : Prop :=
  ∃ offset : Int, -largestOffset ≤ offset ∧ offset ≤ largestOffset ∧
    (⟨t.nanos + offset * Span.nanosPerSecond⟩ : Instant).InCalendar

/-- The offset may lead out of the calendar, but not far. -/
theorem Readable.floorSeconds_bounds {t : Instant} (h : t.Readable) :
    firstSecond - largestOffset ≤ t.floorSeconds ∧ t.floorSeconds ≤ lastSecond + largestOffset := by
  obtain ⟨offset, hleast, hmost, hshown⟩ := h
  have hfloor : (⟨t.nanos + offset * Span.nanosPerSecond⟩ : Instant).floorSeconds =
      t.floorSeconds + offset := Int.add_mul_ediv_right _ _ (by decide)
  have hfirst := firstSecond_le hshown
  have hlast := le_lastSecond hshown
  rw [hfloor] at hfirst hlast
  omega

end Instant

/-! ## The end of claims -/

namespace Claims

variable {c : Claims} {now : Instant}

theorem floorSeconds_ends (c : Claims) : c.ends.floorSeconds = c.expiry :=
  Int.mul_ediv_cancel _ (by decide)

/-- Claims end with a second, so an end that the calendar has is given exactly. -/
theorem expiresAt_of_inCalendar (h : c.ends.InCalendar) : c.expiresAt = .ok c.ends := by
  have hread := Instant.ofSeconds?_floorSeconds h
  rw [Instant.startOfSecond, floorSeconds_ends] at hread
  rw [expiresAt, hread]
  rfl

/-- Whole seconds suffice to tell whether a whole second has come. -/
theorem isExpiredAt_iff : c.isExpiredAt now = true ↔ c.ends ≤ now := by
  rw [isExpiredAt, decide_eq_true_iff]
  exact Int.le_ediv_iff_mul_le (by decide)

/-- Rounding the clock down is rounding up what is left to a whole second. -/
theorem secondsUp_since_ends (c : Claims) (now : Instant) :
    (c.ends.since now).secondsUp = c.expiry - now.floorSeconds := by
  show -(-(c.expiry * 1000000000 - now.nanos) / 1000000000) = c.expiry - now.nanos / 1000000000
  omega

/-- From any reading of a clock, the seconds to an end that the calendar has can be counted. -/
theorem signed64_rest (hc : c.ends.InCalendar) (hnow : now.Readable) :
    Json.Signed64 (c.expiry - now.floorSeconds) := by
  have hfirst := Instant.firstSecond_le hc
  have hlast := Instant.le_lastSecond hc
  have hbounds := hnow.floorSeconds_bounds
  rw [floorSeconds_ends] at hfirst hlast
  simp only [Instant.firstSecond, Instant.lastSecond, Instant.largestOffset, Json.Signed64,
    maxSigned64] at *
  omega

/-- What remains is the time to the end, rounded up to whole seconds and never negative. -/
theorem remainingAt_eq_secondsUp (hc : c.ends.InCalendar) (hnow : now.Readable) :
    c.remainingAt now = .ok (Span.ofSeconds (max (c.ends.since now).secondsUp 0)) := by
  rw [remainingAt_eq, if_pos (signed64_rest hc hnow), secondsUp_since_ends]

theorem secondsUp_le_zero_iff : (c.ends.since now).secondsUp ≤ 0 ↔ c.isExpiredAt now = true := by
  rw [Span.secondsUp_le_iff, isExpiredAt_iff]
  show c.ends.nanos - now.nanos ≤ 0 * Span.nanosPerSecond ↔ c.ends.nanos ≤ now.nanos
  omega

end Claims

theorem Span.ofSeconds_eq_zero_iff {n : Int} : ofSeconds n = zero ↔ n = 0 := by
  rw [ofSeconds, zero, Span.mk.injEq]
  exact Int.mul_eq_zero.trans (or_iff_left (by decide))

/-- A session that is remembered under the end of claims lasts until they have expired. -/
theorem SessionCache.isLive_eq_not_isExpiredAt {k : SessionCache} {c : Claims}
    (h : k.expiresAt = some c.ends) (now : Instant) : k.isLive now = !c.isExpiredAt now := by
  rw [isLive, h, Bool.eq_iff_iff, decide_eq_true_iff, Bool.not_eq_true', ← Bool.not_eq_true,
    Claims.isExpiredAt_iff]
  exact Int.not_le.symm

/-- For claims whose end is an instant of the calendar and at any reading of a clock, to the
nanosecond and before 1970 as well: the end is given, and the time that remains is told. The seconds
of the clock have reached the end if and only if the clock has, and if and only if no time remains.
Otherwise the time to the end remains, rounded up to whole seconds. A tab that remembers that end
gives the token and the claims that it remembers as long as the claims have not expired, and then
none. -/
theorem Claims.expiry_agrees {c : Claims} {now : Instant} (hc : c.ends.InCalendar)
    (hnow : now.Readable) :
    ∃ e left, c.expiresAt = .ok e ∧ c.remainingAt now = .ok left ∧
      (c.isExpiredAt now = true ↔ e ≤ now) ∧ (e ≤ now ↔ left = Span.zero) ∧
      (¬e ≤ now → left = Span.ofSeconds (e.since now).secondsUp) ∧
      ∀ k : SessionCache, k.expiresAt = some e →
        k.liveToken? now = (if c.isExpiredAt now then none else k.token) ∧
          k.liveClaims? now = (if c.isExpiredAt now then none else k.claims) := by
  refine ⟨c.ends, _, expiresAt_of_inCalendar hc, remainingAt_eq_secondsUp hc hnow, isExpiredAt_iff,
    ?_, fun hlasts => ?_, fun k hk => ?_⟩
  · have hmax : ∀ n : Int, max n 0 = 0 ↔ n ≤ 0 := by omega
    rw [Span.ofSeconds_eq_zero_iff, hmax, secondsUp_le_zero_iff, isExpiredAt_iff]
  · rw [← isExpiredAt_iff, ← secondsUp_le_zero_iff, Int.not_le] at hlasts
    rw [Int.max_eq_left (Int.le_of_lt hlasts)]
  · have hlive := SessionCache.isLive_eq_not_isExpiredAt hk now
    rw [SessionCache.liveToken?, SessionCache.liveClaims?, hlive]
    cases c.isExpiredAt now <;> exact ⟨rfl, rfl⟩

/-- Claims that end a second before 1970. -/
def lastBefore1970 : Claims := ⟨"u1", -1, none, none, .many [], Table.empty⟩

/-- A nanosecond before their end a second remains of them, and a tab that remembers that end still
gives the token. -/
theorem Claims.expiry_agrees_lastBefore1970 :
    let now : Instant := ⟨-1000000001⟩
    lastBefore1970.ends.InCalendar ∧ now.Readable ∧
      lastBefore1970.expiresAt = .ok ⟨-1000000000⟩ ∧ lastBefore1970.isExpiredAt now = false ∧
      lastBefore1970.remainingAt now = .ok (Span.ofSeconds 1) ∧
      SessionCache.liveToken? ⟨some ⟨"t1"⟩, some ⟨-1000000000⟩, none⟩ now = some ⟨"t1"⟩ := by
  have hc : lastBefore1970.ends.InCalendar := by decide
  have hnow : Instant.Readable ⟨-1000000001⟩ := ⟨0, by decide, by decide, by decide⟩
  obtain ⟨e, left, he, hleft, hexpired, -, hrest, hcache⟩ := expiry_agrees hc hnow
  obtain rfl : (⟨-1000000000⟩ : Instant) = e := Except.ok.inj he
  have hlasts : ¬(⟨-1000000000⟩ : Instant) ≤ ⟨-1000000001⟩ := by decide
  have hvalid : lastBefore1970.isExpiredAt ⟨-1000000001⟩ = false :=
    Bool.eq_false_iff.mpr (mt hexpired.mp hlasts)
  have htoken := (hcache ⟨some ⟨"t1"⟩, some ⟨-1000000000⟩, none⟩ rfl).1
  rw [hvalid] at htoken
  rw [hrest hlasts] at hleft
  exact ⟨hc, hnow, he, hvalid, hleft, htoken⟩

end ClientSession
