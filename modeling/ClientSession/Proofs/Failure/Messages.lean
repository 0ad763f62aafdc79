import ClientSession.Failure.ApiError
import ClientSession.Proofs.Text.Numerals
import Mathlib.Order.Bounds.Basic

/-!
# What an error says

An error names the seconds of a wait, or else carries what the server says about the failure. Both
miss a rare case. A wait is cut to milliseconds before it is rounded up to seconds, so that one that
passes a whole second by less than a millisecond is announced as that second. And of the two fields
that may explain a response only the first text is looked at, so that a blank one hides the other.

- `announces_wait`: the one number that an error and its user are told, and when it is the least
  that covers the wait.
- `surfaces_explanation`: when the message is the explanation of the server, and what the details
  are.
-/

namespace ClientSession

/-! ## The seconds of a wait -/

namespace Span

/-- The span passes a whole second, and by less than a millisecond. -/
def Grazes (w : Span) : Prop :=
  0 < w.nanos % nanosPerSecond ∧ w.nanos % nanosPerSecond < nanosPerMilli

instance (w : Span) : Decidable w.Grazes := inferInstanceAs (Decidable (_ ∧ _))

variable {w : Span}

theorem coveringSeconds_eq (h : 0 ≤ w.nanos) :
    w.coveringSeconds = (w.nanos / 1000000 + 999) / 1000 := by
  have hms : w.wholeMillis = w.nanos / 1000000 := Int.tdiv_eq_ediv_of_nonneg h
  rw [coveringSeconds, hms, Int.tdiv_eq_ediv_of_nonneg (by omega)]

theorem le_ofSeconds_iff {k : Int} : w ≤ ofSeconds k ↔ w.nanos ≤ k * 1000000000 := Iff.rfl

/-- The covering seconds are not one too many, and leave out less than a millisecond. -/
theorem coveringSeconds_bounds (h : 0 ≤ w.nanos) :
    (w.coveringSeconds - 1) * nanosPerSecond < w.nanos ∧
      w.nanos < w.coveringSeconds * nanosPerSecond + nanosPerMilli := by
  rw [coveringSeconds_eq h, nanosPerSecond, nanosPerMilli]
  omega

theorem le_coveringSeconds_iff (h : 0 ≤ w.nanos) :
    w ≤ ofSeconds w.coveringSeconds ↔ ¬w.Grazes := by
  rw [le_ofSeconds_iff, coveringSeconds_eq h, Grazes, nanosPerSecond, nanosPerMilli]
  omega

theorem isLeast_coveringSeconds_iff (h : 0 ≤ w.nanos) :
    IsLeast {k | w ≤ ofSeconds k} w.coveringSeconds ↔ ¬w.Grazes := by
  refine ⟨fun hleast => (le_coveringSeconds_iff h).mp hleast.1, fun hw =>
    ⟨(le_coveringSeconds_iff h).mpr hw, fun k hk => ?_⟩⟩
  have hfew := (coveringSeconds_bounds h).1
  have hk : w.nanos ≤ k * 1000000000 := le_ofSeconds_iff.mp hk
  rw [nanosPerSecond] at hfew
  omega

end Span

/-- The seconds can be told from the message. -/
theorem rateLimitMessage_inj {m n : Int} : rateLimitMessage m = rateLimitMessage n ↔ m = n := by
  refine ⟨fun h => ?_, congrArg rateLimitMessage⟩
  unfold rateLimitMessage at h
  rw [String.append_left_inj, String.append_right_inj] at h
  exact Text.toString_injective h

/-- A header asks for no negative wait. -/
theorem retryAfter?_nonneg {text : String} {now : Instant} {wait : Span}
    (h : retryAfter? text now = some wait) : 0 ≤ wait.nanos := by
  simp only [retryAfter?] at h
  split at h
  · cases h
    exact Int.mul_nonneg (Int.natCast_nonneg _) (by decide)
  · split at h
    · split at h
      · rename_i hpos
        cases h
        exact (of_decide_eq_true hpos).le
      · cases h
    · cases h

/-- The wait that a response with the status 429 stands for is not negative. -/
theorem responseWait_nonneg (r : Response) (now : Instant) :
    0 ≤ ((r.retryAfter? now).getD defaultRetryAfter).nanos := by
  cases h : r.retryAfter? now with
  | none => decide
  | some wait =>
      obtain ⟨text, -, htext⟩ := Option.bind_eq_some_iff.mp h
      exact retryAfter?_nonneg htext

namespace FailureKind

/-- What the error of a response says when the server explains nothing. -/
def fallback : FailureKind → String
  | .auth => "Your session has expired. Please sign in again."
  | .server => "Server error. Please try again later."
  | .validation => "The request was rejected as invalid."
  | .permission => "You do not have permission to do that."
  | .rateLimit | .timeout | .network | .unknown => "Unexpected response from the server."

end FailureKind

theorem kindOfStatus_fallback (status : Nat) :
    (kindOfStatus status).1 ≠ .rateLimit ∧
      (kindOfStatus status).2 = (kindOfStatus status).1.fallback := by
  unfold kindOfStatus
  split
  · decide
  · split
    · decide
    · split <;> decide

/-- A response whose status is not 429 has the fallback of its kind, and no limit is behind it. -/
theorem classify_response {r : Response} (h : r.status ≠ 429) (now : Instant) :
    ∃ kind : FailureKind, kind ≠ .rateLimit ∧
      classify (.response r) now = responseError kind kind.fallback r := by
  simp only [classify, if_neg h]
  split
  · exact ⟨.auth, by decide, rfl⟩
  · obtain ⟨hne, heq⟩ := kindOfStatus_fallback r.status
    exact ⟨_, hne, congrArg (responseError _ · r) heq⟩

/-- What is classified as too many calls is a refusal for that reason, or a response with the status
429; its message is made from the wait that the error carries. -/
theorem classify_rateLimit {raw : RawFailure} {now : Instant}
    (hkind : (classify raw now).kind = .rateLimit) :
    ∃ status wait, classify raw now = rateLimitError status wait raw ∧
      (raw = .refused (.rateLimited wait) ∨ 0 ≤ wait.nanos) := by
  rcases raw with failure | r | f
  · cases failure with
    | rateLimited wait => exact ⟨_, wait, rfl, .inl rfl⟩
    | missingToken => cases hkind
    | unauthorized message => cases hkind
  · by_cases h : r.status = 429
    · exact ⟨_, _, if_pos h, .inr (responseWait_nonneg r now)⟩
    · obtain ⟨kind, hne, heq⟩ := classify_response h now
      rw [heq] at hkind
      exact absurd hkind hne
  · simp only [classify] at hkind
    split at hkind <;> cases hkind

section Announced

variable {raw : RawFailure} {now : Instant}

/-- An error about too many calls announces one number of seconds, to its caller and to the user. It
is short of the wait by less than a millisecond, and never a second too long; it is the least that
covers the wait if and only if the wait does not graze a second. -/
theorem announces_wait (hkind : (classify raw now).kind = .rateLimit)
    (hraw : ∀ wait, raw = .refused (.rateLimited wait) → 0 ≤ wait.nanos) :
    ∃ (wait : Span) (n : Int), (classify raw now).retryAfter = some wait ∧ 0 ≤ wait.nanos ∧
      (∀ m, (classify raw now).message = rateLimitMessage m ↔ m = n) ∧
      (∀ m, (classify raw now).userMessage = rateLimitMessage m ↔ m = n) ∧
      (IsLeast {k | wait ≤ Span.ofSeconds k} n ↔ ¬wait.Grazes) ∧
      (n - 1) * Span.nanosPerSecond < wait.nanos ∧
      wait.nanos < n * Span.nanosPerSecond + Span.nanosPerMilli := by
  obtain ⟨status, wait, heq, hwait⟩ := classify_rateLimit hkind
  have hnonneg : 0 ≤ wait.nanos := hwait.elim (hraw wait) id
  have hsays : ∀ m, rateLimitMessage wait.coveringSeconds = rateLimitMessage m ↔
      m = wait.coveringSeconds := fun m => rateLimitMessage_inj.trans eq_comm
  rw [heq]
  exact ⟨wait, wait.coveringSeconds, rfl, hnonneg, hsays, hsays,
    Span.isLeast_coveringSeconds_iff hnonneg, Span.coveringSeconds_bounds hnonneg⟩

/-- A wait of one second and half a millisecond is announced as one second. -/
def grazingWait : Span := .ofMicros 1000500

theorem announces_grazingWait :
    (classify (.refused (.rateLimited grazingWait)) ⟨0⟩).kind = .rateLimit ∧
      0 ≤ grazingWait.nanos ∧
      ∃ (wait : Span) (n : Int),
        (classify (.refused (.rateLimited grazingWait)) ⟨0⟩).retryAfter = some wait ∧
          (IsLeast {k | wait ≤ Span.ofSeconds k} n ↔ ¬wait.Grazes) := by
  have hkind : (classify (.refused (.rateLimited grazingWait)) ⟨0⟩).kind = .rateLimit := rfl
  have hwait : ∀ wait, RawFailure.refused (.rateLimited grazingWait) =
      .refused (.rateLimited wait) → 0 ≤ wait.nanos := by
    rintro _ ⟨⟩
    decide
  obtain ⟨wait, n, hretry, -, -, -, hleast, -⟩ := announces_wait hkind hwait
  exact ⟨hkind, hwait _ rfl, wait, n, hretry, hleast⟩

/-- The seconds announced do not always cover the wait. -/
theorem not_announces_covering :
    ¬∀ (raw : RawFailure) (now : Instant), (classify raw now).kind = .rateLimit →
      (∀ wait, raw = .refused (.rateLimited wait) → 0 ≤ wait.nanos) →
      ∃ (wait : Span) (n : Int), (classify raw now).retryAfter = some wait ∧
        (classify raw now).message = rateLimitMessage n ∧
        (classify raw now).userMessage = rateLimitMessage n ∧
        IsLeast {k | wait ≤ Span.ofSeconds k} n := by
  intro h
  obtain ⟨wait, n, hretry, hsays, -, hleast⟩ := h (.refused (.rateLimited grazingWait)) ⟨0⟩ rfl
    (by rintro _ ⟨⟩; decide)
  obtain rfl : grazingWait = wait := Option.some.inj hretry
  obtain rfl : grazingWait.coveringSeconds = n := rateLimitMessage_inj.mp hsays
  exact absurd hleast.1 (by decide)

end Announced

/-! ## The explanation of the server -/

namespace Text

/-- The text has a character that is not blank. -/
def Readable (s : String) : Prop := ∃ c ∈ s.toList, isBlank c = false

theorem isAllBlank_eq_false_iff {s : String} : isAllBlank s = false ↔ Readable s := by
  simp [isAllBlank, Readable]

theorem isAllBlank_iff {s : String} : isAllBlank s = true ↔ ¬Readable s := by
  rw [← isAllBlank_eq_false_iff, Bool.not_eq_false]

instance (s : String) : Decidable (Readable s) :=
  decidable_of_iff (isAllBlank s = false) isAllBlank_eq_false_iff

end Text

theorem FailureKind.readable_fallback (kind : FailureKind) : Text.Readable kind.fallback := by
  cases kind <;> decide +kernel

namespace Response

/-- The texts in the fields `message` and `error` of a JSON body, in this order. -/
def remarks (r : Response) : List String :=
  ["message", "error"].filterMap fun name => (r.json?.bind (·.field? name)).bind Json.text?

/-- What the server says about the failure: the first remark that can be read. -/
def explanation? (r : Response) : Option String :=
  r.remarks.find? fun text => decide (Text.Readable text)

variable {r : Response}

theorem serverMessage?_eq (r : Response) :
    r.serverMessage? = r.remarks.head?.filter fun text => decide (Text.Readable text) := by
  rw [remarks, List.head?_filterMap]
  unfold serverMessage?
  cases r.json? with
  | none => rfl
  | some body =>
      simp only [Option.bind_eq_bind, Option.bind_some]
      cases ["message", "error"].findSome? fun name => (body.field? name).bind Json.text? with
      | none => rfl
      | some text => simp [Option.filter, Text.isAllBlank_iff]

theorem readable_explanation {text : String} (h : r.explanation? = some text) :
    Text.Readable text :=
  of_decide_eq_true (List.find?_some (p := fun text => decide (Text.Readable text)) h)

/-- The first remark is the message, and a blank one hides those after it. -/
theorem serverMessage?_cases (r : Response) :
    (∃ text ∈ r.remarks.head?, ¬Text.Readable text) ∧ r.serverMessage? = none ∨
      (∀ text ∈ r.remarks.head?, Text.Readable text) ∧ r.serverMessage? = r.explanation? := by
  rw [serverMessage?_eq, explanation?]
  cases r.remarks with
  | nil => exact .inr ⟨nofun, rfl⟩
  | cons text rest =>
      by_cases h : Text.Readable text
      · refine .inr ⟨fun _ ht => Option.some.inj ht ▸ h, ?_⟩
        simp [Option.filter, h]
      · exact .inl ⟨⟨text, rfl, h⟩, by simp [Option.filter, h]⟩

end Response

/-- The message of the error of a response with a status other than 429 is the explanation of the
server, or the fallback of the kind without one, if and only if the first remark can be read or no
explanation is lost by it; a blank first remark leaves the fallback. The message is never blank, and
the details are what the server sent along. -/
theorem surfaces_explanation (r : Response) (now : Instant) (h : r.status ≠ 429) :
    let e := classify (.response r) now
    (e.message = r.explanation?.getD e.kind.fallback ↔
      (∀ text ∈ r.remarks.head?, Text.Readable text) ∨
        ∀ text ∈ r.explanation?, text = e.kind.fallback) ∧
      ((∃ text ∈ r.remarks.head?, ¬Text.Readable text) → e.message = e.kind.fallback) ∧
      Text.Readable e.message ∧
      e.details = match r.json? with
        | some body => some body
        | none => if Text.Readable r.body then some (.string r.body) else none := by
  obtain ⟨kind, -, heq⟩ := classify_response h now
  simp only [heq, responseError]
  have hdetails : r.failureDetails? = match r.json? with
      | some body => some body
      | none => if Text.Readable r.body then some (.string r.body) else none := by
    cases hbody : r.json? <;> simp [Response.failureDetails?, hbody, Text.isAllBlank_iff]
  rcases r.serverMessage?_cases with ⟨⟨text, htext, hblank⟩, hnone⟩ | ⟨hread, hsome⟩
  · rw [hnone, Option.getD_none]
    refine ⟨?_, fun _ => rfl, kind.readable_fallback, hdetails⟩
    have hnot : ¬∀ text ∈ r.remarks.head?, Text.Readable text := fun hall =>
      hblank (hall text htext)
    simp only [hnot, false_or]
    cases r.explanation? <;> simp [eq_comm]
  · rw [hsome]
    refine ⟨iff_of_true rfl (.inl hread), ?_, ?_, hdetails⟩
    · rintro ⟨text, htext, hblank⟩
      exact absurd (hread text htext) hblank
    · cases hexp : r.explanation? with
      | none => exact kind.readable_fallback
      | some text => exact Response.readable_explanation hexp

/-- The text of an error behind a message that is blank. -/
def blankMessageResponse : Response :=
  ⟨500, Table.empty, "\x7b\"message\":\" \",\"error\":\"quota exceeded\"\x7d"⟩

theorem surfaces_explanation_blankMessage :
    blankMessageResponse.status ≠ 429 ∧
      (classify (.response blankMessageResponse) ⟨0⟩).message =
        (classify (.response blankMessageResponse) ⟨0⟩).kind.fallback := by
  have hblank : ∃ text ∈ blankMessageResponse.remarks.head?, ¬Text.Readable text := by
    decide +kernel
  have hstatus : blankMessageResponse.status ≠ 429 := by decide
  exact ⟨hstatus, (surfaces_explanation blankMessageResponse ⟨0⟩ hstatus).2.1 hblank⟩

/-- An explanation is not always the message. -/
theorem not_surfaces_explanation :
    ¬∀ (r : Response) (now : Instant), r.isSuccess = false → r.status ≠ 429 →
      (classify (.response r) now).message =
        r.explanation?.getD (classify (.response r) now).kind.fallback := by
  intro h
  have hsays := h blankMessageResponse ⟨0⟩ (by decide) (by decide)
  revert hsays
  decide +kernel

end ClientSession
