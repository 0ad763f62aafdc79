import ClientSession.Proofs.Client.Trials
import Mathlib.Order.Bounds.Defs

/-!
# The attempts of a call

A call that is made again as its policy allows is one call after another, with a rest between two of
them. As far as it has come, it is told by its attempts: where each of them began, through which
halts it went and what it came to. Other work may change the client meanwhile in any way.

- `RetryPolicy.delay_eq_ok`: a delay lies between the back-off and the back-off with all of the
  random part.
- `Client.attempted_of_path`: what a call has come to is told by its attempts.
- `Client.Attempted.isLeast`: the attempts end with the first one that settles the matter, or with
  the last one that the policy allows.
- `Client.settled_after_attempts`: both, of a call with the policy of its client.
-/

namespace ClientSession

open Activity

/-! ## Results of runs -/

namespace Run

variable {σ α : Type} {r : Run σ α} {a : α}

theorem ends_of_result (h : r.result = .ended a) : r.Ends := by
  cases r with
  | done s a => trivial
  | fault s e => cases h
  | stay s => cases h
  | wait s w drop resume => cases h

/-- A run that goes on with more work pauses where its first part does. -/
theorem result_of_bind {f : α → Instant → σ → Run σ α} {now : Instant} (h : ¬r.Ends) :
    (r.bind f now).result = r.result := by
  cases r with
  | done s a => exact absurd trivial h
  | fault s e => rfl
  | stay s => rfl
  | wait s w drop resume => rfl

end Run

/-! ## Delays -/

namespace RetryPolicy

/-- The span lies between the back-off before a retry and that with all of the random part. -/
def Allows (p : RetryPolicy) (retry : Nat) (span : Span) : Prop :=
  (p.backoff retry).nanos ≤ span.nanos ∧
    span.nanos ≤ (p.backoff retry).nanos + (Span.ofMillis p.jitterMs).nanos

theorem nanos_backoff (p : RetryPolicy) (retry : Nat) : 0 ≤ (p.backoff retry).nanos ∧
    (p.backoff retry).nanos ≤ (Span.ofMillis Span.maxCount).nanos := by
  unfold backoff Span.clampedMillis Span.ofMillis Span.nanosPerMilli
  dsimp only
  omega

/-- There is always a delay, and it is one that the policy allows. -/
theorem delay_eq_ok (p : RetryPolicy) (retry : Nat) {jitter : Nat} (h : jitter ≤ p.jitterMs) :
    ∃ span, p.delay retry jitter = .ok span ∧ p.Allows retry span := by
  obtain ⟨hnonneg, hmost⟩ := p.nanos_backoff retry
  generalize hpart : (if jitter ≤ Span.maxCount then (jitter : Int) else 0) = part
  have hle : 0 ≤ part ∧ part ≤ p.jitterMs ∧ part ≤ Span.maxCount := by
    split at hpart <;> omega
  have hbounds : 0 ≤ (Span.ofMillis part).nanos ∧
      (Span.ofMillis part).nanos ≤ (Span.ofMillis p.jitterMs).nanos ∧
        (Span.ofMillis part).nanos ≤ (Span.ofMillis Span.maxCount).nanos := by
    unfold Span.ofMillis Span.nanosPerMilli
    dsimp only
    omega
  have hinRange : Span.InRange ⟨(p.backoff retry).nanos + (Span.ofMillis part).nanos⟩ := by
    unfold Span.ofMillis Span.nanosPerMilli Span.maxCount maxSigned64 at hmost hbounds
    unfold Span.InRange Span.nanosPerSecond maxSigned64
    unfold Span.ofMillis Span.nanosPerMilli
    dsimp only at *
    omega
  refine ⟨⟨(p.backoff retry).nanos + (Span.ofMillis part).nanos⟩, ?_, ?_⟩
  · rw [delay, hpart, Span.plus]
    exact if_pos hinRange
  · exact ⟨by dsimp only; omega, by dsimp only; omega⟩

end RetryPolicy

namespace Client

variable {policy : RetryPolicy} {request : Request} {left done : Nat} {now last : Instant}
  {c : Client} {hs : List (Halt Client)} {r : Run Client CallResult}
  {between : Client → Client → Prop}

theorem draw_le (bound : Nat) (now : Instant) (c : Client) :
    ∃ n c', draw bound now c = .done c' n ∧ n ≤ bound := by
  by_cases h : bound = 0
  · refine ⟨0, c, ?_, Nat.zero_le _⟩
    unfold draw Activity.step
    dsimp only
    rw [if_pos h]
  · refine ⟨c.draws.headD 0 % (bound + 1), { c with draws := c.draws.tail }, ?_, ?_⟩
    · unfold draw Activity.step
      dsimp only
      rw [if_neg h]
    · exact Nat.le_of_lt_succ (Nat.mod_lt _ bound.succ_pos)

/-- A rest between two attempts is a sleep of a length that the policy allows. -/
theorem backOff_eq (policy : RetryPolicy) (done : Nat) (now : Instant) (c : Client) :
    ∃ span c', policy.Allows done span ∧
      backOff policy done now c = Activity.sleep span now c' := by
  obtain ⟨jitter, c', hdraw, hjitter⟩ := draw_le policy.jitterMs now c
  obtain ⟨span, hspan, hallows⟩ := policy.delay_eq_ok done hjitter
  refine ⟨span, c', hallows, ?_⟩
  have hback : backOff policy done now c = (draw policy.jitterMs now c).bind (fun jitter =>
      (Activity.attempt fun _ c => do return (← policy.delay done jitter, c)) >>= Activity.sleep)
        now := rfl
  have hdelay : (Activity.attempt fun _ c => do return (← policy.delay done jitter, c) :
      Activity Client Span) now c' = .done c' span := by
    unfold Activity.attempt
    rw [hspan]
    rfl
  rw [hback, hdraw]
  show ((Activity.attempt _ : Activity Client Span) now c').bind Activity.sleep now = _
  rw [hdelay]
  rfl

/-- A rest of this length has come to its end through these halts; one without a length has none. -/
def Rested (span : Span) (since : Instant) (pauses : List (Halt Client)) (now : Instant)
    (c : Client) : Prop :=
  if span.isPositive then ∃ s, pauses = [⟨s, ⟨.sleep span, ()⟩, now, c⟩]
  else pauses = [] ∧ now = since

/-- Work that goes on after a sleep still sleeps or has gone on. -/
theorem rested_of_path {α : Type} {span : Span} {f : Unit → Activity Client α} {r : Run Client α}
    (h : Run.Path between ((Activity.sleep span now c).bind f now) now hs r last) :
    (hs = [] ∧ ∃ s drop resume, r = .wait s (.sleep span) drop resume) ∨
      ∃ pauses hs' now' c', hs = pauses ++ hs' ∧ Rested span now pauses now' c' ∧
        Run.Path between (f () now' c') now' hs' r last := by
  unfold Activity.sleep at h
  unfold Rested
  cases hspan : span.isPositive with
  | false =>
      rw [hspan] at h
      exact .inr ⟨[], hs, now, c, rfl, ⟨rfl, rfl⟩, h⟩
  | true =>
      rw [hspan] at h
      cases h with
      | here => exact .inl ⟨rfl, _, _, _, rfl⟩
      | @on _ c' _ _ _ _ now' _ _ hs' _ _ h =>
          exact .inr ⟨_, hs', now', c', rfl, ⟨_, rfl⟩, h⟩

/-- Work that goes on after a rest between two attempts still rests or has gone on. -/
theorem backedOff_of_path {α : Type} {f : Unit → Activity Client α} {r : Run Client α}
    (h : Run.Path between ((backOff policy done now c).bind f now) now hs r last) :
    ∃ span, policy.Allows done span ∧
      ((hs = [] ∧ ∃ s drop resume, r = .wait s (.sleep span) drop resume) ∨
        ∃ pauses hs' now' c', hs = pauses ++ hs' ∧ Rested span now pauses now' c' ∧
          Run.Path between (f () now' c') now' hs' r last) := by
  obtain ⟨span, c', hallows, hback⟩ := backOff_eq policy done now c
  rw [hback] at h
  exact ⟨span, hallows, rested_of_path h⟩

/-! ## Attempts -/

/-- No other attempt would be of use: the call has succeeded, or it would fail again. -/
def Decisive : CallResult → Prop
  | .ok _ => True
  | .error e => e.kind = .auth ∨ e.kind = .permission ∨ e.kind = .rateLimit ∨ e.kind = .validation

theorem decisive_error_iff (e : ApiError) : Decisive (.error e) ↔ e.kind.isRetryable = false := by
  have hkind : ∀ kind : FailureKind, (kind = .auth ∨ kind = .permission ∨ kind = .rateLimit ∨
      kind = .validation) ↔ kind.isRetryable = false := by
    intro kind
    cases kind <;> decide
  exact hkind e.kind

/-- An attempt, as far as it has come, and the halt of the rest after it. -/
structure Attempt where
  began : Instant
  start : Client
  halts : List (Halt Client)
  ended : Instant
  /-- What is left of the attempt. -/
  rest : Run Client CallResult
  pauses : List (Halt Client)

namespace Attempt

/-- The attempt has come to an end. -/
def Answers (t : Attempt) (a : CallResult) : Prop := ∃ s, t.rest = .done s a

/-- The attempt is a call that went that way. -/
def Goes (between : Client → Client → Prop) (request : Request) (t : Attempt) : Prop :=
  Run.Path between (send request t.began t.start) t.began t.halts t.rest t.ended

/-- The attempt has come to an end that does not settle the matter. -/
def Fails (t : Attempt) : Prop := ∃ a, t.Answers a ∧ ¬Decisive a

/-- The attempt has failed, and the next one follows after a rest that the policy allows. -/
def Precedes (policy : RetryPolicy) (done : Nat) (t t' : Attempt) : Prop :=
  t.Fails ∧ ∃ span, policy.Allows done span ∧
    Rested span t.ended t.pauses t'.began t'.start

theorem Answers.inj {t : Attempt} {a a' : CallResult} (h : t.Answers a) (h' : t.Answers a') :
    a = a' := by
  obtain ⟨s, hs⟩ := h
  obtain ⟨s', hs'⟩ := h'
  rw [hs] at hs'
  cases hs'
  rfl

/-- The attempt has not come to an end, and the call waits for what it waits for. -/
def IsAt (t : Attempt) (r : Run Client CallResult) : Prop :=
  ¬t.rest.Ends ∧ r.result = t.rest.result

/-- These are the results of the attempts. -/
def CameTo (ts : List Attempt) (o : Nat → CallResult) : Prop :=
  ∀ (k : Nat) (t : Attempt), ts[k]? = some t → t.Answers (o k)

/-- The halts of attempts, one after another. -/
def allHalts (ts : List Attempt) : List (Halt Client) := ts.flatMap fun t => t.halts ++ t.pauses

end Attempt

/-- The call rests after an attempt that has failed, with so many made before it. -/
def BackingOff (policy : RetryPolicy) (done : Nat) (t : Attempt) (r : Run Client CallResult) :
    Prop :=
  t.Fails ∧ ∃ span s drop resume, policy.Allows done span ∧ r = .wait s (.sleep span) drop resume

/-- How a call has come to this by these attempts: how many were left after the first one and how
many had been made before, and where the first of them began. Each is a call of its own; each but
the last one has failed and was followed by the next one after a rest. The call is over when the
last one settles the matter or is the last one left, with its result; otherwise the last one is
being made, or the call rests after it. -/
structure Attempted (between : Client → Client → Prop) (policy : RetryPolicy) (request : Request)
    (left done : Nat) (now : Instant) (c : Client) (r : Run Client CallResult)
    (ts : List Attempt) : Prop where
  most : ts.length ≤ left + 1
  opens : ∃ t, ts.head? = some t ∧ t.began = now ∧ t.start = c
  goes : ∀ t ∈ ts, t.Goes between request
  precedes : ∀ (k : Nat) (t t' : Attempt), ts[k]? = some t → ts[k + 1]? = some t' →
    t.Precedes policy (done + k) t'
  outcome : ∀ a, (∃ s, r = .done s a) ↔
    ∃ t, ts.getLast? = some t ∧ t.Answers a ∧ (Decisive a ∨ ts.length = left + 1)
  ongoing : ¬r.Ends → ∃ n t, ts.length = n + 1 ∧ ts.getLast? = some t ∧
    (t.IsAt r ∨ n < left ∧ BackingOff policy (done + n) t r)

namespace Attempted

theorem ne_nil {ts : List Attempt}
    (h : Attempted between policy request left done now c r ts) : ts ≠ [] := by
  rintro rfl
  obtain ⟨t, ht, -⟩ := h.opens
  cases ht

section Single

variable {t : Attempt} (hgoes : t.Goes between request)
include hgoes

/-- There is one attempt so far. -/
theorem single (houtcome : ∀ a, (∃ s, r = .done s a) ↔ t.Answers a ∧ (Decisive a ∨ left = 0))
    (hongoing : ¬r.Ends → t.IsAt r ∨ 0 < left ∧ BackingOff policy done t r) :
    Attempted between policy request left done t.began t.start r [t] where
  most := Nat.le_add_left 1 left
  opens := ⟨t, rfl, rfl, rfl⟩
  goes t' ht := by
    obtain rfl := List.mem_singleton.mp ht
    exact hgoes
  precedes k t' t'' _ ht := by cases ht
  outcome a := by
    rw [houtcome]
    simp
  ongoing hr := ⟨0, t, rfl, rfl, hongoing hr⟩

/-- The last attempt that is left is all of the call. -/
theorem final (hr : t.rest = r) :
    Attempted between policy request 0 done t.began t.start r [t] := by
  subst hr
  exact single hgoes (fun a => (and_iff_left (.inr rfl)).symm) fun hends => .inl ⟨hends, rfl⟩

/-- The first attempt is being made. -/
theorem under (hat : t.IsAt r) :
    Attempted between policy request left done t.began t.start r [t] := by
  refine single hgoes (fun a => ⟨?_, ?_⟩) fun _ => .inl hat
  · rintro ⟨s, rfl⟩
    exact absurd (Run.ends_of_result hat.2.symm) hat.1
  · rintro ⟨⟨s, hs⟩, -⟩
    rw [Attempt.IsAt, hs] at hat
    exact absurd trivial hat.1

/-- The first attempt settles the matter. -/
theorem settled {s : Client} {a : CallResult} (hrest : t.rest = .done s a) (ha : Decisive a) :
    Attempted between policy request left done t.began t.start (.done s a) [t] := by
  refine single hgoes (fun a' => ⟨?_, ?_⟩) fun hr => absurd trivial hr
  · rintro ⟨s', hs'⟩
    cases hs'
    exact ⟨⟨s, hrest⟩, .inl ha⟩
  · rintro ⟨⟨s', hs'⟩, -⟩
    rw [hrest] at hs'
    cases hs'
    exact ⟨s, rfl⟩

/-- The call rests after the first attempt. -/
theorem backingOff (hleft : 0 < left) (hbacking : BackingOff policy done t r) :
    Attempted between policy request left done t.began t.start r [t] := by
  refine single hgoes (fun a => ⟨?_, ?_⟩) fun _ => .inr ⟨hleft, hbacking⟩
  · rintro ⟨s, hs⟩
    obtain ⟨-, span, s', drop, resume, -, hr⟩ := hbacking
    rw [hr] at hs
    cases hs
  · rintro ⟨ha, hdecisive | hnone⟩
    · obtain ⟨⟨a', ha', hfails⟩, -⟩ := hbacking
      exact absurd (ha.inj ha' ▸ hdecisive) hfails
    · omega

end Single

/-- There is one attempt before these. -/
theorem cons {t : Attempt} {ts : List Attempt} (hgoes : t.Goes between request)
    (hprecedes : ∀ t', t'.began = now → t'.start = c → t.Precedes policy done t')
    (h : Attempted between policy request left (done + 1) now c r ts) :
    Attempted between policy request (left + 1) done t.began t.start r (t :: ts) where
  most := Nat.succ_le_succ h.most
  opens := ⟨t, rfl, rfl, rfl⟩
  goes t' ht := by
    rcases List.mem_cons.mp ht with rfl | ht
    · exact hgoes
    · exact h.goes t' ht
  precedes k t' t'' ht ht' := by
    cases k with
    | zero =>
        obtain rfl := Option.some.inj ht
        obtain ⟨first, hfirst, hnow, hc⟩ := h.opens
        rw [List.head?_eq_getElem?] at hfirst
        obtain rfl := Option.some.inj (hfirst.symm.trans ht')
        exact hprecedes _ hnow hc
    | succ k =>
        have hlater := h.precedes k t' t'' ht ht'
        rwa [Nat.add_right_comm] at hlater
  outcome a := by
    rw [h.outcome a, List.getLast?_cons_of_ne_nil h.ne_nil, List.length_cons, Nat.succ_inj]
  ongoing hr := by
    obtain ⟨n, t', hlength, hlast, hrest⟩ := h.ongoing hr
    refine ⟨n + 1, t', ?_, ?_, hrest.imp_right fun hbacking => ?_⟩
    · rw [List.length_cons, hlength]
    · rw [List.getLast?_cons_of_ne_nil h.ne_nil, hlast]
    · have hcount : done + (n + 1) = done + 1 + n := by omega
      rw [hcount]
      exact ⟨Nat.succ_lt_succ hbacking.1, hbacking.2⟩

section Over

variable {ts : List Attempt} {s : Client} {a : CallResult}
  (h : Attempted between policy request left done now c (.done s a) ts)
include h

/-- The attempts of a call that is over have results. -/
theorem exists_cameTo : ∃ o, Attempt.CameTo ts o := by
  have hresult : ∀ k : Nat, ∃ b, ∀ t, ts[k]? = some t → t.Answers b := by
    intro k
    cases hnext : ts[k + 1]? with
    | some t' =>
        obtain ⟨hk, -⟩ := List.getElem?_eq_some_iff.mp hnext
        obtain ⟨⟨b, hb, -⟩, -⟩ := h.precedes k _ t' (List.getElem?_eq_getElem (by omega)) hnext
        refine ⟨b, fun t ht => ?_⟩
        rw [List.getElem?_eq_getElem (by omega)] at ht
        obtain rfl := Option.some.inj ht
        exact hb
    | none =>
        obtain ⟨t', hlast, hanswers, -⟩ := (h.outcome a).mp ⟨s, rfl⟩
        refine ⟨a, fun t ht => ?_⟩
        obtain ⟨hk, -⟩ := List.getElem?_eq_some_iff.mp ht
        rw [List.getElem?_eq_none_iff] at hnext
        have hend : ts.length - 1 = k := by omega
        rw [List.getLast?_eq_getElem?, hend, ht] at hlast
        obtain rfl := Option.some.inj hlast
        exact hanswers
  choose o ho using hresult
  exact ⟨o, ho⟩

/-- The attempts end with the first one that settles the matter, or with the last one left. -/
theorem isLeast {o : Nat → CallResult} (ho : Attempt.CameTo ts o) :
    ∃ n, ts.length = n + 1 ∧ IsLeast {k | k = left ∨ Decisive (o k)} n ∧ a = o n := by
  obtain ⟨n, hlength⟩ : ∃ n, ts.length = n + 1 :=
    Nat.exists_eq_succ_of_ne_zero fun hnil => h.ne_nil (List.length_eq_zero_iff.mp hnil)
  obtain ⟨t, hlast, hanswers, hends⟩ := (h.outcome a).mp ⟨s, rfl⟩
  rw [List.getLast?_eq_getElem?, hlength, Nat.add_sub_cancel] at hlast
  have ha : a = o n := hanswers.inj (ho n t hlast)
  refine ⟨n, hlength, ⟨?_, fun k hk => ?_⟩, ha⟩
  · rw [ha, hlength, Nat.succ_inj] at hends
    exact hends.symm
  · by_contra hlt
    have hmost := h.most
    -- An attempt before the last one has failed, and it was not the last one left.
    obtain ⟨⟨b, hb, hfails⟩, -⟩ := h.precedes k _ _ (List.getElem?_eq_getElem (by omega))
      (List.getElem?_eq_getElem (by omega))
    obtain rfl := (ho k _ (List.getElem?_eq_getElem (by omega))).inj hb
    rcases hk with rfl | hdecisive
    · omega
    · exact hfails hdecisive

end Over

end Attempted

/-- After an attempt that has failed the call rests, or the others follow. -/
theorem attempted_of_failed {t : Attempt} (hgoes : t.Goes between request) (hfails : t.Fails)
    (hpauses : t.pauses = [])
    (hothers : ∀ {now : Instant} {c : Client} {hs : List (Halt Client)},
      Run.Path between (sendRetrying policy request left (done + 1) now c) now hs r last →
        ∃ ts, Attempted between policy request left (done + 1) now c r ts ∧
          Attempt.allHalts ts = hs)
    (h : Run.Path between ((backOff policy done t.ended c).bind
      (fun _ => sendRetrying policy request left (done + 1)) t.ended) t.ended hs r last) :
    ∃ ts, Attempted between policy request (left + 1) done t.began t.start r ts ∧
      Attempt.allHalts ts = t.halts ++ hs := by
  obtain ⟨span, hallows, hrests⟩ := backedOff_of_path h
  rcases hrests with ⟨rfl, s, drop, resume, rfl⟩ | ⟨pauses, hs', now, c', rfl, hrested, hpath⟩
  · refine ⟨[t], .backingOff hgoes left.succ_pos ⟨hfails, span, s, drop, resume, hallows, rfl⟩, ?_⟩
    simp [Attempt.allHalts, hpauses]
  · obtain ⟨ts, hts, hhalts⟩ := hothers hpath
    -- The first attempt is the one that has failed, together with the rest after it.
    refine ⟨{ t with pauses := pauses } :: ts,
      hts.cons (t := { t with pauses := pauses }) hgoes ?_, ?_⟩
    · rintro t' rfl rfl
      exact ⟨hfails, span, hallows, hrested⟩
    · simp [Attempt.allHalts, ← hhalts]

/-- What a call has come to is told by its attempts. -/
theorem attempted_of_path
    (h : Run.Path between (sendRetrying policy request left done now c) now hs r last) :
    ∃ ts, Attempted between policy request left done now c r ts ∧ Attempt.allHalts ts = hs := by
  -- By induction on the attempts left: one more is told, and the others if it failed.
  induction left generalizing done now c hs with
  | zero =>
      rw [sendRetrying] at h
      exact ⟨_, .final (t := ⟨now, c, hs, last, r, []⟩) h rfl, by simp [Attempt.allHalts]⟩
  | succ left ih =>
      rw [sendRetrying] at h
      cases Run.Path.of_bind h with
      | @within q hfirst hends =>
          exact ⟨_, .under (t := ⟨now, c, hs, last, q, []⟩) hfirst
            ⟨hends, Run.result_of_bind hends⟩, by simp [Attempt.allHalts]⟩
      | @beyond hs₁ hs₂ s a mid _ heq hfirst hrest =>
          subst heq
          cases a with
          | ok response =>
              cases hrest
              exact ⟨_, .settled (t := ⟨now, c, hs₁, last, .done s (.ok response), []⟩) hfirst rfl
                trivial, by simp [Attempt.allHalts]⟩
          | error e =>
              cases hkind : e.kind.isRetryable with
              | false =>
                  simp only [hkind, Bool.false_eq_true, if_false] at hrest
                  cases hrest
                  exact ⟨_, .settled (t := ⟨now, c, hs₁, last, .done s (.error e), []⟩) hfirst rfl
                    ((decisive_error_iff e).mpr hkind), by simp [Attempt.allHalts]⟩
              | true =>
                  -- The retry is counted at once, and then the call rests.
                  simp only [hkind, if_true] at hrest
                  have hfails : ¬Decisive (.error e) := by
                    rw [decisive_error_iff, hkind]
                    exact Bool.noConfusion
                  exact attempted_of_failed (t := ⟨now, c, hs₁, mid, .done s (.error e), []⟩)
                    hfirst ⟨_, ⟨s, rfl⟩, hfails⟩ rfl ih hrest

/-- A call with the policy of its client is told by its attempts. Once it is over, it has ended with
the first one that settles the matter or with the last one that the policy allows. -/
theorem settled_after_attempts
    (h : Run.Path between (sendWithRetry request now c) now hs r last) :
    ∃ ts, Attempted between c.retry request c.retry.maxRetries 0 now c r ts ∧
      Attempt.allHalts ts = hs ∧ ∀ s a, r = .done s a → (∃ o, Attempt.CameTo ts o) ∧
        ∀ o, Attempt.CameTo ts o → ∃ n, ts.length = n + 1 ∧
          IsLeast {k | k = c.retry.maxRetries ∨ Decisive (o k)} n ∧ a = o n := by
  have hretrying : Run.Path between
      (sendRetrying c.retry request c.retry.maxRetries 0 now c) now hs r last := h
  obtain ⟨ts, hts, hhalts⟩ := attempted_of_path hretrying
  refine ⟨ts, hts, hhalts, ?_⟩
  rintro s a rfl
  exact ⟨hts.exists_cameTo, fun o ho => hts.isLeast ho⟩

def words : Request := .new .get "/public/words"

/-- It has failed in a way that another call may not. -/
def mayRecover : CallResult → Bool
  | .ok _ => false
  | .error e => e.kind.isRetryable

theorem not_decisive_of_mayRecover {a : CallResult} (h : mayRecover a = true) : ¬Decisive a := by
  cases a with
  | ok response => cases h
  | error e =>
      have hkind : e.kind.isRetryable = true := h
      rw [decisive_error_iff, hkind]
      exact Bool.noConfusion

/-- The service is down at noon and twice more, a second and three seconds later. -/
def serviceDown : List (Instant × ((w : Wait) → w.Answer)) :=
  [⟨1748779200000000000⟩, ⟨1748779201000000000⟩, ⟨1748779201000000000⟩, ⟨1748779203000000000⟩,
    ⟨1748779203000000000⟩].map
      (·, Wait.answer (.ok ⟨500, .ofPairs [], ""⟩) (.error .loginRequired))

/-- A call is made three times while the service is down. -/
theorem settled_after_attempts_plain : ∃ hs s a last,
    Run.Path Eq (sendWithRetry words ⟨1748779200000000000⟩ plain) ⟨1748779200000000000⟩ hs
      (.done s a) last ∧
    ∃ ts, Attempted Eq plain.retry words 2 0 ⟨1748779200000000000⟩ plain (.done s a) ts ∧
      Attempt.allHalts ts = hs ∧
      ∃ o, Attempt.CameTo ts o ∧ ts.length = 3 ∧ IsLeast {k | k = 2 ∨ Decisive (o k)} 2 ∧
        a = o 2 := by
  have hcomes : (sendWithRetry words ⟨1748779200000000000⟩ plain).comesTo ⟨1748779200000000000⟩
      serviceDown (fun _ r _ => r.endsSo mayRecover) = true := by
    decide +kernel
  obtain ⟨hs, r, last, hpath, htest⟩ := Run.exists_path Eq.refl hcomes
  obtain ⟨s, a, rfl, hrecover⟩ := Run.done_of_endsSo htest
  obtain ⟨ts, hts, hhalts, hover⟩ := settled_after_attempts hpath
  obtain ⟨⟨o, ho⟩, hresults⟩ := hover s a rfl
  obtain ⟨n, hlength, hleast, ha⟩ := hresults o ho
  have hn : n = 2 := hleast.1.resolve_right (ha ▸ not_decisive_of_mayRecover hrecover)
  subst hn
  exact ⟨hs, s, a, last, hpath, ts, hts, hhalts, o, ho, hlength, hleast, ha⟩

end Client

end ClientSession
