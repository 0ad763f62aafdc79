import ClientSession.Notice
import Mathlib.Data.List.Induction

/-!
# One notice of a kind in a cool-down

A gate keeps for each kind of failure the instant of one notice, the last that it showed. What is
to be said of it is said of all the notices that it showed since it was last reset: as long as the
clock does not run back the last of them is the one that counts, and a notice that is held back or
is of another kind leaves no trace.

- `NoticeGate.shownAt_snoc`: which notices were shown, one call later.
- `NoticeGate.shownAt_of_last`, `NoticeGate.le_last_of_shownAt`: what the gate keeps is the last of
  the notices that were shown.
- `NoticeGate.last_after_filter`: of a kind it keeps what calls of that kind and resets left.
- `NoticeGate.shows_once_per_cooldown`: when a notice is shown, and what it is worth to later ones.
-/

namespace ClientSession

/-- What is asked of a gate. -/
inductive NoticeCall where
  | notify (n : Notice) (now : Instant)
  | notifyError (e : ApiError) (now : Instant)
  | reset

namespace NoticeCall

/-- The notice that is to be shown, and the instant; a reset shows none. -/
def notice? : NoticeCall → Option (Notice × Instant)
  | notify n now => some (n, now)
  | notifyError e now => some (⟨e.kind, e.userMessage⟩, now)
  | reset => none

/-- The call matters to notices of the kind: it shows one, or it is a reset. -/
def concerns (kind : FailureKind) (call : NoticeCall) : Bool :=
  call.notice?.all fun told => told.1.kind = kind

/-- The instants that calls read off the clock. -/
def instants (calls : List NoticeCall) : List Instant :=
  calls.filterMap fun call => call.notice?.map Prod.snd

variable {call : NoticeCall}

theorem eq_reset (h : call.notice? = none) : call = reset := by
  cases call with
  | notify n now => cases h
  | notifyError e now => cases h
  | reset => rfl

theorem instants_snoc (calls : List NoticeCall) (call : NoticeCall) :
    instants (calls ++ [call]) = instants calls ++ (call.notice?.map Prod.snd).toList := by
  unfold instants
  rw [List.filterMap_append]
  cases h : call.notice? <;> simp [h]

end NoticeCall

namespace NoticeGate

variable {g : NoticeGate} {config : NotifyConfig} {calls : List NoticeCall} {call : NoticeCall}
  {kind : FailureKind} {n : Notice} {now t : Instant}

/-- Does what is asked; whether a notice was shown. -/
def serve (g : NoticeGate) : NoticeCall → Bool × NoticeGate
  | .notify n now => g.notify n now
  | .notifyError e now => g.notifyError e now
  | .reset => (false, g.reset)

/-- A gate with these settings after these calls. -/
def after (config : NotifyConfig) (calls : List NoticeCall) : NoticeGate :=
  calls.foldl (fun g call => (g.serve call).2) (new config)

/-- A notice of the kind was shown at the instant, and there was no reset since. -/
def ShownAt (config : NotifyConfig) (calls : List NoticeCall) (kind : FailureKind) (t : Instant) :
    Prop :=
  ∃ earlier call later n, calls = earlier ++ call :: later ∧ call.notice? = some (n, t) ∧
    n.kind = kind ∧ ((after config earlier).serve call).1 = true ∧ NoticeCall.reset ∉ later

/-! ## One call -/

theorem serve_notice (g : NoticeGate) (h : call.notice? = some (n, now)) :
    g.serve call = g.notify n now := by
  cases call with
  | notify n' now' => cases h; rfl
  | notifyError e now' => cases h; rfl
  | reset => cases h

theorem notify_fst : (g.notify n now).1 = !g.holdsBack n.kind now := by
  unfold notify
  cases g.holdsBack n.kind now <;> rfl

/-- Only what the gate keeps of a kind counts for notices of the kind. -/
theorem notify_fst_congr {g' : NoticeGate} (hconfig : g.config = g'.config)
    (hlast : g.last.find? n.kind = g'.last.find? n.kind) :
    (g.notify n now).1 = (g'.notify n now).1 := by
  rw [notify_fst, notify_fst, holdsBack, holdsBack, hconfig, hlast]

/-- A notice that is held back leaves no trace. -/
theorem notify_of_not_shown (h : (g.notify n now).1 = false) : (g.notify n now).2 = g := by
  rw [notify_fst] at h
  unfold notify
  rw [if_pos (by simpa using h)]

theorem shown_notify :
    (g.notify n now).2.shown = g.shown ++ if (g.notify n now).1 then [n] else [] := by
  unfold notify
  cases g.holdsBack n.kind now <;> simp

theorem last_notify : (g.notify n now).2.last.find? kind =
    if (g.notify n now).1 = true ∧ n.kind = kind then some now else g.last.find? kind := by
  unfold notify
  cases g.holdsBack n.kind now with
  | true => simp
  | false => simp [Table.find?_insert]

theorem config_serve (g : NoticeGate) (call : NoticeCall) : (g.serve call).2.config = g.config := by
  have hnotify : ∀ n now, (g.notify n now).2.config = g.config := by
    intro n now
    unfold notify
    cases g.holdsBack n.kind now <;> rfl
  cases call with
  | notify n now => exact hnotify n now
  | notifyError e now => exact hnotify _ now
  | reset => rfl

/-! ## All calls -/

theorem after_snoc (config : NotifyConfig) (calls : List NoticeCall) (call : NoticeCall) :
    after config (calls ++ [call]) = ((after config calls).serve call).2 := by
  unfold after
  rw [List.foldl_append]
  rfl

theorem config_after (config : NotifyConfig) (calls : List NoticeCall) :
    (after config calls).config = config := by
  induction calls using List.reverseRecOn with
  | nil => rfl
  | append_singleton calls call ih => rw [after_snoc, config_serve, ih]

theorem not_shownAt_nil : ¬ShownAt config [] kind t := by
  rintro ⟨earlier, call, later, n, hcalls, -⟩
  exact absurd hcalls (by simp)

/-- One call later these are the notices that were shown before, unless it was a reset, and its
own. -/
theorem shownAt_snoc : ShownAt config (calls ++ [call]) kind t ↔
    call ≠ .reset ∧ ShownAt config calls kind t ∨
      ∃ n, call.notice? = some (n, t) ∧ n.kind = kind ∧
        ((after config calls).serve call).1 = true := by
  constructor
  · rintro ⟨earlier, shown, later, n, hcalls, hnotice, hkind, hanswer, hreset⟩
    rcases later.eq_nil_or_concat with rfl | ⟨later, last, rfl⟩
    · obtain ⟨rfl, hcall⟩ := List.append_inj' hcalls rfl
      cases hcall
      exact .inr ⟨n, hnotice, hkind, hanswer⟩
    · rw [List.concat_eq_append] at hcalls hreset
      rw [List.mem_append, not_or, List.mem_singleton] at hreset
      rw [← List.cons_append, ← List.append_assoc] at hcalls
      obtain ⟨rfl, hcall⟩ := List.append_inj' hcalls rfl
      cases hcall
      exact .inl ⟨Ne.symm hreset.2, earlier, shown, later, n, rfl, hnotice, hkind, hanswer,
        hreset.1⟩
  · rintro (⟨hcall, earlier, shown, later, n, rfl, hnotice, hkind, hanswer, hreset⟩ |
      ⟨n, hnotice, hkind, hanswer⟩)
    · refine ⟨earlier, shown, later ++ [call], n, by simp, hnotice, hkind, hanswer, ?_⟩
      rw [List.mem_append, not_or, List.mem_singleton]
      exact ⟨hreset, Ne.symm hcall⟩
    · exact ⟨calls, call, [], n, rfl, hnotice, hkind, hanswer, List.not_mem_nil⟩

/-- What is kept of a kind, one call later. -/
theorem last_after_snoc (hnotice : call.notice? = some (n, now)) :
    (after config (calls ++ [call])).last.find? kind =
      if ((after config calls).serve call).1 = true ∧ n.kind = kind then some now
      else (after config calls).last.find? kind := by
  rw [after_snoc, serve_notice _ hnotice, last_notify]

/-- What the gate keeps of a kind is the instant of a notice that was shown. -/
theorem shownAt_of_last (h : (after config calls).last.find? kind = some t) :
    ShownAt config calls kind t := by
  induction calls using List.reverseRecOn with
  | nil => cases h
  | append_singleton calls call ih =>
      rw [shownAt_snoc]
      cases hnotice : call.notice? with
      | none =>
          obtain rfl := NoticeCall.eq_reset hnotice
          rw [after_snoc] at h
          cases h
      | some told =>
          obtain ⟨n, now⟩ := told
          rw [last_after_snoc hnotice] at h
          split at h
          · rename_i hshown
            cases h
            exact .inr ⟨n, rfl, hshown.2, hshown.1⟩
          · refine .inl ⟨?_, ih h⟩
            rintro rfl
            cases hnotice

theorem mem_instants_of_shownAt (h : ShownAt config calls kind t) :
    t ∈ NoticeCall.instants calls := by
  obtain ⟨earlier, call, later, n, rfl, hnotice, -⟩ := h
  exact List.mem_filterMap.mpr ⟨call, by simp, by rw [hnotice]; rfl⟩

/-- As long as the clock does not run back, it is the last one. -/
theorem le_last_of_shownAt (hclock : (NoticeCall.instants calls).Pairwise (· ≤ ·))
    (h : ShownAt config calls kind t) :
    ∃ u, (after config calls).last.find? kind = some u ∧ t ≤ u := by
  induction calls using List.reverseRecOn with
  | nil => exact absurd h not_shownAt_nil
  | append_singleton calls call ih =>
      rw [NoticeCall.instants_snoc, List.pairwise_append] at hclock
      rcases shownAt_snoc.mp h with ⟨hcall, hbefore⟩ | ⟨n, hnotice, hkind, hanswer⟩
      · cases hnotice : call.notice? with
        | none => exact absurd (NoticeCall.eq_reset hnotice) hcall
        | some told =>
            obtain ⟨n, now⟩ := told
            rw [last_after_snoc hnotice]
            split
            · refine ⟨now, rfl, hclock.2.2 t (mem_instants_of_shownAt hbefore) now ?_⟩
              simp [hnotice]
            · exact ih hclock.1 hbefore
      · rw [last_after_snoc hnotice, if_pos ⟨hanswer, hkind⟩]
        exact ⟨t, rfl, Int.le_refl _⟩

/-- A notice is held back if and only if one of its kind was shown less than a cool-down ago. -/
theorem holdsBack_after_iff (hclock : (NoticeCall.instants calls).Pairwise (· ≤ ·)) :
    (after config calls).holdsBack kind now = true ↔
      ∃ t, ShownAt config calls kind t ∧ now.since t < config.cooldown kind := by
  unfold holdsBack
  rw [config_after, Option.any_eq_true]
  simp only [decide_eq_true_eq]
  constructor
  · rintro ⟨t, ht, hrecent⟩
    exact ⟨t, shownAt_of_last ht, hrecent⟩
  · rintro ⟨t, hshown, hrecent⟩
    obtain ⟨u, hu, hle⟩ := le_last_of_shownAt hclock hshown
    refine ⟨u, hu, ?_⟩
    have hnanos : t.nanos ≤ u.nanos := hle
    have hless : now.nanos - t.nanos < (config.cooldown kind).nanos := hrecent
    show now.nanos - u.nanos < (config.cooldown kind).nanos
    omega

/-- Of a kind the gate keeps what the calls left that concern the kind. -/
theorem last_after_filter (config : NotifyConfig) (calls : List NoticeCall) (kind : FailureKind) :
    (after config (calls.filter (NoticeCall.concerns kind))).last.find? kind =
      (after config calls).last.find? kind := by
  induction calls using List.reverseRecOn with
  | nil => rfl
  | append_singleton calls call ih =>
      rw [List.filter_append]
      cases hnotice : call.notice? with
      | none =>
          obtain rfl := NoticeCall.eq_reset hnotice
          rw [List.filter_cons_of_pos rfl, List.filter_nil, after_snoc, after_snoc]
          rfl
      | some told =>
          obtain ⟨n, now⟩ := told
          have hconcerns : call.concerns kind = true ↔ n.kind = kind := by
            simp [NoticeCall.concerns, hnotice]
          by_cases hkind : n.kind = kind
          · subst hkind
            have hconfig := (config_after config (calls.filter (NoticeCall.concerns n.kind))).trans
              (config_after config calls).symm
            rw [List.filter_cons_of_pos (hconcerns.mpr rfl), List.filter_nil,
              last_after_snoc hnotice, last_after_snoc hnotice, ih, serve_notice _ hnotice,
              serve_notice _ hnotice, notify_fst_congr hconfig ih]
          · rw [List.filter_cons_of_neg fun h => hkind (hconcerns.mp h), List.filter_nil,
              List.append_nil, ih, last_after_snoc hnotice, if_neg fun h => hkind h.2]

/-- As long as the clock does not run back, a notice is shown if and only if no notice of its kind
was shown less than a cool-down ago and since the last reset. What is shown is the notice itself.
One that is held back changes nothing, whatever is asked of the gate later, and notices of other
kinds do not matter. -/
theorem shows_once_per_cooldown (config : NotifyConfig) (calls : List NoticeCall)
    (call : NoticeCall) (n : Notice) (now : Instant)
    (hclock : (NoticeCall.instants calls).Pairwise (· ≤ ·))
    (hnotice : call.notice? = some (n, now)) :
    (((after config calls).serve call).1 = true ↔
      ¬∃ t, ShownAt config calls n.kind t ∧ now.since t < config.cooldown n.kind) ∧
    ((after config calls).serve call).2.shown =
      (after config calls).shown ++ (if ((after config calls).serve call).1 then [n] else []) ∧
    (((after config calls).serve call).1 = false →
      ∀ later, after config (calls ++ call :: later) = after config (calls ++ later)) ∧
    ((after config (calls.filter (NoticeCall.concerns n.kind))).serve call).1 =
      ((after config calls).serve call).1 := by
  rw [serve_notice _ hnotice, serve_notice _ hnotice]
  refine ⟨?_, shown_notify, fun hanswer later => ?_, ?_⟩
  · rw [notify_fst, ← holdsBack_after_iff hclock, Bool.not_eq_true', Bool.not_eq_true]
  · have hsame : ((after config calls).serve call).2 = after config calls := by
      rw [serve_notice _ hnotice]
      exact notify_of_not_shown hanswer
    unfold after at hsame ⊢
    rw [List.foldl_append, List.foldl_append, List.foldl_cons, hsame]
  · exact notify_fst_congr ((config_after config _).trans (config_after config calls).symm)
      (last_after_filter config calls n.kind)

/-- A call without a token has failed. -/
def tokenMissing : ApiError := classify (.refused .missingToken) ⟨0⟩

/-- A first notice does not count after the reset that follows it. One at the epoch is shown, and
so is one of another kind; the last one is held back. -/
def missedTokens : List NoticeCall :=
  [.notify ⟨.auth, "Signed out."⟩ ⟨0⟩, .reset, .notifyError tokenMissing ⟨0⟩,
    .notify ⟨.server, "No answer."⟩ ⟨298000000000⟩, .notifyError tokenMissing ⟨299000000000⟩]

/-- A notice is shown again 300 seconds after the one at the epoch, and not a nanosecond before. -/
theorem shows_once_per_cooldown_missedTokens :
    ((NoticeCall.instants missedTokens).Pairwise (· ≤ ·) ∧
      (NoticeCall.notifyError tokenMissing ⟨300000000000⟩).notice? =
        some (⟨.auth, tokenMissing.userMessage⟩, ⟨300000000000⟩)) ∧
    (¬∃ t, ShownAt default missedTokens .auth t ∧
      Instant.since ⟨300000000000⟩ t < NotifyConfig.cooldown default .auth) ∧
    ∃ t, ShownAt default missedTokens .auth t ∧
      Instant.since ⟨299999999999⟩ t < NotifyConfig.cooldown default .auth := by
  have hclock : (NoticeCall.instants missedTokens).Pairwise (· ≤ ·) := by decide
  obtain ⟨hlater, -⟩ := shows_once_per_cooldown default missedTokens
    (.notifyError tokenMissing ⟨300000000000⟩) _ _ hclock rfl
  obtain ⟨hbefore, -⟩ := shows_once_per_cooldown default missedTokens
    (.notifyError tokenMissing ⟨299999999999⟩) _ _ hclock rfl
  refine ⟨⟨hclock, rfl⟩, hlater.mp (by decide +kernel), ?_⟩
  by_contra hnone
  exact absurd (hbefore.mpr hnone) (by decide +kernel)

end NoticeGate

end ClientSession
