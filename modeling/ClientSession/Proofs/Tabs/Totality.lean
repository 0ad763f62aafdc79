import ClientSession.Proofs.Json.Ranges
import ClientSession.Proofs.Tabs.Ordeals

/-!
# Which operations on a session always return

The end of a session that a tab remembers or reads is always an instant of the calendar, so every
difference to it is in range. Claims are kept as they were decoded, and their end is any integer of
64 signed bits: it is the one thing that a difference to can leave the range.

- `Claims.signed64_of_decode`: the end that claims give fits 64 signed bits.
- `Retains.of_yields`: what a tab may remember after any visits, whichever of its calls fail.
- `Ordeal.faults_iff`: the one operation that may not return, and when.
- `not_total`: a session whose remaining time cannot be asked for.
-/

namespace ClientSession

open Tabs

namespace Claims

/-- The end in a draft, if there is one, fits 64 signed bits. -/
def Draft.InRange (d : Draft) : Prop := ∀ n, d.expiry = some n → Json.Signed64 n

theorem keeps_inRange : ∀ f ∈ shape.fields, f.Keeps Draft.InRange := by
  have hother : ∀ (β : Type) (decode : Json.Decoder β) (depth : Nat) (cs : List Char),
      Json.Gives (fun _ => True) (decode depth cs) := fun _ _ _ _ _ _ _ => trivial
  intro f hf
  simp only [shape, List.mem_cons, List.not_mem_nil, or_false] at hf
  rcases hf with rfl | rfl | rfl | rfl | rfl
  · exact Json.FieldShape.keeps_keep (hother _ _) fun _ _ hd _ => hd
  · refine Json.FieldShape.keeps_keep Json.gives_decodeInteger fun d v _ hv n hn => ?_
    obtain rfl := Option.some.inj hn
    exact hv
  · exact Json.FieldShape.keeps_keep (hother _ _) fun _ _ hd _ => hd
  · exact Json.FieldShape.keeps_keep (hother _ _) fun _ _ hd _ => hd
  · exact Json.FieldShape.keeps_keep (hother _ _) fun _ _ hd _ => hd

theorem keepOther_inRange (name : String) (d : Draft) (depth : Nat) (cs : List Char)
    (hd : d.InRange) : Json.Gives Draft.InRange (keepOther name d depth cs) := by
  intro v rest hread
  obtain ⟨⟨value, unread⟩, -, hv⟩ := Json.bind_eq_ok_iff.mp hread
  cases hv
  exact hd

theorem expiry_of_finish {d : Draft} {c : Claims} (h : shape.finish d = .ok c) :
    d.expiry = some c.expiry := by
  cases hs : d.subject <;> cases he : d.expiry <;>
    simp only [shape, Json.require, hs, he, bind, Except.bind, pure, Except.pure] at h <;> cases h
  rfl

/-- The end that the claims of a token give fits 64 signed bits. -/
theorem signed64_of_decode {t : BearerToken} {c : Claims} (h : decode t = .ok c) :
    Json.Signed64 c.expiry := by
  rw [decode] at h
  split at h
  · split at h
    · cases h
    · split at h
      · rename_i c' hread
        obtain rfl := Except.ok.inj h
        obtain ⟨⟨v, rest⟩, hopen, hv⟩ := Json.bind_eq_ok_iff.mp hread
        cases hv
        obtain ⟨d, hd, hfinish⟩ := Json.RecordShape.gives_decodeOpen keeps_inRange
          keepOther_inRange (fun _ hn => nomatch hn) _ _ _ _ hopen
        exact hd _ (expiry_of_finish hfinish)
      · cases h
  · cases h

end Claims

theorem Instant.firstSecond_le {t : Instant} (h : t.InCalendar) : firstSecond ≤ t.floorSeconds :=
  Int.le_ediv_of_mul_le (by decide) h.1

theorem Instant.le_lastSecond {t : Instant} (h : t.InCalendar) : t.floorSeconds ≤ lastSecond :=
  Int.lt_add_one_iff.mp (Int.ediv_lt_of_lt_mul (by decide) h.2)

/-- Instants of the calendar are a span apart that is in range. -/
theorem Instant.inRange_since {s t : Instant} (hs : s.InCalendar) (ht : t.InCalendar) :
    (s.since t).InRange := by
  simp only [InCalendar, firstSecond, lastSecond, since, Span.InRange, Span.nanosPerSecond,
    maxSigned64] at *
  omega

/-- Claims whose end is an instant do not end before the calendar begins. -/
theorem Claims.firstSecond_le_of_expiresAt {c : Claims} {e : Instant}
    (he : c.expiresAt.toOption = some e) : Instant.firstSecond ≤ c.expiry := by
  rw [expiresAt, Instant.ofSeconds?] at he
  split at he
  · rename_i hsecond
    split at hsecond
    · rename_i hrange
      exact hrange.1
    · cases hsecond
  · cases he

/-- The visit stores a token of the claims under an end that is given. -/
def Visit.Overrules (x : Visit) (c : Claims) : Prop :=
  ∃ t e, x.deed = .act (.install t (some e)) ∧ Claims.decode t = .ok c

/-- What a tab may remember after visits: an end of the calendar, and claims that end within the
calendar or later, unless they came with an end that was given instead. -/
structure Retains (visits : List Visit) (k : SessionCache) : Prop where
  expiry : ∀ e, k.expiresAt = some e → e.InCalendar
  signed64 : ∀ c, k.claims = some c → Json.Signed64 c.expiry
  claims : ∀ c, k.claims = some c → Instant.firstSecond ≤ c.expiry ∨ ∃ x ∈ visits, x.Overrules c

namespace Retains

variable {visits : List Visit} {x : Visit} {w : Tabs} {k : SessionCache}

theorem empty (visits : List Visit) : Retains visits .empty := ⟨nofun, nofun, nofun⟩

theorem snoc (h : Retains visits k) (x : Visit) : Retains (visits ++ [x]) k where
  expiry := h.expiry
  signed64 := h.signed64
  claims c hc := (h.claims c hc).imp id fun ⟨y, hy, hc⟩ => ⟨y, List.mem_append_left _ hy, hc⟩

/-- Whatever is remembered of a token that was stored is the end under which it was. -/
theorem of_stored {t : BearerToken} {given : Option Instant} {e : Instant}
    (hd : x.deed = .act (.install t given)) (hdated : x.deed.Dated)
    (he : term? t given = some e) :
    Retains (visits ++ [x]) ⟨some t, some e, (Claims.decode t).toOption⟩ := by
  have hdecode : ∀ c, (Claims.decode t).toOption = some c → Claims.decode t = .ok c := by
    intro c hc
    cases hdecode : Claims.decode t <;> rw [hdecode] at hc <;> cases hc
    rfl
  refine ⟨fun e' he' => ?_, fun c hc => Claims.signed64_of_decode (hdecode c hc), fun c hc => ?_⟩
  · obtain rfl := Option.some.inj he'
    rw [hd] at hdated
    exact (inCalendar_of_term? he hdated).2
  · cases given with
    | some e' =>
        exact .inr ⟨x, List.mem_append_right _ (List.mem_singleton_self x), t, e', hd, hdecode c hc⟩
    | none =>
        -- The end is the one that the claims give, which is an instant of the calendar.
        left
        rw [term?] at he
        split at he
        · cases he
        · rw [Option.none_or, claimedExpiry?_eq, show (Claims.decode t).toOption = some c from hc,
            Option.bind_some] at he
          exact Claims.firstSecond_le_of_expiresAt he

theorem of_yields (h : Retains visits (x.found.cache x.tab)) (hnow : x.now.InCalendar)
    (hdated : x.deed.Dated) (hx : x.Yields w) : Retains (visits ++ [x]) (w.cache x.tab) := by
  cases hx with
  | reads hs hg =>
      have hkept := h.snoc x
      refine ⟨fun e he => ?_, fun c hc => ?_, fun c hc => ?_⟩
      · rcases hg.cache.expiry e he with he | he
        · exact h.expiry e he
        · exact he
      · rcases hg.cache.claims c hc with hc | ⟨-, t, ht⟩
        · exact h.signed64 c hc
        · exact Claims.signed64_of_decode ht
      · rcases hg.cache.claims c hc with hc | ⟨hlater, -⟩
        · exact hkept.claims c hc
        · exact .inl (Int.le_trans (Instant.firstSecond_le hnow) (Int.le_of_lt hlater))
  | same hs ha =>
      rw [ha.cache]
      exact h.snoc x
  | clears hs he hc =>
      rw [hc]
      exact empty _
  | stores hd he hn =>
      rw [hn.cache]
      exact of_stored hd hdated he

end Retains

theorem Ordeal.retains {w u : Tabs} {i : Nat} {visits : List Visit} (h : Ordeal w visits u)
    (hw : w.Sole i) (hempty : w.cache i = .empty) (hclock : ∀ x ∈ visits, x.now.InCalendar) :
    Retains visits (u.cache i) := by
  have hkept := (h.invariant (A := fun visits u => (∀ x ∈ visits, x.now.InCalendar) →
    Retains visits (u.cache i)) hw (fun _ => hempty ▸ .empty _) (fun visits u u' hu hA hc => by
      rw [hu.cache]
      exact hA hc) (by
    rintro visits x u - rfl hx hA hc
    have hbefore := hA fun y hy => hc y (List.mem_append_left _ hy)
    have hnow := hc x (List.mem_append_right _ (List.mem_singleton_self x))
    exact hbefore.of_yields hnow (Visit.isSome_of_left? hx).2.1 (Visit.yields hx))).2
  exact hkept hclock

/-! ## The remaining time -/

/-- The seconds to the end of claims are told exactly if they fit 64 signed bits. -/
theorem Claims.remainingAt_eq (c : Claims) (now : Instant) :
    c.remainingAt now =
      if Json.Signed64 (c.expiry - now.floorSeconds) then
        .ok (Span.ofSeconds (max (c.expiry - now.floorSeconds) 0))
      else .error .overflow := by
  by_cases h : Json.Signed64 (c.expiry - now.floorSeconds)
  · have hbetween : secondsBetween c.expiry now.floorSeconds =
        .ok (c.expiry - now.floorSeconds) := if_pos h
    rw [if_pos h, remainingAt, hbetween]
    rfl
  · have hbetween : secondsBetween c.expiry now.floorSeconds = .error .overflow := if_neg h
    rw [if_neg h, remainingAt, hbetween]
    rfl

namespace Tabs

variable {w : Tabs} {i : Nat} {now : Instant}

/-- The seconds to the end of the claims that are given; none where no claims are. -/
def claimedRest (w : Tabs) (i : Nat) (now : Instant) : Int :=
  (w.claims i now).1.elim 0 fun c => c.expiry - now.floorSeconds

/-- The remaining time is told exactly if the seconds to the end of the claims fit 64 signed bits. -/
theorem remaining_fst (w : Tabs) (i : Nat) (now : Instant) :
    (w.remaining i now).toOption.map (·.1) =
      if Json.Signed64 (w.claimedRest i now) then
        some (Span.ofSeconds (max (w.claimedRest i now) 0))
      else none := by
  rw [remaining, claimedRest]
  cases hc : (w.claims i now).1 with
  | none => rfl
  | some c =>
      rw [Option.elim_some]
      simp only [Claims.remainingAt_eq]
      split <;> rfl

/-- A span that is told as the remaining time is in range. -/
theorem inRange_of_remaining {r : Span × Tabs} (h : w.remaining i now = .ok r) :
    r.1 = Span.ofSeconds (max (w.claimedRest i now) 0) ∧ r.1.InRange := by
  have hfst := remaining_fst w i now
  rw [h] at hfst
  split at hfst
  · rename_i hrest
    obtain hr : r.1 = _ := Option.some.inj hfst
    rw [hr]
    refine ⟨rfl, ?_⟩
    simp only [Json.Signed64, Span.InRange, Span.ofSeconds, Span.nanosPerSecond,
      maxSigned64] at hrest ⊢
    omega
  · cases hfst

end Tabs

namespace Visit

variable {x : Visit}

/-- A deed with the session of an open tab returns unless it asks for a remaining time that cannot
be told. -/
theorem left?_eq_none_iff (hi : (x.found.tab? x.tab).isSome) (hdated : x.deed.Dated) :
    x.left? = none ↔ x.deed = .remaining ∧ ¬Json.Signed64 (x.found.claimedRest x.tab x.now) := by
  rw [Visit.left?, if_pos ⟨hi, hdated⟩]
  have hreturns : ∀ {d : Deed} {w : Tabs} {p : Prop}, d ≠ .remaining →
      (some w = none ↔ d = .remaining ∧ p) := fun hd =>
    iff_of_false (Option.some_ne_none _) fun h => hd h.1
  cases x.deed with
  | act action => exact hreturns Deed.noConfusion
  | addReaction reaction => exact hreturns Deed.noConfusion
  | removeReaction id => exact hreturns Deed.noConfusion
  | remaining =>
      have hfst := remaining_fst x.found x.tab x.now
      rw [Deed.left?, Option.map_eq_none_iff]
      rw [← Option.map_eq_none_iff (f := fun r : Span × Tabs => r.1), hfst]
      split <;> simp_all

end Visit

theorem SessionCache.claims_of_live {k : SessionCache} {now : Instant} {c : Claims}
    (h : k.liveClaims? now = some c) : k.claims = some c := by
  rw [liveClaims?] at h
  split at h
  · exact h
  · cases h

/-- How the end of claims that are given can be out of reach. -/
theorem Retains.far {w : Tabs} {i : Nat} {visits : List Visit} {now : Instant} {c : Claims}
    (h : Retains visits (w.cache i)) (hnow : now.InCalendar) (hc : (w.claims i now).1 = some c)
    (hfar : ¬Json.Signed64 (c.expiry - now.floorSeconds)) :
    (c.expiry - now.floorSeconds < -(maxSigned64 : Int) - 1 ∧
        (w.cache i).liveClaims? now = some c ∧ ∃ y ∈ visits, y.Overrules c) ∨
      ((maxSigned64 : Int) < c.expiry - now.floorSeconds ∧ now.floorSeconds < 0) := by
  have hlast := Instant.le_lastSecond hnow
  simp only [Instant.lastSecond] at hlast
  simp only [Json.Signed64, not_and_or, Int.not_le] at hfar
  rcases hfar with hpast | hfuture
  · left
    rcases claims_eq_some hc with hlive | ⟨hlater, -⟩
    · rcases h.claims c (SessionCache.claims_of_live hlive) with hfirst | hoverruled
      · -- The calendar is much shorter than 64 bits are wide.
        simp only [Instant.firstSecond, maxSigned64] at hfirst hpast
        omega
      · exact ⟨hpast, hlive, hoverruled⟩
    · simp only [maxSigned64] at hpast
      omega
  · right
    have hsigned : Json.Signed64 c.expiry := by
      rcases claims_eq_some hc with hlive | ⟨-, t, ht⟩
      · exact h.signed64 c (SessionCache.claims_of_live hlive)
      · exact Claims.signed64_of_decode ht
    refine ⟨hfuture, ?_⟩
    have hmost := hsigned.2
    omega

/-- After any visits to a tab that remembered nothing at first, one thing may not return: to ask for
the remaining time of claims whose end is so far away that the seconds to it do not fit 64 signed
bits. It is in the past only for claims that are remembered of a token that was stored under a given
end, and in the future only before 1970. All ends of the session that the tab knows of are instants
of the calendar, the spans to them are in range, and the time that is told is the rest of the
claims, if any. -/
theorem Ordeal.faults_iff {w u : Tabs} {i : Nat} {visits : List Visit} (h : Ordeal w visits u)
    (hw : w.Sole i) (hempty : w.cache i = .empty) (hclock : ∀ x ∈ visits, x.now.InCalendar)
    {x : Visit} (hu : u.Undisturbed x.found) (hi : x.tab = i) (hdated : x.deed.Dated)
    (hnow : x.now.InCalendar) :
    (x.left? = none ↔ x.deed = .remaining ∧ ∃ c, (x.found.claims i x.now).1 = some c ∧
      ((c.expiry - x.now.floorSeconds < -(maxSigned64 : Int) - 1 ∧
          (x.found.cache i).liveClaims? x.now = some c ∧ ∃ y ∈ visits, y.Overrules c) ∨
        ((maxSigned64 : Int) < c.expiry - x.now.floorSeconds ∧ x.now.floorSeconds < 0))) ∧
      (∀ e, (x.found.expiresAt i).1 = some e → e.InCalendar ∧ (e.since x.now).InRange) ∧
      ∀ r, x.found.remaining i x.now = .ok r →
        r.1 = Span.ofSeconds (max (x.found.claimedRest i x.now) 0) ∧ r.1.InRange := by
  have hretains : Retains visits (x.found.cache i) := by
    rw [hu.cache]
    exact h.retains hw hempty hclock
  have hopen : (x.found.tab? x.tab).isSome := by
    rw [hi, hu.tab?]
    exact (h.sole hw).here
  refine ⟨?_, fun e he => ?_, fun r hr => inRange_of_remaining hr⟩
  · rw [Visit.left?_eq_none_iff hopen hdated, hi]
    refine and_congr_right fun _ => ⟨fun hrest => ?_, ?_⟩
    · rw [claimedRest] at hrest
      cases hc : (x.found.claims i x.now).1 with
      | none =>
          rw [hc] at hrest
          exact absurd (show Json.Signed64 0 by decide) hrest
      | some c =>
          rw [hc, Option.elim_some] at hrest
          exact ⟨c, rfl, hretains.far hnow hc hrest⟩
    · rintro ⟨c, hc, hfar⟩
      rw [claimedRest, hc, Option.elim_some]
      rintro ⟨hlow, hhigh⟩
      rcases hfar with ⟨hpast, -⟩ | ⟨hfuture, -⟩ <;> omega
  · have he' : e.InCalendar := by
      rcases inCalendar_of_expiresAt he with hc | hc
      · exact hretains.expiry e hc
      · exact hc
    exact ⟨he', Instant.inRange_since he' hnow⟩

/-- A token whose claims ended as long ago as 64 signed bits can tell. -/
def longAgo : BearerToken := ⟨"e30.eyJzdWIiOiJ1MSIsImV4cCI6LTkyMjMzNzIwMzY4NTQ3NzU4MDh9.s"⟩

/-- Noon of the first of June 2025. -/
def noon : Instant := ⟨1748779200000000000⟩

theorem inCalendar_noon : noon.InCalendar := by decide

/-- The token is stored for an hour. -/
def overruled : List (List Bool × Instant × Deed) :=
  [([], noon, .act (.install longAgo (some ⟨1748782800000000000⟩)))]

/-- The time that remains is asked for while all storage fails. -/
def asksRemaining (u : Tabs) : Visit :=
  ⟨0, noon, .remaining, u.withFailures [.get, .set, .remove] []⟩

/-- It does not return for claims that are remembered, of a token that was stored under a given
end. -/
theorem faults_iff_plain : ∃ visits u c, Ordeal Client.plain.tabs visits u ∧
    Client.plain.tabs.Sole 0 ∧ Client.plain.tabs.cache 0 = .empty ∧
      (∀ y ∈ visits, y.now.InCalendar) ∧ u.Undisturbed (asksRemaining u).found ∧
        (asksRemaining u).left? = none ∧ (u.cache 0).claims = some c ∧
          ∃ y ∈ visits, y.Overrules c := by
  have hpasses : Ordeal.passes 0 Client.plain.tabs overruled (fun visits u =>
      (asksRemaining u).left?.isNone && decide (∀ y ∈ visits, y.now.InCalendar)) = true := by
    decide +kernel
  obtain ⟨visits, u, hordeal, htest⟩ := Ordeal.exists_of_passes hpasses
  obtain ⟨hnone, hclock⟩ := Bool.and_eq_true_iff.mp htest
  have hclock' := of_decide_eq_true hclock
  have hfaults := Option.isNone_iff_eq_none.mp hnone
  have hcalm : u.Undisturbed (asksRemaining u).found := ⟨_, _, rfl⟩
  obtain ⟨-, c, -, ⟨-, hlive, hoverruled⟩ | ⟨-, hnow⟩⟩ :=
    (Ordeal.faults_iff hordeal sole_plain rfl hclock' hcalm rfl nofun inCalendar_noon).1.mp hfaults
  · refine ⟨visits, u, c, hordeal, sole_plain, rfl, hclock', hcalm, hfaults, ?_, hoverruled⟩
    exact SessionCache.claims_of_live hlive
  · exact absurd hnow (show ¬noon.floorSeconds < 0 by decide)

/-- Not every operation on a session returns. -/
theorem not_total : ¬∀ (w u : Tabs) (visits : List Visit) (x : Visit), w.Sole x.tab →
    w.cache x.tab = .empty → Ordeal w visits u → u.Undisturbed x.found → x.deed.Dated →
      x.now.InCalendar → x.left?.isSome = true := by
  intro hclaim
  have hpasses : Ordeal.passes 0 Client.plain.tabs overruled (fun _ u =>
      (asksRemaining u).left?.isNone) = true := by
    decide +kernel
  obtain ⟨visits, u, hordeal, hnone⟩ := Ordeal.exists_of_passes hpasses
  have hsome := hclaim _ u visits (asksRemaining u) sole_plain rfl hordeal ⟨_, _, rfl⟩ nofun
    inCalendar_noon
  rw [Option.isNone_iff_eq_none.mp hnone] at hsome
  cases hsome

end ClientSession
