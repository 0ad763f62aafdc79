import ClientSession.Proofs.Client.Arming
import ClientSession.Proofs.Client.Sharing
import ClientSession.Proofs.Client.SignOut
import Mathlib.Data.List.Induction

/-!
# Sessions that end before their timer wakes

One client has the storage to itself. Its expiry timer sleeps until the end of the session that it
finds when it falls asleep, and that is no later than the session was to end. While it sleeps
another session can be stored only by work that does not arm the timer: by a check, which asks for a
new token before it tries again.

- `EndsByTerm.course`: the end that is read never lies after that which the session was stored with.
- `Alone.wakes_in_time_iff`: when the armed timer wakes in time for the session that is stored.
-/

namespace ClientSession

/-- Milliseconds since the epoch, rounded up. -/
def Instant.ceilMillis (t : Instant) : Int := -(-t.nanos / Span.nanosPerMilli)

theorem Instant.ceilMillis_le {t t' : Instant} (h : t ≤ t') : t.ceilMillis ≤ t'.ceilMillis := by
  have hle : t.nanos ≤ t'.nanos := h
  simp only [ceilMillis, Span.nanosPerMilli]
  omega

open Activity

namespace Client

variable {v : Vault} {c c' c₀ : Client} {e t : Instant} {ms ms' : List Moment} {s : Scene}
  {x : Moment}

/-! ## The end of a session -/

/-- The stored session ends then at the latest, as stored and as the client's tab remembers it. -/
structure EndsBy (e : Instant) (c : Client) : Prop where
  stored : ∃ t, (c.tabs.storedExpiry c.own).1 = some t ∧ t ≤ e
  remembered : ∀ t, (c.tabs.cache c.own).expiresAt = some t → t ≤ e

/-- So it is read. -/
theorem EndsBy.expiresAt (h : EndsBy e c) :
    ∃ t, (c.tabs.expiresAt c.own).1 = some t ∧ t ≤ e := by
  cases hc : (c.tabs.cache c.own).expiresAt with
  | some t => exact ⟨t, Tabs.expiresAt_of_remembered hc, h.remembered t hc⟩
  | none =>
      obtain ⟨t, ht, hle⟩ := h.stored
      exact ⟨t, Tabs.expiresAt_of_stored hc ht, hle⟩

theorem EndsBy.same (h : EndsBy e c) (ht : c'.tabs = c.tabs) (ho : c'.own = c.own) :
    EndsBy e c' := by
  refine ⟨?_, ?_⟩ <;> rw [ht, ho]
  · exact h.stored
  · exact h.remembered

/-- What the tab comes to remember is no later than what it remembered or what is stored. -/
theorem EndsBy.of_recalls (h : EndsBy e c) (hs : Sharing v c) (ho : c'.own = c.own)
    (hr : Tabs.Recalls c.own c.tabs c'.tabs) : EndsBy e c' := by
  rcases hr with ht | ⟨k, hk, ht⟩
  · exact h.same ht ho
  · have hread := Tabs.storedExpiry_congr (Tabs.backend_setCache c.tabs c.own k)
      (fun j => Tabs.bare?_setCache c.tabs c.own j k) hs.shares.healthy c.own
    refine ⟨?_, fun t hremembered => ?_⟩
    · rw [ht, ho, hread]
      exact h.stored
    · rw [ht, ho, Tabs.cache_setCache_self hs.here] at hremembered
      rcases hk.expiry t hremembered with hold | hstored
      · exact h.remembered t hold
      · obtain ⟨t', ht', hle⟩ := h.stored
        rw [← hstored t' ht']
        exact hle

/-- A session ends then that was just stored. -/
theorem EndsBy.of_installed {token : BearerToken} {w : Tabs} (hs : Sharing v c)
    (hi : Tabs.Installed v c.own token e w c.tabs) (he : e.InCalendar) : EndsBy e c := by
  refine ⟨⟨e.startOfSecond, ?_, e.startOfSecond_le⟩, fun t ht => ?_⟩
  · rw [Tabs.storedExpiry_of_item hs.shares hs.here hi.expiry, Instant.ofSeconds?_floorSeconds he]
  · rw [hi.cache_self] at ht
    rw [← Option.some.inj ht]
    exact Int.le_refl _

/-! ## Stretches -/

/-- What becomes of the end of the stored session. -/
structure EndLaw (v : Vault) (term : Option Instant) (c₀ c : Client) : Prop where
  sharing : Sharing v c
  own : c.own = c₀.own
  renewed : ∀ e, term = some e → e.InCalendar → c.tabs.keeps v Tabs.tokenKey = true → EndsBy e c
  untouched : term = none → c.tabs.keeps v Tabs.tokenKey = true →
    c₀.tabs.keeps v Tabs.tokenKey = true ∧ ∀ e, EndsBy e c₀ → EndsBy e c

protected theorem EndLaw.refl (h : Sharing v c) : EndLaw v none c c where
  sharing := h
  own := rfl
  renewed := nofun
  untouched _ hk := ⟨hk, fun _ he => he⟩

theorem EndLaw.of_recalls {term : Option Instant} (h : EndLaw v term c₀ c) (ho : c'.own = c.own)
    (hr : Tabs.Recalls c.own c.tabs c'.tabs) : EndLaw v term c₀ c' := by
  have hkeeps : c'.tabs.keeps v Tabs.tokenKey = c.tabs.keeps v Tabs.tokenKey := hr.keeps_eq _
  refine ⟨h.sharing.of_recalls ho hr, ho.trans h.own, fun e hterm he hk => ?_, fun hterm hk => ?_⟩
  · rw [hkeeps] at hk
    exact (h.renewed e hterm he hk).of_recalls h.sharing ho hr
  · rw [hkeeps] at hk
    obtain ⟨hk₀, hends⟩ := h.untouched hterm hk
    exact ⟨hk₀, fun e he => (hends e he).of_recalls h.sharing ho hr⟩

/-- Where the session is gone there is no end of it. -/
theorem EndLaw.of_gone {term : Option Instant} (h : EndLaw v term c₀ c) (ho : c'.own = c.own)
    (he : Tabs.Erodes c.tabs c'.tabs) (hgone : c'.tabs.keeps v Tabs.tokenKey = false) :
    EndLaw v term c₀ c' := by
  refine ⟨h.sharing.of_erodes ho he, ho.trans h.own, fun e _ _ hk => ?_, fun _ hk => ?_⟩
  · rw [hgone] at hk
    cases hk
  · rw [hgone] at hk
    cases hk

theorem endLaw_dated (v : Vault) : Dated fun term c₀ c => Sharing v c₀ → EndLaw v term c₀ c where
  refl _ h := .refl h
  recalls _ _ _ _ hc ho hw h := (hc h).of_recalls ho (hw (hc h).sharing.shares.healthy)
  clears term c₀ c c' hc ho ht h := by
    obtain ⟨hshares, hhere⟩ := (hc h).sharing
    refine (hc h).of_gone ho ?_ ?_ <;> rw [ht]
    · exact (Tabs.clearSession_fades hshares.fadeable hhere).erodes
    · exact Tabs.clearSession_keeps hshares hhere (List.mem_cons_self ..)
  ends term c₀ c c' reason hc ho ht h := by
    obtain ⟨hshares, hhere⟩ := (hc h).sharing
    refine (hc h).of_gone ho ?_ ?_ <;> rw [ht]
    · exact (Tabs.endSession_fades hshares hhere reason).erodes
    · exact Tabs.endSession_keeps hshares hhere reason (List.mem_cons_self ..)
  stores c c' t e term hterm ho ht h := by
    have hi := Tabs.install_of_term hterm h.shares h.here
    rw [← ht] at hi
    have hsharing := h.of_installed ho hi
    refine ⟨hsharing, ho, fun e' he' hcalendar _ => ?_, nofun⟩
    obtain rfl := Option.some.inj he'
    rw [← ho] at hi
    exact .of_installed hsharing hi hcalendar

theorem endLaw_step (hrun : Course (scene c) ms s) (hx : Step s x) (hs : Solitary v s.state) :
    EndLaw v x.term? x.start.state x.left := by
  rw [← hx.start_state] at hs
  refine (endLaw_dated v).step hrun hx hs.here (fun tab action _ htab => ?_) ⟨hs.shares, hs.here⟩
  -- On another tab nothing can be done, as there is none.
  rw [act, hs.alone tab htab]
  exact (endLaw_dated v).refl _

/-! ## Courses -/

/-- The expiry with which the session was stored that is stored after the moment, given the one
before. -/
def Moment.sessionTerm (x : Moment) (before : Option Instant) : Option Instant :=
  if x.left.tabs.stores x.left.own Tabs.tokenKey then x.term?.or before else none

/-- The expiry with which the session was stored that is stored after these moments. Of what was
stored before them the stored expiry counts. -/
def sessionTerm (c : Client) (ms : List Moment) : Option Instant :=
  ms.foldl (fun e x => x.sessionTerm e)
    (if c.tabs.stores c.own Tabs.tokenKey then (c.tabs.storedExpiry c.own).1 else none)

theorem sessionTerm_concat (c : Client) (ms : List Moment) (x : Moment) :
    sessionTerm c (ms ++ [x]) = x.sessionTerm (sessionTerm c ms) := by
  rw [sessionTerm, List.foldl_append]
  rfl

/-- The session that is stored after some moments was stored in one of them or before. -/
theorem sessionTerm_append (h : sessionTerm c (ms ++ ms') = some e) :
    (∃ y ∈ ms', y.left.tabs.stores y.left.own Tabs.tokenKey = true ∧ y.term? = some e) ∨
      sessionTerm c ms = some e := by
  induction ms' using List.reverseRecOn with
  | nil => exact .inr (by rwa [List.append_nil] at h)
  | append_singleton ms' y ih =>
      rw [← List.append_assoc, sessionTerm_concat, Moment.sessionTerm] at h
      split at h
      · rename_i hstored
        cases hy : y.term? with
        | some e' =>
            rw [hy, Option.some_or] at h
            exact .inl ⟨y, by simp, hstored, hy.trans h⟩
        | none =>
            rw [hy, Option.none_or] at h
            exact (ih h).imp_left fun ⟨z, hz, hboth⟩ => ⟨z, List.mem_append_left _ hz, hboth⟩
      · cases h

/-- A session that was stored with that expiry ends then at the latest, if the calendar has it. -/
def EndsByTerm (term : Option Instant) (c : Client) : Prop :=
  ∀ e, term = some e → e.InCalendar → EndsBy e c

theorem EndsByTerm.step {before : Option Instant} (hrun : Course (scene c) ms s) (hx : Step s x)
    (hs : Solitary v s.state) (h : EndsByTerm before s.state) :
    EndsByTerm (x.sessionTerm before) x.after.state := by
  obtain ⟨ht, ho⟩ := Client.Step.tabs_eq hx
  obtain ⟨hsharing, -, hrenewed, huntouched⟩ := endLaw_step hrun hx hs
  rw [hx.start_state] at huntouched
  intro e hterm he
  rw [Moment.sessionTerm, hsharing.stores_eq] at hterm
  split at hterm
  · rename_i hkept
    refine EndsBy.same ?_ ht ho
    cases hx' : x.term? with
    | some e' =>
        rw [hx', Option.some_or] at hterm
        exact hrenewed e (hx'.trans hterm) he hkept
    | none =>
        rw [hx', Option.none_or] at hterm
        exact (huntouched hx' hkept).2 e (h e hterm he)
  · cases hterm

/-- So it is throughout a course. -/
theorem EndsByTerm.course (h : Alone c) (hrun : Course (scene c) ms s) :
    EndsByTerm (sessionTerm c ms) s.state := by
  induction hrun with
  | nil =>
      intro e hterm _
      rw [sessionTerm, List.foldl_nil] at hterm
      split at hterm
      · refine ⟨⟨e, hterm, Int.le_refl _⟩, fun t ht => ?_⟩
        have hnone : (c.tabs.cache c.own).expiresAt = none := by rw [h.fresh, SessionCache.empty]
        cases hnone.symm.trans ht
      · cases hterm
  | @snoc ms u x hrun hx ih =>
      rw [sessionTerm_concat]
      exact EndsByTerm.step hrun hx (h.course hrun) ih

/-! ## Falling asleep -/

/-- The armed expiry timer falls asleep in the moment: its number, and when it wakes. -/
def Moment.dozes? (x : Moment) : Option (Nat × Instant) :=
  match x.work, x.result with
  | .job (.supervision (.expiryTimer n)), .paused (.waits (.sleep span)) =>
    if x.left.supervisor.expiryTask = some n then
      some (n, ⟨x.start.now.nanos + span.nanos⟩)
    else none
  | _, _ => none

/-- Work of the expiry timer. -/
def Expires : Work Operation Job → Bool
  | .job (.supervision (.expiryTimer _)) => true
  | _ => false

/-- How long the expiry timer sleeps that begins there. -/
def slumber (i : Start Client) : Span :=
  (timeToExpiry i.state.tabs i.state.own i.now i.state.supervisor.config.timeoutFallback).1

/-- The expiry timer waits only where it begins, and then for the end of the session. -/
def Dozing : Pact Unit Client := fun _ i p _ _ =>
  ∀ w, p = .waits w → i.cue = none ∧ w = .sleep (slumber i)

theorem dozing_watch (n : Nat) :
    Triple Dozing Opening (Client.watch (.expiryTimer n)) fun _ _ _ _ => True := by
  refine Triple.bind (M := fun m i c c' => Opening m i c' ∧ c = c')
    (triple_get fun _ _ _ h => ⟨h, rfl⟩) fun c => ?_
  refine Triple.bind (M := fun _ i span _ => i.cue = none ∧ span = slumber i) (triple_step ?_)
    fun span => ?_
  · rintro m i _ ⟨⟨hcue, rfl⟩, rfl⟩
    exact ⟨hcue, rfl⟩
  refine Triple.bind (M := fun _ _ _ _ => True) (Triple.ite (fun _ => triple_await ?_) fun _ =>
    triple_pure fun _ _ _ _ => trivial) fun _ => ?_
  · rintro m i c ⟨hcue, rfl⟩
    refine ⟨(), ?_, fun _ _ => nofun, fun _ _ _ => trivial⟩
    rintro _ ⟨⟩
    exact ⟨hcue, rfl⟩
  -- Once awake it does not wait any more.
  refine Triple.bind (M := fun _ _ _ _ => True) (triple_now fun _ _ _ _ => trivial) fun now => ?_
  refine Triple.bind (M := fun _ _ _ _ => True) (triple_step fun _ _ _ _ => trivial) fun end? => ?_
  refine Triple.ite (fun _ => triple_pure fun _ _ _ _ => trivial) fun _ => ?_
  refine Triple.bind (M := fun _ _ _ _ => True) (triple_modify fun _ _ _ _ => trivial) fun _ => ?_
  refine Triple.bind (M := fun _ _ _ _ => True) (triple_modify fun _ _ _ _ => trivial) fun _ => ?_
  exact triple_pure fun _ _ _ _ => trivial

/-- The rules that expiry timers fall asleep so. -/
def dozeRules : Rules Unit Client Operation Reply Job :=
  Rules.only Expires () Dozing fun _ _ _ _ => True

theorem dozeRules_keptBy : dozeRules.KeptBy workplace := by
  refine Rules.only_keptBy (A := Opening) (fun _ _ => ⟨rfl, rfl⟩) (fun _ _ => nofun) ?_
  intro work hwork
  unfold Expires at hwork
  split at hwork
  · refine Triple.bind (M := fun _ _ _ _ => True) (Triple.map (dozing_watch _)) fun again => ?_
    cases again <;> exact triple_pure fun _ _ _ _ => trivial
  · cases hwork

/-- What the armed expiry timer does when it falls asleep. -/
structure Moment.Dozes (x : Moment) (n : Nat) (t : Instant) : Prop where
  fresh : x.term? = none
  armed : x.left.supervisor.expiryTask = some n
  wakes : t = ⟨x.start.now.nanos + (slumber x.start).nanos⟩

theorem dozes_of_mem {n : Nat} (hrun : Course (scene c) ms s) (hx : x ∈ ms)
    (hd : x.dozes? = some (n, t)) : x.Dozes n t := by
  have hkeeps := dozeRules_keptBy.all hrun x hx
  obtain ⟨number, work, i, result, left, after⟩ := x
  unfold Moment.dozes? at hd
  split at hd
  · rename_i n' span hwork hresult
    obtain rfl : work = _ := hwork
    obtain rfl : result = _ := hresult
    obtain ⟨hcue, hspan⟩ := hkeeps.1 rfl _ rfl
    split at hd
    · rename_i harmed
      cases hd
      refine ⟨?_, harmed, ?_⟩
      · simp [Moment.term?, Start.term?, show i.cue = none from hcue]
      · rw [Wait.sleep.inj hspan]
    · cases hd
  · cases hd

/-- It wakes no later than the session ends that is stored when it falls asleep. -/
theorem Moment.Dozes.le {n : Nat} (hx : x.Dozes n t) (he : EndsBy e x.start.state) : t ≤ e := by
  obtain ⟨t', ht', hle⟩ := he.expiresAt
  have hslumber : slumber x.start = t'.since x.start.now := by
    rw [slumber, timeToExpiry, ht']
  have hwakes : t = t' := by
    rw [hx.wakes, hslumber]
    show Instant.mk (x.start.now.nanos + (t'.nanos - x.start.now.nanos)) = t'
    rw [Int.add_comm, Int.sub_add_cancel]
  rw [hwakes]
  exact hle

/-! ## Waking in time -/

/-- To wake then is in time for a session with that expiry, if the calendar has it. -/
def InTime (t : Instant) (term : Option Instant) : Prop :=
  ∀ e, term = some e → e.InCalendar → t.ceilMillis ≤ e.ceilMillis

/-- The expiry of a token that the moment left, having stored it in a check or on the tab itself. -/
def Moment.swaps? (x : Moment) : Option Instant :=
  if Renews x.work && x.left.tabs.stores x.left.own Tabs.tokenKey then x.term? else none

/-- While an expiry timer stays armed, what has been stored since it fell asleep was stored in a
check, or on the tab itself. -/
theorem swaps?_of_armed {n : Nat} {u : Scene} (hbefore : Course (scene c) ms u)
    (hafter : Course u ms' s) (hn : n < u.state.supervisor.nextTask)
    (harmed : s.state.supervisor.expiryTask = some n) (hx : x ∈ ms') (hterm : x.term? = some e)
    (hstored : x.left.tabs.stores x.left.own Tabs.tokenKey = true) : x.swaps? = some e := by
  have hrenews : Renews x.work = true := by
    refine Bool.of_not_eq_false fun hother => ?_
    have hstores := quiet_of_armed hbefore hafter hn harmed x hx hother
    rw [← x.isSome_term?, hterm] at hstores
    cases hstores
  rw [Moment.swaps?, hrenews, hstored]
  exact hterm

/-- The number of a timer that fell asleep while it was armed has been given. -/
theorem lt_nextTask_of_dozes {n : Nat} (hidle : c.supervisor.expiryTask = none)
    (hrun : Course (scene c) ms s) (hx : Step s x) (hdozes : x.Dozes n t) :
    n < x.after.state.supervisor.nextTask := by
  have hstart : c.supervisor.Numbered := fun m hm => nomatch hidle.symm.trans hm
  have hstretch := (armed_of_mem (hrun.snoc hx) (List.mem_append_right ms
    (List.mem_singleton.mpr rfl))).1
  rw [hx.start_state] at hstretch
  have hleft := (hstart.of_precedes (precedes_course .nil hrun)).of_precedes hstretch
  exact Nat.lt_of_lt_of_le (hleft n hdozes.armed) (precedes_after hx).nextTask

/-- As long as the expiry timer stays armed that has fallen asleep, it wakes in time for the session
that is stored if and only if it does for each one that was stored meanwhile in a check, or on the
tab itself. -/
theorem Alone.wakes_in_time_iff {before after : List Moment} {n : Nat} (h : Alone c)
    (hidle : c.supervisor.expiryTask = none) (hrun : Course (scene c) (before ++ x :: after) s)
    (hx : x.dozes? = some (n, t)) (harmed : s.state.supervisor.expiryTask = some n) :
    (∀ l, l <+: after → InTime t (sessionTerm c (before ++ x :: l))) ↔
      ∀ y ∈ after, InTime t y.swaps? := by
  have hdozes := dozes_of_mem hrun (by simp) hx
  obtain ⟨u, hbefore, hstep, hafter⟩ := hrun.split
  constructor
  · intro hall y hy e hswaps
    obtain ⟨l, l', rfl⟩ := List.append_of_mem hy
    refine hall (l ++ [y]) ⟨l', by simp⟩ e ?_
    rw [← List.cons_append, ← List.append_assoc, sessionTerm_concat, Moment.sessionTerm]
    unfold Moment.swaps? at hswaps
    split at hswaps
    · rename_i hstored
      rw [Bool.and_eq_true] at hstored
      rw [if_pos hstored.2, hswaps, Option.some_or]
    · cases hswaps
  · intro hswaps l hl e hterm he
    rw [show before ++ x :: l = (before ++ [x]) ++ l by simp] at hterm
    rcases sessionTerm_append hterm with ⟨y, hy, hstored, hset⟩ | hterm
    · have hmem := hl.subset hy
      have hn := lt_nextTask_of_dozes hidle hbefore hstep hdozes
      exact hswaps y hmem e
        (swaps?_of_armed (hbefore.snoc hstep) hafter hn harmed hmem hset hstored) he
    · -- The session is the one that the timer found when it fell asleep.
      rw [sessionTerm_concat, Moment.sessionTerm, hdozes.fresh, Option.none_or] at hterm
      split at hterm
      · have hends := EndsByTerm.course h hbefore e hterm he
        rw [← hstep.start_state] at hends
        exact Instant.ceilMillis_le (hdozes.le hends)
      · cases hterm

/-- A client signs in for an hour, and its expiry timer falls asleep. A check fails, and when it is
tried again a token is issued that ends then. -/
def renewedAsleep (e : Instant) : Script :=
  let answers (status : Nat) (body : String) : (w : Wait) → w.Answer :=
    Wait.answer (.ok ⟨status, Table.empty, body⟩) (.ok ⟨⟨"t2"⟩, some e⟩)
  [(⟨1748779200000000000⟩, .ask (.login ⟨"t1"⟩ (some ⟨1748782800000000000⟩))),
    (⟨1748779200000000000⟩, .begin 3),
    (⟨1748779200000000000⟩, .ask .validateSession),
    (⟨1748779201000000000⟩, .reply 4 (answers 503 "")),
    (⟨1748779203000000000⟩, .reply 4 (answers 503 "")),
    (⟨1748779204000000000⟩, .reply 4 (answers 503 "")),
    (⟨1748779205000000000⟩, .reply 4 (answers 200 "\x7b\"id\":\"u\"\x7d"))]

/-- The timer of a client wakes in time for a token of a check that ends after the first one. -/
theorem wakes_in_time_iff_plain : ∃ (before after : List Moment) (x : Moment) (s : Scene) (n : Nat)
    (t : Instant), Alone plain ∧ plain.supervisor.expiryTask = none ∧
      Course (scene plain) (before ++ x :: after) s ∧ x.dozes? = some (n, t) ∧
        s.state.supervisor.expiryTask = some n ∧
          ((∀ l, l <+: after → InTime t (sessionTerm plain (before ++ x :: l))) ↔
            ∀ y ∈ after, InTime t y.swaps?) := by
  have hpasses : workplace.passes (scene plain) (renewedAsleep ⟨1748786400000000000⟩) 1
      (fun _ x after s => decide (Moment.dozes? x = some (1, ⟨1748782800000000000⟩) ∧
        s.state.supervisor.expiryTask = some 1 ∧
          ∃ y ∈ after, Moment.swaps? y = some ⟨1748786400000000000⟩)) = true := by
    decide +kernel
  obtain ⟨before, x, after, s, hrun, htest⟩ := Workplace.exists_course hpasses
  obtain ⟨hdozes, harmed, -⟩ := of_decide_eq_true htest
  have halone : Alone plain := alone_gateway _ _ _ _ _ ⟨rfl, rfl⟩
  exact ⟨before, after, x, s, 1, _, halone, rfl, hrun, hdozes, harmed,
    halone.wakes_in_time_iff rfl hrun hdozes harmed⟩

/-- Signing in, renewing and checking the session, calls, and the work of timers. -/
def Moment.sustains (x : Moment) : Bool :=
  match x.work with
  | .call (.login _ _) => true
  | .call (.refresh _) => true
  | .call .validateSession => true
  | .call (.send _) => true
  | .call (.sendWithRetry _) => true
  | .call _ => false
  | .job _ => true

/-- The timer of a client sleeps on when a check has stored a token that ends before. -/
theorem not_wakes_in_time : ¬∀ (c : Client) (before after : List Moment) (x : Moment) (s : Scene)
    (n : Nat) (t e : Instant), Alone c → c.supervisor.expiryTask = none →
      Course (scene c) (before ++ x :: after) s →
        (before ++ x :: after).Pairwise (fun y z => y.start.now ≤ z.start.now) →
          (∀ y ∈ before ++ x :: after, y.sustains = true) → x.dozes? = some (n, t) →
            (∀ y ∈ after, y.number ≠ x.number) → s.state.supervisor.expiryTask = some n →
              sessionTerm c (before ++ x :: after) = some e → e.InCalendar →
                t.ceilMillis ≤ e.ceilMillis := by
  intro hclaim
  have hpasses : workplace.passes (scene plain) (renewedAsleep ⟨1748779800000000000⟩) 1
      (fun before x after s => decide (
        (before ++ x :: after).Pairwise (fun y z => y.start.now ≤ z.start.now) ∧
          (∀ y ∈ before ++ x :: after, Moment.sustains y = true) ∧
            Moment.dozes? x = some (1, ⟨1748782800000000000⟩) ∧
              (∀ y ∈ after, y.number ≠ x.number) ∧ s.state.supervisor.expiryTask = some 1 ∧
                sessionTerm plain (before ++ x :: after) = some ⟨1748779800000000000⟩)) = true := by
    decide +kernel
  obtain ⟨before, x, after, s, hrun, htest⟩ := Workplace.exists_course hpasses
  obtain ⟨hclock, hsustains, hdozes, hasleep, harmed, hterm⟩ := of_decide_eq_true htest
  have hle := hclaim plain before after x s _ _ _ (alone_gateway _ _ _ _ _ ⟨rfl, rfl⟩) rfl hrun
    hclock hsustains hdozes hasleep harmed hterm (by decide)
  exact absurd hle (by decide)

end Client

end ClientSession
