import ClientSession.Proofs.Client.Refreshing
import ClientSession.Proofs.Session.Setbacks

/-!
# Tokens that are refused

A token is refused if it is blank, or if no expiry is given with it and its claims hold none. Then
nothing follows from it, whoever brought it: a tab and a login change nothing at all, and a refresh
that fails has counted, reported and taken its turn, but in none of its stretches has it touched the
session, the timers of the session or its user. Between its stretches others may do so.

- `Tabs.install_eq_false_iff`: which tokens a tab refuses.
- `Client.SessionKept`: what a refresh that fails leaves as it was.
- `Client.kept_of_mem`: so does every stretch of a refresh that does not go on with a token that can
  be stored.
- `Client.refused_keeps_session`: all ways to bring a token that is refused.
-/

namespace ClientSession

/-- The order starts or stops a timer of the session. -/
def Command.isTimers : Command Job TaskName → Bool
  | .start (.supervision _) => true
  | .stop (.supervision _) => true
  | _ => false

/-! ## Which tokens are refused -/

theorem BearerToken.isBlank_iff {t : BearerToken} :
    t.isBlank = true ↔ ∀ ch ∈ t.text.toList, Text.isBlank ch = true := by
  rw [isBlank, Text.isAllBlank, List.all_eq_true]

namespace Tabs

theorem claimedExpiry?_eq_none_iff {t : BearerToken} : claimedExpiry? t = none ↔
    ¬∃ claims e, Claims.decode t = .ok claims ∧ claims.expiresAt = .ok e := by
  rw [claimedExpiry?_eq]
  cases hdecode : Claims.decode t with
  | error failure => simp [Except.toOption]
  | ok claims =>
      cases hexpiry : claims.expiresAt with
      | error failure => simp [Except.toOption, hexpiry]
      | ok e => simp [Except.toOption, hexpiry]

/-- A token is refused if it holds blanks only, or if its end is neither given nor claimed. -/
theorem install_eq_false_iff {w : Tabs} {i : Nat} {t : BearerToken} {given : Option Instant} :
    (w.install i t given).1 = false ↔ (∀ ch ∈ t.text.toList, Text.isBlank ch = true) ∨
      given = none ∧ ¬∃ claims e, Claims.decode t = .ok claims ∧ claims.expiresAt = .ok e := by
  rw [install_fst, Option.isSome_eq_false_iff, Option.isNone_iff_eq_none, term?,
    ← BearerToken.isBlank_iff, ← claimedExpiry?_eq_none_iff]
  split
  · rename_i h
    simp [h]
  · rename_i h
    simp [h, Option.or_eq_none_iff]

theorem install_of_refused {w : Tabs} {i : Nat} {t : BearerToken} {given : Option Instant}
    (h : (w.install i t given).1 = false) : w.install i t given = (false, w) := by
  rw [install_fst, Option.isSome_eq_false_iff, Option.isNone_iff_eq_none] at h
  exact install_of_term_none h w i

theorem Undisturbed.history {w w' : Tabs} (h : w.Undisturbed w') : w'.history = w.history := by
  obtain ⟨_, _, rfl⟩ := h
  rfl

end Tabs

open Activity

namespace Client

variable {c c' c'' : Client}

/-! ## What is left as it was -/

/-- The orders to start and stop timers of the session that have not been heeded yet. -/
def timerOrders (c : Client) : List (Command Job TaskName) :=
  (c.agenda ++ c.supervisor.commands.map (Command.map Job.supervision TaskName.supervision)).filter
    Command.isTimers

/-- How many refreshes have failed. -/
def failedRefreshes (c : Client) : Nat := c.supervisor.tally.failures

/-- The tabs remember and have heard what they had, the same is stored, and the session has the
timers and the user that it had. Calls of the backend that were to fail may have failed. -/
structure SessionKept (c c' : Client) : Prop where
  own : c'.own = c.own
  tabs : c.tabs.Undisturbed c'.tabs
  user : c'.batcher.user = c.batcher.user
  refreshTask : c'.supervisor.refreshTask = c.supervisor.refreshTask
  expiryTask : c'.supervisor.expiryTask = c.supervisor.expiryTask
  orders : c'.timerOrders = c.timerOrders

namespace SessionKept

protected theorem refl (c : Client) : SessionKept c c := ⟨rfl, .refl _, rfl, rfl, rfl, rfl⟩

protected theorem trans (h : SessionKept c c') (h' : SessionKept c' c'') : SessionKept c c'' where
  own := h'.own.trans h.own
  tabs := h.tabs.trans h'.tabs
  user := h'.user.trans h.user
  refreshTask := h'.refreshTask.trans h.refreshTask
  expiryTask := h'.expiryTask.trans h.expiryTask
  orders := h'.orders.trans h.orders

end SessionKept

/-- Tabs that have only been read are put back without a reaction. -/
theorem sessionKept_setTabs {w : Tabs} (h : c.tabs.Undisturbed w) :
    SessionKept c (c.setTabs w) := by
  rw [setTabs_of_history h.history]
  exact ⟨rfl, h, rfl, rfl, rfl, rfl⟩

theorem sessionKept_mapSupervisor {f : Supervisor → Supervisor}
    (hrefresh : (f c.supervisor).refreshTask = c.supervisor.refreshTask)
    (hexpiry : (f c.supervisor).expiryTask = c.supervisor.expiryTask)
    (hcommands : (f c.supervisor).commands = c.supervisor.commands) :
    SessionKept c (c.mapSupervisor f) := by
  refine ⟨rfl, .refl _, rfl, hrefresh, hexpiry, ?_⟩
  -- Orders that the supervisor held are on the agenda now.
  show ((c.agenda ++ (f c.supervisor).commands.map _) ++ []).filter _ = _
  rw [List.append_nil, hcommands]
  rfl

theorem sessionKept_mapTurn (c : Client) (f : Turn → Turn) : SessionKept c (c.mapTurn f) :=
  sessionKept_mapSupervisor rfl rfl rfl

theorem sessionKept_countRefresh (c : Client) (o : Outcome) :
    SessionKept c (c.mapSupervisor (·.count o)) := sessionKept_mapSupervisor rfl rfl rfl

theorem sessionKept_trackAuth (c : Client) (e : Event) : SessionKept c (c.trackAuth e) := by
  refine ⟨rfl, .refl _, Batcher.user_trackAuth _ e, rfl, rfl, ?_⟩
  have hothers : ∀ l : List (Command BatchJob Nat),
      (l.map (Command.map Job.telemetry TaskName.telemetry)).filter Command.isTimers = [] := by
    intro l
    rw [List.filter_eq_nil_iff]
    intro o ho
    obtain ⟨o', -, rfl⟩ := List.mem_map.mp ho
    cases o' <;> exact Bool.false_ne_true
  show ((c.agenda ++ (c.batcher.trackAuth e).commands.map _) ++ _).filter _ = _
  rw [List.filter_append, List.filter_append, hothers, List.append_nil, ← List.filter_append]
  rfl

/-! ## Stretches -/

/-- The stretch does not go on with a token that can be stored, and has kept the session. -/
structure Kept (m : Unit) (i : Start Client) (c : Client) : Prop where
  stores : i.stores = false
  session : SessionKept i.state c

/-- The stretch has gone on with a token that can be stored, and counts no failure. -/
structure Replenished (i : Start Client) (c : Client) : Prop where
  stores : i.stores = true
  failures : c.failedRefreshes = i.state.failedRefreshes

/-- Every stretch that pauses has kept the session. -/
def keepingSession : Pact Unit Client := fun m i _ c _ => Kept m i c

variable {m : Unit} {i : Start Client}

theorem Kept.andThen (h : Kept m i c) (hc : SessionKept c c') : Kept m i c' :=
  ⟨h.stores, h.session.trans hc⟩

theorem kept_begin (now : Instant) (c : Client) : Kept m ⟨none, now, c⟩ c := ⟨rfl, .refl c⟩

theorem kept_resume {q : Cue} (hq : q.storable? = none) (now : Instant) (c : Client) :
    Kept m ⟨some q, now, c⟩ c := ⟨stores_of_storable? hq, .refl c⟩

theorem kept_sleep (span : Span) :
    Maintains keepingSession Kept (Activity.sleep span : Activity Client Unit) :=
  Maintains.ite (triple_await fun _ _ _ h =>
    ⟨(), h, fun now c => kept_begin now c, fun _ now c => kept_resume rfl now c⟩)
      (maintains_pure ())

theorem kept_onTab {α : Type} {f : Tabs → Nat → Instant → α × Tabs}
    (hf : ∀ (w : Tabs) i now, w.Undisturbed (f w i now).2) :
    Maintains keepingSession Kept (onTab f) :=
  triple_step fun _ _ _ h => h.andThen (sessionKept_setTabs (hf _ _ _))

theorem kept_countRefresh (o : Outcome) :
    Maintains keepingSession Kept (Client.countRefresh o) :=
  triple_modify fun _ _ c h => h.andThen (sessionKept_countRefresh c o)

theorem kept_takeTurn : Maintains keepingSession Kept takeTurn := by
  have hcarries : Carries keepingSession Kept (·.supervisor.turn)
      (fun c t => c.mapTurn fun _ => t) Wait.Aside fun _ _ => True :=
    { moves := fun _ _ c _ h _ => h.andThen (sessionKept_mapTurn c _)
      faults := fun _ _ _ h => h
      stays := fun _ _ _ h => h
      waits := fun _ _ _ w h hw => ⟨(), h,
        fun now c _ _ => (kept_begin now c).andThen (sessionKept_mapTurn c _),
        fun a now c => kept_resume (storable?_of_ne hw.1 a) now c⟩ }
  exact hcarries.within (fun _ => trivial) moves_take

/-! ## Refreshes -/

/-- A token that was issued is stored, or it is refused and the session is kept. -/
theorem replenished_or_kept_store (t : IssuedToken) (now : Instant) (c : Client) :
    if (c.tabs.install c.own t.token t.expiresAt).1 then
      Replenished ⟨some ⟨.token, .ok t⟩, now, c⟩ (c.store t)
    else Kept m ⟨some ⟨.token, .ok t⟩, now, c⟩ (c.store t) := by
  have hcue := storable?_token t
  rw [Tabs.install_fst]
  cases hterm : Tabs.term? t.token t.expiresAt with
  | some e =>
      rw [hterm] at hcue
      exact ⟨stores_token hcue, congrArg Tally.failures (tally_setTabs c _)⟩
  | none =>
      rw [hterm] at hcue
      rw [store_of_term_none hterm]
      exact kept_resume hcue now c

theorem kept_renewToken : Triple keepingSession Kept renewToken fun m i r c =>
    match r with
    | .ok () => Replenished i c
    | .error _ => Kept m i c := by
  refine Triple.bind maintains_get fun d => ?_
  cases d.supervisor.supply with
  | nobody => exact triple_pure fun _ _ _ h => h
  | interactive => exact triple_pure fun _ _ _ h => h
  | provider =>
      -- The stretch that goes on with the answer begins with it.
      refine Triple.bind (M := fun _ i r c => c = i.state ∧ i.cue = some ⟨.token, r⟩)
        (triple_await fun _ _ _ h => ?_) fun r => ?_
      · exact ⟨(), h, fun now c => kept_begin now c, fun _ _ _ => ⟨rfl, rfl⟩⟩
      cases r with
      | error e =>
          refine triple_pure ?_
          rintro m ⟨_, now, _⟩ c ⟨rfl, rfl⟩
          exact kept_resume rfl now c
      | ok t =>
          refine Triple.bind
            (M := fun m i stored c => if stored then Replenished i c else Kept m i c)
            (triple_step ?_) fun stored => triple_pure fun m i c h => ?_
          · rintro m ⟨_, now, _⟩ c ⟨rfl, rfl⟩
            exact replenished_or_kept_store t now c
          · cases stored with
            | true => exact h
            | false => exact h

theorem kept_refreshInTurn (force : Bool) : Triple keepingSession Kept (refreshInTurn force)
    fun m i r c => Replenished i c ∧ r = .ok true ∨ Kept m i c := by
  refine Triple.bind (kept_onTab fun w i _ => w.expiresAt_undisturbed i) fun needed => ?_
  refine Triple.ite (fun _ => triple_pure fun _ _ _ h => .inr h) fun _ => ?_
  refine Triple.bind (kept_countRefresh _) fun _ => Triple.bind kept_renewToken fun r => ?_
  cases r with
  | ok _ =>
      refine Triple.bind (M := fun _ i _ c => Replenished i c)
        (triple_modify fun _ _ _ h => ⟨h.stores, h.failures⟩) fun _ => ?_
      refine Triple.bind (M := fun _ i _ c => Replenished i c)
        (triple_change fun _ _ _ h => ⟨h.stores, h.failures⟩) fun _ => ?_
      refine Triple.bind (M := fun _ i _ c => Replenished i c) (triple_modify fun _ _ c h => ?_)
        fun _ => triple_pure fun _ _ _ h => .inl ⟨h, rfl⟩
      have htally := congrArg Tally.failures (Supervisor.tally_armTimeout c.supervisor)
      exact ⟨h.stores, htally.trans h.failures⟩
  | error e =>
      refine Triple.bind (kept_countRefresh _) fun _ => ?_
      refine Triple.bind (M := fun m i _ c => Kept m i c)
        (triple_change fun _ _ c h => h.andThen (sessionKept_trackAuth c _)) fun _ => ?_
      exact triple_pure fun _ _ _ h => .inr h

/-- A refresh has kept the session unless it answers that it stored a token. -/
theorem kept_refresh (force : Bool) : Triple keepingSession Kept (refresh force)
    fun m i r c => Replenished i c ∧ r = .ok true ∨ Kept m i c := by
  refine Triple.bind kept_takeTurn fun _ => ?_
  refine Triple.bind ((kept_refreshInTurn force).guarded fun _ _ c h =>
    h.andThen (sessionKept_mapTurn c _)) fun r => ?_
  refine Triple.bind (M := fun m i _ c => Replenished i c ∧ r = .ok true ∨ Kept m i c)
    (triple_modify fun _ _ c h => ?_) fun _ => triple_pure fun _ _ _ h => h
  rcases h with ⟨h, hr⟩ | h
  · exact .inl ⟨⟨h.stores, h.failures⟩, hr⟩
  · exact .inr (h.andThen (sessionKept_mapTurn c _))

theorem kept_refreshTimer (task : Nat) : Triple keepingSession Kept (watch (.refreshTimer task))
    fun m i _ c => Replenished i c ∨ Kept m i c := by
  refine Triple.bind maintains_get fun d => Triple.bind (kept_sleep _) fun _ => ?_
  refine Triple.bind (kept_onTab fun w i _ => w.hasToken_undisturbed i) fun found => ?_
  refine Triple.ite (fun _ => ?_) fun _ => triple_pure fun _ _ _ h => .inr h
  refine Triple.bind (kept_refresh false) fun r => triple_pure fun _ _ _ h => ?_
  exact h.imp_left And.left

/-- What becomes of the session in all work that refreshes it. -/
theorem kept_carryOut {work : Work Operation Job} (hwork : Refreshes work = true) :
    Triple keepingSession Kept (workplace.carryOut work) fun m i e c =>
      Replenished i c ∧ (∀ failure, e ≠ .answers (.refreshed (.error failure))) ∨ Kept m i c := by
  unfold Refreshes at hwork
  split at hwork
  · rename_i force
    refine Triple.map (Triple.map ((kept_refresh force).conseq (fun _ _ _ h => h) ?_))
    rintro m i r c (⟨h, rfl⟩ | h)
    · exact .inl ⟨h, nofun⟩
    · exact .inr h
  · rename_i task
    have htimer : Triple keepingSession Kept (Client.perform (.supervision (.refreshTimer task)))
        fun m i _ c => Replenished i c ∨ Kept m i c := Triple.map (kept_refreshTimer task)
    refine Triple.bind htimer fun again => ?_
    cases again with
    | some j => exact triple_pure fun m i c h => h.imp_left fun h => ⟨h, nofun⟩
    | none => exact triple_pure fun m i c h => h.imp_left fun h => ⟨h, nofun⟩
  · cases hwork

/-! ## Courses -/

variable {ms : List Moment} {s : Scene} {x : Moment}

/-- A moment of work that refreshes the session has kept it, unless it went on with a token that can
be stored; then it has counted no failure and told of none. -/
theorem kept_of_mem (h : Course (scene c) ms s) (hx : x ∈ ms) (hwork : Refreshes x.work = true) :
    Kept () x.start x.left ∨ Replenished x.start x.left ∧ ∃ e, x.result = .ended e ∧
      ∀ failure, e ≠ .answers (.refreshed (.error failure)) := by
  have hbegins : ∀ (now : Instant) (c : Client), Kept () ⟨none, now, c⟩ c :=
    fun now c => kept_begin now c
  have hkept := (Rules.only_keptBy hbegins hbegins fun _ => kept_carryOut).all h x hx
  unfold Rules.Keeps at hkept
  split at hkept
  · rename_i e he
    rcases hkept.1 hwork with ⟨hreplenished, hfailure⟩ | hkept
    · exact .inr ⟨hreplenished, e, he, hfailure⟩
    · exact .inl hkept
  · exact .inl (hkept.1 hwork)

/-- A refresh that fails has kept the session in all of its stretches. -/
theorem kept_of_failed {force : Bool} {failure : IssueFailure} (h : Course (scene c) (ms ++ [x]) s)
    (hwork : x.work = .call (.refresh force))
    (hfailed : x.result = .ended (.answers (.refreshed (.error failure)))) :
    ∀ y ∈ ms ++ [x], y.number = x.number → SessionKept y.start.state y.left := by
  intro y hy hn
  have hsame : y.work = x.work ∧ ∀ e, y.result = .ended e →
      e = .answers (.refreshed (.error failure)) := by
    rcases List.mem_append.mp hy with hbefore | hlast
    · obtain ⟨hw, hunanswered⟩ := h.before_call (by rw [hwork]; rfl) y hbefore hn
      exact ⟨hw, fun e he => absurd he (hunanswered e)⟩
    · obtain rfl := List.mem_singleton.mp hlast
      exact ⟨rfl, fun e he => by cases he.symm.trans hfailed; rfl⟩
  have hrefreshes : Refreshes y.work = true := by
    rw [hsame.1, hwork]
    rfl
  rcases kept_of_mem h hy hrefreshes with hkept | ⟨-, e, he, hnot⟩
  · exact hkept.session
  · exact absurd (hsame.2 e he) (hnot failure)

/-! ## All refusals -/

theorem login_of_refused {t : BearerToken} {given : Option Instant} {now : Instant}
    (h : (c.tabs.install c.own t given).1 = false) : c.login t given now = (false, c) := by
  rw [login, Tabs.install_of_refused h]
  exact congrArg (Prod.mk false) (setTabs_of_history rfl)

theorem login_fst (c : Client) (t : BearerToken) (given : Option Instant) (now : Instant) :
    (c.login t given now).1 = (c.tabs.install c.own t given).1 := by
  cases h : (c.tabs.install c.own t given).1 with
  | false => rw [login_of_refused h]
  | true =>
      unfold login
      dsimp only
      rw [h]
      rfl

theorem act_of_refused {tab : Nat} {t : BearerToken} {given : Option Instant} {now : Instant}
    (h : (c.tabs.install tab t given).1 = false) : (c.act tab (.install t given) now).2 = c := by
  unfold act
  split
  · show c.setTabs (c.tabs.install tab t given).2 = c
    rw [Tabs.install_of_refused h]
    exact setTabs_of_history rfl
  · rfl

/-- A tab refuses a token exactly if it holds blanks only, or if no expiry is given and its claims
cannot be read or name none of the calendar; and then nothing has changed. So it is for a login,
which refuses the tokens that the client's own tab refuses. A refresh that answers with a failure
has kept the session in all of its stretches, and a refresh by the timer keeps it in those that
count a failure or do not go on with a token that can be stored. -/
theorem refused_keeps_session (c : Client) :
    (∀ (tab : Nat) (t : BearerToken) (given : Option Instant) (now : Instant),
      ((c.tabs.install tab t given).1 = false ↔
        (∀ ch ∈ t.text.toList, Text.isBlank ch = true) ∨
          given = none ∧ ¬∃ claims e, Claims.decode t = .ok claims ∧ claims.expiresAt = .ok e) ∧
      ((c.tabs.install tab t given).1 = false → (c.tabs.install tab t given).2 = c.tabs ∧
        (c.act tab (.install t given) now).2 = c) ∧
      (c.login t given now).1 = (c.tabs.install c.own t given).1 ∧
      ((c.login t given now).1 = false → (c.login t given now).2 = c)) ∧
    (∀ (ms : List Moment) (s : Scene) (x : Moment) (force : Bool) (failure : IssueFailure),
      Course (scene c) (ms ++ [x]) s → x.work = .call (.refresh force) →
        x.result = .ended (.answers (.refreshed (.error failure))) →
          ∀ y ∈ ms ++ [x], y.number = x.number → SessionKept y.start.state y.left) ∧
    ∀ (ms : List Moment) (s : Scene), Course (scene c) ms s → ∀ x ∈ ms, Refreshes x.work = true →
      x.start.stores = false ∨ x.start.state.failedRefreshes < x.left.failedRefreshes →
        SessionKept x.start.state x.left := by
  refine ⟨fun tab t given now => ⟨Tabs.install_eq_false_iff, fun h => ⟨?_, act_of_refused h⟩,
    login_fst c t given now, fun h => ?_⟩, fun ms s x force failure h hwork hfailed =>
      kept_of_failed h hwork hfailed, fun ms s h x hx hwork hrefused => ?_⟩
  · rw [Tabs.install_of_refused h]
  · rw [login_fst] at h
    rw [login_of_refused h]
  · rcases kept_of_mem h hx hwork with hkept | ⟨hreplenished, -⟩
    · exact hkept.session
    · rcases hrefused with hstores | hfailures
      · exact absurd hreplenished.stores (Bool.eq_false_iff.mp hstores)
      · exact absurd hreplenished.failures (Nat.ne_of_gt hfailures)

/-- A caller forces a refresh and is issued a token that has no end. -/
def endlessToken : Script :=
  [(⟨1748779200000000000⟩, .ask (.refresh true)),
   (⟨1748779200000000000⟩, .reply 0 (Wait.answer (.error default) (.ok ⟨⟨"opaque"⟩, none⟩)))]

/-- A refresh has ended with a failure. -/
def Moment.failsToRefresh (x : Moment) : Bool :=
  match x.work, x.result with
  | .call (.refresh _), .ended (.answers (.refreshed (.error _))) => true
  | _, _ => false

theorem exists_of_failsToRefresh (h : Moment.failsToRefresh x = true) : ∃ force failure,
    x.work = .call (.refresh force) ∧
      x.result = .ended (.answers (.refreshed (.error failure))) := by
  unfold Moment.failsToRefresh at h
  split at h
  · rename_i force failure hwork hresult
    exact ⟨force, failure, hwork, hresult⟩
  · cases h

/-- A client that has just been set up refuses that token, whoever brings it. -/
theorem refused_keeps_session_opaque : ∃ ms x s force failure,
    Course (scene plain) (ms ++ [x]) s ∧ x.work = .call (.refresh force) ∧
      x.result = .ended (.answers (.refreshed (.error failure))) ∧
      x.start.stores = false ∧ x.start.state.failedRefreshes < x.left.failedRefreshes ∧
      (∃ y ∈ ms, y.number = x.number ∧ SessionKept y.start.state y.left) ∧
      SessionKept x.start.state x.left ∧
      (plain.tabs.install 0 ⟨"opaque"⟩ none).1 = false ∧
      (plain.tabs.install 0 ⟨"opaque"⟩ none).2 = plain.tabs ∧
      (plain.tabs.install 0 ⟨" "⟩ (some ⟨1748779200000000000⟩)).1 = false ∧
      (plain.login ⟨"opaque"⟩ none ⟨1748779200000000000⟩).1 = false ∧
      (plain.login ⟨"opaque"⟩ none ⟨1748779200000000000⟩).2 = plain := by
  have hpasses : workplace.passes (scene plain) endlessToken 1 (fun ms x ms' _ =>
      decide (ms' = []) && Moment.failsToRefresh x && decide (x.start.stores = false ∧
        x.start.state.failedRefreshes < x.left.failedRefreshes ∧
          ∃ y ∈ ms, y.number = x.number)) = true := by
    decide +kernel
  obtain ⟨ms, x, ms', s, hrun, htest⟩ := Workplace.exists_course hpasses
  simp only [Bool.and_eq_true, decide_eq_true_eq] at htest
  obtain ⟨⟨rfl, hfails⟩, hstores, hcounts, y, hy, hn⟩ := htest
  obtain ⟨force, failure, hwork, hresult⟩ := exists_of_failsToRefresh hfails
  obtain ⟨htokens, hcalls, hall⟩ := refused_keeps_session plain
  have hkept := hcalls ms s x force failure hrun hwork hresult
  have hopaque : (plain.tabs.install 0 ⟨"opaque"⟩ none).1 = false :=
    (htokens 0 _ none ⟨0⟩).1.mpr
      (.inr ⟨rfl, Tabs.claimedExpiry?_eq_none_iff.mp (by decide +kernel)⟩)
  have hblank : (plain.tabs.install 0 ⟨" "⟩ (some ⟨1748779200000000000⟩)).1 = false :=
    (htokens 0 _ _ ⟨0⟩).1.mpr (.inl (BearerToken.isBlank_iff.mp (by decide +kernel)))
  obtain ⟨-, hsame, hlogin, hunchanged⟩ :=
    htokens 0 ⟨"opaque"⟩ none ⟨1748779200000000000⟩
  exact ⟨ms, x, s, force, failure, hrun, hwork, hresult, hstores, hcounts,
    ⟨y, hy, hn, hkept y (by simp [hy]) hn⟩,
    hall _ s hrun x (by simp) (by rw [hwork]; rfl) (.inr hcounts), hopaque, (hsame hopaque).1,
    hblank, hlogin.trans hopaque, hunchanged (hlogin.trans hopaque)⟩

end Client

end ClientSession
