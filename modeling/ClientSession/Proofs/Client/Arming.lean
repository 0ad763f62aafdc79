import ClientSession.Proofs.Client.Laws

/-!
# Arming the expiry timer

The timers of a session are numbered in the order in which they are started, and no number is used
again. Signing in and refreshing arm the expiry timer anew for each token that they store; a check
that stores a token does not. Other work stores no token.

- `Supervisor.Precedes`, `Supervisor.Rearms`: what becomes of the timers over any stretch, and over
  one that arms the expiry timer.
- `Client.armRules_keptBy`: all work of a client does so.
- `Client.quiet_of_armed`: while one expiry timer stays armed, nothing but a check stores a token.
-/

namespace ClientSession

namespace Supervisor

variable {s s' s'' : Supervisor}

/-- The expiry timer that is armed afterwards, if any, was started meanwhile. -/
structure Rearms (s s' : Supervisor) : Prop where
  nextTask : s.nextTask ≤ s'.nextTask
  anew : ∀ n, s'.expiryTask = some n → s.nextTask ≤ n ∧ n < s'.nextTask

/-- The expiry timer is the one of before, unless it was stopped or another one was started. -/
structure Precedes (s s' : Supervisor) : Prop where
  nextTask : s.nextTask ≤ s'.nextTask
  expiryTask : s'.expiryTask = s.expiryTask ∨ s.Rearms s'

theorem Rearms.precedes (h : s.Rearms s') : s.Precedes s' := ⟨h.nextTask, .inr h⟩

theorem Precedes.of_same (he : s'.expiryTask = s.expiryTask) (hn : s'.nextTask = s.nextTask) :
    s.Precedes s' :=
  ⟨Nat.le_of_eq hn.symm, .inl he⟩

protected theorem Precedes.refl (s : Supervisor) : s.Precedes s := .of_same rfl rfl

theorem Precedes.rearms (h : s.Precedes s') (h' : s'.Rearms s'') : s.Rearms s'' := by
  refine ⟨Nat.le_trans h.nextTask h'.nextTask, fun n hn => ?_⟩
  obtain ⟨hfirst, hlast⟩ := h'.anew n hn
  exact ⟨Nat.le_trans h.nextTask hfirst, hlast⟩

theorem Rearms.trans (h : s.Rearms s') (h' : s'.Precedes s'') : s.Rearms s'' := by
  rcases h'.expiryTask with hsame | hanew
  · refine ⟨Nat.le_trans h.nextTask h'.nextTask, fun n hn => ?_⟩
    rw [hsame] at hn
    obtain ⟨hfirst, hlast⟩ := h.anew n hn
    exact ⟨hfirst, Nat.lt_of_lt_of_le hlast h'.nextTask⟩
  · exact h.precedes.rearms hanew

protected theorem Precedes.trans (h : s.Precedes s') (h' : s'.Precedes s'') : s.Precedes s'' := by
  refine ⟨Nat.le_trans h.nextTask h'.nextTask, ?_⟩
  rcases h.expiryTask with hsame | hanew
  · rcases h'.expiryTask with hsame' | hanew'
    · exact .inl (hsame'.trans hsame)
    · exact .inr (h.rearms hanew')
  · exact .inr (hanew.trans h')

/-- The number of the armed timer has been given. -/
def Numbered (s : Supervisor) : Prop := ∀ n, s.expiryTask = some n → n < s.nextTask

theorem Numbered.of_precedes (hs : s.Numbered) (h : s.Precedes s') : s'.Numbered := by
  intro n hn
  rcases h.expiryTask with hsame | hanew
  · rw [hsame] at hn
    exact Nat.lt_of_lt_of_le (hs n hn) h.nextTask
  · exact (hanew.anew n hn).2

theorem precedes_armRefresh (s : Supervisor) : s.Precedes s.armRefresh := by
  unfold armRefresh startTask stop
  split
  · cases s.hasWorkers <;> cases s.refreshTask <;> exact ⟨by simp, .inl rfl⟩
  · exact .refl s

theorem rearms_armTimeout (s : Supervisor) : s.Rearms s.armTimeout := by
  unfold armTimeout startTask stop
  cases s.hasWorkers <;> cases s.expiryTask <;> exact ⟨by simp, by simp⟩

theorem rearms_start (s : Supervisor) : s.Rearms s.start :=
  s.precedes_armRefresh.rearms s.armRefresh.rearms_armTimeout

theorem rearms_shutdown (s : Supervisor) : s.Rearms s.shutdown := by
  unfold shutdown stop
  cases s.refreshTask <;> cases s.expiryTask <;> exact ⟨Nat.le_refl _, nofun⟩

end Supervisor

open Activity

namespace Client

variable {c c' : Client}

theorem precedes_setTabs (c : Client) (w : Tabs) :
    c.supervisor.Precedes (c.setTabs w).supervisor := by
  unfold Client.setTabs
  dsimp only
  split
  · have hstop := c.supervisor.rearms_shutdown
    exact Supervisor.Rearms.precedes ⟨hstop.nextTask, hstop.anew⟩
  · exact .refl _

theorem precedes_mapSupervisor {f : Supervisor → Supervisor}
    (hf : ∀ s : Supervisor, s.Precedes (f s)) (c : Client) :
    c.supervisor.Precedes (c.mapSupervisor f).supervisor := by
  obtain ⟨hnext, hsame | hanew⟩ := hf c.supervisor
  · exact ⟨hnext, .inl hsame⟩
  · exact ⟨hnext, .inr ⟨hanew.nextTask, hanew.anew⟩⟩

theorem Aside.precedes (h : Aside c c') : c.supervisor.Precedes c'.supervisor :=
  .of_same h.expiryTask h.nextTask

theorem precedes_giveUpPass (now : Instant) (c : Client) :
    c.supervisor.Precedes (c.giveUpPass now).supervisor := by
  have hend := precedes_setTabs c (c.tabs.endSession c.own .validationExhausted)
  unfold Client.giveUpPass
  dsimp only
  split <;> exact hend

theorem precedes_resumeSession (user : String) (c : Client) :
    c.supervisor.Precedes (c.resumeSession user).supervisor := by
  unfold Client.resumeSession
  split
  · exact .refl _
  · exact precedes_mapSupervisor (fun s => s.rearms_start.precedes) c

theorem precedes_expire (task : Nat) (c : Client) :
    c.supervisor.Precedes (c.expire task).supervisor := by
  refine (precedes_setTabs c _).trans (precedes_mapSupervisor (fun s => ?_) _)
  split
  · exact Supervisor.Rearms.precedes ⟨Nat.le_refl _, nofun⟩
  · exact .refl s

theorem precedes_abandonJob (c : Client) (j : Job) :
    c.supervisor.Precedes (c.abandonJob j).supervisor := by
  unfold Client.abandonJob
  split
  · split <;> exact .of_same rfl rfl
  · split <;> exact .of_same rfl rfl
  · split <;> exact .of_same rfl rfl
  · split
    · exact Supervisor.Rearms.precedes ⟨Nat.le_refl _, nofun⟩
    · exact .refl _
  · exact .refl _

/-! ## Stretches -/

/-- Work that may store a token and not arm the expiry timer: the checks of the session, and what is
done on its tab itself. -/
def Renews : Work Operation Job → Bool
  | .call .validate => true
  | .call .validateSession => true
  | .call (.onTab _ _) => true
  | _ => false

/-- The timers are those with which the stretch began, or were started in it. -/
def Followed (_ : Unit) (i : Start Client) (c : Client) : Prop :=
  i.state.supervisor.Precedes c.supervisor

/-- A stretch that pauses follows the timers with which it began; if it is to be quiet, it began
with no token that can be stored. -/
def Following (quiet : Bool) : Pact Unit Client := fun m i _ c _ =>
  Followed m i c ∧ (quiet = true → i.stores = false)

/-- So far the stretch has stored no token. -/
def Quiet (m : Unit) (i : Start Client) (c : Client) : Prop := Followed m i c ∧ i.stores = false

/-- The expiry timer has been armed since the stretch began. -/
def Rearmed (_ : Unit) (i : Start Client) (c : Client) : Prop :=
  i.state.supervisor.Rearms c.supervisor

theorem Followed.aside {m : Unit} {i : Start Client} (h : Followed m i c) (ha : Aside c c') :
    Followed m i c' := Supervisor.Precedes.trans h ha.precedes

theorem Followed.setTabs {m : Unit} {i : Start Client} (h : Followed m i c) (w : Tabs) :
    Followed m i (c.setTabs w) := Supervisor.Precedes.trans h (precedes_setTabs c w)

theorem followed_lasting : Lasting (Following false) Followed Followed where
  aside _ _ _ _ h ha := h.aside ha
  recalls _ _ _ w h _ := h.setTabs w
  faults _ _ _ h := ⟨h, nofun⟩
  stays _ _ _ h := ⟨h, nofun⟩
  drops _ _ _ _ h ha := ⟨h.1.aside ha, nofun⟩
  waits _ _ _ _ h _ := ⟨(), ⟨h, nofun⟩, fun _ _ => ⟨.refl _, nofun⟩, fun _ _ _ _ => .refl _,
    fun _ _ c _ => precedes_setTabs c _⟩
  calls _ _ _ _ h := ⟨(), ⟨h, nofun⟩, fun _ _ => ⟨.refl _, nofun⟩, fun _ _ _ => .refl _⟩
  refuses _ _ _ h _ := h.setTabs _

theorem followed_passing : Passing (Following false) Followed Followed
    fun m i _ c => Followed m i c where
  first := followed_lasting.calling
  later := followed_lasting.calling
  retries _ _ c h := (h.elim id id).aside (aside_countValidation c .retry)
  clears _ _ _ h := h.setTabs _
  begins _ _ _ h := h
  abandons _ _ _ h := h
  refused _ _ _ h := h
  succeeds _ _ _ _ h := h.elim id id
  fails _ i c _ h := (h.elim id id).trans (precedes_giveUpPass i.now c)

theorem followed_validateSession : Triple (Following false) Followed Client.validateSession
    fun m i _ c => Followed m i c :=
  followed_passing.validateSession
    (fun _ _ c user h => Supervisor.Precedes.trans h (precedes_resumeSession user c))
    fun _ _ _ _ h => h

theorem quiet_lasting : Lasting (Following true) Quiet Followed where
  aside _ _ _ _ h ha := ⟨h.1.aside ha, h.2⟩
  recalls _ _ _ w h _ := ⟨h.1.setTabs w, h.2⟩
  faults _ _ _ h := ⟨h.1, fun _ => h.2⟩
  stays _ _ _ h := ⟨h.1, fun _ => h.2⟩
  drops _ _ _ _ h ha := ⟨h.1.aside ha, h.2⟩
  waits _ _ _ _ h _ := ⟨(), ⟨h.1, fun _ => h.2⟩, fun _ _ => ⟨.refl _, fun _ => rfl⟩,
    fun _ _ _ hq => ⟨.refl _, stores_of_storable? hq⟩, fun _ _ c _ => precedes_setTabs c _⟩
  calls _ _ _ _ h := ⟨(), ⟨h.1, fun _ => h.2⟩, fun _ _ => ⟨.refl _, fun _ => rfl⟩,
    fun _ _ _ => ⟨.refl _, stores_of_storable? rfl⟩⟩
  refuses _ _ _ h _ := ⟨h.1.setTabs _, h.2⟩

theorem Rearmed.aside {m : Unit} {i : Start Client} (h : Rearmed m i c) (ha : Aside c c') :
    Rearmed m i c' := Supervisor.Rearms.trans h ha.precedes

theorem Followed.rearmed {m : Unit} {i : Start Client} (h : Followed m i c) :
    Rearmed m i (c.mapSupervisor (·.armTimeout)) := by
  have harm := c.supervisor.rearms_armTimeout
  exact Supervisor.Precedes.rearms h ⟨harm.nextTask, harm.anew⟩

theorem armed_refresh (force : Bool) :
    Triple (Following true) Quiet (Client.refresh force)
      fun m i _ c => Quiet m i c ∨ Rearmed m i c :=
  quiet_lasting.refresh (fun _ _ _ _ h => h.aside) (fun _ _ _ _ h => h.aside)
    (fun _ _ _ h => h.rearmed) force

theorem armed_watchRefresh (task : Nat) :
    Triple (Following true) Quiet (Client.watch (.refreshTimer task))
      fun m i _ c => Quiet m i c ∨ Rearmed m i c :=
  quiet_lasting.watchRefresh (fun _ _ _ _ h => h.aside) (fun _ _ _ _ h => h.aside)
    (fun _ _ _ h => h.rearmed) task

theorem precedes_start (now : Instant) (c : Client) :
    c.supervisor.Precedes (c.start now).supervisor := by
  have hread : c.supervisor.Precedes ((c.mapBatcher (·.startPeriodic)).setTabs
      (c.tabs.token c.own now).2).supervisor := precedes_setTabs (c.mapBatcher (·.startPeriodic)) _
  unfold Client.start
  dsimp only
  split
  · exact hread.trans (precedes_mapSupervisor (fun s => s.rearms_start.precedes) _)
  · exact hread

/-- Signing in arms the expiry timer if the token is accepted. -/
theorem armed_login (t : BearerToken) (e : Option Instant) (now : Instant) (c : Client) :
    if (Tabs.term? t e).isSome then c.supervisor.Rearms (c.login t e now).2.supervisor
    else c.supervisor.Precedes (c.login t e now).2.supervisor := by
  have hstored := precedes_setTabs c (c.tabs.install c.own t e).2
  unfold Client.login
  dsimp only
  rw [Tabs.install_fst]
  split
  · generalize c.setTabs (c.tabs.install c.own t e).2 = d at hstored
    have hread := hstored.trans (precedes_setTabs d (d.tabs.userId d.own now).2)
    generalize d.setTabs (d.tabs.userId d.own now).2 = d' at hread
    have hstart := d'.supervisor.rearms_start
    exact hread.rearms ⟨hstart.nextTask, hstart.anew⟩
  · exact hstored

theorem precedes_logout (c : Client) : c.supervisor.Precedes c.logout.supervisor := by
  have hend := precedes_setTabs c (c.tabs.endSession c.own .logout)
  exact hend.trans (precedes_mapSupervisor (fun s => s.rearms_shutdown.precedes) _)

theorem precedes_teardown (now : Instant) (c : Client) :
    c.supervisor.Precedes (c.teardown now).2.supervisor :=
  precedes_mapSupervisor (fun s => s.rearms_shutdown.precedes) c

/-! ## Rules -/

/-- What becomes of the timers in a stretch of such work. Unless the work is a check, they are armed
for a token that it stores. -/
structure Armed (work : Work Operation Job) (i : Start Client) (c : Client) : Prop where
  followed : i.state.supervisor.Precedes c.supervisor
  answered : Renews work = false → i.stores = true → i.state.supervisor.Rearms c.supervisor
  login : ∀ t e, work = .call (.login t e) → (Tabs.term? t e).isSome →
    i.state.supervisor.Rearms c.supervisor

/-- All work follows the timers, and unless it is a check it pauses with no token stored. -/
def armRules : Rules Unit Client Operation Reply Job where
  memo := ()
  pact work := Following (!Renews work)
  outcome work _ i _ c := Armed work i c

variable {work : Work Operation Job} {m : Unit} {i : Start Client}

theorem Followed.armed (h : Followed m i c) (hrenews : Renews work = true)
    (hlogin : ∀ t e, work ≠ .call (.login t e)) : Armed work i c := by
  refine ⟨h, fun hw => ?_, fun t e hw => absurd hw (hlogin t e)⟩
  rw [hrenews] at hw
  cases hw

theorem Quiet.armed (h : Quiet m i c) (hlogin : ∀ t e, work ≠ .call (.login t e)) :
    Armed work i c := by
  refine ⟨h.1, fun _ hstores => ?_, fun t e hw => absurd hw (hlogin t e)⟩
  rw [h.2] at hstores
  cases hstores

theorem Rearmed.armed (h : Rearmed m i c) : Armed work i c :=
  ⟨h.precedes, fun _ _ => h, fun _ _ _ _ => h⟩

/-- What a refresh has left, whether or not it stored a token. -/
theorem armed_of_refreshed (h : Quiet m i c ∨ Rearmed m i c)
    (hlogin : ∀ t e, work ≠ .call (.login t e)) : Armed work i c :=
  h.elim (fun h => h.armed hlogin) fun h => h.armed

section

variable {quiet : Bool} {α : Type} {x : Activity Client α}
  {Q : Unit → Start Client → α → Client → Prop}

theorem followed_opening (h : Triple (Following quiet) Followed x Q) :
    Triple (Following quiet) Opening x Q := opening_of h fun _ _ => .refl _

theorem quiet_opening (h : Triple (Following quiet) Quiet x Q) :
    Triple (Following quiet) Opening x Q := opening_of h fun _ _ => ⟨.refl _, rfl⟩

end

theorem armRules_serve (k : Operation) :
    Triple (armRules.pact (.call k)) Opening (Client.serve k)
      fun m i r c => armRules.outcome (.call k) m i (.answers r) c := by
  have hchecks : ∀ {α : Type} {x : Activity Client α} {f : α → Reply},
      Triple (Following false) Followed x (fun m i _ c => Followed m i c) →
        Renews (.call k) = true → (∀ t e, Work.call k ≠ .call (.login t e)) →
          Triple (Following false) Opening (do return f (← x)) fun _ i _ c => Armed (.call k) i c :=
    fun h hrenews hlogin => Triple.map ((followed_opening h).conseq (fun _ _ _ h => h)
      fun _ _ _ _ h => h.armed hrenews hlogin)
  have hquiet : ∀ {α : Type} {x : Activity Client α} {f : α → Reply},
      Maintains (Following true) Quiet x → (∀ t e, Work.call k ≠ .call (.login t e)) →
        Triple (Following true) Opening (do return f (← x)) fun _ i _ c => Armed (.call k) i c :=
    fun h hlogin => Triple.map ((quiet_opening h).conseq (fun _ _ _ h => h)
      fun _ _ _ _ h => h.armed hlogin)
  have hmodify : ∀ {f : Client → Client}, (∀ c : Client, c.supervisor.Precedes (f c).supervisor) →
      (∀ t e, Work.call k ≠ .call (.login t e)) →
        Triple (Following true) Opening (do modify f; return Reply.done)
          fun _ i _ c => Armed (.call k) i c :=
    fun hf => hquiet (triple_modify fun m i c h => ⟨h.1.trans (hf c), h.2⟩)
  cases k with
  | login t e =>
      refine Triple.bind (M := fun _ i _ c => Armed (.call (.login t e)) i c)
        (triple_step ?_) fun _ => triple_pure fun _ _ _ h => h
      rintro m ⟨_, now, _⟩ c ⟨rfl, rfl⟩
      have hlogin := armed_login t e now c
      refine ⟨?_, fun _ => nofun, ?_⟩
      · split at hlogin
        · exact hlogin.precedes
        · exact hlogin
      · rintro _ _ ⟨⟩ hterm
        rwa [if_pos hterm] at hlogin
  | refresh force =>
      exact Triple.map ((quiet_opening (armed_refresh force)).conseq (fun _ _ _ h => h)
        fun _ _ _ _ h => armed_of_refreshed h nofun)
  | start =>
      exact hquiet (triple_change fun m i c h => ⟨h.1.trans (precedes_start i.now c), h.2⟩) nofun
  | logout => exact hmodify precedes_logout nofun
  | validate => exact hchecks followed_passing.validate rfl nofun
  | validateSession => exact hchecks followed_validateSession rfl nofun
  | send r => exact hquiet (quiet_lasting.calling.send r) nofun
  | sendWithRetry r => exact hquiet (quiet_lasting.calling.sendWithRetry r) nofun
  | armTimers => exact hmodify (precedes_mapSupervisor fun s => s.rearms_start.precedes) nofun
  | stopTimers => exact hmodify (precedes_mapSupervisor fun s => s.rearms_shutdown.precedes) nofun
  | setVisibility inBackground => exact hmodify (fun c => .of_same rfl rfl) nofun
  | trackAuth e => exact hmodify (fun c => (aside_trackAuth c e).precedes) nofun
  | trackRequest e => exact hquiet (quiet_lasting.trackRequest e) nofun
  | flushAuth => exact hquiet (quiet_lasting.telemetry Batcher.unattributing_flushAuth) nofun
  | flushRequests =>
      exact hquiet (quiet_lasting.telemetry Batcher.unattributing_flushRequests) nofun
  | teardown =>
      exact hquiet (triple_step fun m i c h => ⟨h.1.trans (precedes_teardown i.now c), h.2⟩) nofun
  | onTab tab action =>
      refine followed_opening (triple_step fun m i c h => Followed.armed (m := m) ?_ rfl nofun)
      show Followed m i (c.act tab action i.now).2
      unfold Client.act
      split
      · exact h.setTabs _
      · exact h

theorem armRules_perform (j : Job) :
    Triple (armRules.pact (.job j)) Opening (Client.perform j) fun m i again c =>
      armRules.outcome (.job j) m i (again.elim .leaves .again) c := by
  cases j with
  | telemetry job =>
      exact quiet_opening (Triple.bind
        (quiet_lasting.telemetry (Batcher.unattributing_perform job))
          fun again => triple_pure fun m i c h => h.armed nofun)
  | supervision job =>
      cases job with
      | refreshTimer n =>
          exact quiet_opening (Triple.bind (armed_watchRefresh n) fun again =>
            triple_pure fun m i c h => armed_of_refreshed h nofun)
      | expiryTimer n =>
          have hwatch := quiet_lasting.watchExpiry (E := Quiet) (n := n)
            fun m i c h _ => ⟨(h.1.setTabs _).trans (precedes_expire n _), h.2⟩
          refine quiet_opening (Triple.bind hwatch fun again => triple_pure fun m i c h => ?_)
          rw [ite_self] at h
          exact h.armed nofun

theorem armRules_keptBy : armRules.KeptBy workplace :=
  keptBy_workplace (fun _ _ _ => ⟨.refl _, fun _ => rfl⟩) armRules_serve armRules_perform

/-! ## Moments -/

variable {ms ms' : List Moment} {s t : Scene} {x : Moment}

/-- A stretch follows the timers, and arms them if it stores a token, unless it is of a check. -/
theorem armed_of_mem (hrun : Course (scene c) ms s) (hx : x ∈ ms) :
    x.start.state.supervisor.Precedes x.left.supervisor ∧ (Renews x.work = false →
      x.stores = true → x.start.state.supervisor.Rearms x.left.supervisor) := by
  have hkeeps := armRules_keptBy.all hrun x hx
  obtain ⟨n, work, i, result, left, after⟩ := x
  cases result with
  | paused p =>
      obtain ⟨hfollowed, hquiet⟩ := hkeeps
      refine ⟨hfollowed, fun hrenews hstores => ?_⟩
      rw [Moment.stores, hquiet (congrArg (!·) hrenews)] at hstores
      cases hstores
  | ended e =>
      obtain ⟨⟨hfollowed, hanswered, hlogin⟩, -⟩ := hkeeps
      refine ⟨hfollowed, fun hrenews hstores => ?_⟩
      rw [Moment.stores, Bool.or_eq_true] at hstores
      rcases hstores with hstores | hstores
      · exact hanswered hrenews hstores
      · cases work with
        | call k =>
            cases k with
            | login t e => exact hlogin t e rfl hstores
            | onTab tab action => cases hrenews
            | _ => cases hstores
        | job j => cases hstores

/-- Heeding its orders changes no timer, and a timer that faults is no longer armed. -/
theorem precedes_after (hx : Step s x) : x.left.supervisor.Precedes x.after.state.supervisor := by
  rcases hx.after_state with hafter | ⟨-, j, -, hafter⟩
  · rw [hafter]
    exact .refl _
  · rw [hafter]
    exact precedes_abandonJob x.left j

/-- What becomes of the timers in a course. -/
theorem precedes_course (hbefore : Course (scene c) ms t) (hrun : Course t ms' s) :
    t.state.supervisor.Precedes s.state.supervisor := by
  induction hrun with
  | nil => exact .refl _
  | @snoc ms' u x hrun hx ih =>
      have hmem : x ∈ ms ++ ms' ++ [x] := List.mem_append_right _ (List.mem_singleton.mpr rfl)
      have hstretch := (armed_of_mem ((hbefore.append hrun).snoc hx) hmem).1
      rw [hx.start_state] at hstretch
      exact (ih.trans hstretch).trans (precedes_after hx)

/-- While a timer that was started before stays armed, nothing but a check stores a token. -/
theorem quiet_of_armed (hbefore : Course (scene c) ms t) (hrun : Course t ms' s) {n : Nat}
    (hn : n < t.state.supervisor.nextTask) (harmed : s.state.supervisor.expiryTask = some n) :
    ∀ x ∈ ms', Renews x.work = false → x.stores = false := by
  -- By induction on the course, from its end: a timer that a moment arms has a number of its own.
  induction hrun with
  | nil =>
      intro x hx
      cases hx
  | @snoc ms' u x hrun hx ih =>
      have hmem : x ∈ ms ++ ms' ++ [x] := List.mem_append_right _ (List.mem_singleton.mpr rfl)
      have hstretch := armed_of_mem ((hbefore.append hrun).snoc hx) hmem
      rw [hx.start_state] at hstretch
      have hold : ¬u.state.supervisor.Rearms x.after.state.supervisor := by
        intro hanew
        have hle := Nat.le_trans (precedes_course hbefore hrun).nextTask (hanew.anew n harmed).1
        exact absurd hn (Nat.not_lt.mpr hle)
      have hsame : u.state.supervisor.expiryTask = some n := by
        rcases (hstretch.1.trans (precedes_after hx)).expiryTask with hsame | hanew
        · exact hsame.symm.trans harmed
        · exact absurd hanew hold
      intro y hy hrenews
      rcases List.mem_append.mp hy with hy | hy
      · exact ih hsame y hy hrenews
      · obtain rfl := List.mem_singleton.mp hy
        refine Bool.eq_false_iff.mpr fun hstores => hold ?_
        exact (hstretch.2 hrenews hstores).trans (precedes_after hx)

end Client

end ClientSession
