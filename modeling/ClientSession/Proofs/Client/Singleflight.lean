import ClientSession.Proofs.Client.InTurn
import ClientSession.Proofs.Session.Terms

/-!
# One refresh at a time

No two refreshes of a client wait for a token at once. Once one of them has stored a token, those
that come after it find that the session needs none, for as long as nothing but refreshes changes
what is stored and the end of the session is further away than the refresh buffer. A tab that reads
the session anew knows that end only to the second.

- `Client.Foretells`: the end that a tab can tell of the session that was stored.
- `Client.course_tabs`: what the moments of a course leave true of the tabs.
- `Client.refreshes_in_turn`: one refresh at a time.
-/

namespace ClientSession

namespace Tabs

variable {w w' : Tabs} {i : Nat} {v : Vault} {e : Instant}

theorem cache_of_slots (h : w'.slots = w.slots) (i : Nat) : w'.cache i = w.cache i := by
  simp only [cache, tab, tab?, h]

theorem tab_of_slots (h : w'.slots = w.slots) (i : Nat) : w'.tab i = w.tab i := by
  simp only [tab, tab?, h]

/-- The removal of the claims is heard by no tab. -/
theorem slots_removeKey_claims (w : Tabs) (i : Nat) : (w.removeKey i claimsKey).slots = w.slots := by
  simp only [removeKey, removeWith]
  split
  · rw [publishWith, foldl_hearWith_of_ne (show claimsKey ≠ tokenKey by decide)]
    rfl
  · rfl

/-- A tab remembers the end under which it has stored a token, whatever becomes of the backend. -/
theorem expiresAt_install {t : BearerToken} {given : Option Instant} (h : term? t given = some e)
    (hi : (w.tab? i).isSome) : ((w.install i t given).2.cache i).expiresAt = some e := by
  have hblank : t.isBlank ≠ true := by
    intro hb
    rw [term?, if_pos hb] at h
    cases h
  rw [term?, if_neg hblank, claimedExpiry?_eq] at h
  simp only [install, if_neg hblank, h]
  have hopen : ∀ w' : Tabs, w'.slots = w.slots → (w'.tab? i).isSome := by
    intro w' hslots
    rw [tab?, hslots]
    exact hi
  rw [cache_setCache_self]
  cases (Claims.decode t).toOption with
  | some c => exact hopen _ rfl
  | none => exact hopen _ (slots_removeKey_claims _ i)

theorem needsRefresh_of_remembered {now : Instant} (h : (w.cache i).expiresAt = some e) :
    (w.needsRefresh i now).1 = decide (e.since now < (w.tab i).refreshBuffer) := by
  rw [needsRefresh, expiresAt_of_remembered h]

/-- What a tab can tell of the end of the session that was stored: it remembers that end, or reads it
as the second in which it falls. -/
structure Foretells (v : Vault) (e : Instant) (w : Tabs) (i : Nat) : Prop where
  shares : w.Shares v
  here : (w.tab? i).isSome
  stored : (w.storedExpiry i).1 = some e.startOfSecond
  remembers : ∀ e', (w.cache i).expiresAt = some e' → e' = e ∨ e' = e.startOfSecond

theorem Foretells.of_recalls (h : Foretells v e w i) (hr : Recalls i w w') :
    Foretells v e w' i where
  shares := hr.shares h.shares
  here := by
    rw [isSome_tab?_congr hr.bare]
    exact h.here
  stored := (storedExpiry_congr hr.backend hr.bare h.shares.healthy i).trans h.stored
  remembers e' he' := by
    rcases hr with rfl | ⟨k, hk, rfl⟩
    · exact h.remembers e' he'
    · rw [cache_setCache_self h.here] at he'
      rcases hk.expiry e' he' with hold | hread
      · exact h.remembers e' hold
      · exact .inr (hread _ h.stored).symm

theorem Foretells.of_installed {t : BearerToken} (h : Installed v i t e w w')
    (hi : (w.tab? i).isSome) (he : e.InCalendar) : Foretells v e w' i where
  shares := h.shares
  here := by
    rw [isSome_tab?_congr h.bare]
    exact hi
  stored := by
    have hopen : (w'.tab? i).isSome := by
      rw [isSome_tab?_congr h.bare]
      exact hi
    rw [storedExpiry_of_item h.shares hopen h.expiry, Instant.ofSeconds?_floorSeconds he]
  remembers e' he' := by
    rw [h.cache_self] at he'
    exact .inl (Option.some.inj he').symm

/-- The session needs no refresh while the second in which it ends is further away than the buffer.
-/
theorem Foretells.not_needsRefresh (h : Foretells v e w i) {now : Instant}
    (hfar : (w.tab i).refreshBuffer ≤ e.startOfSecond.since now) :
    (w.needsRefresh i now).1 = false := by
  have hle : e.startOfSecond.nanos ≤ e.nanos := e.startOfSecond_le
  have hfar' : (w.tab i).refreshBuffer.nanos ≤ e.startOfSecond.nanos - now.nanos := hfar
  have hlater : ∀ e' : Instant, e' = e ∨ e' = e.startOfSecond →
      decide (e'.since now < (w.tab i).refreshBuffer) = false := by
    intro e' he'
    refine decide_eq_false fun hlt => ?_
    have hlt' : e'.nanos - now.nanos < (w.tab i).refreshBuffer.nanos := hlt
    rcases he' with rfl | rfl
    · omega
    · omega
  cases hc : (w.cache i).expiresAt with
  | some e' =>
      rw [needsRefresh_of_remembered hc]
      exact hlater e' (h.remembers e' hc)
  | none =>
      rw [needsRefresh, expiresAt_of_stored hc h.stored]
      exact hlater _ (.inr rfl)

end Tabs

namespace Client

variable {i : Start Client} {c : Client} {s s' : Scene} {x y z : Moment} {ms : List Moment}
  {t : IssuedToken} {e : Instant}

/-- The moment is of a refresh that has got a token, stores it and ends with that. -/
structure Moment.Renews (y : Moment) (t : IssuedToken) (e : Instant) : Prop where
  work : Refreshes y.work = true
  gets : y.start.cue.bind Cue.storable? = some t
  term : Tabs.term? t.token t.expiresAt = some e
  here : (y.start.state.tabs.tab? y.start.state.own).isSome

instance (y : Moment) (t : IssuedToken) (e : Instant) : Decidable (y.Renews t e) :=
  decidable_of_iff (Refreshes y.work = true ∧ y.start.cue.bind Cue.storable? = some t ∧
      Tabs.term? t.token t.expiresAt = some e ∧ (y.start.state.tabs.tab? y.start.state.own).isSome)
    ⟨fun h => ⟨h.1, h.2.1, h.2.2.1, h.2.2.2⟩, fun h => ⟨h.work, h.gets, h.term, h.here⟩⟩

theorem Moment.Renews.cue (h : y.Renews t e) : y.start.cue = some ⟨.token, .ok t⟩ := by
  obtain ⟨q, hq, hgets⟩ := Option.bind_eq_some_iff.mp h.gets
  rw [hq]
  unfold Cue.storable? at hgets
  split at hgets
  · split at hgets
    · rw [Option.some.inj hgets]
    · cases hgets
  · cases hgets

/-- The moment is of a refresh that has got no token that can be stored. -/
def Moment.Idle (z : Moment) : Prop := Refreshes z.work = true ∧ z.start.stores = false

/-- The end that the client's tab remembers of its session. -/
def ends (c : Client) : Option Instant := (c.tabs.cache c.own).expiresAt

/-- The moment leaves the end that the client's tab remembers. -/
def Moment.Recalls (z : Moment) : Prop :=
  z.left.own = z.start.state.own ∧ z.left.ends = z.start.state.ends

/-- The session is only read in the moment. -/
def Moment.Reads (z : Moment) : Prop :=
  z.left.own = z.start.state.own ∧
    Tabs.Recalls z.start.state.own z.start.state.tabs z.left.tabs

/-- What the moments of a course leave true of the tabs and of which tab is the client's. -/
theorem course_tabs {A : Tabs → Nat → Prop} (h : Course s ms s') (hs : A s.state.tabs s.state.own)
    (hstep : ∀ z ∈ ms, A z.start.state.tabs z.start.state.own → A z.left.tabs z.left.own) :
    A s'.state.tabs s'.state.own := by
  induction h with
  | nil => exact hs
  | @snoc ms t z _ hz ih =>
      have ht := ih fun y hy => hstep y (List.mem_append_left _ hy)
      obtain ⟨htabs, hown⟩ := Step.tabs_eq hz
      rw [htabs, hown]
      refine hstep z (by simp) ?_
      rw [hz.start_state]
      exact ht

/-! ## What refreshes leave -/

/-- A refresh that stores nothing leaves what the tabs remember, and what is stored if the backend is
in good health. -/
theorem Refreshment.keeps {m : Nat} (h : Refreshment m z) (hs : z.start.stores = false) :
    z.left.own = z.start.state.own ∧ z.left.tabs.slots = z.start.state.tabs.slots ∧
      (z.start.state.tabs.backend.Healthy → z.left.tabs = z.start.state.tabs) := by
  have hrefreshed : ∀ {res : Result RefreshResult} {m' : Nat},
      Refreshed (Timed z.work) (Forced z.work) m z.start z.left res m' →
        z.left.own = z.start.state.own ∧ z.left.tabs.slots = z.start.state.tabs.slots ∧
          (z.start.state.tabs.backend.Healthy → z.left.tabs = z.start.state.tabs) := by
    intro res m' h
    cases h with
    | sleeps span htimer hm h hload => exact ⟨h.own, h.slots, h.tabs⟩
    | queues n hm hcue hheld h hload => exact ⟨h.own, h.slots, h.tabs⟩
    | early n a hm hcue hlost h hload => exact ⟨h.own, h.slots, h.tabs⟩
    | spares w hm hforce hw hneed h hload => exact ⟨h.own, h.slots, h.tabs⟩
    | asks hm h hload => exact ⟨h.own, h.slots, h.tabs⟩
    | denied e hm h hload => exact ⟨h.own, h.slots, h.tabs⟩
    | learns r hm h hload => exact ⟨h.own, by rw [h.keeps hs], fun _ => h.keeps hs⟩
    | drops hown htabs hasked hload => exact ⟨hown, by rw [htabs], fun _ => htabs⟩
  cases h with
  | pauses p m' hp h => exact hrefreshed h
  | ends r e he hcall h => exact hrefreshed h
  | tokenless e he hm htimer h => exact ⟨h.own, h.slots, h.tabs⟩

/-- A refresh that goes on with a token stores it. -/
theorem Refreshment.stores (h : Refreshment 1 y) (hy : y.Renews t e)
    (hgoes : y.result ≠ .paused .drops) :
    y.left.own = y.start.state.own ∧
      y.left.tabs = (y.start.state.tabs.install y.start.state.own t.token t.expiresAt).2 := by
  cases h with
  | tokenless e he hm htimer h => cases hm
  | pauses p m' hp h =>
      cases h with
      | drops hown htabs hasked hload => exact absurd hp hgoes
      | sleeps span htimer hm => cases hm
      | queues n hm => cases hm
      | early n a hm => cases hm
      | asks hm => cases hm
  | ends r e he hcall h =>
      cases h with
      | learns r hm h hload => exact ⟨h.own, h.stores t hy.cue⟩
      | spares w hm => cases hm
      | denied e hm => cases hm

theorem looks_slots {w : Tabs} (h : Looks i w) : w.slots = i.state.tabs.slots := by
  rcases h with rfl | rfl
  · rfl
  · exact Tabs.slots_hasToken _ _

theorem looks_of_healthy {w : Tabs} (h : Looks i w) (hh : i.state.tabs.backend.Healthy) :
    w = i.state.tabs := by
  rcases h with rfl | rfl
  · rfl
  · exact Tabs.hasToken_state hh _

/-- The refresh buffer of the client's tab. -/
def buffer (c : Client) : Span := (c.tabs.tab c.own).refreshBuffer

/-- The refresh is not forced, is not dropped, and does not go on with an answer of its own. -/
structure Moment.Joins (x : Moment) : Prop where
  work : Refreshes x.work = true
  unforced : Forced x.work = false
  goes : x.result ≠ .paused .drops
  cue : (x.start.cue.any fun q => q.1.isToken) = false

theorem Moment.Joins.memo (h : x.Joins) : holds x.work (x.start.cue.map (·.1)) = 0 := by
  have hcue := h.cue
  cases hq : x.start.cue with
  | none => rfl
  | some q =>
      rw [hq, Option.any_some] at hcue
      simp [holds, hcue]

/-! ## Refreshes that come after -/

/-- A refresh is spared that finds the remembered end of the session far enough away. -/
theorem spared_of_remembered (hfree : c.supervisor.turn.held = false) (h : Course (scene c) ms s)
    (hx : x ∈ ms) (hjoins : x.Joins) (hends : x.start.state.ends = some e)
    (hfar : x.start.state.buffer ≤ e.since x.start.now) : x.Spared := by
  obtain ⟨m, hm, hr⟩ := refreshment_of_mem hfree h hx hjoins.work
  refine hr.spared ((hm hjoins.goes).trans hjoins.memo) hjoins.unforced hjoins.goes fun w hw => ?_
  have hslots := looks_slots hw
  have hcache : (w.cache x.start.state.own).expiresAt = some e := by
    rw [Tabs.cache_of_slots hslots]
    exact hends
  rw [Tabs.needsRefresh_of_remembered hcache, Tabs.tab_of_slots hslots]
  exact decide_eq_false (Int.not_lt.mpr hfar)

/-- So is one whose tab can tell that it is. -/
theorem spared_of_foretold (hfree : c.supervisor.turn.held = false) (h : Course (scene c) ms s)
    (hx : x ∈ ms) (hjoins : x.Joins)
    (hforetells : Tabs.Foretells v e x.start.state.tabs x.start.state.own)
    (hfar : x.start.state.buffer ≤ e.startOfSecond.since x.start.now) : x.Spared := by
  obtain ⟨m, hm, hr⟩ := refreshment_of_mem hfree h hx hjoins.work
  refine hr.spared ((hm hjoins.goes).trans hjoins.memo) hjoins.unforced hjoins.goes fun w hw => ?_
  rw [looks_of_healthy hw hforetells.shares.healthy]
  exact hforetells.not_needsRefresh hfar

/-- In the moment in which a refresh renews the session its token is stored. -/
theorem Moment.Renews.stores (hy : y.Renews t e) (hfree : c.supervisor.turn.held = false)
    (h : Course (scene c) ms s) (hmem : y ∈ ms) : y.left.own = y.start.state.own ∧
      y.left.tabs = (y.start.state.tabs.install y.start.state.own t.token t.expiresAt).2 := by
  have hgoes : y.result ≠ .paused .drops := by
    obtain ⟨before, after, rfl⟩ := List.append_of_mem hmem
    obtain ⟨u, -, hstep, -⟩ := h.split
    exact hstep.not_drops hy.cue
  obtain ⟨m, hm, hr⟩ := refreshment_of_mem hfree h hmem hy.work
  have hone : m = 1 := by
    rw [hm hgoes, hy.cue]
    simp [holds, hy.work, Wait.isToken]
  rw [hone] at hr
  exact hr.stores hy hgoes

/-- What a stored token makes true of the tabs is so at a later moment, if the moments between leave
it so. -/
theorem Moment.Renews.lasts {A : Tabs → Nat → Prop} {before mid after : List Moment}
    (hy : y.Renews t e) (hfree : c.supervisor.turn.held = false)
    (h : Course (scene c) (before ++ y :: (mid ++ x :: after)) s)
    (hstart : A (y.start.state.tabs.install y.start.state.own t.token t.expiresAt).2
      y.start.state.own)
    (hmid : ∀ z ∈ mid, z ∈ before ++ y :: (mid ++ x :: after) →
      A z.start.state.tabs z.start.state.own → A z.left.tabs z.left.own) :
    A x.start.state.tabs x.start.state.own := by
  obtain ⟨hown, htabs⟩ := hy.stores hfree h (by simp)
  obtain ⟨u, -, hstep, hrest⟩ := h.split
  obtain ⟨u', hmiddle, hnext, -⟩ := hrest.split
  rw [hnext.start_state]
  refine course_tabs hmiddle ?_ fun z hz => hmid z hz (by simp [hz])
  rw [(Step.tabs_eq hstep).1, (Step.tabs_eq hstep).2, hown, htabs]
  exact hstart

/-- Whatever is asked of a client and dropped, no two of its refreshes, the timer's with them, wait
for a token at once, and one that is not forced goes for a token only where it sees that the session
needs it. Once a refresh has stored a token, one that comes later is spared if the session ends no
sooner than the buffer away, as long as other work leaves the end that the tab remembers; or, with
the second for the end, as long as other work only reads the session. -/
theorem refreshes_in_turn {v : Vault} {c : Client} {ms : List Moment} {s : Scene}
    (hfree : c.supervisor.turn.held = false) (h : Course (scene c) ms s) :
    s.flights.countP Fetching ≤ 1 ∧
    (∀ x ∈ ms, Refreshes x.work = true → Forced x.work = false → x.Asks →
      ∃ w, Looks x.start w ∧ (w.needsRefresh x.start.state.own x.start.now).1 = true) ∧
    ∀ (before mid after : List Moment) (y x : Moment) (t : IssuedToken) (e : Instant),
      ms = before ++ y :: (mid ++ x :: after) → y.Renews t e → x.Joins →
        ((∀ z ∈ mid, z.Idle ∨ z.Recalls) →
          x.start.state.buffer ≤ e.since x.start.now → x.Spared) ∧
        (y.start.state.tabs.Shares v → e.InCalendar → (∀ z ∈ mid, z.Idle ∨ z.Reads) →
          x.start.state.buffer ≤ e.startOfSecond.since x.start.now → x.Spared) := by
  refine ⟨?_, fun x hx hwork hunforced hasks => ?_, fun before mid after y x t e hms hy hx => ?_⟩
  · rw [(inTurns_course hfree h).even]
    exact Bool.toNat_le _
  · obtain ⟨m, -, hr⟩ := refreshment_of_mem hfree h hx hwork
    rcases hr.needed hasks with hforced | hneeds
    · rw [hunforced] at hforced
      cases hforced
    · exact hneeds
  · subst hms
    have hmem : x ∈ before ++ y :: (mid ++ x :: after) := by simp
    refine ⟨fun hmid hfar => ?_, fun hshares hcal hmid hfar => ?_⟩
    · -- The tab goes on remembering the end of the session that was stored.
      refine spared_of_remembered hfree h hmem hx ?_ hfar
      refine hy.lasts (A := fun w i => (w.cache i).expiresAt = some e) hfree h
        (Tabs.expiresAt_install hy.term hy.here) fun z hz hzmem hends => ?_
      rcases hmid z hz with ⟨hwork, hnone⟩ | ⟨-, hsame⟩
      · obtain ⟨m, -, hr⟩ := refreshment_of_mem hfree h hzmem hwork
        obtain ⟨hown, hslots, -⟩ := hr.keeps hnone
        rw [hown, Tabs.cache_of_slots hslots]
        exact hends
      · exact hsame.trans hends
    · -- It can tell the second of that end, from memory or from what is stored.
      refine spared_of_foretold (v := v) hfree h hmem hx ?_ hfar
      refine hy.lasts (A := Tabs.Foretells v e) hfree h
        (.of_installed (Tabs.install_of_term hy.term hshares hy.here) hy.here hcal)
        fun z hz hzmem hforetells => ?_
      rcases hmid z hz with ⟨hwork, hnone⟩ | ⟨hown, hrecalls⟩
      · obtain ⟨m, -, hr⟩ := refreshment_of_mem hfree h hzmem hwork
        obtain ⟨hown, -, htabs⟩ := hr.keeps hnone
        rw [hown, htabs hforetells.shares.healthy]
        exact hforetells
      · rw [hown]
        exact hforetells.of_recalls hrecalls

/-- Two callers ask for a refresh. The first gets a token, and then the second gets its turn. -/
def sharedRefresh : Script :=
  [(⟨1748779200000000000⟩, .ask (.refresh false)), (⟨1748779200000000000⟩, .ask (.refresh false)),
    (⟨1748779201000000000⟩, .reply 0 (Wait.answer (.ok ⟨200, Table.empty, ""⟩)
      (.ok ⟨⟨"t1"⟩, some ⟨1748782800000000000⟩⟩))),
    (⟨1748779201000000000⟩, .reply 1 (Wait.answer (.ok ⟨200, Table.empty, ""⟩)
      (.error .loginRequired)))]

/-- The second caller is told that there was no need. -/
theorem refreshes_in_turn_plain : ∃ (before after : List Moment) (z y x : Moment) (s : Scene),
    plain.supervisor.turn.held = false ∧
      Course (scene plain) (before ++ y :: ([] ++ x :: after)) s ∧ z ∈ before ∧ z.Asks ∧
      y.Renews ⟨⟨"t1"⟩, some ⟨1748782800000000000⟩⟩ ⟨1748782800000000000⟩ ∧ x.Joins ∧
      s.flights.countP Fetching ≤ 1 ∧
      (∃ w, Looks z.start w ∧ (w.needsRefresh z.start.state.own z.start.now).1 = true) ∧
      x.Spared ∧ x.result = .ended (.answers (.refreshed (.ok false))) := by
  have hpasses : workplace.passes (scene plain) sharedRefresh 2 (fun ms y ms' _ =>
      decide ((∃ z ∈ ms, Refreshes z.work = true ∧ Forced z.work = false ∧
          z.left.asked ≠ z.start.state.asked) ∧
        Moment.Renews y ⟨⟨"t1"⟩, some ⟨1748782800000000000⟩⟩ ⟨1748782800000000000⟩ ∧
        ∃ x ∈ ms'.head?, (x.work.isCall = true ∧ Refreshes x.work = true ∧
          Forced x.work = false ∧ x.start.cue.isSome = true ∧
            (x.start.cue.any fun q => q.1.isToken) = false ∧ Gets x.start) ∧
          x.start.state.buffer ≤ (⟨1748782800000000000⟩ : Instant).since x.start.now)) = true := by
    decide +kernel
  obtain ⟨ms, y, ms', s, hrun, htest⟩ := Workplace.exists_course hpasses
  obtain ⟨⟨z, hz, hwork, hunforced, hasks⟩, hy, x, hx, ⟨hcall, hxwork, hxunforced, hcue, htoken,
    hgets⟩, hfar⟩ := of_decide_eq_true htest
  obtain ⟨after, rfl⟩ := List.head?_eq_some_iff.mp hx
  have hgoes : x.result ≠ .paused .drops := by
    obtain ⟨q, hq⟩ := Option.isSome_iff_exists.mp hcue
    rw [List.append_cons] at hrun
    obtain ⟨t, -, hstep, -⟩ := hrun.split
    exact hstep.not_drops hq
  have hjoins : Moment.Joins x := ⟨hxwork, hxunforced, hgoes, htoken⟩
  have hfree : plain.supervisor.turn.held = false := rfl
  obtain ⟨hone, hneeded, hspares⟩ :=
    refreshes_in_turn (v := ⟨Config.defaultNamespace, ⟨"", "", "", ""⟩⟩) hfree hrun
  have hspared := (hspares ms [] after y x _ _ rfl hy hjoins).1 (fun _ h => nomatch h) hfar
  exact ⟨ms, after, z, y, x, s, hfree, hrun, hz, .inl hasks, hy, hjoins, hone,
    hneeded z (by simp [hz]) hwork hunforced (.inl hasks), hspared, hspared.answers hcall hgets⟩

end Client

end ClientSession
