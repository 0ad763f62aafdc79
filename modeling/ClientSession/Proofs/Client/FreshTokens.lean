import ClientSession.Proofs.Client.Credentials
import ClientSession.Proofs.Client.Fortunes
import ClientSession.Proofs.Tabs.Faithful

/-!
# Fresh tokens

Before every attempt but the first a pass forgets the session, so a call of such an attempt can
present nothing but the token that the source has given for it. Without one no call is made. A pass
attempts its check until it succeeds, or until no retry is left; then the session is ended, and the
tab takes leave of it once more.

- `Client.call_of_vouched`, `Client.call_of_check`: what a call presents is read where it is made.
- `Client.Poised`: a session of which nothing else is known than what is stored.
- `Client.call_of_retry`: a call of a retry presents a token that was just issued.
- `Client.retries_present_fresh_tokens`: a pass as a whole.
-/

namespace ClientSession

open Activity

namespace Client

variable {v : Vault} {c c' s : Client} {now last : Instant} {hs : List (Halt Client)}
  {drop : Client → Client} {q : Request}

/-! ## The call of a check -/

/-- A call that was made waits no more. -/
theorem not_meets_made {request : Request} {i : Start Client} {w : Wait}
    {resume : w.Answer → Instant → Client → Run Client CallResult} :
    ¬(Run.wait s w drop resume).Meets (vouch request) (Answers request) .made i := by
  rintro ⟨_, hp, -⟩
  cases hp.2 nofun with
  | asks hphase => exact hphase rfl
  | settles hmade hres => exact hres w rfl

/-- Where a call has no limit of its own, it waits for the server only, and does so at once. -/
theorem call_of_vouched {request : Request} {x : Activity Client CallResult} {w : Wait}
    {resume : w.Answer → Instant → Client → Run Client CallResult}
    (hfamily : Route.isAuthFamily request.path = false)
    (hx : Triple (vouch request) (fun m i c => m = .opening ∧ i.cue = none ∧ c = i.state) x
      (Answers request))
    (h : Way (x now c) now hs (.wait s w drop resume) last) :
    hs = [] ∧ last = now ∧
      ∃ q, w = .call q ∧ Presented request ⟨none, now, c⟩ ⟨none, now, c⟩ q := by
  have hmeets := hx.begins now c
  have hhanded : ∀ {s : Client} {w : Wait} {m' : Phase},
      vouch request .opening ⟨none, now, c⟩ (.waits w) s m' → m' = .made ∧
        ∃ q, w = .call q ∧ Presented request ⟨none, now, c⟩ ⟨none, now, c⟩ q := by
    rintro s w m' ⟨hnext, hvouched⟩
    cases hvouched nofun with
    | asks hphase hmade hopening hserial hfate =>
        cases hfate with
        | handed q hq => exact ⟨hnext, q, rfl, hq⟩
        | parked span hf hcue =>
            rw [hfamily] at hf
            cases hf
  generalize x now c = r at h hmeets
  cases h with
  | here =>
      obtain ⟨m', hp, -⟩ := hmeets
      exact ⟨rfl, rfl, (hhanded hp).2⟩
  | @on s' c' w' drop' resume' _ t _ a hs' _ hb h =>
      obtain ⟨m', hp, -, hresume⟩ := hmeets
      obtain ⟨rfl, -⟩ := hhanded hp
      have hmade := hresume a t c'
      generalize resume' a t c' = r at h hmade
      cases h with
      | here => exact absurd hmade not_meets_made
      | on hb h => exact absurd hmade not_meets_made

/-- A check waits for its turn under the limit without touching the session. -/
theorem moves_acquire (endpoint : String) (user : Option String) :
    Moves (fun w => ∃ span, w = .sleep span) SameSession (acquire endpoint user) := by
  have hcarries : Carries (Moving (fun w => ∃ span, w = .sleep span) SameSession)
      (fun _ i c => SameSession i.state c) (·.limiter) (fun c l => { c with limiter := l })
      (fun w => ∃ span, w = .sleep span) (Limiter.Spared "" False) := by
    constructor
    · intro m i c l hc _
      exact hc.trans ⟨rfl, rfl⟩
    · intro m i c hc
      exact ⟨nofun, hc⟩
    · intro m i c hc
      exact ⟨nofun, hc⟩
    · rintro m i c w hc hw
      refine ⟨(), ⟨?_, hc⟩, fun _ c l _ => ⟨nofun, ⟨rfl, rfl⟩⟩, fun _ _ c => .refl c⟩
      rintro w' ⟨⟩
      exact hw
  exact hcarries.within Limiter.Spared.refl (Limiter.moves_acquire False.elim)

/-- What a check makes of the answer to its call. -/
def heedCheck : CallResult → Activity Client (Except ApiError String)
  | .error e => return .error e
  | .ok response =>
    match response.userId? with
    | some u => return .ok u
    | none => return .error (noUserId response)

/-- What a check goes on with after its turn under the limit. -/
def afterTurn (user : Option String) (granted : Bool) :
    Activity Client (Except ApiError String) :=
  if granted then send (.new .get Route.validate) >>= heedCheck
  else do
    let wait ← remainingWait Route.validate user
    return .error (classify (.refused (.rateLimited wait)) (← Activity.now))

theorem checkToken_eq (now : Instant) (c : Client) : checkToken now c =
    (acquire Route.validate (c.tabs.userId c.own now).1 now
      (c.setTabs (c.tabs.userId c.own now).2)).bind (afterTurn (c.tabs.userId c.own now).1) now := by
  show (acquire Route.validate (c.tabs.userId c.own now).1 now
    (c.setTabs (c.tabs.userId c.own now).2)).bind _ now = _
  congr 1

/-- What moves without a wait does not come to wait. -/
theorem not_waits_of_moves {α : Type} {x : Activity Client α} {w : Wait}
    {resume : w.Answer → Instant → Client → Run Client α}
    (hx : Moves (fun _ => False) (fun _ _ => True) x) :
    ¬Way (x now c) now hs (.wait s w drop resume) last :=
  hx.last_wait fun _ => trivial

theorem moves_heedCheck (a : CallResult) :
    Moves (fun _ => False) (fun _ _ => True) (heedCheck a) := by
  cases a with
  | error e => exact maintains_pure _
  | ok response =>
      simp only [heedCheck]
      split
      · exact maintains_pure _
      · exact maintains_pure _

/-- A check that did not get its turn makes no call. -/
theorem moves_afterTurn (user : Option String) :
    Moves (fun _ => False) (fun _ _ => True) (afterTurn user false) := by
  refine Maintains.bind (moves_attempt fun _ _ _ _ _ _ => trivial) fun wait => ?_
  exact Maintains.bind maintains_now fun _ => maintains_pure _

/-- The call of a check presents what the tab reads as it makes it. Until then the check has only
asked for the user, and waited for its turn under the limit. -/
theorem call_of_check {resume : TransportOutcome → Instant → Client →
      Run Client (Except ApiError String)}
    (h : Way (checkToken now c) now hs (.wait s (.call q) drop resume) last) :
    (∀ x ∈ hs, ∃ span, x.cue.1 = .sleep span) ∧
      ∃ c', SameSession (c.setTabs (c.tabs.userId c.own now).2) c' ∧
        Presented (.new .get Route.validate) ⟨none, last, c'⟩ ⟨none, last, c'⟩ q := by
  rw [checkToken_eq] at h
  generalize (c.tabs.userId c.own now).1 = user at h
  generalize c.setTabs (c.tabs.userId c.own now).2 = c₁ at h ⊢
  have hturn := moves_acquire Route.validate user
  generalize hr : Run.wait s (.call q) drop resume = r at h
  cases Run.Path.of_bind h with
  | within hacquire hends =>
      obtain ⟨resume', rfl⟩ := Run.wait_of_bind hends hr
      obtain ⟨span, hspan⟩ := hturn.last_wait SameSession.refl hacquire
      cases hspan
  | @beyond _ _ s' granted mid _ heq hacquire hrest =>
      subst heq hr
      have hsleeps := hturn.waits SameSession.refl hacquire
      have hsame : SameSession c₁ s' := hturn.sum SameSession.refl
        (fun _ _ _ _ h h' h'' => (h.trans h').trans h'') hacquire done_ne_fault
      cases granted with
      | false => exact absurd hrest (not_waits_of_moves (moves_afterTurn user))
      | true =>
          generalize hr : Run.wait s (.call q) drop resume = r at hrest
          cases Run.Path.of_bind hrest with
          | within hsend hends =>
              obtain ⟨resume', rfl⟩ := Run.wait_of_bind hends hr
              obtain ⟨rfl, rfl, q', hq', hpresented⟩ :=
                call_of_vouched (by decide) (vouches_send _) hsend
              cases hq'
              rw [List.append_nil]
              exact ⟨hsleeps, s', hsame, hpresented⟩
          | beyond heq hsend hheed =>
              subst hr
              exact absurd hheed (not_waits_of_moves (moves_heedCheck _))

/-! ## What is known of the session -/

/-- The session that is stored is this one, if any, and the tab remembers nothing else. -/
structure Poised (v : Vault) (stored : Option StoredSession) (c : Client) : Prop where
  sharing : Sharing v c
  holds : c.tabs.Holds v stored
  faithful : Faithful stored (c.tabs.cache c.own)

namespace Poised

variable {stored : Option StoredSession}

theorem same (h : Poised v stored c) (hs : SameSession c c') : Poised v stored c' := by
  refine ⟨h.sharing.same hs.tabs hs.own, ?_, ?_⟩
  · rw [hs.tabs]
    exact h.holds
  · rw [hs.tabs, hs.own]
    exact h.faithful

/-- A session that was dropped. -/
theorem dropped (h : Sharing v c) : Poised v none c.dropSession := by
  have hcleared := Undergone.cleared h
  refine ⟨hcleared.sharing, hcleared.kept, ?_⟩
  have ht : c.dropSession.tabs = c.tabs.clearSession c.own := tabs_setTabs c _
  rw [hcleared.own, ht, Tabs.clearSession_cache]
  exact .empty none

/-- An action of the tab. -/
theorem act (h : Poised v stored c) (action : TabAction) (hdated : (Deed.act action).Dated)
    (now : Instant) : Poised v ((Deed.act action).stored stored)
      (c.setTabs (action.run c.tabs c.own now).2) := by
  let x : Visit := ⟨c.own, now, .act action, c.tabs⟩
  have hleaves : x.Leaves v (action.run c.tabs c.own now).2 :=
    Visit.leaves_act (x := x) h.sharing.shares h.sharing.here rfl hdated
  refine ⟨⟨?_, ?_⟩, ?_, ?_⟩ <;> rw [tabs_setTabs]
  · exact hleaves.shares h.sharing.shares
  · rw [own_setTabs]
    exact (hleaves.isSome_tab? c.own).trans h.sharing.here
  · exact hleaves.holds h.holds
  · rw [own_setTabs]
    exact h.faithful.leaves h.sharing.shares h.sharing.here h.holds hleaves

/-- The tab gives no token but the one that is stored, and not once it has ended. -/
theorem token (h : Poised v stored c) {t : BearerToken}
    (ht : (c.tabs.token c.own now).1 = some t) :
    ∃ s, stored = some s ∧ t = s.token ∧ now < s.expiry :=
  h.faithful.of_token h.sharing.shares h.sharing.here h.holds ht

end Poised

/-! ## Calls of retries -/

/-- An end that is given with a token is an instant of the calendar. -/
def Cue.Dated : Cue → Prop
  | ⟨.token, .ok issued⟩ => ∀ e ∈ issued.expiresAt, e.InCalendar
  | _ => True

instance : DecidablePred Cue.Dated
  | ⟨.token, .ok issued⟩ => inferInstanceAs (Decidable (∀ e ∈ issued.expiresAt, e.InCalendar))
  | ⟨.token, .error _⟩ => .isTrue trivial
  | ⟨.sleep _, _⟩ => .isTrue trivial
  | ⟨.call _, _⟩ => .isTrue trivial
  | ⟨.deliver _, _⟩ => .isTrue trivial
  | ⟨.turn _, _⟩ => .isTrue trivial

/-- A check that makes a call presents the stored token, which has not ended. -/
theorem Poised.call {stored : Option StoredSession} (h : Poised v stored c)
    {resume : TransportOutcome → Instant → Client → Run Client (Except ApiError String)}
    (hcheck : Way (checkToken now c) now hs (.wait s (.call q) drop resume) last) :
    (∀ x ∈ hs, ∃ span, x.cue.1 = .sleep span) ∧ ∃ s, stored = some s ∧ last < s.expiry ∧
      q.header? "authorization" = some s.token.authorization := by
  obtain ⟨hsleeps, c', hsame, hpresented⟩ := call_of_check hcheck
  have hread : Poised v stored (c.setTabs (c.tabs.userId c.own now).2) :=
    h.act .userId (fun _ he => nomatch he) now
  obtain ⟨t, hlive, hheader⟩ := hpresented.authorized (by decide)
  obtain ⟨s, hs, rfl, hlasts⟩ := (hread.same hsame).token hlive.told
  exact ⟨hsleeps, s, hs, hlasts, hheader⟩

/-- A token was just issued for the call: the source was asked before anything else, the token could
be stored and has not ended, and since then there was nothing but waits for a turn under the
limit. -/
inductive JustIssued (q : Request) (last : Instant) : List (Halt Client) → Prop where
  | of {x : Halt Client} {hs : List (Halt Client)} {issued : IssuedToken} {e : Instant}
      (hcue : x.cue = ⟨.token, .ok issued⟩) (hsleeps : ∀ y ∈ hs, ∃ span, y.cue.1 = .sleep span)
      (hterm : Tabs.term? issued.token issued.expiresAt = some e) (hlasts : last < e)
      (hheader : q.header? "authorization" = some issued.token.authorization) :
      JustIssued q last (x :: hs)

/-- A call of a retry presents a token that was just issued. -/
theorem call_of_retry {done : Nat}
    {resume : TransportOutcome → Instant → Client → Run Client (Except ApiError String)}
    (hdone : 0 < done) (hc : Sharing v c) (hdated : ∀ x ∈ hs, Cue.Dated x.cue)
    (h : Way (attempt done now c) now hs (.wait s (.call q) drop resume) last) :
    JustIssued q last hs := by
  rw [attempt_eq_of_pos hdone] at h
  generalize hr : Run.wait s (.call q) drop resume = r at h
  cases Run.Path.of_bind h with
  | within hrenews hends =>
      obtain ⟨resume', rfl⟩ := Run.wait_of_bind hends hr
      cases renewal_of_way hrenews
  | @beyond hs₁ hs₂ s' _ mid _ heq hrenews hcheck =>
      subst heq hr
      have hdropped : Poised v none c.dropSession := .dropped hc
      have hnone : ∀ {c' : Client}, Poised v none c' →
          ¬Way (checkToken mid c') mid hs₂ (.wait s (.call q) drop resume) last := by
        intro c' hpoised hcall
        obtain ⟨-, _, hstored, -⟩ := hpoised.call hcall
        cases hstored
      generalize hend : Run.done s' () = r at hrenews
      cases renewal_of_way hrenews with
      | asks => cases hend
      | alone =>
          cases hend
          exact absurd hcheck (hnone hdropped)
      | denied hsame =>
          cases hend
          exact absurd hcheck (hnone (hdropped.same hsame))
      | @issued s'' c' t t₀ hsame =>
          cases hend
          have hissued : Cue.Dated ⟨.token, .ok t⟩ := hdated _ (List.mem_cons_self ..)
          have hstored : Poised v ((Deed.act (.install t.token t.expiresAt)).stored none)
              (c'.store t) := (hdropped.same hsame).act (.install t.token t.expiresAt) hissued mid
          obtain ⟨hsleeps, s', hs', hlasts, hheader⟩ := hstored.call hcheck
          rw [Deed.stored, Option.or_none] at hs'
          obtain ⟨e, hterm, rfl⟩ := Option.map_eq_some_iff.mp hs'
          exact .of rfl hsleeps hterm hlasts hheader

/-- The attempt waits for the answer to the call. -/
def Trial.Awaits (t : Trial) (q : Request) : Prop :=
  ∃ s drop resume, t.rest = .wait s (.call q) drop resume

/-- Wherever the attempt came to wait for the answer to a call, as far as it has come, the call
presents a token that was just issued. -/
def Trial.PresentsAfresh (done : Nat) (t : Trial) : Prop :=
  ∀ hs s q drop resume last, hs <+: t.halts →
    Way (attempt done t.began t.start) t.began hs (.wait s (.call q) drop resume) last →
    JustIssued q last hs

/-- While the attempts of a pass wait for the answer to a call, so does the last one. -/
theorem Trials.awaits {policy : RetryPolicy} {left done : Nat} {ts : List Trial}
    {resume : TransportOutcome → Instant → Client → Run Client ValidationResult}
    (h : Trials policy left done now c ts (.wait s (.call q) drop resume) last) :
    ∃ t, ts.getLast? = some t ∧ t.Awaits q := by
  generalize hr : Run.wait s (.call q) drop resume = r at h
  induction h with
  | under h hends =>
      obtain ⟨resume', rfl⟩ := Run.wait_of_bind hends hr
      exact ⟨_, rfl, _, _, _, rfl⟩
  | succeeded h hsame => cases hr
  | exhausted h hsame => cases hr
  | @resting left done now mid last c s hs pauses e r h hb hends =>
      obtain ⟨resume', rfl⟩ := Run.wait_of_bind hends hr
      obtain ⟨span, hspan⟩ := (moves_backOff policy done).last_wait (fun _ => trivial) hb
      cases hspan
  | again h hb hts ih =>
      obtain ⟨t, ht, hawaits⟩ := ih hr
      exact ⟨t, by rw [List.getLast?_cons_of_ne_nil hts.account.ne_nil, ht], hawaits⟩

/-- The retries among attempts present tokens that were just issued. -/
theorem Trials.presentAfresh {policy : RetryPolicy} {left done : Nat} {ts : List Trial}
    {r : Run Client ValidationResult} (h : Trials policy left done now c ts r last)
    (hc : Sharing v c) (hdated : ∀ x ∈ haltsOf ts, Cue.Dated x.cue) :
    ∀ (k : Nat) (t : Trial), ts[k]? = some t → 0 < done + k → t.PresentsAfresh (done + k) := by
  have hfirst : ∀ {done : Nat} {t : Trial} {ts : List Trial}, Sharing v t.start →
      (∀ x ∈ haltsOf (t :: ts), Cue.Dated x.cue) → 0 < done → t.PresentsAfresh done := by
    intro done t ts hc hdated hdone hs s q drop resume last hpart hcall
    refine call_of_retry hdone hc (fun x hx => hdated x ?_) hcall
    rw [haltsOf, List.flatMap_cons]
    exact List.mem_append_left _ (List.mem_append_left _ (hpart.subset hx))
  have hsingle : ∀ {done : Nat} {t : Trial}, Sharing v t.start →
      (∀ x ∈ haltsOf [t], Cue.Dated x.cue) → ∀ (k : Nat) (t' : Trial), [t][k]? = some t' →
        0 < done + k → t'.PresentsAfresh (done + k) := by
    intro done t hc hdated k t' ht hdone
    cases k with
    | zero =>
        obtain rfl := Option.some.inj ht
        exact hfirst hc hdated hdone
    | succ k => cases ht
  induction h with
  | under h hends => exact hsingle hc hdated
  | succeeded h hsame => exact hsingle hc hdated
  | exhausted h hsame => exact hsingle hc hdated
  | resting h hb hends => exact hsingle hc hdated
  | @again left done now mid mid' last c s s' hs pauses e ts r h hb hts ih =>
      have hattempt := (undergone_attempt h done_ne_fault hc).same (sameSession_countRetry s)
      have hrested := undergone_backOff hb done_ne_fault hattempt.sharing
      have hlater : ∀ x ∈ haltsOf ts, Cue.Dated x.cue := by
        intro x hx
        refine hdated x ?_
        rw [haltsOf, List.flatMap_cons]
        exact List.mem_append_right _ hx
      intro k t ht hdone
      cases k with
      | zero =>
          obtain rfl := Option.some.inj ht
          exact hfirst hc hdated hdone
      | succ k =>
          have hpresents := ih hrested.sharing hlater k t ht (by omega)
          rwa [Nat.add_right_comm] at hpresents

/-! ## Passes -/

/-- A session that a pass has given up: the tab took leave of it once more, and once for the pass;
nothing of it is stored, and the tab finds no token. -/
structure GivenUp (v : Vault) (cues : List Cue) (c s : Client) : Prop where
  noted : Tabs.ownNews c.own c.tabs s.tabs =
    c.farewells cues ++ c.tabs.farewell c.own .validationExhausted
  once : (c.tabs.news s.tabs).count (.ended c.own .validationExhausted) = 1
  gone : ∀ key ∈ Tabs.sessionKeys, s.tabs.keeps v key = false
  signedOut : SignedOut s

/-- What the session has gone through once it is given up. -/
theorem Undergone.givenUp {b : Bool} {cues : List Cue} (h : Undergone v b cues c c')
    (ho : s.own = c'.own) (ht : s.tabs = c'.tabs.endSession c'.own .validationExhausted) :
    GivenUp v cues c s := by
  have herodes := (Tabs.endSession_fades h.sharing.shares h.sharing.here
    .validationExhausted).erodes
  rw [← ht] at herodes
  have hnoted : Tabs.ownNews c.own c.tabs s.tabs =
      c.farewells cues ++ c.tabs.farewell c.own .validationExhausted := by
    rw [Tabs.ownNews_trans h.history herodes.history, h.noted, ht, ← h.own,
      Tabs.ownNews_endSession h.sharing.shares h.sharing.here, Tabs.farewell_congr (h.bare _)]
  obtain ⟨hsharing, hdismissed⟩ := h.sharing.dismissed_of_end ho ht
  refine ⟨hnoted, ?_, hdismissed.gone, hdismissed.signedOut hsharing⟩
  have hrefusals : (c.farewells cues).count (.ended c.own .validationExhausted) = 0 := by
    refine List.count_eq_zero.mpr fun hmem => ?_
    obtain ⟨hreason, -⟩ := mem_farewells.mp hmem
    cases hreason
  rw [← Tabs.count_ownNews, hnoted, List.count_append, hrefusals, Tabs.count_farewell]
  rfl

/-- A pass is one attempt after another, until one succeeds or as many retries have failed as the
policy allows. Where it waits for the answer to a call, that is a call of its last attempt; and the
calls of retries present tokens that were just issued for them. Once the pass has failed the session
is given up. -/
theorem retries_present_fresh_tokens {r : Run Client ValidationResult} (hc : Sharing v c)
    (h : Way (pass now c) now hs r last) (hdated : ∀ x ∈ hs, Cue.Dated x.cue) :
    ∃ ts, PassAccount now c r ts ∧ haltsOf ts = hs ∧
      (∀ s q drop resume, r = .wait s (.call q) drop resume →
        ∃ t, ts.getLast? = some t ∧ t.Awaits q) ∧
      (∀ (k : Nat) (t : Trial), ts[k]? = some t → 0 < k → t.PresentsAfresh k) ∧
      ∀ s e, r = .done s (.error e) → GivenUp v (hs.map (·.cue)) c s := by
  obtain ⟨ts, r₁, hts, hhalts, hclose⟩ := trials_of_pass h
  refine ⟨ts, hclose.account hts.account, hhalts, ?_, ?_, ?_⟩
  · rintro s q drop resume rfl
    obtain ⟨drop', resume', rfl⟩ := hclose.wait
    exact hts.awaits
  · have hcounted : Sharing v (c.mapValidator (·.count .attempt)) := hc.same rfl rfl
    rw [← hhalts] at hdated
    intro k t ht hk
    have hpresents := hts.presentAfresh hcounted hdated k t ht (by omega)
    rwa [Nat.zero_add] at hpresents
  · rintro s e rfl
    obtain ⟨t, -, hundergone⟩ := trialled_of_pass hc hts hclose done_ne_fault
    rw [hhalts] at hundergone
    obtain ⟨ho, ht⟩ := hclose.ended
    exact hundergone.givenUp ho ht

/-- How many attempts a pass has made that has failed. -/
def attemptsOf? : ValidationResult → Option Nat
  | .error (.exhausted attempts _) => some attempts
  | _ => none

theorem exhausted_of_attemptsOf? {a : ValidationResult} {n : Nat} (h : attemptsOf? a = some n) :
    ∃ e, a = .error (.exhausted n e) := by
  cases a with
  | ok user => cases h
  | error failure =>
      cases failure with
      | inProgress => cases h
      | exhausted attempts e =>
          obtain rfl := Option.some.inj h
          exact ⟨e, rfl⟩

/-- A pass whose three checks fail. -/
theorem retries_present_fresh_tokens_holding : ∃ hs s e last ts,
    Sharing ⟨Config.defaultNamespace, ⟨"", "", "", ""⟩⟩ holding ∧
      Way (pass ⟨1748779200000000000⟩ holding) ⟨1748779200000000000⟩ hs
        (.done s (.error (.exhausted 3 e))) last ∧ (∀ x ∈ hs, Cue.Dated x.cue) ∧
      PassAccount ⟨1748779200000000000⟩ holding (.done s (.error (.exhausted 3 e))) ts ∧
      haltsOf ts = hs ∧ ts.length = 3 ∧
      (∀ (k : Nat) (t : Trial), ts[k]? = some t → 0 < k → t.PresentsAfresh k) ∧
      GivenUp ⟨Config.defaultNamespace, ⟨"", "", "", ""⟩⟩ (hs.map (·.cue)) holding s := by
  have hcomes : (pass ⟨1748779200000000000⟩ holding).comesTo ⟨1748779200000000000⟩
      ([⟨1748779201000000000⟩, ⟨1748779203000000000⟩, ⟨1748779204000000000⟩,
        ⟨1748779205000000000⟩, ⟨1748779208000000000⟩, ⟨1748779209000000000⟩,
        ⟨1748779210000000000⟩].map (·, answerDown ⟨⟨"t2"⟩, some ⟨1748783000000000000⟩⟩))
      (fun hs r _ => decide (∀ x ∈ hs, Cue.Dated x.cue) &&
        r.endsSo fun a => decide (attemptsOf? a = some 3)) = true := by
    decide +kernel
  obtain ⟨hs, r, last, hway, htest⟩ := Run.exists_path SameSession.refl hcomes
  rw [Bool.and_eq_true, decide_eq_true_eq] at htest
  obtain ⟨s, a, rfl, hattempts⟩ := Run.done_of_endsSo htest.2
  obtain ⟨e, rfl⟩ := exhausted_of_attemptsOf? (of_decide_eq_true hattempts)
  obtain ⟨ts, haccount, hhalts, -, hpresent, hgivenUp⟩ :=
    retries_present_fresh_tokens sharing_holding hway htest.1
  obtain ⟨t, -, ⟨_, -, herror⟩ | ⟨_, -, hlength, -⟩⟩ := (haccount.outcome _).mp ⟨s, rfl⟩
  · cases herror
  · exact ⟨hs, s, e, last, ts, sharing_holding, hway, htest.1, haccount, hhalts, hlength, hpresent,
      hgivenUp s _ rfl⟩

end Client

end ClientSession
