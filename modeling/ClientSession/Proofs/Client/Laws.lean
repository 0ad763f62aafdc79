import ClientSession.Proofs.Client.Operations

/-!
# Laws of stretches

A law relates the client at the start of a stretch to the client that the stretch has left so far,
and knows whether a token was stored, or under which expiry too. It follows all that a client does
with its own session if it follows each thing that may be done: the session is read, cleared or
ended, or a token is stored where the stretch begins.

- `Dated.moment`, `Lawful.moment`: every moment of a course follows such a law, but for what is done
  on other tabs.
- `Dated.step`, `Lawful.step`: every moment does where the law follows that too.
-/

namespace ClientSession

open Activity

/-- The operation stores a token for the client's own tab. -/
def Operation.stores (own : Nat) : Operation → Bool
  | .login t e => (Tabs.term? t e).isSome
  | .onTab tab (.install t e) => tab = own && (Tabs.term? t e).isSome
  | _ => false

/-- The expiry under which the operation stores a token for the client's own tab. -/
def Operation.term? (own : Nat) : Operation → Option Instant
  | .login t e => Tabs.term? t e
  | .onTab tab (.install t e) => if tab = own then Tabs.term? t e else none
  | _ => none

theorem Operation.isSome_term? (own : Nat) (k : Operation) :
    (k.term? own).isSome = k.stores own := by
  unfold term? stores
  split
  · rfl
  · split <;> simp [*]
  · rfl

/-- The expiry of the token that a wait ended with. -/
def Cue.term? : Cue → Option Instant
  | ⟨.token, .ok t⟩ => Tabs.term? t.token t.expiresAt
  | _ => none

theorem Cue.isSome_term? (q : Cue) : q.term?.isSome = q.storable?.isSome := by
  obtain ⟨w, a⟩ := q
  cases w with
  | token =>
      cases a with
      | error e => rfl
      | ok t =>
          show (Tabs.term? t.token t.expiresAt).isSome = Option.isSome (if _ then _ else _)
          split <;> simp [*]
  | _ => rfl

/-- The expiry of the token with which the stretch begins. -/
def Start.term? {σ : Type} (i : Start σ) : Option Instant := i.cue.bind Cue.term?

theorem Start.isSome_term? {σ : Type} (i : Start σ) : i.term?.isSome = i.stores := by
  unfold term? stores
  cases i.cue with
  | none => rfl
  | some q => exact q.isSome_term?

theorem Start.term?_eq_none {σ : Type} {i : Start σ} (h : i.stores = false) : i.term? = none := by
  rw [← Option.not_isSome_iff_eq_none, i.isSome_term?, h]
  exact Bool.false_ne_true

namespace Client

variable {c c' : Client}

@[simp] theorem own_setTabs (c : Client) (w : Tabs) : (c.setTabs w).own = c.own := by
  unfold setTabs
  dsimp only
  split <;> rfl

@[simp] theorem tabs_setTabs (c : Client) (w : Tabs) : (c.setTabs w).tabs = w := by
  unfold setTabs
  dsimp only
  split <;> rfl

@[simp] theorem own_resumeSession (user : String) (c : Client) :
    (c.resumeSession user).own = c.own := by
  unfold resumeSession
  split <;> rfl

@[simp] theorem tabs_resumeSession (user : String) (c : Client) :
    (c.resumeSession user).tabs = c.tabs := by
  unfold resumeSession
  split <;> rfl

@[simp] theorem own_giveUpPass (now : Instant) (c : Client) : (c.giveUpPass now).own = c.own := by
  have hend := own_setTabs c (c.tabs.endSession c.own .validationExhausted)
  unfold giveUpPass
  dsimp only
  split <;> exact hend

@[simp] theorem tabs_giveUpPass (now : Instant) (c : Client) :
    (c.giveUpPass now).tabs = c.tabs.endSession c.own .validationExhausted := by
  have hend := tabs_setTabs c (c.tabs.endSession c.own .validationExhausted)
  unfold giveUpPass
  dsimp only
  split <;> exact hend

/-- The removal of the token has been made known since. -/
def removedSince (c₀ c : Client) : Bool :=
  (c₀.tabs.news c.tabs).any (·.isRemovalOf Tabs.tokenKey)

theorem removedSince_trans {c₀ : Client} (h : c₀.tabs.history <+: c.tabs.history)
    (h' : c.tabs.history <+: c'.tabs.history) :
    removedSince c₀ c' = (removedSince c₀ c || removedSince c c') := by
  rw [removedSince, Tabs.news_trans h h', List.any_append]
  rfl

theorem removedSince_of_history (h : c'.tabs.history = c.tabs.history) :
    removedSince c c' = false := by
  rw [removedSince, Tabs.news_of_history h, List.any_nil]

/-- A law that follows what may be done with the session of a client. -/
structure Lawful (Λ : Bool → Client → Client → Prop) : Prop where
  refl : ∀ c, Λ false c c
  recalls : ∀ g c₀ c c', Λ g c₀ c → c'.own = c.own →
    (c.tabs.backend.Healthy → Tabs.Recalls c.own c.tabs c'.tabs) → Λ g c₀ c'
  clears : ∀ g c₀ c c', Λ g c₀ c → c'.own = c.own →
    c'.tabs = c.tabs.clearSession c.own → Λ g c₀ c'
  ends : ∀ g c₀ c c' reason, Λ g c₀ c → c'.own = c.own →
    c'.tabs = c.tabs.endSession c.own reason → Λ g c₀ c'
  stores : ∀ c c' t e, (Tabs.term? t e).isSome → c'.own = c.own →
    c'.tabs = (c.tabs.install c.own t e).2 → Λ true c c'

/-- Such a law that knows the expiry of the token that was stored. -/
structure Dated (Λ : Option Instant → Client → Client → Prop) : Prop where
  refl : ∀ c, Λ none c c
  recalls : ∀ g c₀ c c', Λ g c₀ c → c'.own = c.own →
    (c.tabs.backend.Healthy → Tabs.Recalls c.own c.tabs c'.tabs) → Λ g c₀ c'
  clears : ∀ g c₀ c c', Λ g c₀ c → c'.own = c.own →
    c'.tabs = c.tabs.clearSession c.own → Λ g c₀ c'
  ends : ∀ g c₀ c c' reason, Λ g c₀ c → c'.own = c.own →
    c'.tabs = c.tabs.endSession c.own reason → Λ g c₀ c'
  stores : ∀ c c' t e term, Tabs.term? t e = some term → c'.own = c.own →
    c'.tabs = (c.tabs.install c.own t e).2 → Λ (some term) c c'

theorem Lawful.dated {Λ : Bool → Client → Client → Prop} (h : Lawful Λ) :
    Dated fun g => Λ g.isSome where
  refl := h.refl
  recalls g := h.recalls g.isSome
  clears g := h.clears g.isSome
  ends g := h.ends g.isSome
  stores c c' t e term hterm := h.stores c c' t e (Option.isSome_iff_exists.mpr ⟨term, hterm⟩)

/-- The law holds from the start of the stretch. -/
def Held (Λ : Option Instant → Client → Client → Prop) (_ : Unit) (i : Start Client) (c : Client) :
    Prop :=
  Λ i.term? i.state c

/-- Every stretch follows the law. -/
def Keeping (Λ : Option Instant → Client → Client → Prop) : Pact Unit Client :=
  fun m i _ c _ => Held Λ m i c

namespace Dated

variable {Λ : Option Instant → Client → Client → Prop} (h : Dated Λ)
include h

theorem same {g : Option Instant} {c₀ : Client} (hc : Λ g c₀ c) (ho : c'.own = c.own)
    (ht : c'.tabs = c.tabs) : Λ g c₀ c' :=
  h.recalls g c₀ c c' hc ho fun _ => .inl ht

theorem aside {g : Option Instant} {c₀ : Client} (hc : Λ g c₀ c) (ha : Aside c c') : Λ g c₀ c' :=
  h.same hc ha.own ha.tabs

theorem enduring : Enduring (Keeping Λ) (Held Λ) (Held Λ) where
  aside m i c c' hc ha := h.aside hc ha
  recalls m i c w hc hw := by
    refine h.recalls _ _ c _ hc (own_setTabs c w) fun hh => ?_
    rw [tabs_setTabs]
    exact hw hh
  faults m i c hc := hc
  stays m i c hc := hc
  drops m i c c' hc ha := h.aside hc ha
  waits m i c w hc _ := by
    refine ⟨(), hc, fun now c => h.refl c, fun q now c hq => ?_, fun t now c ht => ?_⟩
    · rw [Held, Start.term?_eq_none (stores_of_storable? hq)]
      exact h.refl c
    · obtain ⟨term, hterm⟩ := Option.isSome_iff_exists.mp (term?_isSome_of_storable? ht)
      show Λ (Tabs.term? t.token t.expiresAt) c (c.store t)
      rw [hterm]
      exact h.stores c _ _ _ term hterm (own_setTabs c _) (tabs_setTabs c _)
  calls m i c r hc := by
    refine ⟨(), hc, fun now c => h.refl c, fun outcome now c => ?_⟩
    rw [Held, Start.term?_eq_none (stores_of_storable? rfl)]
    exact h.refl c

theorem mapTabs_ends {g : Option Instant} {c₀ : Client} (hc : Λ g c₀ c) (reason : EndReason) :
    Λ g c₀ (c.mapTabs (·.endSession c.own reason)) :=
  h.ends g c₀ c _ reason hc (own_setTabs c _) (tabs_setTabs c _)

theorem lasting : Lasting (Keeping Λ) (Held Λ) (Held Λ) where
  toEnduring := h.enduring
  refuses _ _ _ hc _ := h.mapTabs_ends hc .unauthorized

theorem passing : Passing (Keeping Λ) (Held Λ) (Held Λ) fun m i _ c => Held Λ m i c where
  first := h.lasting.calling
  later := h.lasting.calling
  retries _ _ _ hc := h.same (hc.elim id id) rfl rfl
  clears _ _ c hc := h.clears _ _ c _ hc (own_setTabs c _) (tabs_setTabs c _)
  begins _ _ _ hc := h.same hc rfl rfl
  abandons _ _ _ hc := h.same hc rfl rfl
  refused _ _ _ hc := hc
  succeeds _ _ _ _ hc := h.same (hc.elim id id) rfl rfl
  fails _ i c _ hc :=
    h.ends _ _ c _ .validationExhausted (hc.elim id id) (own_giveUpPass i.now c)
      (tabs_giveUpPass i.now c)

theorem refresh (force : Bool) :
    Triple (Keeping Λ) (Held Λ) (Client.refresh force) fun m i _ c => Held Λ m i c :=
  (h.enduring.refresh (F := Held Λ) (fun _ _ _ _ => h.aside) (fun _ _ _ _ => h.aside)
    (fun _ _ _ hc => h.same hc rfl rfl) force).conseq (fun _ _ _ hc => hc)
      fun _ _ _ _ hc => hc.elim id id

theorem validateSession :
    Triple (Keeping Λ) (Held Λ) Client.validateSession fun m i _ c => Held Λ m i c := by
  refine h.passing.validateSession (fun m i c user hc => ?_) fun _ _ _ _ hc => hc
  exact h.same hc (own_resumeSession user c) (tabs_resumeSession user c)

/-! ## Operations -/

theorem start (now : Instant) (c : Client) : Λ none c (c.start now) := by
  have hread : Λ none c ((c.mapBatcher (·.startPeriodic)).setTabs (c.tabs.token c.own now).2) := by
    refine h.recalls _ c c _ (h.refl c) (own_setTabs _ _) fun hh => ?_
    rw [tabs_setTabs]
    exact Tabs.token_recalls hh c.own now
  unfold Client.start
  dsimp only
  split
  · exact h.same hread rfl rfl
  · exact hread

theorem login (t : BearerToken) (e : Option Instant) (now : Instant) (c : Client) :
    Λ (Tabs.term? t e) c (c.login t e now).2 := by
  unfold Client.login
  dsimp only
  rw [Tabs.install_fst]
  split
  · rename_i hsome
    obtain ⟨term, hterm⟩ := Option.isSome_iff_exists.mp hsome
    rw [hterm]
    have hstore : Λ (some term) c (c.setTabs (c.tabs.install c.own t e).2) :=
      h.stores c _ t e term hterm (own_setTabs c _) (tabs_setTabs c _)
    generalize c.setTabs (c.tabs.install c.own t e).2 = d at hstore
    have hread := h.recalls _ c d _ hstore (own_setTabs d (d.tabs.userId d.own now).2) fun hh => by
      rw [tabs_setTabs]
      exact Tabs.userId_recalls hh d.own now
    generalize d.setTabs (d.tabs.userId d.own now).2 = d' at hread
    exact h.same hread rfl rfl
  · rename_i hsome
    have hterm := Option.not_isSome_iff_eq_none.mp hsome
    rw [hterm, Tabs.install_of_term_none hterm, setTabs_of_history rfl]
    exact h.refl c

theorem logout (c : Client) : Λ none c c.logout := by
  have hend := h.mapTabs_ends (h.refl c) .logout
  unfold Client.logout
  generalize c.mapTabs (·.endSession c.own .logout) = d at hend
  exact h.same hend rfl rfl

/-- An action on the client's own tab. -/
theorem act {c : Client} (hi : (c.tabs.tab? c.own).isSome) (action : TabAction) (now : Instant) :
    Λ ((Operation.onTab c.own action).term? c.own) c (c.act c.own action now).2 := by
  unfold Client.act
  rw [if_pos hi]
  have hread : ∀ w, (c.tabs.backend.Healthy → Tabs.Recalls c.own c.tabs w) →
      Λ none c (c.setTabs w) := by
    intro w hw
    refine h.recalls _ c c _ (h.refl c) (own_setTabs c w) fun hh => ?_
    rw [tabs_setTabs]
    exact hw hh
  cases action with
  | install t e =>
      rw [show (Operation.onTab c.own (.install t e)).term? c.own = Tabs.term? t e from if_pos rfl]
      dsimp only [TabAction.run]
      cases hterm : Tabs.term? t e with
      | some term => exact h.stores c _ t e term hterm (own_setTabs c _) (tabs_setTabs c _)
      | none =>
          rw [Tabs.install_of_term_none hterm, setTabs_of_history rfl]
          exact h.refl c
  | clear => exact h.clears _ c c _ (h.refl c) (own_setTabs c _) (tabs_setTabs c _)
  | finish reason => exact h.ends _ c c _ reason (h.refl c) (own_setTabs c _) (tabs_setTabs c _)
  | forget => exact hread _ fun _ => .forget c.own c.tabs
  | token => exact hread _ fun hh => Tabs.token_recalls hh c.own now
  | hasToken => exact hread _ fun hh => .inl (Tabs.hasToken_state hh c.own)
  | claims => exact hread _ fun hh => Tabs.claims_recalls hh c.own now
  | userId => exact hread _ fun hh => Tabs.userId_recalls hh c.own now
  | expiresAt => exact hread _ fun hh => .inl (Tabs.expiresAt_state hh c.own)
  | isExpired => exact hread _ fun hh => .inl (Tabs.isExpired_state hh c.own now)
  | needsRefresh => exact hread _ fun hh => .inl (Tabs.needsRefresh_state hh c.own now)

end Dated

/-! ## Rules -/

/-- The expiry timer has ended the session: it found that the session does not last, while what is
stored was as at the start. -/
def ExpiredFrom (Λ : Bool → Client → Client → Prop) (task : Nat) (i : Start Client) (c : Client) :
    Prop :=
  i.stores = false ∧ ∃ c₁, Λ false i.state c₁ ∧
    (i.state.tabs.backend.Healthy → c₁.tabs.backend = i.state.tabs.backend) ∧
      c₁.lasts i.now = false ∧ c = c₁.readExpiry.expire task

/-- The rules of a law: every stretch follows it, and an action on a tab does just that. -/
def rules (Λ : Option Instant → Client → Client → Prop) :
    Rules Unit Client Operation Reply Job where
  memo := ()
  pact _ := Keeping Λ
  outcome work _ i e c :=
    match work with
    | .call (.onTab tab action) => i.cue = none ∧ c = (i.state.act tab action i.now).2
    | .call k => Λ (i.term?.or (k.term? i.state.own)) i.state c
    | .job (.supervision (.expiryTimer n)) => Λ i.term? i.state c ∧
      (e = .leaves → ExpiredFrom (fun _ => Λ none) n i c)
    | .job _ => Λ i.term? i.state c

namespace Dated

variable {Λ : Option Instant → Client → Client → Prop} (h : Dated Λ)
include h

/-- What begins a stretch begins with the law. -/
theorem opening {α : Type} {x : Activity Client α} {Q : Unit → Start Client → α → Client → Prop}
    (hx : Triple (Keeping Λ) (Held Λ) x Q) : Triple (Keeping Λ) Opening x Q :=
  opening_of hx fun _ c => h.refl c

/-- What an operation does follows the law, unless it is an action on a tab. -/
theorem serve {k : Operation} (hk : ∀ tab action, k ≠ .onTab tab action) :
    Triple (Keeping Λ) Opening (Client.serve k)
      fun _ i _ c => Λ (i.term?.or (k.term? i.state.own)) i.state c := by
  let Q (k : Operation) (_ : Unit) (i : Start Client) (c : Client) : Prop :=
    Λ (i.term?.or (k.term? i.state.own)) i.state c
  have hdone : ∀ {α : Type} {a : α}, Triple (Keeping Λ) (Held Λ) (pure a : Activity Client α)
      fun _ i _ c => Λ (i.term?.or none) i.state c := by
    intro α a
    refine triple_pure fun m i c hc => ?_
    rwa [Option.or_none]
  have hsame : ∀ {f : Client → Client}, (∀ c, (f c).own = c.own) → (∀ c, (f c).tabs = c.tabs) →
      Maintains (Keeping Λ) (Held Λ) (modify f : Activity Client PUnit) :=
    fun ho ht => triple_modify fun m i c hc => h.same hc (ho c) (ht c)
  cases k with
  | onTab tab action => exact absurd rfl (hk tab action)
  | start =>
      refine Triple.bind (M := fun m i _ c => Q .start m i c) (triple_change ?_) fun _ =>
        triple_pure fun _ _ _ hc => hc
      rintro m ⟨_, now, _⟩ c ⟨rfl, rfl⟩
      exact h.start now c
  | login t e =>
      refine Triple.bind (M := fun m i _ c => Q (.login t e) m i c) (triple_step ?_) fun _ =>
        triple_pure fun _ _ _ hc => hc
      rintro m ⟨_, now, _⟩ c ⟨rfl, rfl⟩
      exact h.login t e now c
  | logout =>
      refine Triple.bind (M := fun m i _ c => Q .logout m i c) (triple_modify ?_) fun _ =>
        triple_pure fun _ _ _ hc => hc
      rintro m ⟨_, now, _⟩ c ⟨rfl, rfl⟩
      exact h.logout c
  | refresh force => exact h.opening (Triple.bind (h.refresh force) fun _ => hdone)
  | validate => exact h.opening (Triple.bind h.passing.validate fun _ => hdone)
  | validateSession => exact h.opening (Triple.bind h.validateSession fun _ => hdone)
  | send r => exact h.opening (Triple.bind (h.lasting.calling.send r) fun _ => hdone)
  | sendWithRetry r =>
      exact h.opening (Triple.bind (h.lasting.calling.sendWithRetry r) fun _ => hdone)
  | armTimers => exact h.opening (Triple.bind (hsame (fun _ => rfl) fun _ => rfl) fun _ => hdone)
  | stopTimers => exact h.opening (Triple.bind (hsame (fun _ => rfl) fun _ => rfl) fun _ => hdone)
  | setVisibility inBackground =>
      exact h.opening (Triple.bind (hsame (fun _ => rfl) fun _ => rfl) fun _ => hdone)
  | trackAuth e => exact h.opening (Triple.bind (hsame (fun _ => rfl) fun _ => rfl) fun _ => hdone)
  | trackRequest e => exact h.opening (Triple.bind (h.enduring.trackRequest e) fun _ => hdone)
  | flushAuth =>
      exact h.opening (Triple.bind (h.enduring.telemetry Batcher.unattributing_flushAuth)
        fun _ => hdone)
  | flushRequests =>
      exact h.opening (Triple.bind (h.enduring.telemetry Batcher.unattributing_flushRequests)
        fun _ => hdone)
  | teardown =>
      refine h.opening (Triple.bind (M := fun m i _ c => Held Λ m i c) ?_ fun _ => hdone)
      exact triple_step fun m i c hc => h.same hc rfl rfl

theorem of_expiredFrom {n : Nat} {i : Start Client} (hc : ExpiredFrom (fun _ => Λ none) n i c) :
    Λ i.term? i.state c := by
  obtain ⟨hstores, c₁, hc₁, -, -, rfl⟩ := hc
  have hread : Λ none i.state c₁.readExpiry := by
    refine h.recalls _ _ c₁ _ hc₁ (own_setTabs c₁ _) fun hh => ?_
    rw [readExpiry, tabs_setTabs, Tabs.expiresAt_state hh]
    exact .same _ _
  rw [Start.term?_eq_none hstores]
  exact h.same (h.mapTabs_ends hread .expired) rfl rfl

/-- The law is followed without a token, and what is stored is as at the start. -/
theorem still : Patient (Keeping Λ) (fun m i c => (Held Λ m i c ∧ i.stores = false) ∧
    (i.state.tabs.backend.Healthy → c.tabs.backend = i.state.tabs.backend)) fun _ _ _ => True where
  aside m i c c' hc ha := ⟨⟨h.aside hc.1.1 ha, hc.1.2⟩, fun hh => by rw [ha.tabs, hc.2 hh]⟩
  recalls m i c w hc hw := by
    refine ⟨⟨h.enduring.recalls m i c w hc.1.1 hw, hc.1.2⟩, fun hh => ?_⟩
    have hb := hc.2 hh
    rw [tabs_setTabs, (hw (hb ▸ hh)).backend]
    exact hb
  faults m i c hc := hc.1.1
  stays m i c hc := hc.1.1
  drops m i c c' hc ha := h.aside hc ha
  waits m i c w hc hw := by
    obtain ⟨m', hp, hd, ha, -⟩ := h.enduring.waits m i c w hc.1.1 hw
    exact ⟨m', hp, hd, fun q now c hq => ⟨⟨ha q now c hq, stores_of_storable? hq⟩, fun _ => rfl⟩,
      fun _ _ _ _ => trivial⟩

/-- What work beside the callers does follows the law. -/
theorem perform (j : Job) :
    Triple (Keeping Λ) Opening (Client.perform j)
      fun _ i again c => Λ i.term? i.state c ∧ ∀ n, j = .supervision (.expiryTimer n) →
        again = none → ExpiredFrom (fun _ => Λ none) n i c := by
  cases j with
  | telemetry job =>
      refine h.opening (Triple.bind
        (h.enduring.telemetry (Batcher.unattributing_perform job)) fun _ => ?_)
      exact triple_pure fun m i c hc => ⟨hc, fun n hn => nomatch hn⟩
  | supervision job =>
      cases job with
      | refreshTimer n =>
          have hwatch := h.enduring.watchRefresh (F := Held Λ) (fun _ _ _ _ => h.aside)
            (fun _ _ _ _ => h.aside) (fun _ _ _ hc => h.same hc rfl rfl) n
          refine h.opening (Triple.bind hwatch fun _ => triple_pure fun m i c hc => ?_)
          exact ⟨hc.elim id id, fun n hn => nomatch hn⟩
      | expiryTimer n =>
          -- The decision to end the session is made on what is stored when the stretch begins.
          have hwatch := h.still.watchExpiry (E := fun _ => ExpiredFrom (fun _ => Λ none) n)
            fun m i c hc hl => by
              obtain ⟨⟨hheld, hstores⟩, hb⟩ := hc
              rw [Held, Start.term?_eq_none hstores] at hheld
              exact ⟨hstores, c, hheld, hb, hl, rfl⟩
          refine Triple.bind (hwatch.conseq ?_ fun _ _ _ _ hq => hq) fun again =>
            triple_pure fun m i c hc => ?_
          · rintro m ⟨_, now, _⟩ c ⟨rfl, rfl⟩
            exact ⟨⟨h.refl c, rfl⟩, fun _ => rfl⟩
          · cases again with
            | some j => exact ⟨hc.1.1, fun _ _ hn => nomatch hn⟩
            | none =>
                refine ⟨h.of_expiredFrom hc, fun n' hn _ => ?_⟩
                cases hn
                exact hc

/-- All work of a client keeps the rules of the law. -/
theorem keptBy : (rules Λ).KeptBy workplace := by
  refine keptBy_workplace (fun _ _ c => h.refl c) (fun k => ?_) fun j => ?_
  · by_cases hk : ∃ tab action, k = .onTab tab action
    · obtain ⟨tab, action, rfl⟩ := hk
      refine triple_step ?_
      rintro m ⟨_, now, _⟩ c ⟨rfl, rfl⟩
      exact ⟨rfl, rfl⟩
    · have hk' : ∀ tab action, k ≠ .onTab tab action := fun tab action e => hk ⟨tab, action, e⟩
      refine (h.serve hk').conseq (fun _ _ _ h => h) fun m i a c hc => ?_
      cases k with
      | onTab tab action => exact absurd rfl (hk' tab action)
      | _ => exact hc
  · refine (h.perform j).conseq (fun _ _ _ h => h) fun m i again c hc => ?_
    cases j with
    | telemetry job => exact hc.1
    | supervision job =>
        cases job with
        | refreshTimer n => exact hc.1
        | expiryTimer n =>
            refine ⟨hc.1, fun he => hc.2 n rfl ?_⟩
            cases again with
            | none => rfl
            | some j' => cases he

end Dated

/-! ## Moments -/

/-- The stretch stored a token for the client's own tab: it began with one that can be stored, or it
is of an operation that stores one. -/
def Moment.stores (x : Moment) : Bool :=
  x.start.stores ||
    match x.result, x.work with
    | .ended _, .call k => k.stores x.start.state.own
    | _, _ => false

/-- The expiry under which the stretch stored a token for the client's own tab. -/
def Moment.term? (x : Moment) : Option Instant :=
  x.start.term?.or (match x.result, x.work with
    | .ended _, .call k => k.term? x.start.state.own
    | _, _ => none)

theorem Moment.isSome_term? (x : Moment) : x.term?.isSome = x.stores := by
  unfold term? stores
  rw [Option.isSome_or, Start.isSome_term?]
  split
  · rw [Operation.isSome_term?]
  · rfl

/-- The action on a tab that the moment is of. -/
def Moment.action? (x : Moment) : Option (Nat × TabAction) :=
  match x.result, x.work with
  | .ended _, .call (.onTab tab action) => some (tab, action)
  | _, _ => none

theorem Moment.work_of_action? {x : Moment} {tab : Nat} {action : TabAction}
    (h : x.action? = some (tab, action)) :
    x.work = .call (.onTab tab action) ∧ ∃ e, x.result = .ended e := by
  unfold Moment.action? at h
  split at h
  · rename_i e tab' action' he hw
    cases h
    exact ⟨hw, e, he⟩
  · cases h

theorem Moment.term?_of_action? {x : Moment} {tab : Nat} {action : TabAction}
    (h : x.action? = some (tab, action)) (hcue : x.start.cue = none) :
    x.term? = (Operation.onTab tab action).term? x.start.state.own := by
  obtain ⟨hw, e, he⟩ := Moment.work_of_action? h
  simp [Moment.term?, hw, he, Start.term?, hcue]

theorem tabs_abandonJob (c : Client) (j : Job) : (c.abandonJob j).tabs = c.tabs := by
  unfold abandonJob
  split <;> first | split <;> rfl | rfl

theorem own_abandonJob (c : Client) (j : Job) : (c.abandonJob j).own = c.own := by
  unfold abandonJob
  split <;> first | split <;> rfl | rfl

/-- What the tabs are after a moment is what it left. -/
theorem Step.tabs_eq {s : Scene} {x : Moment} (hx : Step s x) :
    x.after.state.tabs = x.left.tabs ∧ x.after.state.own = x.left.own := by
  rcases hx.after_state with h | ⟨-, j, -, h⟩
  · rw [h]
    exact ⟨rfl, rfl⟩
  · rw [h]
    exact ⟨tabs_abandonJob x.left j, own_abandonJob x.left j⟩

/-- The expiry timer has ended the session in the moment. -/
def Moment.expires (x : Moment) : Bool :=
  match x.work, x.result with
  | .job (.supervision (.expiryTimer _)), .ended .leaves => true
  | _, _ => false

theorem Dated.expires {Λ : Option Instant → Client → Client → Prop} (h : Dated Λ) {c : Client}
    {ms : List Moment} {s : Scene} (hrun : Course (scene c) ms s) {x : Moment} (hx : x ∈ ms)
    (hend : x.expires = true) : ∃ n, ExpiredFrom (fun _ => Λ none) n x.start x.left := by
  have hkeeps := h.keptBy.all hrun x hx
  obtain ⟨_, work, i, result, left, after⟩ := x
  unfold Moment.expires at hend
  split at hend
  · rename_i n hwork hresult
    obtain rfl : work = _ := hwork
    obtain rfl : result = _ := hresult
    exact ⟨n, hkeeps.1.2 rfl⟩
  · cases hend

/-- An action on a tab does just that; every other moment follows the law. -/
theorem Dated.moment {Λ : Option Instant → Client → Client → Prop} (h : Dated Λ) {c : Client}
    {ms : List Moment} {s : Scene} (hrun : Course (scene c) ms s) {x : Moment} (hx : x ∈ ms) :
    match x.action? with
    | some (tab, action) =>
      x.start.cue = none ∧ x.left = (x.start.state.act tab action x.start.now).2
    | none => Λ x.term? x.start.state x.left := by
  have hkeeps := h.keptBy.all hrun x hx
  obtain ⟨n, work, i, result, left, after⟩ := x
  cases result with
  | paused p =>
      show Λ (i.term?.or none) i.state left
      rw [Option.or_none]
      exact hkeeps
  | ended e =>
      cases work with
      | call k =>
          cases k with
          | onTab tab action => exact hkeeps.1
          | _ => exact hkeeps.1
      | job j =>
          show Λ (i.term?.or none) i.state left
          rw [Option.or_none]
          match j, hkeeps with
          | .telemetry _, hkeeps => exact hkeeps.1
          | .supervision (.refreshTimer _), hkeeps => exact hkeeps.1
          | .supervision (.expiryTimer _), hkeeps => exact hkeeps.1.1

/-- Every moment follows a law that follows what is done on other tabs too. -/
theorem Dated.step {Λ : Option Instant → Client → Client → Prop} (h : Dated Λ) {c : Client}
    {ms : List Moment} {s : Scene} {x : Moment} (hrun : Course (scene c) ms s) (hx : Step s x)
    (hhere : (x.start.state.tabs.tab? x.start.state.own).isSome)
    (hother : ∀ tab action, x.action? = some (tab, action) → tab ≠ x.start.state.own →
      Λ none x.start.state (x.start.state.act tab action x.start.now).2) :
    Λ x.term? x.start.state x.left := by
  have hmoment := h.moment (hrun.snoc hx) (List.mem_append_right ms (List.mem_singleton.mpr rfl))
  cases haction : x.action? with
  | none =>
      rw [haction] at hmoment
      exact hmoment
  | some a =>
      obtain ⟨tab, action⟩ := a
      rw [haction] at hmoment
      obtain ⟨hcue, hleft⟩ := hmoment
      rw [Moment.term?_of_action? haction hcue, hleft]
      by_cases htab : tab = x.start.state.own
      · subst htab
        exact h.act hhere action x.start.now
      · have hterm : (Operation.onTab tab action).term? x.start.state.own = none := by
          cases action <;> simp [Operation.term?, htab]
        rw [hterm]
        exact hother tab action haction htab

section Lawful

variable {Λ : Bool → Client → Client → Prop} (h : Lawful Λ) {ms : List Moment} {s : Scene}
  {x : Moment}
include h

theorem Lawful.expires (hrun : Course (scene c) ms s) (hx : x ∈ ms) (hend : x.expires = true) :
    ∃ n, ExpiredFrom Λ n x.start x.left :=
  h.dated.expires hrun hx hend

theorem Lawful.moment (hrun : Course (scene c) ms s) (hx : x ∈ ms) :
    match x.action? with
    | some (tab, action) =>
      x.start.cue = none ∧ x.left = (x.start.state.act tab action x.start.now).2
    | none => Λ x.stores x.start.state x.left := by
  rw [← x.isSome_term?]
  exact h.dated.moment hrun hx

theorem Lawful.step (hrun : Course (scene c) ms s) (hx : Step s x)
    (hhere : (x.start.state.tabs.tab? x.start.state.own).isSome)
    (hother : ∀ tab action, x.action? = some (tab, action) → tab ≠ x.start.state.own →
      Λ false x.start.state (x.start.state.act tab action x.start.now).2) :
    Λ x.stores x.start.state x.left := by
  rw [← x.isSome_term?]
  exact h.dated.step hrun hx hhere hother

end Lawful

end Client

end ClientSession
