import ClientSession.Proofs.Client.Counters
import ClientSession.Proofs.Http.Stamps
import ClientSession.Proofs.Paths
import ClientSession.Proofs.Telemetry.Journal

/-!
# What the events of a call do not show

Two calls whose requests agree on the method and on the route tell the batcher the same, if the one
client cannot be told from the other by its limits and by when its session ends, and if both are
answered alike and at the same times. The query, the fragment, the headers and the body of a request
and the token of the session do not show.

- `Tabs.sessionEnd`: when the session of a tab ends, which alone decides whether there is a token.
- `Activity.Twins`: two activities tell the same at every point, and one faults while the other
  goes on only where nothing more is told.
- `Diary.twins_send`: two calls do so.
-/

namespace ClientSession

namespace Tabs

/-- When the session that the tab remembers ends. -/
def rememberedEnd (w : Tabs) (i : Nat) : Option Instant :=
  (w.cache i).token.bind fun _ => (w.cache i).expiresAt

/-- When the stored session ends, as is stored beside its token or as the token claims. -/
def storedEnd (w : Tabs) (i : Nat) : Option Instant :=
  (w.storedToken i).1.bind fun t =>
    ((w.storedToken i).2.storedExpiry i).1.or (claimedExpiry? t)

/-- When the session of the tab ends; `none` if there is no token, or none that ends. -/
def sessionEnd (w : Tabs) (i : Nat) : Option Instant :=
  Option.merge (fun e e' => if e ≤ e' then e' else e) (w.rememberedEnd i) (w.storedEnd i)

/-- Before the later end is before one of the two. -/
theorem exists_merge_iff {a b : Option Instant} {now : Instant} :
    (∃ e, Option.merge (fun e e' => if e ≤ e' then e' else e) a b = some e ∧ now < e) ↔
      (∃ e, a = some e ∧ now < e) ∨ ∃ e, b = some e ∧ now < e := by
  cases a with
  | none => simp
  | some e =>
      cases b with
      | none => simp
      | some e' =>
          simp only [Option.merge_some_some, Option.some.injEq, exists_eq_left']
          show now.nanos < (if e.nanos ≤ e'.nanos then e' else e).nanos ↔
            now.nanos < e.nanos ∨ now.nanos < e'.nanos
          split <;> omega

theorem isSome_liveToken? {w : Tabs} {i : Nat} {now : Instant} :
    ((w.cache i).liveToken? now).isSome = true ↔ ∃ e, w.rememberedEnd i = some e ∧ now < e := by
  rw [rememberedEnd, SessionCache.liveToken?, SessionCache.isLive]
  cases (w.cache i).token with
  | none => simp
  | some t => cases (w.cache i).expiresAt <;> simp

/-- There is a token as long as the session has not ended. -/
theorem isSome_token {w : Tabs} {i : Nat} {now : Instant} :
    (w.token i now).1.isSome = true ↔ ∃ e, w.sessionEnd i = some e ∧ now < e := by
  rw [sessionEnd, exists_merge_iff, ← isSome_liveToken?, token]
  cases (w.cache i).liveToken? now with
  | some t => simp
  | none =>
      rw [storedEnd]
      dsimp only
      cases (w.storedToken i).1 with
      | none => simp
      | some t =>
          dsimp only [Option.bind_some]
          cases ((w.storedToken i).2.storedExpiry i).1.or (claimedExpiry? t) with
          | none => simp
          | some e =>
              dsimp only
              by_cases he : e ≤ now
              · have hover : ¬now < e := Int.not_lt.mpr he
                simp [he, hover]
              · have hlasts : now < e := Int.not_le.mp he
                simp [he, hlasts]

end Tabs

open Activity

/-! ## Requests -/

/-- The events of a call cannot tell the requests apart. -/
structure Request.Blurred (r r' : Request) : Prop where
  method : r.method = r'.method
  elapsed : ∀ now, r.elapsed now = r'.elapsed now

namespace Request

variable {r r' : Request}

theorem elapsed_eq (h : r.header? SecurityHeaders.start = r'.header? SecurityHeaders.start)
    (now : Instant) : r.elapsed now = r'.elapsed now := by
  rw [elapsed, elapsed, h]

theorem Blurred.setHeader (h : Blurred r r') {name : String}
    (hname : lowerCase name ≠ lowerCase SecurityHeaders.start) (value value' : String) :
    Blurred (r.setHeader name value) (r'.setHeader name value') := by
  have hkept : ∀ (q : Request) (v : String) (now : Instant),
      (q.setHeader name v).elapsed now = q.elapsed now := fun q v now =>
    elapsed_eq (by rw [header?_setHeader, if_neg hname]) now
  exact ⟨h.method, fun now => by rw [hkept, hkept, h.elapsed now]⟩

/-- However a request is secured, the mark of its start stays. -/
theorem start_secure (profile : DeviceProfile) (csrf : Option String) (now : Instant)
    (nonce : Nat) : (r.secure profile csrf now nonce).header? SecurityHeaders.start =
      r.header? SecurityHeaders.start := by
  have hnames : ∀ name ∈ SecurityHeaders.stampNames,
      lowerCase name ≠ lowerCase SecurityHeaders.start := by decide
  rw [secure_eq]
  refine header?_stamp_of_ne r fun s hs => hnames s.1 ?_
  exact (SecurityHeaders.names_stamps ..).subset (List.mem_map.mpr ⟨s, hs, rfl⟩)

theorem blurred_prepare (hmethod : r.method = r'.method) (c c' : Client) (now : Instant) :
    Blurred (c.prepare r now).1 (c'.prepare r' now).1 := by
  have hstart : ∀ (c : Client) (q : Request),
      (c.prepare q now).1.header? SecurityHeaders.start = some (toString now.wholeMillis) := by
    intro c q
    rw [Client.prepare, start_secure, stampStart, header?_setHeader, if_pos rfl]
  have hkept : ∀ (c : Client) (q : Request), (c.prepare q now).1.method = q.method :=
    fun c q => (alike_secure (q.stampStart now) c.profile c.csrf now c.serial).method
  exact ⟨by rw [hkept, hkept, hmethod], elapsed_eq ((hstart c r).trans (hstart c' r').symm)⟩

end Request

/-! ## Twins -/

/-- Neither its limits nor when its session ends tell the one client from the other. -/
structure Client.Like (c c' : Client) : Prop where
  limiter : c.limiter = c'.limiter
  sessionEnd : c.tabs.sessionEnd c.own = c'.tabs.sessionEnd c'.own

namespace Diary

/-- The batchers have been told the same. -/
def Same (d d' : Diary) : Prop := d.told = d'.told

/-- So they have, and the clients are alike. -/
structure Alike (d d' : Diary) : Prop where
  same : Same d d'
  client : d.client.Like d'.client

end Diary

open Diary

variable {α β γ δ σ : Type} {loose loose' : Prop}

/-- The runs tell the same as long as they are answered alike and at the same times, and as long as
the diaries are alike that they find: after a wait for time they have to agree in all that a call
looks at, after the call itself only in what has been told. If the two are loose, one may fault
where the other ends. -/
inductive Run.Twins (loose : Prop) (Q : α → β → Diary → Diary → Prop) :
    Run Diary α → Run Diary β → Prop
  | done {a : α} {b : β} {d d' : Diary} (h : Q a b d d') : Twins loose Q (.done d a) (.done d' b)
  | fault {f f' : Fault} {d d' : Diary} (h : Same d d') : Twins loose Q (.fault d f) (.fault d' f')
  | left {f : Fault} {b : β} {d d' : Diary} (hloose : loose) (h : Same d d') :
      Twins loose Q (.fault d f) (.done d' b)
  | right {a : α} {f : Fault} {d d' : Diary} (hloose : loose) (h : Same d d') :
      Twins loose Q (.done d a) (.fault d' f)
  | sleep {span : Span} {d d' : Diary} {drop drop' : Diary → Diary}
      {resume : Unit → Instant → Diary → Run Diary α}
      {resume' : Unit → Instant → Diary → Run Diary β} (h : Alike d d')
      (hdrop : ∀ d, Same d (drop d)) (hdrop' : ∀ d, Same d (drop' d))
      (hresume : ∀ now d d', Alike d d' → Twins loose Q (resume () now d) (resume' () now d')) :
      Twins loose Q (.wait d (.sleep span) drop resume) (.wait d' (.sleep span) drop' resume')
  | call {q q' : Request} {d d' : Diary} {drop drop' : Diary → Diary}
      {resume : TransportOutcome → Instant → Diary → Run Diary α}
      {resume' : TransportOutcome → Instant → Diary → Run Diary β} (h : Same d d')
      (hdrop : ∀ d, Same d (drop d)) (hdrop' : ∀ d, Same d (drop' d))
      (hresume : ∀ outcome now d d', Same d d' →
        Twins loose Q (resume outcome now d) (resume' outcome now d')) :
      Twins loose Q (.wait d (.call q) drop resume) (.wait d' (.call q') drop' resume')

/-- The waits of a call end at these instants; the service gives these answers. -/
def answersOf (script : List (Instant × TransportOutcome)) :
    List (Instant × ((w : Wait) → w.Answer)) :=
  script.map fun p => (p.1, Wait.answer p.2 (.error .loginRequired))

/-- Found in such diaries at one time, the activities are twins. -/
structure Activity.Twins (loose : Prop) (pre : Diary → Diary → Prop) (x : Activity Diary α)
    (x' : Activity Diary β) (post : α → β → Diary → Diary → Prop) : Prop where
  runs : ∀ now d d', pre d d' → (x now d).Twins loose post (x' now d')

/-- The activity ends at once and tells nothing. -/
structure Activity.Mute (x : Activity Diary α) : Prop where
  runs : ∀ now d, ∃ a e, x now d = .done e a ∧ Same d e

namespace Run.Twins

variable {Q : α → β → Diary → Diary → Prop} {r : Run Diary α} {r' : Run Diary β}

theorem same (hQ : ∀ a b d d', Q a b d d' → Same d d') (h : r.Twins loose Q r') :
    Same r.state r'.state := by
  cases h with
  | done h => exact hQ _ _ _ _ h
  | fault h => exact h
  | left _ h => exact h
  | right _ h => exact h
  | sleep h => exact h.same
  | call h => exact h

theorem mono {Q' : α → β → Diary → Diary → Prop} (h : r.Twins loose Q r')
    (hloose : loose → loose') (hQ : ∀ a b d d', Q a b d d' → Q' a b d d') :
    r.Twins loose' Q' r' := by
  induction h with
  | done h => exact .done (hQ _ _ _ _ h)
  | fault h => exact .fault h
  | left hl h => exact .left (hloose hl) h
  | right hl h => exact .right (hloose hl) h
  | sleep h hdrop hdrop' _ ih => exact .sleep h hdrop hdrop' ih
  | call h hdrop hdrop' _ ih => exact .call h hdrop hdrop' ih

/-- They stay twins if they are answered alike and nothing comes between. -/
theorem follow (h : r.Twins loose Q r') (now : Instant)
    (script : List (Instant × TransportOutcome)) :
    (r.follow now (answersOf script)).2.1.Twins loose Q
      (r'.follow now (answersOf script)).2.1 := by
  induction script generalizing r r' now with
  | nil => cases h <;> (constructor <;> assumption)
  | cons p script ih =>
      cases h with
      | sleep h _ _ hresume => exact ih (hresume p.1 _ _ h) p.1
      | call h _ _ hresume => exact ih (hresume p.2 p.1 _ _ h) p.1
      | done h => exact .done h
      | fault h => exact .fault h
      | left hl h => exact .left hl h
      | right hl h => exact .right hl h

theorem bind {f : α → Activity Diary γ} {f' : β → Activity Diary δ}
    {Q' : γ → δ → Diary → Diary → Prop} (h : r.Twins loose Q r')
    (hf : ∀ a b, (f a).Twins loose' (Q a b) (f' b) Q')
    (hloose : loose → loose' ∧ (∀ a, (f a).Mute) ∧ ∀ b, (f' b).Mute) (now : Instant) :
    (r.bind f now).Twins loose' Q' (r'.bind f' now) := by
  induction h generalizing now with
  | done h => exact (hf _ _).runs now _ _ h
  | fault h => exact .fault h
  | left hl h =>
      obtain ⟨b, e, hb, he⟩ := ((hloose hl).2.2 _).runs now _
      show Run.Twins loose' Q' (.fault _ _) (f' _ now _)
      rw [hb]
      exact .left (hloose hl).1 (h.trans he)
  | right hl h =>
      obtain ⟨a, e, ha, he⟩ := ((hloose hl).2.1 _).runs now _
      show Run.Twins loose' Q' (f _ now _) (.fault _ _)
      rw [ha]
      exact .right (hloose hl).1 (he.symm.trans h)
  | sleep h hdrop hdrop' hresume ih =>
      exact .sleep h hdrop hdrop' fun now d d' hd => ih now d d' hd now
  | call h hdrop hdrop' hresume ih =>
      exact .call h hdrop hdrop' fun outcome now d d' hd => ih outcome now d d' hd now

end Run.Twins

namespace Activity

variable {pre : Diary → Diary → Prop} {x : Activity Diary α} {x' : Activity Diary β}
  {post : α → β → Diary → Diary → Prop}

theorem Mute.bind {f : α → Activity Diary γ} (hx : x.Mute) (hf : ∀ a, (f a).Mute) :
    (x >>= f).Mute := by
  refine ⟨fun now d => ?_⟩
  obtain ⟨a, e, ha, he⟩ := hx.runs now d
  obtain ⟨b, e', hb, he'⟩ := (hf a).runs now e
  refine ⟨b, e', ?_, he.trans he'⟩
  show (x now d).bind f now = _
  rw [ha]
  exact hb

/-- Where nothing is told, as much has been told before as after. -/
theorem twins_mute (hx : x.Mute) (hx' : x'.Mute) : x.Twins loose Same x' fun _ _ => Same := by
  refine ⟨fun now d d' hd => ?_⟩
  obtain ⟨a, e, ha, he⟩ := hx.runs now d
  obtain ⟨b, e', hb, he'⟩ := hx'.runs now d'
  rw [ha, hb]
  exact .done (he.symm.trans (hd.trans he'))

theorem mute_pure (a : α) : (pure a : Activity Diary α).Mute := ⟨fun _ d => ⟨a, d, rfl, rfl⟩⟩

theorem mute_now : (Activity.now : Activity Diary Instant).Mute := ⟨fun now d => ⟨now, d, rfl, rfl⟩⟩

theorem mute_modify (f : Client → Client) : (silently (modify f)).Mute :=
  ⟨fun _ d => ⟨⟨⟩, d.setClient (f d.client), rfl, rfl⟩⟩

theorem mute_change (f : Instant → Client → Client) : (silently (Activity.change f)).Mute :=
  ⟨fun now d => ⟨(), d.setClient (f now d.client), rfl, rfl⟩⟩

theorem Twins.conseq {pre' : Diary → Diary → Prop} {post' : α → β → Diary → Diary → Prop}
    (h : x.Twins loose pre x' post) (hpre : ∀ d d', pre' d d' → pre d d') (hloose : loose → loose')
    (hpost : ∀ a b d d', post a b d d' → post' a b d d') : x.Twins loose' pre' x' post' :=
  ⟨fun now d d' hd => (h.runs now d d' (hpre d d' hd)).mono hloose hpost⟩

theorem Twins.bind {f : α → Activity Diary γ} {f' : β → Activity Diary δ}
    {q : α → β → Diary → Diary → Prop} {post' : γ → δ → Diary → Diary → Prop}
    (hx : x.Twins False pre x' q) (hf : ∀ a b, (f a).Twins loose (q a b) (f' b) post') :
    (x >>= f).Twins loose pre (x' >>= f') post' :=
  ⟨fun now d d' hd => (hx.runs now d d' hd).bind hf False.elim now⟩

/-- What may fault on one side alone comes last. -/
theorem Twins.bind_mute {f : α → Activity Diary γ} {f' : β → Activity Diary δ}
    {post' : γ → δ → Diary → Diary → Prop} (hx : x.Twins loose pre x' post)
    (hf : ∀ a b, (f a).Twins loose' (post a b) (f' b) post') (hloose : loose → loose')
    (hmute : loose → ∀ a, (f a).Mute) (hmute' : loose → ∀ b, (f' b).Mute) :
    (x >>= f).Twins loose' pre (x' >>= f') post' :=
  ⟨fun now d d' hd => (hx.runs now d d' hd).bind hf
    (fun hl => ⟨hloose hl, hmute hl, hmute' hl⟩) now⟩

/-- Steps that neither wait nor fault. -/
theorem twins_done (h : ∀ now d d', pre d d' → ∃ a b e e', x now d = .done e a ∧
    x' now d' = .done e' b ∧ post a b e e') : x.Twins loose pre x' post := by
  refine ⟨fun now d d' hd => ?_⟩
  obtain ⟨a, b, e, e', ha, hb, hpost⟩ := h now d d' hd
  rw [ha, hb]
  exact .done hpost

theorem twins_pure {a : α} {b : β} (h : ∀ d d', pre d d' → post a b d d') :
    (pure a : Activity Diary α).Twins loose pre (pure b) post :=
  twins_done fun _ d d' hd => ⟨a, b, d, d', rfl, rfl, h d d' hd⟩

theorem twins_now : (Activity.now : Activity Diary Instant).Twins loose pre Activity.now
    fun now now' d d' => pre d d' ∧ now = now' :=
  twins_done fun now d d' hd => ⟨now, now, d, d', rfl, rfl, hd, rfl⟩

theorem twins_modify {post : PUnit → PUnit → Diary → Diary → Prop} {f f' : Client → Client}
    (h : ∀ d d', pre d d' → post ⟨⟩ ⟨⟩ (d.setClient (f d.client)) (d'.setClient (f' d'.client))) :
    (silently (modify f)).Twins loose pre (silently (modify f')) post :=
  twins_done fun _ d d' hd => ⟨⟨⟩, ⟨⟩, _, _, rfl, rfl, h d d' hd⟩

theorem twins_step {f : Instant → Client → α × Client} {f' : Instant → Client → β × Client}
    (h : ∀ now d d', pre d d' → post (f now d.client).1 (f' now d'.client).1
      (d.setClient (f now d.client).2) (d'.setClient (f' now d'.client).2)) :
    (silently (Activity.step f)).Twins loose pre (silently (Activity.step f')) post :=
  twins_done fun now d d' hd => ⟨_, _, _, _, rfl, rfl, h now d d' hd⟩

theorem Twins.ite {c : Prop} [Decidable c] {y : Activity Diary α} {y' : Activity Diary β}
    (hx : c → x.Twins loose pre x' post) (hy : ¬c → y.Twins loose pre y' post) :
    (if c then x else y).Twins loose pre (if c then x' else y') post := by
  split
  · exact hx ‹c›
  · exact hy ‹¬c›

/-- What is known of the values at hand need not be asked of the diaries. -/
theorem Twins.of_fact {φ : Prop} (h : φ → x.Twins loose pre x' post) :
    x.Twins loose (fun d d' => pre d d' ∧ φ) x' post :=
  ⟨fun now d d' hd => (h hd.2).runs now d d' hd.1⟩

theorem twins_attempt {f : Instant → Client → Checked (α × Client)}
    {f' : Instant → Client → Checked (β × Client)} (hpre : ∀ d d', pre d d' → Same d d')
    (hok : ∀ now d d' p p', pre d d' → f now d.client = .ok p → f' now d'.client = .ok p' →
      post p.1 p'.1 (d.setClient p.2) (d'.setClient p'.2))
    (hisOk : ∀ now d d', pre d d' → ¬loose →
      ((f now d.client).isOk = true ↔ (f' now d'.client).isOk = true)) :
    (silently (Activity.attempt f)).Twins loose pre (silently (Activity.attempt f')) post := by
  refine ⟨fun now d d' hd => ?_⟩
  have hsame := hpre d d' hd
  have hboth := hisOk now d d' hd
  show Run.Twins loose post ((Activity.attempt f now d.client).within (·.client) setClient d)
    ((Activity.attempt f' now d'.client).within (·.client) setClient d')
  unfold Activity.attempt
  cases hf : f now d.client with
  | ok p =>
      cases hf' : f' now d'.client with
      | ok p' => exact .done (hok now d d' p p' hd hf hf')
      | error e' =>
          by_cases hl : loose
          · exact .right hl hsame
          · rw [hf, hf'] at hboth
            cases (hboth hl).mp rfl
  | error e =>
      cases hf' : f' now d'.client with
      | error e' => exact .fault hsame
      | ok p' =>
          by_cases hl : loose
          · exact .left hl hsame
          · rw [hf, hf'] at hboth
            cases (hboth hl).mpr rfl

/-- Work on the limits, put back into a diary. -/
def onLimits (r : Run Limiter α) (d : Diary) : Run Diary α :=
  (r.within (·.limiter) (fun c l => { c with limiter := l }) d.client).within (·.client) setClient d

theorem twins_onLimits {r : Run Limiter α} {i : Start Limiter}
    (hr : r.Meets Sleeping (fun _ _ _ _ => True) () i) {d d' : Diary} (hd : d.Alike d') :
    (onLimits r d).Twins loose (fun a b d d' => d.Alike d' ∧ a = b) (onLimits r d') := by
  have hput : ∀ (d d' : Diary) (l : Limiter), d.Alike d' →
      (d.setClient { d.client with limiter := l }).Alike
        (d'.setClient { d'.client with limiter := l }) :=
    fun d d' l hd => ⟨hd.same, rfl, hd.client.sessionEnd⟩
  induction r generalizing d d' i with
  | done l a => exact .done ⟨hput d d' l hd, rfl⟩
  | fault l f => exact .fault hd.same
  | stay l => exact absurd rfl hr.2
  | wait l w drop resume ih =>
      obtain ⟨_, ⟨hsleep, -⟩, -, hresume⟩ := hr
      have hw := hsleep w rfl
      cases w with
      | sleep span =>
          refine .sleep (hput d d' l hd) (fun _ => rfl) (fun _ => rfl) fun now d d' hd => ?_
          show Run.Twins loose _ (onLimits (resume () now d.client.limiter) d)
            (onLimits (resume () now d'.client.limiter) d')
          rw [← hd.client.limiter]
          exact ih () now d.client.limiter (hresume () now d.client.limiter) hd
      | _ => cases hw

/-- Where the limits agree, so do the waits for a turn under them. -/
theorem twins_acquire (endpoint : String) (user : Option String) :
    (silently (Client.acquire endpoint user)).Twins loose Diary.Alike
      (silently (Client.acquire endpoint user)) fun a b d d' => d.Alike d' ∧ a = b := by
  refine ⟨fun now d d' hd => ?_⟩
  show Run.Twins loose _ (onLimits (Limiter.acquire endpoint user now d.client.limiter) d)
    (onLimits (Limiter.acquire endpoint user now d'.client.limiter) d')
  rw [← hd.client.limiter]
  exact twins_onLimits (i := ⟨none, now, d.client.limiter⟩)
    ((Limiter.sleeping_acquire endpoint user).meets () ⟨none, now, d.client.limiter⟩ _ trivial) hd

end Activity

namespace Diary

variable {r r' : Request} {path : String}

/-! ## What a call tells -/

theorem twins_trackAuth (e : Event) :
    (trackAuth e).Twins loose Same (trackAuth e) fun _ _ => Same :=
  twins_done fun _ _ _ hd => ⟨_, _, _, _, rfl, rfl, congrArg (· ++ [Report.session e]) hd⟩

/-- Only whether the batcher can still keep the event may tell the clients apart. -/
theorem twins_trackRequest (e : Event) :
    (trackRequest e).Twins True Same (trackRequest e) fun _ _ => Same := by
  refine Twins.bind (q := fun _ _ => Same) (twins_done fun _ _ _ hd =>
    ⟨_, _, _, _, rfl, rfl, congrArg (· ++ [Report.request e]) hd⟩) fun _ _ => ?_
  exact twins_attempt (fun _ _ h => h) (fun _ _ _ _ _ h _ _ => h) fun _ _ _ _ h => (h trivial).elim

theorem failureEvent_eq (h : r.method = r'.method) (status : Option Nat) (elapsed : Span)
    (now : Instant) (e : ApiError) : Client.failureEvent r path status elapsed now e =
      Client.failureEvent r' path status elapsed now e := by
  rw [Client.failureEvent, Client.failureEvent, h]

theorem twins_reject (h : r.method = r'.method) (failure : LocalFailure) :
    (reject r path failure).Twins True Same (reject r' path failure)
      fun e e' d d' => Same d d' ∧ e = e' := by
  refine Twins.bind twins_now fun now now' => Twins.of_fact fun hnow => ?_
  subst hnow
  refine Twins.bind (twins_mute (mute_modify _) (mute_modify _)) fun _ _ => ?_
  rw [failureEvent_eq h]
  refine Twins.bind_mute (twins_trackRequest _) (fun _ _ => ?_) (fun _ => trivial)
    (fun _ _ => mute_pure _) fun _ _ => mute_pure _
  exact twins_pure fun _ _ hd => ⟨hd, rfl⟩

theorem twins_reportFailure (h : r.method = r'.method) (status : Option Nat) (elapsed : Span)
    (e : ApiError) : (reportFailure r path status elapsed e).Twins True Same
      (reportFailure r' path status elapsed e) fun _ _ => Same := by
  refine Twins.bind twins_now fun now now' => Twins.of_fact fun hnow => ?_
  subst hnow
  rw [failureEvent_eq h]
  exact Twins.ite (fun _ => twins_pure fun _ _ hd => hd) fun _ => twins_trackRequest _

/-- The failure of a call that is held back is reported elsewhere. -/
theorem mute_reportFailure {e : ApiError} (he : e.kind = .rateLimit) (r : Request) (path : String)
    (status : Option Nat) (elapsed : Span) : (reportFailure r path status elapsed e).Mute := by
  refine Mute.bind mute_now fun now => ?_
  rw [he]
  exact mute_pure _

theorem kind_classify {response : Response} (h : response.status = 429) (now : Instant) :
    (classify (.response response) now).kind = .rateLimit := by
  rw [classify]
  dsimp only
  rw [if_pos h]
  rfl

/-- Only the answer to too many calls is reported as a call. -/
theorem twins_heedStatus (h : r.method = r'.method) (response : Response) (elapsed : Span) :
    (heedStatus r path response elapsed).Twins (response.status = 429) Same
      (heedStatus r' path response elapsed) fun _ _ => Same := by
  refine Twins.bind twins_now fun now now' => Twins.of_fact fun hnow => ?_
  subst hnow
  rw [h]
  refine Twins.ite (fun _ => Twins.ite (fun _ => ?_) fun _ => twins_pure fun _ _ hd => hd)
    fun _ => Twins.ite (fun _ => twins_trackAuth _) fun _ => Twins.ite (fun h429 => ?_)
      fun _ => twins_pure fun _ _ hd => hd
  · refine Twins.bind (twins_mute (mute_modify _) (mute_modify _)) fun _ _ => ?_
    refine Twins.bind (twins_mute (mute_modify _) (mute_modify _)) fun _ _ => ?_
    exact twins_trackAuth _
  · exact (twins_trackRequest _).conseq (fun _ _ h => h) (fun _ => h429) fun _ _ _ _ h => h

theorem twins_await (q q' : Request) :
    (Activity.await (.call q) : Activity Diary TransportOutcome).Twins loose Same
      (Activity.await (.call q')) fun o o' d d' => Same d d' ∧ o = o' :=
  ⟨fun _ _ _ hd => .call hd (fun _ => rfl) (fun _ => rfl) fun _ _ _ _ hd => .done ⟨hd, rfl⟩⟩

theorem twins_exchange (h : r.Blurred r') :
    (exchange r path).Twins True Same (exchange r' path) fun _ _ => Same := by
  refine Twins.bind (twins_await r r') fun outcome outcome' => Twins.of_fact fun hout => ?_
  subst hout
  refine Twins.bind twins_now fun now now' => Twins.of_fact fun hnow => ?_
  subst hnow
  refine Twins.bind (q := fun s s' d d' => Same d d' ∧ s = s') (twins_attempt (fun _ _ h => h)
    (fun now d d' p p' hd hp hp' => ?_) fun now _ _ _ _ => ?_) fun elapsed elapsed' =>
      Twins.of_fact fun hel => ?_
  · rw [h.elapsed] at hp
    obtain ⟨s, hs, rfl⟩ := ok_of_bind hp
    obtain ⟨s', hs', rfl⟩ := ok_of_bind hp'
    rw [hs] at hs'
    obtain rfl := Except.ok.inj hs'
    exact ⟨hd, rfl⟩
  · rw [h.elapsed]
    cases r'.elapsed now with
    | ok s => exact Iff.rfl
    | error e => exact Iff.rfl
  subst hel
  cases outcome with
  | error failure =>
      refine Twins.bind_mute (twins_reportFailure h.method _ _ _) (fun _ _ => ?_)
        (fun _ => trivial) (fun _ _ => mute_pure _) fun _ _ => mute_pure _
      exact twins_pure fun _ _ hd => hd
  | ok response =>
      refine Twins.bind (twins_mute (mute_modify _) (mute_modify _)) fun _ _ => ?_
      rw [h.method]
      refine Twins.ite (fun _ => Twins.ite (fun _ => ?_) fun _ => twins_pure fun _ _ hd => hd)
        fun _ => ?_
      · refine Twins.bind_mute (twins_trackRequest _) (fun _ _ => ?_) (fun _ => trivial)
          (fun _ _ => mute_pure _) fun _ _ => mute_pure _
        exact twins_pure fun _ _ hd => hd
      · have hmute : ∀ q : Request, response.status = 429 → ∀ _ : Unit, (do
            reportFailure q path (some response.status) elapsed
              (classify (.response response) now)
            return .error (classify (.response response) now) : Activity Diary CallResult).Mute :=
          fun q h429 _ => Mute.bind (mute_reportFailure (kind_classify h429 now) _ _ _ _)
            fun _ => mute_pure _
        refine Twins.bind_mute (twins_heedStatus h.method _ _) (fun _ _ => ?_) (fun _ => trivial)
          (hmute r) (hmute r')
        refine Twins.bind_mute (twins_reportFailure h.method _ _ _) (fun _ _ => ?_)
          (fun _ => trivial) (fun _ _ => mute_pure _) fun _ _ => mute_pure _
        exact twins_pure fun _ _ hd => hd

theorem twins_authorize (h : r.Blurred r') (started : Instant) :
    (authorize r path started).Twins True Diary.Alike (authorize r' path started)
      fun _ _ => Same := by
  refine Twins.ite (fun _ => ?_) fun _ =>
    (twins_exchange h).conseq (fun _ _ hd => hd.same) id fun _ _ _ _ h => h
  refine Twins.bind (q := fun t t' d d' => Same d d' ∧ t.isSome = t'.isSome)
    (twins_step fun now d d' hd => ⟨hd.same, ?_⟩) fun token token' => Twins.of_fact fun htoken => ?_
  · refine Bool.eq_iff_iff.mpr ?_
    rw [Tabs.isSome_token, Tabs.isSome_token, hd.client.sessionEnd]
  cases token with
  | none =>
      cases token' with
      | some token' => cases htoken
      | none =>
          refine Twins.bind_mute (twins_reject h.method _) (fun e e' => ?_) (fun _ => trivial)
            (fun _ _ => mute_pure _) fun _ _ => mute_pure _
          exact twins_pure fun _ _ hd => hd.1
  | some token =>
      cases token' with
      | none => cases htoken
      | some token' =>
          refine Twins.bind (twins_trackAuth _) fun _ _ => ?_
          exact twins_exchange (h.setHeader (by decide) _ _)

theorem twins_remainingWait (endpoint : String) (user : Option String) :
    (silently (Client.remainingWait endpoint user)).Twins loose Diary.Alike
      (silently (Client.remainingWait endpoint user)) fun a b d d' => Same d d' ∧ a = b := by
  refine twins_attempt (fun _ _ hd => hd.same) (fun now d d' p p' hd hp hp' => ?_)
    fun now d d' hd _ => ?_
  · rw [hd.client.limiter] at hp
    obtain ⟨s, hs, rfl⟩ := ok_of_bind hp
    obtain ⟨s', hs', rfl⟩ := ok_of_bind hp'
    rw [hs] at hs'
    obtain rfl := Except.ok.inj hs'
    exact ⟨hd.same, rfl⟩
  · rw [hd.client.limiter]
    cases d'.client.limiter.remainingWait endpoint user now with
    | ok s => exact Iff.rfl
    | error e => exact Iff.rfl

theorem twins_dispatch (hmethod : r.method = r'.method)
    (hpath : Route.normalize r.path = Route.normalize r'.path) :
    (dispatch r).Twins True Diary.Alike (dispatch r') fun _ _ => Same := by
  refine Twins.bind twins_now fun now now' => Twins.of_fact fun hnow => ?_
  subst hnow
  rw [hpath]
  refine Twins.bind (q := fun q q' d d' => d.Alike d' ∧ q.Blurred q') (twins_step
    fun now d d' hd => ⟨⟨hd.same, hd.client.limiter, hd.client.sessionEnd⟩,
      Request.blurred_prepare hmethod d.client d'.client now⟩) fun q q' => ?_
  refine Twins.of_fact fun hq => ?_
  refine Twins.ite (fun _ => ?_) fun _ => twins_authorize hq _
  refine Twins.bind (twins_acquire _ _) fun granted granted' => Twins.of_fact fun hgranted => ?_
  subst hgranted
  refine Twins.ite (fun _ => twins_authorize hq _) fun _ => ?_
  refine Twins.bind (twins_remainingWait _ _) fun wait wait' => Twins.of_fact fun hwait => ?_
  subst hwait
  refine Twins.bind_mute (twins_reject hq.method _) (fun e e' => ?_) (fun _ => trivial)
    (fun _ _ => mute_pure _) fun _ _ => mute_pure _
  exact twins_pure fun _ _ hd => hd.1

/-- What is left to do when the call has been dispatched tells nothing. -/
theorem mute_settle (outcome : CallResult) : (do
    match outcome with
    | .ok response =>
      silently (modify (·.count .success))
      return .ok response
    | .error e =>
      silently (modify (·.count .failure))
      silently (Activity.change fun now c =>
        let c := { c with counts := { c.counts with failures := c.counts.failures + 1 } }
        if c.announces then c.announce ⟨e.kind, e.userMessage⟩ now else c)
      return .error e : Activity Diary CallResult).Mute := by
  cases outcome with
  | ok response => exact Mute.bind (mute_modify _) fun _ => mute_pure _
  | error e =>
      refine Mute.bind (mute_modify _) fun _ => Mute.bind (mute_change _) fun _ => mute_pure _

/-- Two calls on one route tell the batcher the same. -/
theorem twins_send (hmethod : r.method = r'.method)
    (hpath : Route.normalize r.path = Route.normalize r'.path) :
    (send r).Twins True Diary.Alike (send r') fun _ _ => Same := by
  refine Twins.bind (q := fun _ _ => Diary.Alike)
    (twins_modify fun _ _ hd => ⟨hd.same, hd.client.limiter, hd.client.sessionEnd⟩) fun _ _ => ?_
  refine Twins.bind_mute (twins_dispatch hmethod hpath) (fun outcome outcome' => ?_)
    (fun _ => trivial) (fun _ => mute_settle) fun _ => mute_settle
  exact twins_mute (mute_settle outcome) (mute_settle outcome')

/-- Calls by clients that are alike, with requests for one route, tell their batchers the same at
every point, whatever happens to both. -/
theorem tells_whatever_is_sent {c c' : Client} (hlike : c.Like c') (hmethod : r.method = r'.method)
    (hpath : Route.normalize r.path = Route.normalize r'.path) (told : List Report)
    (now : Instant) : Keeps (send r) (Client.send r) ∧ Keeps (send r') (Client.send r') ∧
      (send r now ⟨c, told⟩).Twins True (fun _ _ => Same) (send r' now ⟨c', told⟩) ∧
      ∀ script, ((send r now ⟨c, told⟩).follow now (answersOf script)).2.1.state.told =
        ((send r' now ⟨c', told⟩).follow now (answersOf script)).2.1.state.told := by
  have htwins := (twins_send hmethod hpath).runs now ⟨c, told⟩ ⟨c', told⟩ ⟨rfl, hlike⟩
  refine ⟨keeps_send r, keeps_send r', htwins, fun script => ?_⟩
  exact (htwins.follow now script).same fun _ _ _ _ h => h

/-- The plain client with a token that it will have for an hour. -/
def signedIn (token : String) : Client :=
  { Client.plain with tabs :=
    (Client.plain.tabs.install 0 ⟨token⟩ (some ⟨1748782800000000000⟩)).2 }

theorem like_signedIn : (signedIn "t1").Like (signedIn "t2") :=
  ⟨rfl, by decide +kernel⟩

/-- When that hour begins. -/
def noon : Instant := ⟨1748779200000000000⟩

/-- A search, and a bookmark on its route. -/
def search : Request := ⟨.get, "/words?q=lost", .ofPairs [("x-note", "a")], none⟩
def bookmark : Request := .new .get "/words/#top"

theorem tells_whatever_is_searched : (signedIn "t1").Like (signedIn "t2") ∧
    search.method = bookmark.method ∧
    Route.normalize search.path = Route.normalize bookmark.path ∧
    ∀ script,
      ((send search noon ⟨signedIn "t1", []⟩).follow noon (answersOf script)).2.1.state.told =
        ((send bookmark noon ⟨signedIn "t2", []⟩).follow noon
          (answersOf script)).2.1.state.told := by
  have hmethod : search.method = bookmark.method := rfl
  have hpath : Route.normalize search.path = Route.normalize bookmark.path := by decide +kernel
  have hsame := tells_whatever_is_sent like_signedIn hmethod hpath [] noon
  exact ⟨like_signedIn, hmethod, hpath, hsame.2.2.2⟩

end Diary

end ClientSession
