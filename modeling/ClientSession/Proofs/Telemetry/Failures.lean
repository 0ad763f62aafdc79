import ClientSession.Proofs.Http.Routing
import ClientSession.Proofs.Telemetry.Discretion

/-!
# What is reported of a failed call

A call that fails has told its batcher so: of a refused token the session is told, of a forbidden
call the session and the call, of every other failure the call, and of no failure two calls. The one
failure that nobody is told of is a refused token on a route that needs none, which is taken for
reported with the session although the session goes on.

- `Run.Path.lift`: what is written down beside the state of a run is so along its paths.
- `Diary.Gains`: what a diary has got in the meantime, but for reports of what went well.
- `Diary.Accounts`: what is asked of the reports of a failed call.
- `Diary.reported_iff`: the failures of calls that are reported.
-/

namespace ClientSession

open Activity

/-! ## Beside a path -/

section Beside

variable {σ τ α : Type} {get : τ → σ} {between : σ → σ → Prop}

/-- The halt as a part finds it. -/
def Halt.of (get : τ → σ) (x : Halt τ) : Halt σ := ⟨get x.left, x.cue, x.now, get x.found⟩

/-- Something happens to a part, which is found in its place in the whole. -/
def Beside (get : τ → σ) (find : τ → σ → τ) (between : σ → σ → Prop) (t t' : τ) : Prop :=
  ∃ s, between (get t) s ∧ t' = find t s

/-- What is written down beside the state of a run is so along its paths. -/
theorem Run.Path.lift (find : τ → σ → τ) (hfind : ∀ t s, get (find t s) = s)
    {r r' : Run σ α} {now last : Instant} {hs : List (Halt σ)}
    (h : Run.Path between r now hs r' last) {x : Run τ α} (hx : x.ErasesTo get r) :
    ∃ hs' x', Run.Path (Beside get find between) x now hs' x' last ∧
      hs'.map (Halt.of get) = hs ∧ x'.ErasesTo get r' := by
  induction hs generalizing r x now with
  | nil =>
      cases h
      exact ⟨[], x, .here, rfl, hx⟩
  | cons y hs ih =>
      cases h with
      | @on s c w drop resume _ now _ a _ _ hb h =>
          cases x with
          | done t b => cases hx
          | fault t e => cases hx
          | stay t => cases hx
          | wait t w' drop' resume' =>
              obtain ⟨_, _, heq, -, hresume⟩ := hx
              cases heq
              have hnext : (resume' a now (find t c)).ErasesTo get (resume a now c) := by
                have hmid := hresume a now (find t c)
                rwa [hfind] at hmid
              obtain ⟨hs', x', hpath, rfl, hx'⟩ := ih h hnext
              refine ⟨_, x', .on ⟨c, hb, rfl⟩ hpath, ?_, hx'⟩
              rw [List.map_cons, Halt.of, hfind]

end Beside

/-! ## Reports -/

namespace Report

def event : Report → Event
  | .session e => e
  | .request e => e

/-- It tells of a call that failed. -/
def isFailedCall : Report → Bool
  | .session _ => false
  | .request e => !e.success

/-- It tells of a failure and names the path, as an address or in a tag. -/
def Blames (path : String) (report : Report) : Prop :=
  report.event.success = false ∧
    (report.event.name = path ∨ ∃ tag, report.event.tags.find? tag = some path)

end Report

theorem Event.find?_withTag (e : Event) (key value : String) :
    (e.withTag key value).tags.find? key = some value := by
  rw [Event.withTag, Table.find?_insert, if_pos rfl]

theorem Client.blames_failureEvent (r : Request) (path : String) (status : Option Nat)
    (elapsed : Span) (now : Instant) (e : ApiError) :
    (Report.request (Client.failureEvent r path status elapsed now e)).Blames path :=
  ⟨rfl, .inl rfl⟩

theorem Client.blames_denialEvent (path : String) (response : Response) (now : Instant) :
    (Report.session (Client.denialEvent path response now)).Blames path := by
  unfold Client.denialEvent
  dsimp only
  split
  · refine ⟨rfl, .inr ⟨"resource", ?_⟩⟩
    show (Event.withTag _ "required_permission" _).tags.find? "resource" = some path
    rw [Event.withTag, Table.find?_insert, if_neg (by decide), Event.find?_withTag]
  · exact ⟨rfl, .inr ⟨"resource", Event.find?_withTag _ _ _⟩⟩

/-- The failure is a refused token on a route that needs none. -/
def ApiError.RefusesNeedless (path : String) (e : ApiError) : Prop :=
  ∃ response, e.raw = .response response ∧ response.status = 401 ∧
    Route.requiresAuth path = false

namespace Diary

variable {α : Type} {d d' d'' : Diary} {l l' : List Report} {report : Report} {path : String}
  {e : ApiError}

/-- What is asked of the reports of a failed call: one of them blames the path, unless a token was
refused that was not needed, and there are no two of calls that failed. -/
structure Accounts (path : String) (e : ApiError) (l : List Report) : Prop where
  blames : (∃ report ∈ l, report.Blames path) ↔ ¬e.RefusesNeedless path
  once : l.countP (·.isFailedCall) ≤ 1

/-- Reports of what went well do not matter. -/
theorem Accounts.append (h : Accounts path e l) {fine : List Report}
    (hfine : ∀ report ∈ fine, report.event.success = true) : Accounts path e (fine ++ l) where
  blames := by
    rw [← h.blames]
    constructor
    · rintro ⟨report, hmem, hblames⟩
      rcases List.mem_append.mp hmem with hmem | hmem
      · exact absurd (hfine report hmem) (Bool.eq_false_iff.mp hblames.1)
      · exact ⟨report, hmem, hblames⟩
    · rintro ⟨report, hmem, hblames⟩
      exact ⟨report, List.mem_append_right _ hmem, hblames⟩
  once := by
    have hnone : fine.countP (·.isFailedCall) = 0 := by
      rw [List.countP_eq_zero]
      intro report hmem
      have hsuccess := hfine report hmem
      cases report with
      | session e => exact Bool.false_ne_true
      | request e =>
          have hsuccess : e.success = true := hsuccess
          simp [Report.isFailedCall, hsuccess]
    rw [List.countP_append, hnone, Nat.zero_add]
    exact h.once

/-- A failure is accounted for by one report, but for a token that was not needed. -/
theorem accounts_singleton (hblames : report.Blames path) (he : ¬e.RefusesNeedless path) :
    Accounts path e [report] where
  blames := iff_of_true ⟨report, List.mem_singleton_self _, hblames⟩ he
  once := List.countP_le_length

/-! ## What is told of an answer -/

/-- What is told of a failed call, unless its kind or its route is reported otherwise. -/
def failureReports (r : Request) (path : String) (status : Option Nat) (elapsed : Span)
    (now : Instant) (e : ApiError) : List Report :=
  if e.kind = .auth || e.kind = .rateLimit || Route.isReportingExcluded path then []
  else [.request (Client.failureEvent r path status elapsed now e)]

/-- What is told of the status of a failed call. -/
def statusReports (r : Request) (path : String) (response : Response) (elapsed : Span)
    (now : Instant) : List Report :=
  if response.status = 401 then
    if Route.requiresAuth path then
      [.session ((Event.auth "session_expired" false now).withTag "path" path)]
    else []
  else if response.status = 403 then [.session (Client.denialEvent path response now)]
  else if response.status = 429 then
    [.request (((Event.request r.method.name path (some 429) elapsed now).withError
      "rate_limited").withTag "kind" FailureKind.rateLimit.label)]
  else []

theorem kind_of_response (response : Response) (now : Instant) :
    (classify (.response response) now).kind =
      if response.status = 429 then .rateLimit
      else if response.status = 401 then .auth
      else (kindOfStatus response.status).1 := by
  rw [classify]
  dsimp only
  split
  · rfl
  · split <;> rfl

theorem kindOfStatus_ne (status : Nat) :
    (kindOfStatus status).1 ≠ .auth ∧ (kindOfStatus status).1 ≠ .rateLimit := by
  unfold kindOfStatus
  split
  · decide
  · split
    · decide
    · split <;> decide

theorem not_refusesNeedless {cause : RawFailure} {now : Instant}
    (h : ∀ response, cause ≠ .response response) : ¬(classify cause now).RefusesNeedless path := by
  rintro ⟨response, hraw, -⟩
  rw [raw_classify] at hraw
  exact h response hraw

theorem refusesNeedless_iff (response : Response) (now : Instant) :
    (classify (.response response) now).RefusesNeedless path ↔
      response.status = 401 ∧ Route.requiresAuth path = false := by
  rw [ApiError.RefusesNeedless, raw_classify]
  constructor
  · rintro ⟨_, heq, h⟩
    cases heq
    exact h
  · exact fun h => ⟨response, rfl, h⟩

/-- Where a call is reported, a failure without an answer is. -/
theorem accounts_failure (hroute : Route.isReportingExcluded path = false) (r : Request)
    (failure : TransportFailure) (elapsed : Span) (now now' : Instant) :
    Accounts path (classify (.transport failure) now)
      (failureReports r path none elapsed now' (classify (.transport failure) now)) := by
  have hkind : (classify (.transport failure) now).kind = .timeout ∨
      (classify (.transport failure) now).kind = .network := by
    rw [classify]
    split
    · exact .inl rfl
    · exact .inr rfl
  have hreports : failureReports r path none elapsed now' (classify (.transport failure) now) =
      [.request (Client.failureEvent r path none elapsed now'
        (classify (.transport failure) now))] := by
    rw [failureReports, hroute]
    rcases hkind with hkind | hkind
    · rw [hkind]
      rfl
    · rw [hkind]
      rfl
  rw [hreports]
  exact accounts_singleton (Client.blames_failureEvent _ _ _ _ _ _)
    (not_refusesNeedless fun _ h => RawFailure.noConfusion h)

/-- A refused token is told of with the session, if the route needs one. -/
theorem accounts_refused (r : Request) {response : Response} (h : response.status = 401)
    (elapsed : Span) (now now' : Instant) :
    Accounts path (classify (.response response) now)
      (statusReports r path response elapsed now') := by
  rw [statusReports, if_pos h]
  cases hauth : Route.requiresAuth path with
  | true =>
      refine accounts_singleton ⟨rfl, .inr ⟨"path", Event.find?_withTag _ _ _⟩⟩ ?_
      rw [refusesNeedless_iff, hauth]
      exact fun hneedless => Bool.false_ne_true hneedless.2.symm
  | false =>
      have hneedless := (refusesNeedless_iff response now).mpr ⟨h, hauth⟩
      refine ⟨iff_of_false ?_ (not_not_intro hneedless), Nat.zero_le 1⟩
      rintro ⟨_, hmem, -⟩
      exact List.not_mem_nil hmem

/-- Where a call is reported, an answer that is a failure is, unless it is about a token that was
not needed. -/
theorem accounts_answer (hroute : Route.isReportingExcluded path = false) (r : Request)
    (response : Response) (elapsed : Span) (now now' now'' : Instant) :
    Accounts path (classify (.response response) now)
      (statusReports r path response elapsed now' ++ failureReports r path (some response.status)
        elapsed now'' (classify (.response response) now)) := by
  rw [failureReports, hroute, kind_of_response]
  by_cases h401 : response.status = 401
  · have h429 : response.status ≠ 429 := by omega
    simp only [if_pos h401, if_neg h429, decide_true, Bool.true_or, if_true, List.append_nil]
    exact accounts_refused r h401 elapsed now now'
  · have hneeded : ¬(classify (.response response) now).RefusesNeedless path :=
      fun h => h401 ((refusesNeedless_iff response now).mp h).1
    rw [statusReports, if_neg h401]
    by_cases h429 : response.status = 429
    · have h403 : response.status ≠ 403 := by omega
      simp only [if_neg h403, if_pos h429, decide_true, Bool.or_true, Bool.true_or, if_true,
        List.append_nil]
      exact accounts_singleton ⟨rfl, .inl rfl⟩ hneeded
    · obtain ⟨hauth, hlimit⟩ := kindOfStatus_ne response.status
      simp only [if_neg h401, if_neg h429, hauth, hlimit, decide_false, Bool.or_false,
        Bool.false_eq_true, if_false]
      by_cases h403 : response.status = 403
      · -- A forbidden call is told of twice, but only once as a call.
        rw [if_pos h403]
        exact ⟨iff_of_true ⟨_, List.mem_cons_self, Client.blames_denialEvent _ _ _⟩ hneeded,
          Nat.le_refl 1⟩
      · rw [if_neg h403, List.nil_append]
        exact accounts_singleton (Client.blames_failureEvent _ _ _ _ _ _) hneeded

/-! ## What a call tells -/

/-- The other diary has got reports of what went well, and then these. -/
def Gains (l : List Report) (d d' : Diary) : Prop :=
  ∃ fine : List Report, (∀ report ∈ fine, report.event.success = true) ∧
    d'.told = d.told ++ (fine ++ l)

protected theorem Gains.refl (d : Diary) : Gains [] d d :=
  ⟨[], fun _ h => absurd h List.not_mem_nil, (List.append_nil _).symm⟩

theorem Gains.trans (h : Gains [] d d') (h' : Gains l d' d'') : Gains l d d'' := by
  obtain ⟨fine, hfine, heq⟩ := h
  obtain ⟨fine', hfine', heq'⟩ := h'
  refine ⟨fine ++ fine', fun report hmem => ?_, ?_⟩
  · exact (List.mem_append.mp hmem).elim (hfine report) (hfine' report)
  · rw [heq', heq, List.append_nil, List.append_assoc, List.append_assoc]

theorem Gains.note (h : Gains l d d') (report : Report) :
    Gains (l ++ [report]) d (d'.note report) := by
  obtain ⟨fine, hfine, heq⟩ := h
  refine ⟨fine, hfine, ?_⟩
  rw [Diary.note, heq, List.append_assoc, List.append_assoc]

/-- A report of what went well does not count. -/
theorem Gains.note_fine (h : Gains [] d d') (hreport : report.event.success = true) :
    Gains [] d (d'.note report) := by
  obtain ⟨fine, hfine, heq⟩ := h.note report
  refine ⟨fine ++ [report], fun r hmem => ?_, ?_⟩
  · rcases List.mem_append.mp hmem with hmem | hmem
    · exact hfine r hmem
    · rw [List.mem_singleton.mp hmem]
      exact hreport
  · rw [heq, List.nil_append, List.append_nil]

/-- A stretch that is not the last tells of nothing that went wrong. -/
def Patient : Pact Unit Diary := fun _ i p d _ => ∀ w, p = .waits w → Gains [] i.state d

/-- So far these have been told, and what went well. -/
abbrev Since (l : List Report) : Unit → Start Diary → Diary → Prop := fun _ i d => Gains l i.state d

/-- Nothing has gone wrong, or the call has failed and these are its reports. -/
def Settled (path : String) : Unit → Start Diary → CallResult → Diary → Prop
  | _, _, .ok _, _ => True
  | _, i, .error e, d => ∃ l, Gains l i.state d ∧ Accounts path e l

theorem maintains_silently (x : Activity Client α) : Maintains Patient (Since []) (silently x) := by
  have hput : ∀ (d d' : Diary) (c : Client), Gains [] d d' → Gains [] d (d'.setClient c) :=
    fun _ _ _ h => h
  have hmoves : Moves (fun _ => True) (Gains []) (silently x) := moves_within Gains.refl hput x
  exact ⟨fun m i d h => (hmoves.meets m i d h).mono (fun _ _ _ _ _ hp _ _ => hp.2)
    fun _ _ _ _ hq => hq⟩

/-- What is done at once tells nothing. -/
theorem maintains_modify (f : Client → Client) :
    Maintains Patient (Since l) (silently (modify f)) :=
  triple_silently_modify fun _ _ _ h => h

theorem triple_trackAuth (event : Event) :
    Triple Patient (Since l) (trackAuth event) fun m i _ d => Since (l ++ [.session event]) m i d :=
  Triple.bind (M := fun m i _ d => Since (l ++ [.session event]) m i d)
    (triple_modify fun _ _ _ h => h.note _) fun _ => triple_silently_modify fun _ _ _ h => h

theorem triple_trackRequest (event : Event) :
    Triple Patient (Since l) (trackRequest event)
      fun m i _ d => Since (l ++ [.request event]) m i d :=
  Triple.bind (M := fun m i _ d => Since (l ++ [.request event]) m i d)
    (triple_modify fun _ _ _ h => h.note _) fun _ =>
      triple_silently_attempt (fun _ _ _ _ _ _ => nofun) fun _ _ _ _ h _ => h

/-- What went well may be told at any time. -/
theorem maintains_trackAuth {event : Event} (h : event.success = true) :
    Maintains Patient (Since []) (trackAuth event) :=
  Triple.bind (M := fun m i _ d => Since [] m i d) (triple_modify fun _ _ _ hd => hd.note_fine h)
    fun _ => triple_silently_modify fun _ _ _ h => h

theorem settled_reject (r : Request) (failure : LocalFailure) :
    Triple Patient (Since []) (reject r path failure)
      fun m i e d => Settled path m i (.error e) d := by
  refine Triple.bind maintains_now fun now => Triple.bind (maintains_modify _) fun _ =>
    Triple.bind (triple_trackRequest _) fun _ => triple_pure fun _ i d h => ⟨_, h, ?_⟩
  exact accounts_singleton ⟨rfl, .inl rfl⟩ (not_refusesNeedless fun _ h => RawFailure.noConfusion h)

theorem triple_reportFailure (r : Request) (status : Option Nat) (elapsed : Span) (e : ApiError) :
    Triple Patient (Since l) (reportFailure r path status elapsed e)
      fun m i _ d => ∃ now, Since (l ++ failureReports r path status elapsed now e) m i d := by
  refine Triple.bind maintains_now fun now => Triple.ite (fun hexcluded => ?_) fun hreported => ?_
  · refine triple_pure fun _ i d h => ⟨now, ?_⟩
    rw [failureReports, if_pos hexcluded, List.append_nil]
    exact h
  · refine (triple_trackRequest _).conseq (fun _ _ _ h => h) fun _ i _ d h => ⟨now, ?_⟩
    rw [failureReports, if_neg hreported]
    exact h

theorem triple_heedStatus (r : Request) (response : Response) (elapsed : Span) :
    Triple Patient (Since []) (heedStatus r path response elapsed)
      fun m i _ d => ∃ now, Since (statusReports r path response elapsed now) m i d := by
  refine Triple.bind maintains_now fun now => Triple.ite (fun h401 => Triple.ite (fun hauth => ?_)
    fun hauth => ?_) fun h401 => Triple.ite (fun h403 => ?_) fun h403 => Triple.ite (fun h429 => ?_)
      fun h429 => ?_
  · refine Triple.bind (maintains_modify _) fun _ => Triple.bind (maintains_modify _) fun _ =>
      (triple_trackAuth _).conseq (fun _ _ _ h => h) fun _ i _ d h => ⟨now, ?_⟩
    rw [statusReports, if_pos h401, if_pos hauth]
    exact h
  · refine triple_pure fun _ i d h => ⟨now, ?_⟩
    rw [statusReports, if_pos h401, if_neg hauth]
    exact h
  · refine (triple_trackAuth _).conseq (fun _ _ _ h => h) fun _ i _ d h => ⟨now, ?_⟩
    rw [statusReports, if_neg h401, if_pos h403]
    exact h
  · refine (triple_trackRequest _).conseq (fun _ _ _ h => h) fun _ i _ d h => ⟨now, ?_⟩
    rw [statusReports, if_neg h401, if_neg h403, if_pos h429]
    exact h
  · refine triple_pure fun _ i d h => ⟨now, ?_⟩
    rw [statusReports, if_neg h401, if_neg h403, if_neg h429]
    exact h

section Calls

variable (hroute : Route.isReportingExcluded path = false)
include hroute

theorem settled_exchange (r : Request) :
    Triple Patient (Since []) (exchange r path) (Settled path) := by
  refine Triple.bind (M := fun m i _ d => Since [] m i d)
    (triple_await fun _ _ d h => ⟨(), fun _ _ => h, fun _ _ _ => nofun,
      fun _ _ d => Gains.refl d⟩) fun outcome => ?_
  refine Triple.bind maintains_now fun now => Triple.bind (maintains_silently _) fun elapsed => ?_
  cases outcome with
  | error failure =>
      refine Triple.bind (triple_reportFailure r none elapsed _) fun _ =>
        triple_pure fun _ i d h => ?_
      obtain ⟨now', h⟩ := h
      exact ⟨_, h, accounts_failure hroute r failure elapsed now now'⟩
  | ok response =>
      refine Triple.bind (maintains_modify _) fun _ => Triple.ite (fun _ => ?_) fun _ => ?_
      · refine Triple.ite (fun _ => ?_) fun _ => triple_pure fun _ _ _ _ => trivial
        exact Triple.bind (triple_trackRequest _) fun _ => triple_pure fun _ _ _ _ => trivial
      · refine Triple.bind (triple_heedStatus r response elapsed) fun _ =>
          Triple.of_exists fun now' => Triple.bind (triple_reportFailure r _ elapsed _) fun _ =>
            triple_pure fun _ i d h => ?_
        obtain ⟨now'', h⟩ := h
        exact ⟨_, h, accounts_answer hroute r response elapsed now now' now''⟩

theorem settled_authorize (r : Request) (started : Instant) :
    Triple Patient (Since []) (authorize r path started) (Settled path) := by
  refine Triple.ite (fun _ => Triple.bind (maintains_silently _) fun token => ?_)
    fun _ => settled_exchange hroute r
  cases token with
  | none => exact (settled_reject r .missingToken).map
  | some token =>
      exact Triple.bind (maintains_trackAuth rfl) fun _ => settled_exchange hroute _

end Calls

/-- What a route needs is decided on its normal form. -/
theorem refusesNeedless_normalize {request : Request} :
    e.RefusesNeedless (Route.normalize request.path) ↔ e.RefusesNeedless request.path := by
  rw [ApiError.RefusesNeedless, ApiError.RefusesNeedless, Route.requiresAuth_normalize]

theorem settled_dispatch {request : Request}
    (hroute : Route.isReportingExcluded request.path = false) :
    Triple Patient (Since []) (dispatch request) (Settled (Route.normalize request.path)) := by
  have hnormal : Route.isReportingExcluded (Route.normalize request.path) = false := by
    rw [Route.isReportingExcluded, Route.normalize_normalize]
    exact hroute
  refine Triple.bind maintains_now fun started => Triple.bind (maintains_silently _) fun r =>
    Triple.ite (fun _ => ?_) fun _ => settled_authorize hnormal r started
  refine Triple.bind (maintains_silently _) fun granted => Triple.ite (fun _ => ?_) fun _ => ?_
  · exact settled_authorize hnormal r started
  · exact Triple.bind (maintains_silently _) fun wait => (settled_reject r (.rateLimited wait)).map

theorem settled_send {request : Request}
    (hroute : Route.isReportingExcluded request.path = false) :
    Triple Patient (Since []) (send request) (Settled (Route.normalize request.path)) := by
  refine Triple.bind (maintains_modify _) fun _ => Triple.bind (settled_dispatch hroute)
    fun outcome => ?_
  cases outcome with
  | ok response =>
      exact Triple.bind (M := fun _ _ _ _ => True) (triple_silently_modify fun _ _ _ _ => trivial)
        fun _ => triple_pure fun _ _ _ _ => trivial
  | error e =>
      have hkept : ∀ {m i d} {c : Client}, Settled (Route.normalize request.path) m i (.error e) d →
          Settled (Route.normalize request.path) m i (.error e) (d.setClient c) := fun h => h
      refine Triple.bind (M := fun m i _ d => Settled _ m i (.error e) d)
        (triple_silently_modify fun _ _ _ h => hkept h) fun _ =>
          Triple.bind (M := fun m i _ d => Settled _ m i (.error e) d) ⟨fun _ _ _ h => hkept h⟩
            fun _ => triple_pure fun _ _ _ h => h

/-! ## Whole calls -/

section Paths

variable {between : Client → Client → Prop} {now last : Instant}

/-- A diary is kept along every path. -/
theorem Keeps.along {x : Activity Diary α} {y : Activity Client α} (h : Keeps x y) {c c' : Client}
    {hs : List (Halt Client)} {a : α} (hy : Run.Path between (y now c) now hs (.done c' a) last) :
    ∃ hs' l, hs'.map (Halt.of (·.client)) = hs ∧
      Run.Path (Beside (·.client) setClient between) (x now ⟨c, []⟩) now hs' (.done ⟨c', l⟩ a)
        last := by
  obtain ⟨hs', r, hpath, hhalts, hr⟩ := hy.lift setClient (fun _ _ => rfl)
    (h.erases.runs now ⟨c, []⟩)
  cases r with
  | done d b =>
      cases hr
      exact ⟨hs', d.told, hhalts, hpath⟩
  | fault d f => cases hr
  | stay d => cases hr
  | wait d w drop resume =>
      obtain ⟨_, _, heq, -⟩ := hr
      cases heq

/-- Along a path of a call that is patient the reports of the last stretch are those that count. -/
theorem gains_of_path {x : Activity Diary CallResult}
    (hx : Triple Patient (Since []) x (Settled path)) {hs : List (Halt Diary)}
    (h : Run.Path (Beside (·.client) setClient between) (x now d) now hs (.done d' (.error e))
      last) :
    ∃ l, Gains l d d' ∧ Accounts path e l := by
  have hwaits : ∀ m i w u m' v v', Patient m i (.waits w) u m' →
      Beside (·.client) setClient between u v → Gains [] v v' → Gains [] i.state v' := by
    rintro _ i w u _ _ v' hwaits ⟨c, -, rfl⟩ hv
    exact (hwaits w rfl).trans hv
  obtain ⟨_, i, -, hfine, l, hgains, haccounts⟩ := h.arrive (i := ⟨none, now, d⟩) Gains.refl hwaits
    (hx.meets () ⟨none, now, d⟩ d (Gains.refl d))
  exact ⟨l, hfine.trans hgains, haccounts⟩

end Paths

/-- A failed call has told its batcher of the failure, naming its path, unless a token was refused
that its route does not need; and of no more than one call that failed. The diary of the call, in
which all is written that the batcher is told, ends with these reports. -/
theorem reported_iff {request : Request} (hroute : Route.isReportingExcluded request.path = false)
    {between : Client → Client → Prop} {c c' : Client} {now last : Instant}
    {hs : List (Halt Client)} {e : ApiError}
    (h : Run.Path between (Client.send request now c) now hs (.done c' (.error e)) last) :
    Keeps (send request) (Client.send request) ∧
    ∃ hs' l, hs'.map (Halt.of (·.client)) = hs ∧
      Run.Path (Beside (·.client) setClient between) (send request now ⟨c, []⟩) now hs'
        (.done ⟨c', l⟩ (.error e)) last ∧
      ((∃ report ∈ l, report.Blames (Route.normalize request.path)) ↔
        ¬e.RefusesNeedless request.path) ∧
      l.countP (·.isFailedCall) ≤ 1 := by
  obtain ⟨hs', l, hhalts, hpath⟩ := (keeps_send request).along h
  obtain ⟨l', ⟨fine, hfine, htold⟩, haccounts⟩ := gains_of_path (settled_send hroute) hpath
  have hl : l = fine ++ l' := htold
  have haccounts : Accounts (Route.normalize request.path) e l := hl ▸ haccounts.append hfine
  exact ⟨keeps_send request, hs', l, hhalts, hpath,
    haccounts.blames.trans (not_congr refusesNeedless_normalize), haccounts.once⟩

/-- A sign-in, and the answers to one that finds nothing and to one that is refused. -/
def signIn : Request := .new .get "/auth/login"
def notFound : TransportOutcome := .ok ⟨404, .ofPairs [], ""⟩
def unauthorized : TransportOutcome := .ok ⟨401, .ofPairs [], ""⟩

def hasFailed : CallResult → Bool
  | .ok _ => false
  | .error _ => true

theorem error_of_hasFailed {a : CallResult} (h : hasFailed a = true) : ∃ e, a = .error e := by
  cases a with
  | ok response => cases h
  | error e => exact ⟨e, rfl⟩

theorem reported_iff_notFound : Route.isReportingExcluded signIn.path = false ∧
    ∃ hs c' e last,
      Run.Path Eq (Client.send signIn noon Client.plain) noon hs (.done c' (.error e)) last ∧
      ∃ hs' l, hs'.map (Halt.of (·.client)) = hs ∧
        Run.Path (Beside (·.client) setClient Eq) (send signIn noon ⟨Client.plain, []⟩) noon hs'
          (.done ⟨c', l⟩ (.error e)) last ∧
        ((∃ report ∈ l, report.Blames (Route.normalize signIn.path)) ↔
          ¬e.RefusesNeedless signIn.path) ∧
        l.countP (·.isFailedCall) ≤ 1 := by
  have hroute : Route.isReportingExcluded signIn.path = false := by decide +kernel
  have hcomes : (Client.send signIn noon Client.plain).comesTo noon (answersOf [(noon, notFound)])
      (fun _ r _ => r.endsSo hasFailed) = true := by
    decide +kernel
  obtain ⟨hs, r, last, hpath, htest⟩ := Run.exists_path Eq.refl hcomes
  obtain ⟨c', a, rfl, hfailed⟩ := Run.done_of_endsSo htest
  obtain ⟨e, rfl⟩ := error_of_hasFailed hfailed
  exact ⟨hroute, hs, c', e, last, hpath, (reported_iff hroute hpath).2⟩

/-- Of a sign-in that is refused nothing is told. -/
theorem not_reported : Keeps (send signIn) (Client.send signIn) ∧
    Route.isReportingExcluded signIn.path = false ∧
    ∃ hs d e last,
      Run.Path Eq (send signIn noon ⟨Client.plain, []⟩) noon hs (.done d (.error e)) last ∧
      ¬∃ report ∈ d.told, report.Blames (Route.normalize signIn.path) := by
  have hcomes : (send signIn noon ⟨Client.plain, []⟩).comesTo noon
      (answersOf [(noon, unauthorized)])
      (fun _ r _ => r.endsSo hasFailed && r.state.told.isEmpty) = true := by
    decide +kernel
  obtain ⟨hs, r, last, hpath, htest⟩ := Run.exists_path Eq.refl hcomes
  rw [Bool.and_eq_true, List.isEmpty_iff] at htest
  obtain ⟨d, a, rfl, hfailed⟩ := Run.done_of_endsSo htest.1
  obtain ⟨e, rfl⟩ := error_of_hasFailed hfailed
  refine ⟨keeps_send signIn, by decide +kernel, hs, d, e, last, hpath, ?_⟩
  rintro ⟨report, hmem, -⟩
  have hnone : d.told = [] := htest.2
  rw [hnone] at hmem
  exact List.not_mem_nil hmem

end Diary

end ClientSession
