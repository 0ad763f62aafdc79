import ClientSession.Proofs.Client.Throughput
import ClientSession.Proofs.Configuration
import ClientSession.Proofs.Limit.Recovery

/-!
# Configured limits

A client that has just been set up has the limits of its configuration, and the default limits of
the sign-in routes that it does not mention. The limit of an entry is enforced from first to last if
the entry is spelled as a route and the route is one of the sign-in family; calls of other routes do
not ask for tokens.

- `Client.limit?_gateway`: the limit of a route in a client that has just been set up.
- `Client.gateway_enforces`: the entries of the configuration that are enforced.
- `Client.gateway_recovers_iff`: the pairs of an entry that are not shut out for ever.
-/

namespace ClientSession

/-- Of entries with different keys, the one of an endpoint sets its limit. -/
theorem Limiter.limit?_configureAll (l : Limiter) (name : String)
    {es : List (String × EndpointLimit)} (hes : es.Pairwise fun e e' => e.1 ≠ e'.1) :
    (es.foldl (fun l e => l.configure e.1 e.2) l).limit? name =
      ((es.find? fun e => e.1 = name).map (·.2)).or (l.limit? name) := by
  induction es generalizing l with
  | nil => rfl
  | cons e es ih =>
      obtain ⟨hfirst, hrest⟩ := List.pairwise_cons.mp hes
      rw [List.foldl_cons, ih (l.configure e.1 e.2) hrest, limit?_configure]
      by_cases he : e.1 = name
      · -- No later entry has the key.
        have hnone : es.find? (fun e => e.1 = name) = none := by
          refine List.find?_eq_none.mpr fun e' he' hsame => ?_
          exact hfirst e' he' (he.trans (of_decide_eq_true hsame).symm)
        have hhead : (e :: es).find? (fun e => e.1 = name) = some e :=
          List.find?_cons_of_pos (decide_eq_true he)
        rw [hnone, if_pos he, hhead]
        rfl
      · have htail : (e :: es).find? (fun e => e.1 = name) = es.find? fun e => e.1 = name :=
          List.find?_cons_of_neg fun h => he (of_decide_eq_true h)
        rw [if_neg he, htail]

/-- To configure endpoints makes no buckets. -/
theorem Limiter.find?_configureAll {l : Limiter} (es : List (String × EndpointLimit))
    (hnew : ∀ name, l.buckets.find? name = none) (name : String) :
    (es.foldl (fun l e => l.configure e.1 e.2) l).buckets.find? name = none := by
  induction es generalizing l with
  | nil => exact hnew name
  | cons e es ih =>
      refine ih fun name => ?_
      rw [find?_configure, hnew, ite_self]

namespace Client

open Activity

variable {config : Config} {profile : DeviceProfile} {csrf : Option String} {supply : TokenSupply}
  {hasWorkers : Bool} {b : Backend} {e : String} {limit : EndpointLimit} {ms : List Moment}
  {s : Scene}

/-- A client that has just been set up has the limits of its configuration, or else the defaults. -/
theorem limit?_gateway (name : String) :
    (gateway config profile csrf supply hasWorkers b).limiter.limit? name =
      (config.rateLimits.find? name).or (Limiter.withDefaults.limit? name) := by
  refine Limiter.limit?_configureAll _ name (config.rateLimits.sorted.imp fun {e e'} hbefore => ?_)
  intro hsame
  rw [hsame, KeyOrder.before_irrefl] at hbefore
  cases hbefore

/-- The limit of an entry is enforced on the calls to its route, if the entry is spelled as the
route and the route is one of the sign-in family. -/
theorem gateway_enforces (hentry : config.rateLimits.find? e = some limit)
    (hspelled : Route.normalize e = e) (hfamily : Route.isAuthFamily e = true)
    (h : Course (scene (gateway config profile csrf supply hasWorkers b)) ms s) :
    Enforced (Route.normalize e) limit ms ∧ Throttles s (Route.normalize e) limit := by
  have hlimit : (gateway config profile csrf supply hasWorkers b).limiter.limit? e =
      some limit := by
    rw [limit?_gateway, hentry]
    rfl
  rw [hspelled]
  exact ⟨enforced_of_course h hfamily hlimit, throttles_of_course h hfamily hlimit⟩

/-- The default settings with one call a minute at an endpoint. -/
def oneAMinuteAt (endpoint : String) : Config :=
  ⟨⟨"https".toList, some ⟨[], "api.test".toList, none⟩, .segments [[]], none, none⟩,
    Config.defaultNamespace, default, default, default,
    Table.empty.insert endpoint (.new 1 60000 0), none⟩

/-- A client with these settings over an empty backend. -/
def ofConfig (config : Config) : Client :=
  gateway config ⟨"", "", "", ""⟩ none .provider true (.ofItems [])

/-- Two calls at once. -/
def callsAtOnce (path path' : String) : Script :=
  [(⟨1748779200000000000⟩, .ask (.send (.new .get path))),
    (⟨1748779200000000000⟩, .ask (.send (.new .get path')))]

/-- Of two calls at once to sign in the second one is turned away. -/
theorem gateway_enforces_login : ∃ (ms : List Moment) (s : Scene),
    (oneAMinuteAt "/auth/login").rateLimits.find? "/auth/login" = some (.new 1 60000 0) ∧
      Route.normalize "/auth/login" = "/auth/login" ∧
      Route.isAuthFamily "/auth/login" = true ∧
      Course (scene (ofConfig (oneAMinuteAt "/auth/login"))) ms s ∧
      ms.map (reaches (Route.normalize "/auth/login")) = [true, false] ∧
      Enforced (Route.normalize "/auth/login") (.new 1 60000 0) ms ∧
      Throttles s (Route.normalize "/auth/login") (.new 1 60000 0) := by
  have hpasses : workplace.passes (scene (ofConfig (oneAMinuteAt "/auth/login")))
      (callsAtOnce "/auth/login" "auth/login/?again") 0
      (fun ms x ms' _ => decide ((ms ++ x :: ms').map (reaches (Route.normalize "/auth/login")) =
        [true, false])) = true := by
    decide +kernel
  obtain ⟨ms, x, ms', s, h, htest⟩ := Workplace.exists_course hpasses
  have hentry : (oneAMinuteAt "/auth/login").rateLimits.find? "/auth/login" =
      some (.new 1 60000 0) := by decide +kernel
  have hspelled : Route.normalize "/auth/login" = "/auth/login" := by decide +kernel
  have hfamily : Route.isAuthFamily "/auth/login" = true := by decide +kernel
  exact ⟨_, s, hentry, hspelled, hfamily, h, of_decide_eq_true htest,
    gateway_enforces hentry hspelled hfamily h⟩

/-- At an endpoint outside of the family more calls are made at once than its entry allows. -/
theorem not_enforced_outside : ¬∀ (config : Config) (e : String) (limit : EndpointLimit)
    (ms : List Moment) (s : Scene), config.rateLimits.find? e = some limit →
      Course (scene (ofConfig config)) ms s →
      (∀ x ∈ ms, sendsTo (Route.normalize e) x.work = true) →
      (∀ x ∈ ms, ∀ y ∈ ms, x.start.now = y.start.now) →
        ms.countP (reaches (Route.normalize e)) ≤ limit.capacity := by
  intro hclaim
  have hpasses : workplace.passes (scene (ofConfig (oneAMinuteAt "/public/words")))
      (callsAtOnce "/public/words" "/public/words") 0
      (fun ms x ms' _ => decide (
        (∀ y ∈ ms ++ x :: ms', sendsTo (Route.normalize "/public/words") y.work = true) ∧
        (∀ y ∈ ms ++ x :: ms', ∀ z ∈ ms ++ x :: ms', y.start.now = z.start.now) ∧
        (ms ++ x :: ms').countP (reaches (Route.normalize "/public/words")) = 2)) = true := by
    decide +kernel
  obtain ⟨ms, x, ms', s, h, htest⟩ := Workplace.exists_course hpasses
  obtain ⟨hsends, hnow, hcount⟩ := of_decide_eq_true htest
  have hle := hclaim (oneAMinuteAt "/public/words") "/public/words" (.new 1 60000 0) _ s
    (by decide +kernel) h hsends hnow
  rw [hcount] at hle
  exact absurd hle (by decide)

/-! ## Entries that shut an endpoint -/

/-- A client that has just been set up has no buckets. -/
theorem find?_gateway (name : String) :
    (gateway config profile csrf supply hasWorkers b).limiter.buckets.find? name = none :=
  Limiter.find?_configureAll _ (Limiter.find?_configureAll _ fun _ => rfl) name

/-- A pair of an entry recovers, in all that callers may ask of the limiter of a client with this
configuration, if and only if the entry lets calls through and no other endpoint with a limit draws
on the bucket of the pair. -/
theorem gateway_recovers_iff (hentry : config.rateLimits.find? e = some limit)
    (hl : 0 < limit.intervalMs) (user : Option String) :
    (gateway config profile csrf supply hasWorkers b).limiter.Recovers e user limit ↔
      0 < limit.capacity ∧
        (gateway config profile csrf supply hasWorkers b).limiter.Alone e user := by
  refine Limiter.recovers_iff ?_ hl find?_gateway
  rw [limit?_gateway, hentry]
  rfl

/-- One call a minute to sign in can be made again and again. -/
theorem gateway_recovers_login :
    (oneAMinuteAt "/auth/login").rateLimits.find? "/auth/login" = some (.new 1 60000 0) ∧
      0 < (EndpointLimit.new 1 60000 0).intervalMs ∧
      (ofConfig (oneAMinuteAt "/auth/login")).limiter.Recovers "/auth/login" none
        (.new 1 60000 0) := by
  have hentry : (oneAMinuteAt "/auth/login").rateLimits.find? "/auth/login" =
      some (.new 1 60000 0) := by decide +kernel
  have hl : 0 < (EndpointLimit.new 1 60000 0).intervalMs := by decide
  refine ⟨hentry, hl, (gateway_recovers_iff hentry hl none).mpr ⟨by decide, ?_⟩⟩
  exact Limiter.alone_of_no_colon (by decide)

/-- The settings of a host with a limit that lets no call to sign in through. -/
def shutConfig : Config := Config.hostConfig.set (.rateLimit "/auth/login" ⟨0, 1000, 0⟩)

/-- The text of these settings is accepted, and nobody can ever sign in. -/
theorem not_gateway_recovers : ¬∀ (text : String) (config : Config) (e : String)
    (user : Option String) (limit : EndpointLimit), Config.ofJson text = .ok config →
      config.rateLimits.find? e = some limit → 0 < limit.intervalMs →
        (ofConfig config).limiter.Recovers e user limit := by
  intro hclaim
  have hgiven : shutConfig.Given :=
    .set _ ⟨by decide, by decide, by decide⟩ (.base Config.ofBaseText_host)
  have haccepted := hgiven.ofJson_of_isReadable (by decide)
  have hentry : shutConfig.rateLimits.find? "/auth/login" = some ⟨0, 1000, 0⟩ := by decide +kernel
  have hlimit : (ofConfig shutConfig).limiter.limit? "/auth/login" = some ⟨0, 1000, 0⟩ := by
    rw [ofConfig, limit?_gateway, hentry]
    rfl
  have hrecovers := hclaim _ shutConfig "/auth/login" none _ haccepted hentry (by decide)
  exact absurd (Limiter.capacity_pos_of_recovers hlimit find?_gateway hrecovers) (by decide)

end Client

end ClientSession
