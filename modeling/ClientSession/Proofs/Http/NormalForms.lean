import ClientSession.Proofs.Http.Routing
import ClientSession.Telemetry.Batcher

/-!
# Normal forms of routes

What a route needs is asked in several places, and each of them normalizes what it is given: a path
as a request names it, or a route that was normalized before. The answers agree, since a normal form
is its own normal form and since what may stand behind a path is no part of it.

- `Route.IsNormal`: how normal forms are written.
- `Route.normalize_eq_self_iff`: they are the paths that are left as they are.
- `Route.normalize_spelled`: slashes at the end, a query and a fragment change no normal form.
- `Route.decided_on_normal_form`: all spellings of a route and its normal form are treated alike.
-/

namespace ClientSession.Route

/-- The path has one slash in front at least, neither query nor fragment, and no slash at its end
besides that of the root. -/
structure IsNormal (path : String) : Prop where
  rooted : path.toList.head? = some '/'
  unended : ∀ c ∈ path.toList, endsPath c = false
  trimmed : path.toList.getLast? = some '/' → path = "/"

/-- The path with slashes at its end, and behind them a query or a fragment. -/
def spelled (path : String) (slashes : Nat) (suffix : String) : String :=
  path ++ String.ofList (List.replicate slashes '/') ++ suffix

/-- The paths are treated alike: by calls, which ask for a session or for leave, and by reports. -/
structure Alike (p q : String) : Prop where
  session : requiresAuth p = requiresAuth q
  family : isAuthFamily p = isAuthFamily q
  unreported : isReportingExcluded p = isReportingExcluded q
  excluded : ∀ b : Batcher, b.excludes p = b.excludes q

/-! ## How normal forms are written -/

theorem toList_normalize (path : String) : (normalize path).toList = '/' :: core path := by
  rw [normalize, String.toList_ofList, normalizeChars_eq]

theorem endsPath_of_mem_core {c : Char} {path : String} (h : c ∈ core path) :
    endsPath c = false := by
  obtain ⟨lead, hbare, -, -⟩ := exists_lead path
  exact endsPath_of_mem_bare (hbare ▸ List.mem_append_right lead h)

theorem isNormal_normalize (path : String) : IsNormal (normalize path) where
  rooted := by
    rw [toList_normalize]
    rfl
  unended := by
    intro c hc
    rw [toList_normalize] at hc
    rcases List.mem_cons.mp hc with rfl | hc
    · rfl
    · exact endsPath_of_mem_core hc
  trimmed := by
    intro hlast
    rw [toList_normalize] at hlast
    rw [← String.toList_inj, toList_normalize]
    cases hcore : core path with
    | nil => rfl
    | cons c rest =>
        rw [hcore, List.getLast?_cons_cons, ← hcore] at hlast
        exact absurd hlast (getLast?_core path)

theorem normalize_of_isNormal {path : String} (h : IsNormal path) : normalize path = path := by
  by_cases hroot : path = "/"
  · rw [hroot]
    decide
  · have hkept : bare path.toList = path.toList :=
      bare_eq h.unended fun hlast => hroot (h.trimmed hlast)
    obtain ⟨rest, hrest⟩ := List.head?_eq_some_iff.mp h.rooted
    have hchars : normalizeChars path.toList = path.toList := by
      unfold normalizeChars
      rw [hkept, hrest]
      rfl
    rw [normalize, hchars, String.ofList_toList]

/-- The paths that are left as they are are the normal forms. -/
theorem normalize_eq_self_iff {path : String} : normalize path = path ↔ IsNormal path := by
  constructor
  · intro h
    rw [← h]
    exact isNormal_normalize path
  · exact normalize_of_isNormal

/-! ## What stands behind a path -/

/-- A path goes on up to its query or its fragment. -/
theorem takeWhile_unended {cs tail : List Char} (hcs : ∀ c ∈ cs, endsPath c = false)
    (htail : tail.head?.all endsPath = true) :
    ((cs ++ tail).takeWhile fun c => !endsPath c) = cs := by
  have hnil : (tail.takeWhile fun c => !endsPath c) = [] := by
    cases tail with
    | nil => rfl
    | cons c rest =>
        have hc : endsPath c = true := htail
        exact List.takeWhile_cons_of_neg (by rw [hc]; decide)
  rw [List.takeWhile_append_of_pos (fun c hc => by rw [hcs c hc]; rfl), hnil, List.append_nil]

theorem bare_append {cs slashes tail : List Char} (hcs : ∀ c ∈ cs, endsPath c = false)
    (hslashes : ∀ c ∈ slashes, c = '/') (htail : tail.head?.all endsPath = true) :
    bare (cs ++ slashes ++ tail) = bare cs := by
  have hfront : ∀ c ∈ cs ++ slashes, endsPath c = false := by
    intro c hc
    rcases List.mem_append.mp hc with hc | hc
    · exact hcs c hc
    · rw [hslashes c hc]
      rfl
  have halone : (cs.takeWhile fun c => !endsPath c) = cs := by
    have htake : ((cs ++ []).takeWhile fun c => !endsPath c) = cs := takeWhile_unended hcs rfl
    rwa [List.append_nil] at htake
  rw [bare, bare, takeWhile_unended hfront htail, halone, List.reverse_append,
    List.dropWhile_append_of_pos fun c hc =>
      decide_eq_true (hslashes c (List.mem_reverse.mp hc))]

theorem normalize_spelled {path suffix : String} (slashes : Nat)
    (hpath : ∀ c ∈ path.toList, endsPath c = false)
    (hsuffix : suffix.toList.head?.all endsPath = true) :
    normalize (spelled path slashes suffix) = normalize path := by
  have hbare : bare (spelled path slashes suffix).toList = bare path.toList := by
    rw [spelled, String.toList_append, String.toList_append, String.toList_ofList]
    exact bare_append hpath (fun c hc => List.eq_of_mem_replicate hc) hsuffix
  rw [normalize, normalize, normalizeChars, normalizeChars, hbare]

/-! ## What is decided -/

/-- Whoever asks about a path asks about its normal form. -/
theorem alike_of_normalize {p q : String} (h : normalize p = normalize q) : Alike p q where
  session := by rw [requiresAuth, requiresAuth, h]
  family := by rw [isAuthFamily, isAuthFamily, h]
  unreported := by rw [isReportingExcluded, isReportingExcluded, h]
  excluded := by
    intro b
    rw [Batcher.excludes, Batcher.excludes, h]

/-- **Routes are decided on normal forms**: normal forms are exactly the paths that normalizing
leaves as they are, it leads to one at once, and what stands behind a path is no part of it. So a
path with slashes at its end, and with a query or a fragment behind it, is treated like the path
alone and like its normal form: when a session is asked for, when calls are limited and when they
are reported. -/
theorem decided_on_normal_form {path suffix : String} (slashes : Nat)
    (hpath : ∀ c ∈ path.toList, endsPath c = false)
    (hsuffix : suffix.toList.head?.all endsPath = true) :
    normalize (spelled path slashes suffix) = normalize path ∧
      (∀ p, IsNormal (normalize p) ∧ normalize (normalize p) = normalize p) ∧
      (∀ p, normalize p = p ↔ IsNormal p) ∧
      Alike (spelled path slashes suffix) path ∧
      Alike (spelled path slashes suffix) (normalize path) := by
  have hsame := normalize_spelled slashes hpath hsuffix
  refine ⟨hsame, fun p => ⟨isNormal_normalize p, normalize_normalize p⟩,
    fun p => normalize_eq_self_iff, alike_of_normalize hsame, ?_⟩
  exact alike_of_normalize (hsame.trans (normalize_normalize path).symm)

theorem decided_on_normal_form_login :
    (∀ c ∈ "auth/login".toList, endsPath c = false) ∧
      "?next=/words#top".toList.head?.all endsPath = true ∧
      spelled "auth/login" 2 "?next=/words#top" = "auth/login//?next=/words#top" ∧
      normalize "auth/login" = "/auth/login" ∧
      Alike "auth/login//?next=/words#top" "auth/login" ∧
      Alike "auth/login//?next=/words#top" "/auth/login" := by
  have hall : "auth/login".toList.all (fun c => !endsPath c) = true := by decide
  have hpath : ∀ c ∈ "auth/login".toList, endsPath c = false := fun c hc => by
    simpa using List.all_eq_true.mp hall c hc
  have hsuffix : "?next=/words#top".toList.head?.all endsPath = true := by decide
  have hspelled : spelled "auth/login" 2 "?next=/words#top" = "auth/login//?next=/words#top" := by
    decide
  have hnormal : normalize "auth/login" = "/auth/login" := by decide
  obtain ⟨-, -, -, halike, hroute⟩ := decided_on_normal_form 2 hpath hsuffix
  rw [hspelled] at halike hroute
  rw [hnormal] at hroute
  exact ⟨hpath, hsuffix, hspelled, hnormal, halike, hroute⟩

end ClientSession.Route
