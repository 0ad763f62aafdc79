import ClientSession.Http.Base

/-!
# Bases

A base is the root of a service: a web URL with a host whose path ends in a slash. What is read
relative to it is either read for its scheme alone, or starts from its segments.

- `Url.isBase_of_parse`: what is taken as a base is one.
- `Url.resolve_eq`: what a request path is resolved to, by the text behind its slashes.
-/

namespace ClientSession.Url

/-- A base that requests are resolved against. -/
structure IsBase (base : Url) : Prop where
  web : base.isWeb = true
  hosted : base.authority.isSome = true
  notFlat : base.isFlat = false
  slash : base.endsInSlash = true

theorem IsBase.scheme_cases {base : Url} (h : base.IsBase) :
    base.scheme = "http".toList ∨ base.scheme = "https".toList := by
  have hweb := h.web
  rw [isWeb, Bool.or_eq_true, decide_eq_true_eq, decide_eq_true_eq] at hweb
  exact hweb

theorem IsBase.scheme_ne_file {base : Url} (h : base.IsBase) : base.scheme ≠ fileScheme := by
  rcases h.scheme_cases with hs | hs <;> · rw [hs]; decide

theorem IsBase.isSpecial {base : Url} (h : base.IsBase) : isSpecial base.scheme = true := by
  rcases h.scheme_cases with hs | hs <;> · rw [hs]; decide

/-- A base is no file to start from. -/
theorem IsBase.fileBase?_eq_none {base : Url} (h : base.IsBase) : fileBase? (some base) = none := by
  have hne := h.scheme_ne_file
  simp [fileBase?, hne]

/-- A base's path is a row of segments with an empty one behind it. -/
theorem IsBase.path_eq {base : Url} (h : base.IsBase) :
    ∃ front, base.path = .segments (front ++ [[]]) := by
  have hflat := h.notFlat
  have hslash := h.slash
  rw [isFlat] at hflat
  rw [endsInSlash] at hslash
  cases hp : base.path with
  | flat text => rw [hp] at hflat; cases hflat
  | segments ss =>
      rw [hp] at hslash
      obtain ⟨front, hfront⟩ := List.getLast?_eq_some_iff.mp (of_decide_eq_true hslash)
      exact ⟨front, congrArg _ hfront⟩

@[simp] theorem withTail_scheme (u : Url) (cs : List Char) : (withTail u cs).scheme = u.scheme := by
  unfold withTail
  split <;> rfl

@[simp] theorem withTail_authority (u : Url) (cs : List Char) :
    (withTail u cs).authority = u.authority := by
  unfold withTail
  split <;> rfl

@[simp] theorem withTail_path (u : Url) (cs : List Char) : (withTail u cs).path = u.path := by
  unfold withTail
  split <;> rfl

/-- Two readings in a row succeed if each of them does. -/
theorem exists_of_bind_eq_ok {α β : Type} {x : Except ParseError α} {f : α → Except ParseError β}
    {b : β} (h : x >>= f = .ok b) : ∃ a, x = .ok a ∧ f a = .ok b := by
  cases x with
  | error e => cases h
  | ok a => exact ⟨a, rfl, h⟩

/-- What starts with an authority has the scheme that it is read for, and an authority. -/
theorem of_readHierarchical {scheme cs : List Char} {u : Url}
    (h : readHierarchical scheme cs = .ok u) : u.scheme = scheme ∧ u.authority.isSome = true := by
  rw [readHierarchical] at h
  dsimp only at h
  split at h
  · cases h
  · obtain ⟨authority, -, h⟩ := exists_of_bind_eq_ok h
    cases h
    exact ⟨withTail_scheme .., by rw [withTail_authority]; rfl⟩

theorem scheme_fileUrl (host : List Char) (ss : List (List Char)) (cs : List Char) :
    (fileUrl host ss cs).scheme = fileScheme := withTail_scheme ..

theorem scheme_readFileHost {cs : List Char} {u : Url} (h : readFileHost cs = .ok u) :
    u.scheme = fileScheme := by
  unfold readFileHost at h
  dsimp only at h
  split at h
  · cases h
    exact scheme_fileUrl ..
  · split at h <;>
    · obtain ⟨host, -, h⟩ := exists_of_bind_eq_ok h
      split at h <;>
      · cases h
        exact scheme_fileUrl ..

/-- Without a base that is a file, what is read as a file is one of its own. -/
theorem scheme_readFile {base : Option Url} {cs : List Char} {u : Url}
    (hbase : fileBase? base = none) (h : readFile base cs = .ok u) : u.scheme = fileScheme := by
  have hroot (cs : List Char) : (fileAtRoot base cs).scheme = fileScheme := by
    rw [fileAtRoot, hbase]
    exact scheme_fileUrl ..
  unfold readFile at h
  rw [hbase] at h
  split at h
  · split at h
    · split at h
      · split at h
        · exact scheme_readFileHost h
        · cases h
          exact hroot _
      · cases h
        exact hroot _
    · cases h
      exact scheme_fileUrl ..
  · cases h
    exact scheme_fileUrl ..

/-- What is read behind a scheme other than the base's has that scheme. -/
theorem scheme_readAbsolute {base : Option Url} {scheme cs : List Char} {u : Url}
    (hfile : fileBase? base = none) (hne : ∀ b ∈ base, b.scheme ≠ scheme)
    (h : readAbsolute base scheme cs = .ok u) : u.scheme = scheme := by
  unfold readAbsolute at h
  split at h
  · rename_i hs
    exact (scheme_readFile hfile h).trans hs.symm
  · split at h
    · dsimp only at h
      split at h
      · rename_i b
        rw [if_neg (by rw [decide_eq_false (hne b rfl), Bool.and_false]; exact Bool.false_ne_true)]
          at h
        exact (of_readHierarchical h).1
      · exact (of_readHierarchical h).1
    · split at h
      · exact (of_readHierarchical h).1
      · cases h
        exact withTail_scheme ..
      · cases h
        exact withTail_scheme ..

/-- A web URL that is read on its own has an authority. -/
theorem authority_of_parse {text : String} {u : Url} (h : parse text = .ok u)
    (hweb : u.isWeb = true) : u.authority.isSome = true := by
  have hspecial : Url.isSpecial u.scheme = true ∧ u.scheme ≠ fileScheme := by
    rw [isWeb, Bool.or_eq_true, decide_eq_true_eq, decide_eq_true_eq] at hweb
    rcases hweb with hs | hs <;> · rw [hs]; decide
  unfold parse read at h
  dsimp only at h
  split at h
  · rename_i scheme rest _
    have hs : u.scheme = scheme := scheme_readAbsolute rfl (fun _ hb => by cases hb) h
    unfold readAbsolute at h
    rw [← hs, if_neg hspecial.2, if_pos hspecial.1] at h
    exact (of_readHierarchical h).2
  · cases h

/-- What is taken as a base is one: a web URL that is read on its own, with a slash behind it. -/
theorem isBase_of_parse {text : String} {u base : Url} (h : parse text = .ok u)
    (hbase : u.asBase? = some base) : base.IsBase := by
  rw [asBase?] at hbase
  split at hbase
  · rename_i hu
    rw [Bool.and_eq_true, Bool.not_eq_true'] at hu
    cases hbase
    have hauthority := authority_of_parse h hu.1
    rw [withSlash]
    split
    · exact ⟨hu.1, hauthority, hu.2, ‹_›⟩
    · have hflat := hu.2
      rw [isFlat] at hflat
      split
      · rename_i hp
        rw [hp] at hflat
        cases hflat
      · exact ⟨hu.1, hauthority, rfl, by simp [endsInSlash]⟩
  · cases hbase

/-- The root of the first version of a service. -/
def versionedRoot : Url :=
  ⟨"https".toList, some ⟨[], "api.test".toList, none⟩, .segments ["api".toList, "v1".toList, []],
    none, none⟩

theorem isBase_versionedRoot : versionedRoot.IsBase := ⟨by decide, rfl, rfl, by decide⟩

/-! ## Relative texts -/

/-- A text that starts with a segment continues the base's path. -/
theorem readRelative_cons {base : Url} (front : List (List Char)) {c : Char} {rest : List Char}
    (hp : base.path = .segments (front ++ [[]])) (hslash : isSlash c = false)
    (hquery : startsQuery c = false) :
    readRelative base (c :: rest) = .ok (readRelative.onPath base front (c :: rest)) := by
  rw [startsQuery, Bool.or_eq_false_iff, decide_eq_false_iff_not, decide_eq_false_iff_not]
    at hquery
  simp [readRelative, hp, hslash, hquery.1, hquery.2]

/-- A text without a path leaves the base's. -/
theorem readRelative_query (base : Url) {cs : List Char} (h : cs.head?.all startsQuery = true) :
    ∃ u, readRelative base cs = .ok u ∧ u.scheme = base.scheme ∧ u.authority = base.authority ∧
      u.path = base.path := by
  cases cs with
  | nil => exact ⟨_, rfl, rfl, rfl, rfl⟩
  | cons c rest =>
      have hc : startsQuery c = true := h
      rw [startsQuery, Bool.or_eq_true, decide_eq_true_eq, decide_eq_true_eq] at hc
      rcases hc with rfl | rfl
      · exact ⟨withTail base ('?' :: rest), rfl, withTail_scheme .., withTail_authority ..,
          withTail_path ..⟩
      · exact ⟨_, rfl, rfl, rfl, rfl⟩

/-! ## Request paths -/

/-- What of a request path is resolved: the text behind the slashes at its start, without what is
never part of a URL. -/
def relativeText (path : String) : List Char := clean (path.toList.dropWhile (· = '/'))

/-- A request path names a scheme of its own or is read relative to the base. -/
def readRequest (base : Url) (cs : List Char) : Except ParseError Url :=
  match scheme? cs with
  | some (scheme, rest) => readAbsolute (some base) scheme rest
  | none => readRelative base cs

theorem join_eq {base : Url} (hb : base.IsBase) (text : String) :
    base.join text = readRequest base (clean text.toList) := by
  rw [join, read, readRequest]
  cases hs : scheme? (clean text.toList) with
  | some named => rfl
  | none =>
      dsimp only
      split
      · rename_i hcs
        rw [hcs]
        rfl
      · rw [if_neg (by rw [hb.notFlat]; exact Bool.false_ne_true), if_neg hb.scheme_ne_file]

/-- A request path is resolved to a URL exactly if the text behind its slashes is read as it. -/
theorem resolve_eq_ok {base u : Url} (hb : base.IsBase) (path : String) :
    base.resolve path = .ok u ↔ readRequest base (relativeText path) = .ok u := by
  rw [resolve, join_eq hb, String.toList_ofList, relativeText]
  cases readRequest base (clean (path.toList.dropWhile (· = '/'))) with
  | error e =>
      constructor <;>
      · intro h
        cases h
  | ok v =>
      constructor <;>
      · intro h
        cases h
        rfl

/-- Behind the base's own scheme a text is relative unless two slashes follow. -/
theorem readAbsolute_own {base : Url} (hb : base.IsBase) (cs : List Char) :
    readAbsolute (some base) base.scheme cs =
      if (cs.takeWhile isSlash).length < 2 then readRelative base cs
      else readHierarchical base.scheme (cs.dropWhile isSlash) := by
  unfold readAbsolute
  rw [if_neg hb.scheme_ne_file, if_pos hb.isSpecial]
  simp

end ClientSession.Url
