import ClientSession.Proofs.Http.Bases
import ClientSession.Proofs.Url.Segments

/-!
# Requests under their base

A request path that is resolved against a base is meant to stay below it. The slashes at its start
are left out first, and what stands behind them decides the rest.

- `Url.Under`: the URL has the base's scheme, host and port, and its path starts with the base's.
- `Url.keepsUnder`: the path names no site and no root of its own, and `..` removes only segments
  that the path itself has added.
- `Url.resolve_under_iff`: the request paths that stay under every base are those.
-/

namespace ClientSession.Url

/-- The URL is at the base's site, and its path starts with the base's. -/
structure Under (base u : Url) : Prop where
  scheme : u.scheme = base.scheme
  host : u.authority.map (·.host) = base.authority.map (·.host)
  port : u.authority.bind (·.port) = base.authority.bind (·.port)
  path : base.path.text <+: u.path.text

/-! ## Paths that climb -/

/-- Among the parts of a path, behind the segments that it has added itself, one is a `..` that
finds none of them. -/
def climbs : List (List Char) → List (List Char) → Bool
  | _, [] => false
  | own, part :: parts =>
    let dots := decodeDots part
    if dots = ['.', '.'] then own.isEmpty || climbs (parent own) parts
    else if dots = ['.'] then climbs own parts
    else climbs (own ++ [encode pathSet part]) parts

/-- The text names no root, and its path does not climb. -/
def isLocal (cs : List Char) : Bool :=
  !cs.head?.any isSlash && !climbs [] (splitPath true (cs.takeWhile fun c => !startsQuery c))

/-- The request path is read below a base of that scheme: it may name the scheme, but no other, and
no site. -/
def keepsUnder (scheme : List Char) (path : String) : Bool :=
  match scheme? (relativeText path) with
  | some (named, rest) => named = scheme && isLocal rest
  | none => isLocal (relativeText path)

section Parts

variable {scheme part : List Char} {ss own parts : List (List Char)}

theorem climbs_up (h : decodeDots part = ['.', '.']) :
    climbs own (part :: parts) = (own.isEmpty || climbs (parent own) parts) := by
  rw [climbs]
  exact if_pos h

theorem climbs_stay (h : decodeDots part = ['.']) :
    climbs own (part :: parts) = climbs own parts := by simp [climbs, h]

theorem climbs_down (hup : decodeDots part ≠ ['.', '.']) (hstay : decodeDots part ≠ ['.']) :
    climbs own (part :: parts) = climbs (own ++ [encode pathSet part]) parts := by
  simp [climbs, hup, hstay]

/-- Parts that do not climb leave the segments in front of them. -/
theorem appendParts_append (hs : scheme ≠ fileScheme) (front : List (List Char))
    (h : climbs own parts = false) :
    appendParts scheme (front ++ own) parts = front ++ appendParts scheme own parts := by
  induction parts generalizing own with
  | nil => rfl
  | cons part parts ih =>
      have hending {kept : List (List Char)} (hk : climbs kept parts = false) :
          appendParts scheme (front ++ kept ++ ending parts) parts =
            front ++ appendParts scheme (kept ++ ending parts) parts := by
        cases parts with
        | nil => exact List.append_assoc ..
        | cons next rest =>
            rw [ending_cons, List.append_nil, List.append_nil]
            exact ih hk
      by_cases hup : decodeDots part = ['.', '.']
      · rw [climbs_up hup, Bool.or_eq_false_iff, List.isEmpty_eq_false_iff] at h
        rw [appendParts_up hup, appendParts_up hup, parent_append front h.1]
        exact hending h.2
      · by_cases hstay : decodeDots part = ['.']
        · rw [climbs_stay hstay] at h
          rw [appendParts_stay hstay, appendParts_stay hstay]
          exact hending h
        · rw [climbs_down hup hstay] at h
          rw [appendParts_down hs hup hstay, appendParts_down hs hup hstay, List.append_assoc]
          exact ih h

/-- Once parts have climbed above a segment, nothing tells which one it was. -/
theorem appendParts_of_climbs {a b : List Char} (hs : scheme ≠ fileScheme)
    (ha : namesDrive a = false) (hb : namesDrive b = false) (h : climbs own parts = true) :
    appendParts scheme (a :: own) parts = appendParts scheme (b :: own) parts := by
  induction parts generalizing own with
  | nil => cases h
  | cons part parts ih =>
      have hending {kept : List (List Char)} (hk : climbs kept parts = true) :
          appendParts scheme (a :: kept ++ ending parts) parts =
            appendParts scheme (b :: kept ++ ending parts) parts := by
        cases parts with
        | nil => cases hk
        | cons next rest =>
            rw [ending_cons, List.append_nil, List.append_nil]
            exact ih hk
      by_cases hup : decodeDots part = ['.', '.']
      · rw [climbs_up hup, Bool.or_eq_true] at h
        rw [appendParts_up hup, appendParts_up hup]
        cases own with
        | nil => rw [parent_singleton ha, parent_singleton hb]
        | cons first rest =>
            have hne : first :: rest ≠ [] := List.cons_ne_nil first rest
            rw [← List.singleton_append, parent_append [a] hne, ← List.singleton_append (x := b),
              parent_append [b] hne]
            exact hending (h.resolve_left Bool.false_ne_true)
      · by_cases hstay : decodeDots part = ['.']
        · rw [climbs_stay hstay] at h
          rw [appendParts_stay hstay, appendParts_stay hstay]
          exact hending h
        · rw [climbs_down hup hstay] at h
          rw [appendParts_down hs hup hstay, appendParts_down hs hup hstay]
          exact ih h

end Parts

/-! ## Local texts -/

variable {base u v : Url} {cs : List Char}

theorem Under.of_authority (hs : u.scheme = base.scheme) (ha : u.authority = base.authority)
    (hp : base.path.text <+: u.path.text) : Under base u :=
  ⟨hs, congrArg _ ha, congrArg (Option.bind · (·.port)) ha, hp⟩

/-- A text that starts with a slash names a site or starts from the root: of the base it needs the
scheme, and the site if it names none. -/
theorem readRelative_slash {c : Char} (hslash : isSlash c = true) (rest : List Char) :
    (∃ site, ∀ base, readRelative base (c :: rest) = readHierarchical base.scheme site) ∨
      ∀ base, readRelative base (c :: rest) = .ok (readRelative.onPath base [] rest) := by
  have hc : c = '/' ∨ c = '\\' := by
    rwa [isSlash, Bool.or_eq_true, decide_eq_true_eq, decide_eq_true_eq] at hslash
  cases rest with
  | nil =>
      refine .inr fun base => ?_
      rcases hc with rfl | rfl <;> rfl
  | cons d more =>
      have hread (base : Url) : readRelative base (c :: d :: more) =
          if c = '/' && d = '/' then readHierarchical base.scheme more
          else if isSlash d then readHierarchical base.scheme (more.dropWhile isSlash)
          else .ok (readRelative.onPath base [] (d :: more)) := by
        rcases hc with rfl | rfl <;> rfl
      simp only [hread]
      split
      · exact .inl ⟨more, fun _ => rfl⟩
      · split
        · exact .inl ⟨more.dropWhile isSlash, fun _ => rfl⟩
        · exact .inr fun _ => rfl

theorem takeWhile_isSlash (h : isLocal cs = true) : cs.takeWhile isSlash = [] := by
  cases cs with
  | nil => rfl
  | cons c rest =>
      rw [isLocal, Bool.and_eq_true, Bool.not_eq_true'] at h
      have hc : isSlash c = false := h.1
      exact List.takeWhile_cons_of_neg (Bool.eq_false_iff.mp hc)

/-- A local text is read as a URL under the base. -/
theorem readRelative_of_isLocal (hb : base.IsBase) (h : isLocal cs = true) :
    ∃ u, readRelative base cs = .ok u ∧ Under base u := by
  cases hquery : cs.head?.all startsQuery with
  | true =>
      obtain ⟨u, hu, hs, ha, hp⟩ := readRelative_query base hquery
      exact ⟨u, hu, .of_authority hs ha (hp ▸ List.prefix_refl _)⟩
  | false =>
      cases cs with
      | nil => cases hquery
      | cons c rest =>
          rw [isLocal, Bool.and_eq_true, Bool.not_eq_true', Bool.not_eq_true'] at h
          obtain ⟨front, hpath⟩ := hb.path_eq
          refine ⟨_, readRelative_cons _ hpath h.1 hquery, .of_authority ?_ ?_ ?_⟩
          · exact withTail_scheme ..
          · exact withTail_authority ..
          · have hparts := appendParts_append hb.scheme_ne_file front h.2
            rw [List.append_nil] at hparts
            rw [readRelative.onPath, withTail_path, hpath, readSegments, hb.isSpecial, hparts]
            exact text_prefix (appendParts_ne_nil hb.scheme_ne_file (splitPath_ne_nil true _))

/-! ## Other texts, at two sites -/

/-- A base of that scheme at a host of one letter, below the directory of the same name. -/
def site (scheme : List Char) (name : Char) : Url :=
  ⟨scheme, some ⟨[], [name], none⟩, .segments [[name], []], none, none⟩

theorem isBase_site (hb : base.IsBase) (name : Char) : (site base.scheme name).IsBase :=
  ⟨hb.web, rfl, rfl, rfl⟩

/-- URLs under two sites have neither their authority nor their path in common. -/
theorem Under.apart {scheme : List Char} (hu : Under (site scheme 'a') u)
    (hv : Under (site scheme 'b') v) : u.authority ≠ v.authority ∧ u.path ≠ v.path := by
  constructor
  · intro he
    have hhost := hv.host
    rw [← he, hu.host] at hhost
    cases hhost
  · intro he
    have hpath := hv.path
    rw [← he] at hpath
    obtain ⟨x, hx⟩ := hu.path
    obtain ⟨y, hy⟩ := hpath
    cases hx.trans hy.symm

/-- A text that is not local is read at both sites as URLs with the same authority or the same
path, if it is read as one at all. -/
theorem readRelative_elsewhere (hb : base.IsBase) (h : isLocal cs = false)
    (hok : readRelative base cs = .ok u) :
    ∃ v w, readRelative (site base.scheme 'a') cs = .ok v ∧
      readRelative (site base.scheme 'b') cs = .ok w ∧
        (v.authority = w.authority ∨ v.path = w.path) := by
  cases cs with
  | nil => cases h
  | cons c rest =>
      cases hslash : isSlash c with
      | true =>
          rcases readRelative_slash hslash rest with ⟨named, hread⟩ | hread
          · rw [hread] at hok
            exact ⟨u, u, (hread _).trans hok, (hread _).trans hok, .inl rfl⟩
          · refine ⟨_, _, hread _, hread _, .inr ?_⟩
            rw [readRelative.onPath, readRelative.onPath, withTail_path, withTail_path]
            rfl
      | false =>
          rw [isLocal, List.head?_cons, Option.any_some, hslash, Bool.not_false, Bool.true_and,
            Bool.not_eq_false'] at h
          have hquery : startsQuery c = false := by
            cases hc : startsQuery c with
            | false => rfl
            | true =>
                rw [List.takeWhile_cons_of_neg (by rw [hc]; exact Bool.false_ne_true)] at h
                cases h
          have hparts := appendParts_of_climbs hb.scheme_ne_file (by decide) (by decide) h
            (a := ['a']) (b := ['b'])
          refine ⟨_, _, readRelative_cons [['a']] rfl hslash hquery,
            readRelative_cons [['b']] rfl hslash hquery, .inr ?_⟩
          simp only [readRelative.onPath, withTail_path, readSegments, site, hb.isSpecial, hparts]

/-! ## Request paths -/

/-- A request path that keeps under bases of a scheme is resolved, below each of them. -/
theorem resolve_of_keepsUnder {path : String} (hb : base.IsBase)
    (h : keepsUnder base.scheme path = true) :
    ∃ u, base.resolve path = .ok u ∧ Under base u := by
  simp only [resolve_eq_ok hb, readRequest]
  rw [keepsUnder] at h
  cases hs : scheme? (relativeText path) with
  | none =>
      rw [hs] at h
      exact readRelative_of_isLocal hb h
  | some named =>
      rw [hs] at h
      dsimp only at h ⊢
      rw [Bool.and_eq_true, decide_eq_true_eq] at h
      rw [h.1, readAbsolute_own hb, if_pos (by rw [takeWhile_isSlash h.2]; exact Nat.two_pos)]
      exact readRelative_of_isLocal hb h.2

/-- A request path that keeps under no base is read with another scheme than the base's, or at two
sites as URLs with the same authority or the same path. -/
theorem readRequest_elsewhere {path : String} (hb : base.IsBase)
    (h : keepsUnder base.scheme path = false)
    (hok : readRequest base (relativeText path) = .ok u) :
    u.scheme ≠ base.scheme ∨
      ∃ v w, readRequest (site base.scheme 'a') (relativeText path) = .ok v ∧
        readRequest (site base.scheme 'b') (relativeText path) = .ok w ∧
          (v.authority = w.authority ∨ v.path = w.path) := by
  rw [keepsUnder] at h
  unfold readRequest at hok ⊢
  cases hs : scheme? (relativeText path) with
  | none =>
      rw [hs] at h hok
      exact .inr (readRelative_elsewhere hb h hok)
  | some named =>
      obtain ⟨scheme, rest⟩ := named
      rw [hs] at h hok
      dsimp only at h hok ⊢
      by_cases hown : scheme = base.scheme
      · subst hown
        rw [decide_eq_true rfl, Bool.true_and] at h
        right
        have hread (name : Char) := readAbsolute_own (isBase_site hb name) rest
        rw [readAbsolute_own hb] at hok
        split at hok
        · obtain ⟨v, w, hv, hw, he⟩ := readRelative_elsewhere hb h hok
          exact ⟨v, w, ((hread 'a').trans (if_pos ‹_›)).trans hv,
            ((hread 'b').trans (if_pos ‹_›)).trans hw, he⟩
        · exact ⟨u, u, ((hread 'a').trans (if_neg ‹_›)).trans hok,
            ((hread 'b').trans (if_neg ‹_›)).trans hok, .inl rfl⟩
      · left
        have hscheme := scheme_readAbsolute hb.fileBase?_eq_none
          (fun b hb => Option.mem_some_iff.mp hb ▸ Ne.symm hown) hok
        rw [hscheme]
        exact hown

/-- **The request paths that stay under every base**: of a path that is resolved against some base,
all that it is resolved to against bases of that scheme is under them exactly if it names no other
scheme, no site and no root, and climbs above none but its own segments. -/
theorem resolve_under_iff {path : String} (hb : base.IsBase) (hok : base.resolve path = .ok u) :
    (∀ base' u', base'.IsBase → base'.scheme = base.scheme → base'.resolve path = .ok u' →
      Under base' u') ↔ keepsUnder base.scheme path = true := by
  constructor
  · intro hall
    rw [resolve_eq_ok hb] at hok
    cases hkeeps : keepsUnder base.scheme path with
    | true => rfl
    | false =>
        rcases readRequest_elsewhere hb hkeeps hok with hs | ⟨v, w, hv, hw, he⟩
        · exact absurd (hall base u hb rfl ((resolve_eq_ok hb path).mpr hok)).scheme hs
        · have ha := isBase_site hb 'a'
          have hb := isBase_site hb 'b'
          have hapart := (hall _ v ha rfl ((resolve_eq_ok ha path).mpr hv)).apart
            (hall _ w hb rfl ((resolve_eq_ok hb path).mpr hw))
          exact (he.elim hapart.1 hapart.2).elim
  · intro hkeeps base' u' hb' hs hok'
    rw [← hs] at hkeeps
    obtain ⟨v, hv, hunder⟩ := resolve_of_keepsUnder hb' hkeeps
    rw [hv] at hok'
    cases hok'
    exact hunder

theorem resolve_under_iff_validate :
    versionedRoot.resolve "/auth/validate" =
        .ok { versionedRoot with
          path := .segments ["api".toList, "v1".toList, "auth".toList, "validate".toList] } ∧
      keepsUnder versionedRoot.scheme "/auth/validate" = true ∧
      ∀ base u, base.IsBase → base.scheme = versionedRoot.scheme →
        base.resolve "/auth/validate" = .ok u → Under base u := by
  have hok : versionedRoot.resolve "/auth/validate" =
      .ok { versionedRoot with
        path := .segments ["api".toList, "v1".toList, "auth".toList, "validate".toList] } := rfl
  have hkeeps : keepsUnder versionedRoot.scheme "/auth/validate" = true := by decide
  exact ⟨hok, hkeeps, (resolve_under_iff isBase_versionedRoot hok).mpr hkeeps⟩

/-- Only slashes are left out in front of a path: backslashes name a site of their own. -/
theorem not_under_of_backslashes :
    versionedRoot.IsBase ∧
      versionedRoot.resolve "\\\\[::1]/words" =
        .ok { versionedRoot with
          authority := some ⟨[], "[::1]".toList, none⟩, path := .segments ["words".toList] } ∧
      ¬versionedRoot.Under { versionedRoot with
        authority := some ⟨[], "[::1]".toList, none⟩, path := .segments ["words".toList] } := by
  refine ⟨isBase_versionedRoot, rfl, fun h => ?_⟩
  have hhost : some "[::1]".toList = some "api.test".toList := h.host
  revert hhost
  decide

end ClientSession.Url
