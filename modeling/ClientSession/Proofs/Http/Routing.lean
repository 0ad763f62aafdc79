import ClientSession.Http.Route
import ClientSession.Proofs.Http.Bases
import ClientSession.Proofs.Url.Segments

/-!
# Routes and resolved URLs

What a request path needs is decided on its route, and where it goes by resolving it: two readings
of one text. They agree on paths that are written plainly, and of the paths that are resolved to one
URL only those share a route with a plain one.

- `Route.isPlain`: the route has no second slash at its start, no scheme, no dots for a segment and
  no character that is encoded.
- `Url.resolve_of_isPlain`: a plain path is resolved to the base followed by it as it is written.
- `Url.routes_agree_iff`: the paths that agree with plain ones of the same URL are plain.
-/

namespace ClientSession

open Text (splitOnChar)

namespace Route

/-- The characters of a path's route behind its first slash. -/
def core (path : String) : List Char := (normalizeChars path.toList).tail

/-- A character that stands in the path of a URL as it is. -/
def isPlainChar (c : Char) : Bool := c.toNat < 0x80 && !Url.pathSet c && c ≠ '\\'

/-- A segment that is taken as it is. -/
def isPlainSegment (segment : List Char) : Bool :=
  Url.decodeDots segment ≠ ['.'] && Url.decodeDots segment ≠ ['.', '.']

/-- The route is written as it stands in a URL. -/
def isPlain (path : String) : Bool :=
  (core path).all isPlainChar && (core path).head? ≠ some '/' &&
    (Url.scheme? (core path)).isNone && (splitOnChar '/' (core path)).all isPlainSegment

/-! ## Routes of paths -/

theorem normalizeChars_eq (path : String) : normalizeChars path.toList = '/' :: core path := by
  rw [core]
  unfold normalizeChars
  split <;> rfl

theorem normalize_eq_iff {p q : String} : normalize p = normalize q ↔ core p = core q := by
  rw [normalize, normalize, String.ofList_inj, normalizeChars_eq, normalizeChars_eq,
    List.cons_inj_right]

/-- What a text ends in without slashes is no slash. -/
theorem getLast?_bare (cs : List Char) : (bare cs).getLast? ≠ some '/' := by
  rw [bare, List.getLast?_reverse]
  intro h
  have := List.head?_dropWhile_not (· = '/') (cs.takeWhile fun c => !endsPath c).reverse
  rw [h] at this
  cases this

/-- Without what follows it a path is its route, perhaps without its first slash. -/
theorem exists_lead (path : String) :
    ∃ lead, bare path.toList = lead ++ core path ∧ (∀ c ∈ lead, c = '/') ∧
      (core path = [] → lead = []) := by
  have hlast := getLast?_bare path.toList
  rw [core]
  unfold normalizeChars
  split
  · rename_i rest hb
    refine ⟨['/'], hb, fun c hc => List.mem_singleton.mp hc, fun hnil => ?_⟩
    rw [List.tail_cons] at hnil
    rw [hb, hnil] at hlast
    exact absurd rfl hlast
  · exact ⟨[], rfl, fun c hc => (List.not_mem_nil hc).elim, fun _ => rfl⟩

theorem getLast?_core (path : String) : (core path).getLast? ≠ some '/' := by
  obtain ⟨lead, hbare, -, hnil⟩ := exists_lead path
  have hlast := getLast?_bare path.toList
  rw [hbare, List.getLast?_append] at hlast
  intro h
  rw [h] at hlast
  exact hlast rfl

/-- Slashes in front of another character are left out. -/
theorem dropWhile_slashes {slashes rest : List Char} (hs : ∀ c ∈ slashes, c = '/')
    (hrest : rest.head? ≠ some '/') : (slashes ++ rest).dropWhile (· = '/') = rest := by
  rw [List.dropWhile_append_of_pos fun c hc => decide_eq_true (hs c hc)]
  cases rest with
  | nil => rfl
  | cons c rest =>
      have hc : c ≠ '/' := fun he => hrest (congrArg some he)
      exact List.dropWhile_cons_of_neg (by simpa using hc)

/-- Slashes behind a text that ends in none do not hide where it ends. -/
theorem eq_of_append_slashes {cs ds ss ts : List Char} (hcs : cs.getLast? ≠ some '/')
    (hds : ds.getLast? ≠ some '/') (hss : ∀ c ∈ ss, c = '/') (hts : ∀ c ∈ ts, c = '/')
    (h : cs ++ ss = ds ++ ts) : cs = ds := by
  have htrim {ks slashes : List Char} (hks : ks.getLast? ≠ some '/')
      (hslashes : ∀ c ∈ slashes, c = '/') :
      (ks ++ slashes).reverse.dropWhile (· = '/') = ks.reverse := by
    rw [List.reverse_append]
    exact dropWhile_slashes (fun c hc => hslashes c (List.mem_reverse.mp hc))
      (by rwa [List.head?_reverse])
  rw [← List.reverse_inj, ← htrim hcs hss, h, htrim hds hts]

theorem exists_bare (cs : List Char) :
    ∃ slashes tail, cs = bare cs ++ slashes ++ tail ∧ (∀ c ∈ slashes, c = '/') ∧
      tail.head?.all Url.startsQuery = true := by
  have hslashes := List.takeWhile_append_dropWhile (p := fun c : Char => decide (c = '/'))
    (l := (cs.takeWhile fun c => !endsPath c).reverse)
  refine ⟨((cs.takeWhile fun c => !endsPath c).reverse.takeWhile (· = '/')).reverse,
    cs.dropWhile fun c => !endsPath c, ?_, fun c hc => ?_, ?_⟩
  · rw [bare, ← List.reverse_append, hslashes, List.reverse_reverse,
      List.takeWhile_append_dropWhile]
  · exact of_decide_eq_true (List.all_eq_true.mp List.all_takeWhile c (List.mem_reverse.mp hc))
  · have hhead := List.head?_dropWhile_not (fun c => !endsPath c) cs
    cases ht : (cs.dropWhile fun c => !endsPath c).head? with
    | none => rfl
    | some c =>
        rw [ht] at hhead
        have hends : endsPath c = true := by simpa using hhead
        exact hends

theorem endsPath_of_mem_bare {c : Char} {cs : List Char} (h : c ∈ bare cs) :
    endsPath c = false := by
  have hmem := List.mem_reverse.mp ((List.dropWhile_sublist _).subset (List.mem_reverse.mp h))
  exact Bool.not_eq_true' _ ▸ List.all_eq_true.mp List.all_takeWhile c hmem

/-- A path that ends neither early nor in a slash is left as it is. -/
theorem bare_eq {cs : List Char} (h : ∀ c ∈ cs, endsPath c = false)
    (hlast : cs.getLast? ≠ some '/') : bare cs = cs := by
  have htake : ((cs ++ []).takeWhile fun c => !endsPath c) = cs ++ [] :=
    List.takeWhile_append_of_pos fun c hc => by rw [h c hc]; rfl
  have hdrop : ([] ++ cs.reverse).dropWhile (· = '/') = cs.reverse :=
    dropWhile_slashes nofun (by rwa [List.head?_reverse])
  rw [List.append_nil] at htake
  rw [List.nil_append] at hdrop
  rw [bare, htake, hdrop, List.reverse_reverse]

/-- The route of a route is that route. -/
theorem normalize_normalize (path : String) : normalize (normalize path) = normalize path := by
  obtain ⟨lead, hbare, -, -⟩ := exists_lead path
  have hlist : (normalize path).toList = '/' :: core path := by
    rw [normalize, String.toList_ofList, normalizeChars_eq]
  rw [normalize_eq_iff]
  show (normalizeChars (normalize path).toList).tail = core path
  rw [hlist]
  cases hcore : core path with
  | nil => rfl
  | cons c rest =>
      have hkept : bare ('/' :: c :: rest) = '/' :: c :: rest := by
        refine bare_eq (fun d hd => ?_) ?_
        · rcases List.mem_cons.mp hd with rfl | hd
          · rfl
          · have hmem : d ∈ bare path.toList := by
              rw [hbare, hcore]
              exact List.mem_append_right _ hd
            exact endsPath_of_mem_bare hmem
        · rw [List.getLast?_cons_cons, ← hcore]
          exact getLast?_core path
      unfold normalizeChars
      rw [hkept]
      rfl

theorem requiresAuth_normalize (path : String) :
    requiresAuth (normalize path) = requiresAuth path := by
  rw [requiresAuth, normalize_normalize]
  rfl

theorem isAuthFamily_normalize (path : String) :
    isAuthFamily (normalize path) = isAuthFamily path := by
  rw [isAuthFamily, normalize_normalize]
  rfl

/-- A path is its route behind some slashes, with slashes and a query or a fragment behind it. -/
theorem exists_around_core {path : String} (h : (core path).head? ≠ some '/') :
    ∃ slashes tail, path.toList.dropWhile (· = '/') = core path ++ slashes ++ tail ∧
      (∀ c ∈ slashes, c = '/') ∧ (core path = [] → slashes = []) ∧
        tail.head?.all Url.startsQuery = true := by
  obtain ⟨slashes, tail, hpath, hslashes, htail⟩ := exists_bare path.toList
  obtain ⟨lead, hbare, hlead, hnil⟩ := exists_lead path
  rw [hbare] at hpath
  cases hcore : core path with
  | nil =>
      refine ⟨[], tail, ?_, fun c hc => (List.not_mem_nil hc).elim, fun _ => rfl, htail⟩
      rw [hcore, hnil hcore] at hpath
      rw [hpath]
      refine dropWhile_slashes hslashes fun he => ?_
      rw [he] at htail
      cases htail
  | cons c rest =>
      refine ⟨slashes, tail, ?_, hslashes, fun he => absurd he (List.cons_ne_nil c rest), htail⟩
      rw [hcore] at hpath h
      have hassoc : lead ++ c :: rest ++ slashes ++ tail =
          lead ++ (c :: rest ++ slashes ++ tail) := by
        simp only [List.append_assoc]
      rw [hpath, hassoc]
      exact dropWhile_slashes hlead h

end Route

namespace Url

open Route (core isPlain isPlainChar isPlainSegment)

/-- Left out at the ends of a URL. -/
def isOuter (c : Char) : Bool := c.toNat ≤ 0x20

/-- Not left out inside a URL. -/
def isKept (c : Char) : Bool := c ≠ '\t' && c ≠ '\n' && c ≠ '\r'

theorem clean_eq (cs : List Char) :
    clean cs = ((cs.dropWhile isOuter).reverse.dropWhile isOuter).reverse.filter isKept := rfl

theorem isKept_of_not_outer {c : Char} (h : isOuter c = false) : isKept c = true := by
  rw [isKept, Bool.and_eq_true, Bool.and_eq_true, decide_eq_true_eq, decide_eq_true_eq,
    decide_eq_true_eq]
  refine ⟨⟨?_, ?_⟩, ?_⟩ <;>
  · rintro rfl
    cases h

theorem not_outer_of_startsQuery {c : Char} (h : startsQuery c = true) : isOuter c = false := by
  rw [startsQuery, Bool.or_eq_true, decide_eq_true_eq, decide_eq_true_eq] at h
  rcases h with rfl | rfl <;> rfl

theorem dropWhile_of_head {cs : List Char} (h : ∀ c ∈ cs.head?, isOuter c = false) :
    cs.dropWhile isOuter = cs := by
  cases cs with
  | nil => rfl
  | cons c cs => exact List.dropWhile_cons_of_neg (by rw [h c rfl]; exact Bool.false_ne_true)

/-- Behind a text that holds nothing that is never part of a URL, what is left out stands in the
query or fragment that follows. -/
theorem clean_append {body tail : List Char} (hbody : ∀ c ∈ body, isOuter c = false)
    (htail : tail.head?.all startsQuery = true) :
    ∃ tail', clean (body ++ tail) = body ++ tail' ∧ tail'.head?.all startsQuery = true := by
  have hfilter : body.filter isKept = body :=
    List.filter_eq_self.mpr fun c hc => isKept_of_not_outer (hbody c hc)
  have hback : body.reverse.dropWhile isOuter = body.reverse :=
    dropWhile_of_head fun c hc => hbody c (List.mem_reverse.mp (List.mem_of_mem_head? hc))
  have hfront : (body ++ tail).dropWhile isOuter = body ++ tail := by
    refine dropWhile_of_head fun c hc => ?_
    rw [List.head?_append, Option.mem_def, Option.or_eq_some_iff] at hc
    rcases hc with hc | ⟨-, hc⟩
    · exact hbody c (List.mem_of_mem_head? hc)
    · rw [hc] at htail
      exact not_outer_of_startsQuery htail
  rw [clean_eq, hfront, List.reverse_append]
  cases tail with
  | nil =>
      rw [List.reverse_nil, List.nil_append, hback, List.reverse_reverse, hfilter]
      exact ⟨[], (List.append_nil body).symm, rfl⟩
  | cons q rest =>
      have hq : isOuter q = false := not_outer_of_startsQuery htail
      have hreverse : (q :: rest).reverse.dropWhile isOuter =
          rest.reverse.dropWhile isOuter ++ [q] := by
        rw [List.reverse_cons, List.dropWhile_append]
        split
        · rename_i hnil
          rw [List.isEmpty_iff.mp hnil, List.nil_append]
          exact dropWhile_of_head fun c hc => by cases hc; exact hq
        · rfl
      refine ⟨q :: (rest.reverse.dropWhile isOuter).reverse.filter isKept, ?_, htail⟩
      rw [List.dropWhile_append, hreverse, if_neg (by simp), List.reverse_append,
        List.reverse_reverse, List.filter_append, hfilter, List.reverse_append,
        List.reverse_singleton, List.singleton_append,
        List.filter_cons_of_pos (isKept_of_not_outer hq)]

/-- A text names no scheme if it does not before a character that belongs to none. -/
theorem scheme?_append {cs rest : List Char} (h : scheme? cs = none)
    (hrest : rest.head?.all (fun c => !isSchemeChar c && c ≠ ':') = true) :
    scheme? (cs ++ rest) = none := by
  have hhead : ∀ c ∈ rest.head?, isSchemeChar c = false ∧ c ≠ ':' := by
    intro c hc
    rw [hc] at hrest
    simpa using hrest
  have hdrop : rest.dropWhile isSchemeChar = rest := by
    cases rest with
    | nil => rfl
    | cons c rest =>
        exact List.dropWhile_cons_of_neg (by rw [(hhead c rfl).1]; exact Bool.false_ne_true)
  cases cs with
  | nil =>
      unfold scheme?
      rw [List.nil_append]
      cases hc : rest.head? with
      | none => rfl
      | some c =>
          have hscheme := (hhead c hc).1
          simp only [isSchemeChar, Bool.or_eq_false_iff] at hscheme
          dsimp only
          rw [hscheme.1.1.1.1]
          rfl
  | cons c cs =>
      unfold scheme? at h ⊢
      rw [List.cons_append, List.head?_cons] at *
      dsimp only at h ⊢
      split
      · rw [if_pos ‹_›] at h
        rw [← List.cons_append, List.dropWhile_append, hdrop]
        cases hcs : (c :: cs).dropWhile isSchemeChar with
        | nil =>
            rw [List.isEmpty_nil, if_pos rfl]
            split
            · exact absurd rfl (hhead ':' rfl).2
            · rfl
        | cons d ds =>
            rw [hcs] at h
            rw [List.isEmpty_cons, if_neg Bool.false_ne_true, List.cons_append]
            split
            · rename_i heq
              cases heq
              cases h
            · rfl
      · rfl

theorem encode_of_isPlainChar {cs : List Char} (h : ∀ c ∈ cs, isPlainChar c = true) :
    encode pathSet cs = cs := by
  induction cs with
  | nil => rfl
  | cons c cs ih =>
      have hc := h c (List.mem_cons_self ..)
      rw [isPlainChar, Bool.and_eq_true, Bool.and_eq_true, decide_eq_true_eq,
        Bool.not_eq_true'] at hc
      rw [encode, List.flatMap_cons, encodeChar, if_neg (Nat.not_le.mpr hc.1.1), hc.1.2]
      exact congrArg (c :: ·) (ih fun c hc => h c (List.mem_cons_of_mem _ hc))

/-- Plain parts are appended as they are. -/
theorem appendParts_of_plain {scheme : List Char} (hs : scheme ≠ fileScheme)
    {ss parts : List (List Char)} (hplain : ∀ part ∈ parts, isPlainSegment part = true)
    (hchars : ∀ part ∈ parts, ∀ c ∈ part, isPlainChar c = true) :
    appendParts scheme ss parts = ss ++ parts := by
  induction parts generalizing ss with
  | nil => exact (List.append_nil ss).symm
  | cons part parts ih =>
      have hpart := hplain part (List.mem_cons_self ..)
      rw [isPlainSegment, Bool.and_eq_true, decide_eq_true_eq, decide_eq_true_eq] at hpart
      rw [appendParts_down hs hpart.2 hpart.1,
        encode_of_isPlainChar (hchars part (List.mem_cons_self ..)),
        ih (fun p hp => hplain p (List.mem_cons_of_mem _ hp))
          (fun p hp => hchars p (List.mem_cons_of_mem _ hp)), List.append_assoc]
      rfl

theorem splitPath_of_plain {cs : List Char} (h : ∀ c ∈ cs, isPlainChar c = true) :
    splitPath true cs = splitOnChar '/' cs := by
  have hmap : (cs.map fun c => if separates true c then '/' else c) = cs := by
    refine (List.map_congr_left fun c hc => ?_).trans cs.map_id
    have hplain := h c hc
    rw [isPlainChar, Bool.and_eq_true, decide_eq_true_eq] at hplain
    simp only [separates, Bool.true_and, Bool.or_eq_true, decide_eq_true_eq, id_eq]
    split
    · rename_i hsep
      exact (hsep.resolve_right hplain.2).symm
    · rfl
  rw [splitPath, hmap]

theorem not_outer_of_isPlainChar {c : Char} (h : isPlainChar c = true) : isOuter c = false := by
  rw [isPlainChar, Bool.and_eq_true, Bool.and_eq_true, Bool.not_eq_true'] at h
  have hset := h.1.2
  simp only [pathSet, fragmentSet, isControl, Bool.or_eq_false_iff, decide_eq_false_iff_not,
    List.mem_cons, not_or] at hset
  have hspace : c.toNat ≠ 0x20 := fun he => hset.1.2.1 (Char.toNat_inj.mp he)
  rw [isOuter, decide_eq_false_iff_not]
  omega

theorem not_startsQuery_of_isPlainChar {c : Char} (h : isPlainChar c = true) :
    startsQuery c = false := by
  rw [startsQuery, Bool.or_eq_false_iff, decide_eq_false_iff_not, decide_eq_false_iff_not]
  constructor <;>
  · rintro rfl
    cases h

theorem not_scheme_of_startsQuery {c : Char} (h : startsQuery c = true) :
    (!isSchemeChar c && c ≠ ':') = true := by
  rw [startsQuery, Bool.or_eq_true, decide_eq_true_eq, decide_eq_true_eq] at h
  rcases h with rfl | rfl <;> rfl

/-- Slashes behind plain segments add empty ones. -/
theorem isPlainSegment_of_mem {cs slashes part : List Char}
    (hcs : (splitOnChar '/' cs).all isPlainSegment = true) (hs : ∀ c ∈ slashes, c = '/')
    (h : part ∈ splitOnChar '/' (cs ++ slashes)) : isPlainSegment part = true := by
  have hempty {ss part : List Char} (hss : ∀ c ∈ ss, c = '/') (h : part ∈ splitOnChar '/' ss) :
      part = [] := by
    induction ss with
    | nil => exact List.mem_singleton.mp h
    | cons c ss ih =>
        rw [hss c (List.mem_cons_self ..), Text.splitOnChar_cons_self, List.mem_cons] at h
        exact h.elim id (ih fun c hc => hss c (List.mem_cons_of_mem _ hc))
  cases slashes with
  | nil =>
      rw [List.append_nil] at h
      exact List.all_eq_true.mp hcs part h
  | cons c slashes =>
      rw [hs c (List.mem_cons_self ..), Text.splitOnChar_append, List.mem_append] at h
      rcases h with h | h
      · exact List.all_eq_true.mp hcs part h
      · rw [hempty (fun c hc => hs c (List.mem_cons_of_mem _ hc)) h]
        rfl

/-- A plain text in front of a query or a fragment is read as its own segments. -/
theorem readSegments_of_plain {scheme : List Char} (hspecial : isSpecial scheme = true)
    (hs : scheme ≠ fileScheme) (front : List (List Char)) {body tail : List Char}
    (hchars : ∀ c ∈ body, isPlainChar c = true)
    (hsegments : ∀ part ∈ splitOnChar '/' body, isPlainSegment part = true)
    (htail : tail.head?.all startsQuery = true) :
    readSegments scheme front (body ++ tail) = front ++ splitOnChar '/' body := by
  have htake : (body ++ tail).takeWhile (fun c => !startsQuery c) = body := by
    have hbody : ∀ c ∈ body, (!startsQuery c) = true := by
      intro c hc
      rw [not_startsQuery_of_isPlainChar (hchars c hc)]
      rfl
    have hnil : tail.takeWhile (fun c => !startsQuery c) = [] := by
      cases tail with
      | nil => rfl
      | cons c rest =>
          exact List.takeWhile_cons_of_neg (by rw [show startsQuery c = true from htail]; decide)
    rw [List.takeWhile_append_of_pos hbody, hnil, List.append_nil]
  have hmem {part : List Char} (hpart : part ∈ splitOnChar '/' body) (c : Char) (hc : c ∈ part) :
      isPlainChar c = true := by
    rcases List.mem_cons.mp (Text.mem_of_mem_splitOnChar hpart hc) with rfl | hc
    · rfl
    · exact hchars c hc
  rw [readSegments, htake, hspecial, splitPath_of_plain hchars]
  exact appendParts_of_plain hs hsegments fun part hpart => hmem hpart

/-- A plain path is resolved to the base with the path behind it, as it is written. -/
theorem resolve_of_isPlain {base : Url} (hb : base.IsBase) {path : String}
    (h : isPlain path = true) :
    ∃ u slashes, base.resolve path = .ok u ∧ (∀ c ∈ slashes, c = '/') ∧ u.scheme = base.scheme ∧
      u.authority = base.authority ∧ u.path.text = base.path.text ++ (core path ++ slashes) := by
  rw [isPlain, Bool.and_eq_true, Bool.and_eq_true, Bool.and_eq_true, decide_eq_true_eq,
    Option.isNone_iff_eq_none, List.all_eq_true (p := isPlainChar)] at h
  obtain ⟨⟨⟨hchars, hhead⟩, hscheme⟩, hsegments⟩ := h
  obtain ⟨slashes, tail, hpath, hslashes, hnil, htail⟩ := Route.exists_around_core hhead
  have hbody : ∀ c ∈ core path ++ slashes, isPlainChar c = true := by
    intro c hc
    rcases List.mem_append.mp hc with hc | hc
    · exact hchars c hc
    · rw [hslashes c hc]
      rfl
  obtain ⟨tail', hclean, htail'⟩ :=
    clean_append (fun c hc => not_outer_of_isPlainChar (hbody c hc)) htail
  have hnone : scheme? (core path ++ slashes ++ tail') = none := by
    rw [List.append_assoc]
    refine scheme?_append hscheme ?_
    cases slashes with
    | nil =>
        cases tail' with
        | nil => rfl
        | cons c rest => exact not_scheme_of_startsQuery htail'
    | cons c rest =>
        rw [hslashes c (List.mem_cons_self ..)]
        rfl
  simp only [resolve_eq_ok hb, relativeText, hpath, hclean, readRequest, hnone]
  cases hcore : core path with
  | nil =>
      obtain ⟨u, hu, hs, ha, hp⟩ := readRelative_query base htail'
      refine ⟨u, [], ?_, fun c hc => (List.not_mem_nil hc).elim, hs, ha, ?_⟩
      · rw [hnil hcore]
        exact hu
      · rw [hp]
        exact (List.append_nil _).symm
  | cons c rest =>
      obtain ⟨front, hfront⟩ := hb.path_eq
      rw [hcore] at hbody hhead
      have hc := hbody c (List.mem_cons_self ..)
      have hslash : isSlash c = false := by
        rw [isPlainChar, Bool.and_eq_true, decide_eq_true_eq] at hc
        rw [isSlash, Bool.or_eq_false_iff, decide_eq_false_iff_not, decide_eq_false_iff_not]
        exact ⟨fun he => hhead (congrArg some he), hc.2⟩
      refine ⟨_, slashes, readRelative_cons front hfront hslash (not_startsQuery_of_isPlainChar hc),
        hslashes, withTail_scheme .., withTail_authority .., ?_⟩
      have hsegments' := readSegments_of_plain hb.isSpecial hb.scheme_ne_file front hbody
        (fun part => hcore ▸ isPlainSegment_of_mem hsegments hslashes) htail'
      refine (congrArg Path.text
        ((withTail_path ..).trans (congrArg Path.segments hsegments'))).trans ?_
      rw [hfront]
      simp only [Path.text, List.flatMap_append, Text.flatMap_splitOnChar]
      simp

/-- **Paths that are written plainly agree with the URL**: of a path that is resolved to the same
URL as a plain one, up to query and fragment, the route is the same, and with it the need of a
session and the family, exactly if it is plain as well. -/
theorem routes_agree_iff {base u v : Url} {p q : String} (hb : base.IsBase)
    (hp : base.resolve p = .ok u) (hq : base.resolve q = .ok v)
    (hsame : u.beforeQuery = v.beforeQuery) (hplain : isPlain q = true) :
    (Route.requiresAuth p = Route.requiresAuth q ∧ Route.isAuthFamily p = Route.isAuthFamily q ∧
      Route.normalize p = Route.normalize q) ↔ isPlain p = true := by
  constructor
  · intro h
    rw [isPlain, Route.normalize_eq_iff.mp h.2.2]
    exact hplain
  · intro hplain'
    obtain ⟨u', ss, hu', hss, hus, hua, hup⟩ := resolve_of_isPlain hb hplain'
    obtain ⟨v', ts, hv', hts, hvs, hva, hvp⟩ := resolve_of_isPlain hb hplain
    rw [hp] at hu'
    rw [hq] at hv'
    cases hu'
    cases hv'
    have hroute : Route.normalize p = Route.normalize q := by
      obtain ⟨a, ha⟩ := Option.isSome_iff_exists.mp hb.hosted
      rw [beforeQuery, beforeQuery, hus, hua, hup, hvs, hva, hvp, ha] at hsame
      have htext : core p ++ ss = core q ++ ts := by simpa using hsame
      exact Route.normalize_eq_iff.mpr (Route.eq_of_append_slashes (Route.getLast?_core p)
        (Route.getLast?_core q) hss hts htext)
    exact ⟨by rw [Route.requiresAuth, Route.requiresAuth, hroute],
      by rw [Route.isAuthFamily, Route.isAuthFamily, hroute], hroute⟩

/-- Where sign-in requests go. -/
def loginUrl : Url :=
  { versionedRoot with
    path := .segments ["api".toList, "v1".toList, "auth".toList, "login".toList] }

theorem routes_agree_iff_login :
    versionedRoot.IsBase ∧
      versionedRoot.resolve "auth/login?next=/words" =
        .ok { loginUrl with query := some "next=/words".toList } ∧
      versionedRoot.resolve "/auth/login" = .ok loginUrl ∧
      Url.beforeQuery { loginUrl with query := some "next=/words".toList } =
        loginUrl.beforeQuery ∧
      isPlain "/auth/login" = true ∧ isPlain "auth/login?next=/words" = true ∧
      Route.requiresAuth "auth/login?next=/words" = Route.requiresAuth "/auth/login" ∧
      Route.isAuthFamily "auth/login?next=/words" = Route.isAuthFamily "/auth/login" ∧
      Route.normalize "auth/login?next=/words" = Route.normalize "/auth/login" := by
  have hp : versionedRoot.resolve "auth/login?next=/words" =
      .ok { loginUrl with query := some "next=/words".toList } := rfl
  have hq : versionedRoot.resolve "/auth/login" = .ok loginUrl := rfl
  have hplain : isPlain "/auth/login" = true := by decide
  have hplain' : isPlain "auth/login?next=/words" = true := by decide
  exact ⟨isBase_versionedRoot, hp, hq, rfl, hplain, hplain',
    (routes_agree_iff isBase_versionedRoot hp hq rfl hplain).mpr hplain'⟩

/-- All slashes in front of a path are left out of the URL, but only one of them of the route: the
sign-in behind two slashes is taken for a route that is not limited and needs a session. -/
theorem not_routes_agree_slashes :
    versionedRoot.IsBase ∧
      versionedRoot.resolve "//auth/login" = .ok loginUrl ∧
      versionedRoot.resolve "/auth/login" = .ok loginUrl ∧
      Route.requiresAuth "//auth/login" ≠ Route.requiresAuth "/auth/login" ∧
      Route.isAuthFamily "//auth/login" ≠ Route.isAuthFamily "/auth/login" ∧
      Route.normalize "//auth/login" ≠ Route.normalize "/auth/login" :=
  ⟨isBase_versionedRoot, rfl, rfl, by decide, by decide, by decide⟩

end Url

end ClientSession
