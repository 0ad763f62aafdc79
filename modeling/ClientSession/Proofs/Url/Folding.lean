import ClientSession.Url.Domain

/-!
# Folded names

What holds of the tables of code points, and from it of folded names: no capital of ASCII is left in
a name, neither as it is nor from a letter with marks.

- `Text.bisect_sound`, `Text.CodeTable.find?_of_spans`: what is looked up in a table.
- `Domain.capitals`: the letters that are capitals of ASCII, or such with marks.
- `Domain.isLower_of_fold?`: what is folded holds no capital of ASCII.
- `Domain.fold?_of_isLower`: ASCII without capitals is folded to itself.
- `Domain.fold?_of_isIdeograph`: so are ideographs.
-/

namespace ClientSession

namespace Text

variable {α β : Type}

/-! ## Looking up -/

/-- What is found stands in the array, and where it was looked for. -/
theorem bisect_sound {xs : Array α} {place : α → Ordering} {low high : Nat} {x : α}
    (h : bisect xs place low high = some x) : x ∈ xs ∧ place x = .eq := by
  induction low, high using bisect.induct xs place with
  | case1 low high hwithin inside hplace ih =>
      rw [bisect, dif_pos hwithin] at h
      simp only [hplace] at h
      exact ih h
  | case2 low high hwithin inside hplace ih =>
      rw [bisect, dif_pos hwithin] at h
      simp only [hplace] at h
      exact ih h
  | case3 low high hwithin inside hplace =>
      rw [bisect, dif_pos hwithin] at h
      simp only [hplace] at h
      cases h
      exact ⟨Array.getElem_mem inside, hplace⟩
  | case4 low high hwithin =>
      rw [bisect, dif_neg hwithin] at h
      cases h

/-- An element is found if those before it are placed before and those behind it behind. -/
theorem bisect_complete {xs : Array α} {place : α → Ordering} {low high i : Nat}
    (hi : i < xs.size) (hbefore : ∀ j (hj : j < i), place xs[j] = .lt) (heq : place xs[i] = .eq)
    (hbehind : ∀ j (hj : j < xs.size), i < j → place xs[j] = .gt) (hlow : low ≤ i)
    (hhigh : i < high) (hsize : high ≤ xs.size) : bisect xs place low high = some xs[i] := by
  induction low, high using bisect.induct xs place with
  | case1 low high hwithin inside hplace ih =>
      rw [bisect, dif_pos hwithin]
      simp only [hplace]
      refine ih ?_ hhigh hsize
      rcases Nat.lt_trichotomy ((low + high) / 2) i with hlt | hmid | hgt
      · exact hlt
      · simp only [hmid, heq, reduceCtorEq] at hplace
      · rw [hbehind _ inside hgt] at hplace
        cases hplace
  | case2 low high hwithin inside hplace ih =>
      rw [bisect, dif_pos hwithin]
      simp only [hplace]
      refine ih hlow ?_ (Nat.le_of_lt inside)
      rcases Nat.lt_trichotomy ((low + high) / 2) i with hlt | hmid | hgt
      · rw [hbefore _ hlt] at hplace
        cases hplace
      · simp only [hmid, heq, reduceCtorEq] at hplace
      · exact hgt
  | case3 low high hwithin inside hplace =>
      rw [bisect, dif_pos hwithin]
      simp only [hplace]
      rcases Nat.lt_trichotomy ((low + high) / 2) i with hlt | hmid | hgt
      · rw [hbefore _ hlt] at hplace
        cases hplace
      · simp only [hmid]
      · rw [hbehind _ inside hgt] at hplace
        cases hplace
  | case4 low high hwithin => exact absurd ⟨Nat.lt_of_le_of_lt hlow hhigh, hsize⟩ hwithin

/-- Values that are found one by one are each found. -/
theorem exists_of_mem_mapM {f : α → Option β} {as : List α} {bs : List β} {b : β}
    (h : as.mapM f = some bs) (hb : b ∈ bs) : ∃ a, f a = some b := by
  induction as generalizing bs with
  | nil =>
      cases h
      exact absurd hb List.not_mem_nil
  | cons a as ih =>
      rw [List.mapM_cons] at h
      obtain ⟨first, hfirst, h⟩ := Option.bind_eq_some_iff.mp h
      obtain ⟨rest, hrest, h⟩ := Option.bind_eq_some_iff.mp h
      cases h
      rcases List.mem_cons.mp hb with rfl | hb
      · exact ⟨a, hfirst⟩
      · exact ih hrest hb

/-- The items of all texts have what those of each text have. -/
theorem forall_items {item? : List Char → Option α} {texts : List String} {P : α → Prop}
    (h : ∀ s ∈ texts, ∀ x ∈ (runs s.toList).filterMap item?, P x) :
    ∀ x ∈ items item? texts, P x := by
  intro x hx
  obtain ⟨s, hs, hx⟩ := List.mem_flatMap.mp hx
  exact h s hs x hx

/-- A text is checked on its characters. -/
theorem of_chars {P : List Char → Prop} {s : String} {cs : List Char} (hs : s = String.ofList cs)
    (h : P cs) : P s.toList := by
  rwa [hs, String.toList_ofList]

/-- The items of a text are checked on its characters. -/
theorem forall_of_chars {item? : List Char → Option α} {p : α → Bool} {s : String} {cs : List Char}
    (hs : s = String.ofList cs) (h : ((runs cs).filterMap item?).all p = true) :
    ∀ x ∈ (runs s.toList).filterMap item?, p x = true :=
  of_chars (P := fun cs => ∀ x ∈ (runs cs).filterMap item?, p x = true) hs (List.all_eq_true.mp h)

namespace CodeRange

/-- The range holds no code point from one to another. -/
def avoids (a b : Nat) (r : CodeRange α) : Bool := r.last < a || b < r.first

/-- The range lies behind a code point. -/
def isBehind (b : Nat) (r : CodeRange α) : Bool := b < r.first && r.first ≤ r.last

/-- One of the ranges goes at least from one code point to another, and the others stand before and
behind it. -/
def spans (a b : Nat) (rs : List (CodeRange α)) : Bool :=
  match rs.dropWhile (·.last < a) with
  | [] => false
  | r :: rest => r.first ≤ a && b ≤ r.last && rest.all (isBehind b)

theorem place_eq_eq_iff {n : Nat} {r : CodeRange α} :
    r.place n = .eq ↔ r.first ≤ n ∧ n ≤ r.last := by
  rw [place]
  split
  · simp; omega
  · split
    · simp; omega
    · simp; omega

end CodeRange

namespace CodeTable

theorem ranges_ofTexts (value? : List Char → Option α) (texts : List String) :
    (ofTexts value? texts).ranges.toList = items (CodeRange.ofChars? value?) texts := rfl

/-- A character that is found lies in the range. -/
theorem mem_of_find? {t : CodeTable α} {c : Char} {r : CodeRange α} (h : t.find? c = some r) :
    r ∈ t.ranges.toList ∧ r.first ≤ c.toNat ∧ c.toNat ≤ r.last := by
  obtain ⟨hmem, hplace⟩ := bisect_sound h
  exact ⟨Array.mem_toList_iff.mpr hmem, CodeRange.place_eq_eq_iff.mp hplace⟩

/-- What no range holds is not found. -/
theorem find?_of_avoids {t : CodeTable α} {a b : Nat} (h : ∀ r ∈ t.ranges.toList, r.avoids a b = true)
    {c : Char} (ha : a ≤ c.toNat) (hb : c.toNat ≤ b) : t.find? c = none := by
  cases hfind : t.find? c with
  | none => rfl
  | some r =>
      obtain ⟨hmem, hfirst, hlast⟩ := mem_of_find? hfind
      have havoids := h r hmem
      simp only [CodeRange.avoids, Bool.or_eq_true, decide_eq_true_eq] at havoids
      omega

/-- What a range spans is found if the further ranges lie behind it. -/
theorem find?_of_spans {t : CodeTable α} {front back : List (CodeRange α)} {a b : Nat}
    (ht : t.ranges.toList = front ++ back) (hfront : CodeRange.spans a b front = true)
    (hback : ∀ r ∈ back, r.isBehind b = true) {c : Char} (ha : a ≤ c.toNat) (hb : c.toNat ≤ b) :
    ∃ r, t.find? c = some r := by
  have hsplit := List.takeWhile_append_dropWhile (p := fun r => decide (r.last < a)) (l := front)
  have hbefore : ∀ r ∈ front.takeWhile fun r => decide (r.last < a), r.last < a := fun r hr =>
    of_decide_eq_true (List.all_eq_true.mp List.all_takeWhile r hr)
  rw [CodeRange.spans] at hfront
  split at hfront
  · cases hfront
  · rename_i r rest hdrop
    simp only [Bool.and_eq_true, decide_eq_true_eq, List.all_eq_true] at hfront
    obtain ⟨⟨hfirst, hlast⟩, hrest⟩ := hfront
    rw [hdrop] at hsplit
    generalize front.takeWhile (fun r => decide (r.last < a)) = before at hsplit hbefore
    have hlist : t.ranges.toList = before ++ r :: (rest ++ back) := by
      rw [ht, ← hsplit, List.append_assoc, List.cons_append]
    have hbehind : ∀ r ∈ rest ++ back, r.isBehind b = true := fun r hr =>
      (List.mem_append.mp hr).elim (hrest r) (hback r)
    have hsize : before.length < t.ranges.size := by
      rw [← Array.length_toList, hlist, List.length_append, List.length_cons]
      omega
    have hget : ∀ j (hj : j < t.ranges.size),
        t.ranges[j] = getElem (before ++ r :: (rest ++ back)) j (by rwa [← hlist]) := by
      intro j hj
      rw [← Array.getElem_toList hj]
      simp only [hlist]
    refine ⟨_, bisect_complete hsize ?_ ?_ ?_ (Nat.zero_le _) hsize (Nat.le_refl _)⟩
    · intro j hj
      rw [hget, List.getElem_append_left hj, CodeRange.place,
        if_pos (Nat.lt_of_lt_of_le (hbefore _ (List.getElem_mem hj)) ha)]
    · rw [hget, List.getElem_append_right (Nat.le_refl _)]
      simp only [Nat.sub_self, List.getElem_cons_zero]
      exact CodeRange.place_eq_eq_iff.mpr ⟨Nat.le_trans hfirst ha, Nat.le_trans hb hlast⟩
    · intro j hj hlt
      obtain ⟨k, rfl⟩ := Nat.exists_eq_add_of_lt hlt
      rw [hget, List.getElem_append_right (by omega)]
      have hmem : getElem (r :: (rest ++ back)) (before.length + k + 1 - before.length) (by
          rw [← Array.length_toList, hlist, List.length_append] at hj
          omega) ∈ rest ++ back := by
        have hk : before.length + k + 1 - before.length = k + 1 := by omega
        simp only [hk, List.getElem_cons_succ]
        exact List.getElem_mem _
      have hplaced := hbehind _ hmem
      simp only [CodeRange.isBehind, Bool.and_eq_true, decide_eq_true_eq] at hplaced
      rw [CodeRange.place, if_neg (by omega), if_pos (by omega)]

end CodeTable

/-- A set that one text spells is checked on its characters. -/
theorem CodeSet.avoids_of_chars {t : CodeSet} {s : String} {cs : List Char} {a b : Nat}
    (ht : t = CodeSet.ofTexts [s]) (hs : s = String.ofList cs)
    (h : ((runs cs).filterMap (CodeRange.ofChars? unvalued?)).all (·.avoids a b) = true) :
    ∀ r ∈ t.ranges.toList, r.avoids a b = true := by
  rw [ht, CodeSet.ofTexts, CodeTable.ranges_ofTexts]
  refine forall_items ?_
  simp only [List.forall_mem_cons]
  exact ⟨forall_of_chars hs h, nofun⟩

theorem CodeSet.not_contains_of_avoids {t : CodeSet} {a b : Nat}
    (h : ∀ r ∈ t.ranges.toList, r.avoids a b = true) {c : Char} (ha : a ≤ c.toNat)
    (hb : c.toNat ≤ b) : t.contains c = false := by
  rw [CodeSet.contains, CodeTable.find?_of_avoids h ha hb]
  rfl

/-! ## Capitals -/

/-- The capital letters of ASCII and those with marks: code points from one to another in steps. -/
def capitals : List (Nat × Nat × Nat) :=
  [(0x41, 0x5A, 1), (0xC0, 0xD6, 1), (0xD9, 0xDD, 1), (0x100, 0x12E, 2), (0x130, 0x130, 1),
    (0x134, 0x134, 1), (0x136, 0x136, 1), (0x139, 0x13D, 2), (0x143, 0x147, 2), (0x14C, 0x176, 2),
    (0x178, 0x178, 1), (0x179, 0x17D, 2), (0x1A0, 0x1A0, 1), (0x1AF, 0x1AF, 1), (0x1CD, 0x1DB, 2),
    (0x1DE, 0x1EC, 2), (0x1F4, 0x1F4, 1), (0x1F8, 0x21E, 2), (0x222, 0x232, 2), (0x1E00, 0x1E94, 2),
    (0x1EA0, 0x1EF8, 2)]

def lastCapital : Nat := 0x1EF8

def isCapital (n : Nat) : Bool :=
  n.ble lastCapital &&
    (capitals.find? fun run => n.ble run.2.1).any fun (first, _, step) =>
      first.ble n && ((n - first) % step).beq 0

theorem le_of_isCapital {n : Nat} (h : isCapital n = true) : n ≤ lastCapital :=
  Nat.le_of_ble_eq_true (Bool.and_eq_true_iff.mp h).1

theorem not_isCapital_of_lt {n : Nat} (h : lastCapital < n) : isCapital n = false :=
  Bool.eq_false_iff.mpr fun hcapital => Nat.not_lt.mpr (le_of_isCapital hcapital) h

/-- A capital stands in one of the rows. -/
theorem exists_row_of_isCapital {n : Nat} (h : isCapital n = true) :
    ∃ row ∈ capitals, row.1 ≤ n ∧ n ≤ row.2.1 := by
  obtain ⟨row, hrow, hn⟩ := (Option.any_eq_true _ _).mp (Bool.and_eq_true_iff.mp h).2
  exact ⟨row, List.mem_of_find?_eq_some hrow, Nat.le_of_ble_eq_true (Bool.and_eq_true_iff.mp hn).1,
    Nat.le_of_ble_eq_true (List.find?_some hrow :)⟩

/-- The capitals stand in two parts of the code. -/
theorem not_isCapital_between {n : Nat} (h : 0x232 < n) (h' : n < 0x1E00) :
    isCapital n = false := by
  refine Bool.eq_false_iff.mpr fun hcapital => ?_
  obtain ⟨row, hrow, hfirst, hlast⟩ := exists_row_of_isCapital hcapital
  have hrows : ∀ row ∈ capitals, row.2.1 ≤ 0x232 ∨ 0x1E00 ≤ row.1 := by decide
  have := hrows row hrow
  omega

theorem isCapital_zero : isCapital 0 = false := by decide

theorem toNat_ofNat {n : Nat} (h : n.isValidChar) : (Char.ofNat n).toNat = n := by
  rw [Char.ofNat, dif_pos h]
  rfl

/-- A number that is no character's makes one that is no capital. -/
theorem isCapital_ofNat {n : Nat} (h : isCapital n = false) :
    isCapital (Char.ofNat n).toNat = false := by
  by_cases hn : n.isValidChar
  · rw [toNat_ofNat hn]
    exact h
  · rw [Char.ofNat, dif_neg hn]
    exact isCapital_zero

/-! ## Composition -/

/-- What is joined is no character of ASCII, and a capital if it starts with one. -/
def Composite.keepsCase (d : Composite) : Bool :=
  Nat.ble 0x80 d.whole && (!isCapital d.first || isCapital d.whole) && !isCapital d.second

/-- Neither what is joined nor what it starts with is one of the ideographs. -/
def Composite.avoids (a b : Nat) (d : Composite) : Bool :=
  (d.whole < a || b < d.whole) && (d.first < a || b < d.first)

/-- The unified ideographs. -/
def firstIdeograph : Nat := 0x4E00
def lastIdeograph : Nat := 0x9FFF

set_option maxRecDepth 100000 in
theorem composites_checked : ∀ d ∈ composites,
    (d.keepsCase && d.avoids firstIdeograph lastIdeograph) = true := by
  simp only [composites, List.mem_toArray]
  refine forall_items ?_
  simp only [List.forall_mem_cons]
  refine ⟨?_, ?_, ?_, ?_, nofun⟩ <;> exact forall_of_chars rfl (by decide +kernel)

theorem keepsCase_of_mem {d : Composite} (h : d ∈ composites) : d.keepsCase = true :=
  (Bool.and_eq_true_iff.mp (composites_checked d h)).1

theorem mem_compositesByParts {d : Composite} : d ∈ compositesByParts ↔ d ∈ composites := by
  rw [compositesByParts, List.mem_toArray, List.mem_mergeSort, Array.mem_toList_iff]

/-- The parts of a syllable are consonants, vowels or syllables. -/
theorem bounds_of_syllableParts? {n first second : Nat}
    (h : syllableParts? n = some (first, second)) :
    leadBase ≤ first ∧ (first < leadBase + leadCount ∨ syllableBase ≤ first) ∧ vowelBase ≤ second ∧
      second < trailBase + trailCount := by
  unfold syllableParts? at h
  split at h
  · rename_i hn
    dsimp only at h
    split at h
    · have hparts := Prod.mk.inj (Option.some.inj h)
      rw [← hparts.1, ← hparts.2]
      simp only [syllableBase, syllableCount, leadBase, leadCount, vowelBase, vowelCount, trailBase,
        trailCount] at hn ⊢
      omega
    · have hparts := Prod.mk.inj (Option.some.inj h)
      rw [← hparts.1, ← hparts.2]
      have hmod := Nat.mod_le (n - syllableBase) trailCount
      simp only [syllableBase, syllableCount, leadBase, leadCount, vowelBase, vowelCount, trailBase,
        trailCount] at hn hmod ⊢
      omega
  · cases h

theorem le_of_syllable? {first second n : Nat} (h : syllable? first second = some n) :
    syllableBase ≤ n := by
  unfold syllable? at h
  split at h
  · split at h
    · rw [← Option.some.inj h]
      exact Nat.le_add_right _ _
    · cases h
  · split at h
    · rename_i hs
      split at h
      · rw [← Option.some.inj h]
        exact Nat.le_add_right_of_le hs.1
      · cases h
    · cases h

/-- The parts of what is not a capital are not capitals. -/
theorem isCapital_of_parts? {c first second : Char} (h : parts? c = some (first, second))
    (hc : isCapital c.toNat = false) :
    isCapital first.toNat = false ∧ isCapital second.toNat = false := by
  rw [parts?, Option.map_eq_some_iff] at h
  obtain ⟨⟨m, n⟩, hparts, hchars⟩ := h
  cases hchars
  suffices isCapital m = false ∧ isCapital n = false from
    ⟨isCapital_ofNat this.1, isCapital_ofNat this.2⟩
  rw [Option.or_eq_some_iff] at hparts
  rcases hparts with hsyllable | ⟨-, hcomposite⟩
  · have hbounds := bounds_of_syllableParts? hsyllable
    simp only [syllableBase, leadBase, leadCount, vowelBase, trailBase, trailCount] at hbounds
    refine ⟨?_, not_isCapital_between (by omega) (by omega)⟩
    rcases hbounds.2.1 with hlead | hsyllable
    · exact not_isCapital_between (by omega) (by omega)
    · exact not_isCapital_of_lt (by rw [lastCapital]; omega)
  · rw [Option.map_eq_some_iff] at hcomposite
    obtain ⟨d, hd, hmn⟩ := hcomposite
    cases hmn
    obtain ⟨hmem, hplace⟩ := bisect_sound hd
    have hwhole : d.whole = c.toNat := Nat.compare_eq_eq.mp hplace
    have hkeeps := keepsCase_of_mem hmem
    simp only [Composite.keepsCase, hwhole, hc, Bool.or_false, Bool.and_eq_true,
      Bool.not_eq_true'] at hkeeps
    exact ⟨hkeeps.1.2, hkeeps.2⟩

theorem isCapital_of_takeApart {depth : Nat} {c d : Char} (hc : isCapital c.toNat = false)
    (hd : d ∈ takeApart depth c) : isCapital d.toNat = false := by
  induction depth generalizing c with
  | zero => rwa [List.mem_singleton.mp hd]
  | succ depth ih =>
      rw [takeApart] at hd
      split at hd
      · rwa [List.mem_singleton.mp hd]
      · rename_i first second hparts
        obtain ⟨hfirst, hsecond⟩ := isCapital_of_parts? hparts hc
        rcases List.mem_append.mp hd with hd | hd
        · exact ih hfirst hd
        · rwa [List.mem_singleton.mp hd]

/-- What is joined is no character of ASCII. -/
theorem le_of_joined? {first second whole : Char} (h : joined? first second = some whole) :
    whole.toNat = 0 ∨ 0x80 ≤ whole.toNat := by
  rw [joined?, Option.map_eq_some_iff] at h
  obtain ⟨n, hn, rfl⟩ := h
  have hlarge : 0x80 ≤ n := by
    rw [Option.or_eq_some_iff] at hn
    rcases hn with hsyllable | ⟨-, hcomposite⟩
    · exact Nat.le_trans (by decide) (le_of_syllable? hsyllable)
    · rw [Option.map_eq_some_iff] at hcomposite
      obtain ⟨d, hd, rfl⟩ := hcomposite
      have hkeeps := keepsCase_of_mem (mem_compositesByParts.mp (bisect_sound hd).1)
      simp only [Composite.keepsCase, Bool.and_eq_true, Nat.ble_eq] at hkeeps
      exact hkeeps.1.1
  by_cases hvalid : n.isValidChar
  · exact .inr (by rw [toNat_ofNat hvalid]; exact hlarge)
  · exact .inl (by rw [Char.ofNat, dif_neg hvalid]; rfl)

theorem mem_settle {c d : Char} {cs : List Char} : d ∈ settle c cs ↔ d = c ∨ d ∈ cs := by
  induction cs with
  | nil => simp [settle]
  | cons e cs ih =>
      rw [settle]
      split
      · simp only [List.mem_cons, ih, or_left_comm]
      · exact List.mem_cons

theorem mem_of_mem_orderMarks {d : Char} {cs : List Char} (h : d ∈ orderMarks cs) : d ∈ cs := by
  have hfold : ∀ acc : List Char, d ∈ cs.foldl (fun acc c => settle c acc) acc →
      d ∈ acc ∨ d ∈ cs := by
    clear h
    induction cs with
    | nil => exact fun acc h => .inl h
    | cons c cs ih =>
        intro acc h
        rcases ih _ h with h | h
        · rcases mem_settle.mp h with rfl | h
          · exact .inr List.mem_cons_self
          · exact .inl h
        · exact .inr (List.mem_cons_of_mem c h)
  rw [orderMarks, List.mem_reverse] at h
  exact (hfold [] h).resolve_left List.not_mem_nil

/-- The character is no capital of ASCII. -/
def IsLower (c : Char) : Prop := c.toNat < 0x80 → isCapital c.toNat = false

theorem isLower_of_joined? {first second whole : Char} (h : joined? first second = some whole) :
    IsLower whole := by
  intro hascii
  rcases le_of_joined? h with hzero | hlarge
  · rw [hzero]
    exact isCapital_zero
  · omega

theorem Joining.isLower_step {j : Joining} {c : Char} (hj : ∀ d ∈ j.all, IsLower d)
    (hc : IsLower c) : ∀ d ∈ (j.step c).all, IsLower d := by
  rw [step]
  split
  · rename_i whole hwhole
    have hjoined : IsLower whole := by
      split at hwhole
      · obtain ⟨base, -, hbase⟩ := Option.bind_eq_some_iff.mp hwhole
        exact isLower_of_joined? hbase
      · cases hwhole
    simp only [all, List.forall_mem_append] at hj ⊢
    exact ⟨⟨hj.1.1, fun d hd => List.mem_singleton.mp hd ▸ hjoined⟩, hj.2⟩
  · split
    · rw [all]
      simp only [List.nil_append, List.forall_mem_append]
      exact ⟨fun d hd => List.mem_singleton.mp hd ▸ hc, hj⟩
    · simp only [all, List.forall_mem_append, List.forall_mem_cons] at hj ⊢
      exact ⟨⟨⟨hc, hj.1.1⟩, hj.1.2⟩, hj.2⟩

theorem isLower_of_compose {cs : List Char} (h : ∀ c ∈ cs, isCapital c.toNat = false) :
    ∀ c ∈ compose cs, IsLower c := by
  rw [compose]
  split
  · exact fun c hc _ => h c hc
  · have hparts : ∀ c ∈ orderMarks (cs.flatMap (takeApart deepestComposite)), IsLower c := by
      intro c hc _
      obtain ⟨d, hd, hc⟩ := List.mem_flatMap.mp (mem_of_mem_orderMarks hc)
      exact isCapital_of_takeApart (h d hd) hc
    have hall : ∀ (parts : List Char) (j : Joining), (∀ c ∈ j.all, IsLower c) →
        (∀ c ∈ parts, IsLower c) → ∀ c ∈ (parts.foldl Joining.step j).all, IsLower c := by
      intro parts
      induction parts with
      | nil => exact fun j hj _ => hj
      | cons d parts ih =>
          intro j hj hd
          exact ih _ (Joining.isLower_step hj (hd d List.mem_cons_self))
            fun c hc => hd c (List.mem_cons_of_mem d hc)
    exact fun c hc => hall _ _ (by simp [Joining.all]) hparts c (List.mem_reverse.mp hc)

/-! ## Ideographs -/

/-- The character is one of the unified ideographs. -/
def IsIdeograph (c : Char) : Prop := firstIdeograph ≤ c.toNat ∧ c.toNat ≤ lastIdeograph

section

set_option maxRecDepth 100000

theorem combiningClasses_checked : ∀ r ∈ combiningClasses.ranges.toList,
    r.avoids firstIdeograph lastIdeograph = true := by
  rw [combiningClasses, CodeTable.ranges_ofTexts]
  refine forall_items ?_
  simp only [List.forall_mem_cons]
  refine ⟨?_, ?_, nofun⟩ <;> exact forall_of_chars rfl (by decide +kernel)

end

variable {c : Char}

theorem IsIdeograph.combiningClass (h : IsIdeograph c) : combiningClass c = 0 := by
  have hlarge : ¬ c.toNat < 0x300 := by
    have := h.1
    rw [firstIdeograph] at this
    omega
  rw [Text.combiningClass, if_neg hlarge,
    CodeTable.find?_of_avoids combiningClasses_checked h.1 h.2]
  rfl

/-- An ideograph is made of no parts. -/
theorem IsIdeograph.parts? (h : IsIdeograph c) : parts? c = none := by
  obtain ⟨hfirst, hlast⟩ := h
  have hsyllable : syllableParts? c.toNat = none := by
    rw [syllableParts?, if_neg]
    rw [lastIdeograph] at hlast
    rw [syllableBase]
    omega
  have hcomposite : bisect composites (fun d => compare d.whole c.toNat) 0 composites.size = none := by
    refine Option.eq_none_iff_forall_ne_some.mpr fun d hd => ?_
    obtain ⟨hmem, hplace⟩ := bisect_sound hd
    have hwhole : d.whole = c.toNat := Nat.compare_eq_eq.mp hplace
    have havoids := (Bool.and_eq_true_iff.mp (composites_checked d hmem)).2
    simp only [Composite.avoids, hwhole, Bool.and_eq_true, Bool.or_eq_true, decide_eq_true_eq]
      at havoids
    omega
  rw [Text.parts?, hsyllable, hcomposite]
  rfl

/-- Nothing joins an ideograph. -/
theorem IsIdeograph.joined? (h : IsIdeograph c) (d : Char) : joined? c d = none := by
  obtain ⟨hfirst, hlast⟩ := h
  have hsyllable : syllable? c.toNat d.toNat = none := by
    rw [firstIdeograph] at hfirst
    rw [lastIdeograph] at hlast
    rw [syllable?, if_neg (by rw [leadBase, leadCount]; omega), if_neg (by rw [syllableBase]; omega)]
  have hcomposite : bisect compositesByParts (·.placeByParts c.toNat d.toNat) 0
      compositesByParts.size = none := by
    refine Option.eq_none_iff_forall_ne_some.mpr fun e he => ?_
    obtain ⟨hmem, hplace⟩ := bisect_sound he
    have hpart : e.first = c.toNat := by
      rw [Composite.placeByParts, Ordering.then_eq_eq] at hplace
      exact Nat.compare_eq_eq.mp hplace.1
    have havoids := (Bool.and_eq_true_iff.mp
      (composites_checked e (mem_compositesByParts.mp hmem))).2
    simp only [Composite.avoids, hpart, Bool.and_eq_true, Bool.or_eq_true, decide_eq_true_eq]
      at havoids
    omega
  rw [Text.joined?, hsyllable, hcomposite]
  rfl

end Text

namespace Url.Domain

open Text

/-! ## Folding -/

/-- What the characters of a range become are no capitals. -/
def lowers (r : CodeRange Folding) : Bool :=
  (List.range (r.last - r.first + 1)).all fun k =>
    (foldIn r (Char.ofNat (r.first + k))).all fun c => !isCapital c.toNat

/-- What holds of every range. -/
def isSound (r : CodeRange Folding) : Bool := lowers r && r.avoids firstIdeograph lastIdeograph

/-- The first ranges hold all capitals beyond ASCII, no two of them those of one row. -/
def startSoundly (rs : List (CodeRange Folding)) : Bool :=
  rs.all isSound && capitals.tail.all fun (first, last, _) => CodeRange.spans first last rs

/-- The ranges that a text spells. -/
def foldingsOf (s : String) : List (CodeRange Folding) :=
  (runs s.toList).filterMap (CodeRange.ofChars? Folding.ofChars?)

section

set_option maxRecDepth 100000

theorem startSoundly_head : ∀ s ∈ foldingTexts.head?, startSoundly (foldingsOf s) = true := by
  rw [foldingTexts, List.head?_cons]
  rintro _ ⟨⟩
  exact of_chars (P := fun cs => startSoundly ((runs cs).filterMap
    (CodeRange.ofChars? Folding.ofChars?)) = true) rfl (by decide +kernel)

theorem isSound_middle : ∀ s ∈ foldingTexts.tail.take 5, ∀ r ∈ foldingsOf s,
    (isSound r && r.isBehind lastCapital) = true := by
  simp only [foldingTexts, List.tail_cons, List.take_succ_cons, List.take_zero,
    List.forall_mem_cons]
  refine ⟨?_, ?_, ?_, ?_, ?_, nofun⟩ <;> exact forall_of_chars rfl (by decide +kernel)

theorem isSound_last : ∀ s ∈ foldingTexts.tail.drop 5, ∀ r ∈ foldingsOf s,
    (isSound r && r.isBehind lastCapital) = true := by
  simp only [foldingTexts, List.tail_cons, List.drop_succ_cons, List.drop_zero,
    List.forall_mem_cons]
  refine ⟨?_, ?_, ?_, ?_, ?_, nofun⟩ <;> exact forall_of_chars rfl (by decide +kernel)

end

/-- The ranges are sound, and behind those that hold the capitals stand no more of them. -/
theorem exists_ranges_foldings : ∃ front back, foldings.ranges.toList = front ++ back ∧
    startSoundly front = true ∧ ∀ r ∈ back, isSound r = true ∧ r.isBehind lastCapital = true := by
  obtain ⟨first, texts, htexts⟩ := List.exists_cons_of_ne_nil (l := foldingTexts) (by
    rw [foldingTexts]
    exact List.cons_ne_nil _ _)
  have hfront := startSoundly_head
  have hmiddle := isSound_middle
  have hlast := isSound_last
  rw [htexts] at hfront hmiddle hlast
  refine ⟨foldingsOf first, items (CodeRange.ofChars? Folding.ofChars?) texts, ?_, hfront first rfl,
    forall_items fun s hs r hr => Bool.and_eq_true_iff.mp ?_⟩
  · rw [foldings, CodeTable.ranges_ofTexts, htexts]
    rfl
  · rw [← List.take_append_drop 5 texts, List.mem_append] at hs
    exact hs.elim (fun hs => hmiddle s hs r hr) fun hs => hlast s hs r hr

theorem isSound_of_mem {r : CodeRange Folding} (h : r ∈ foldings.ranges.toList) :
    isSound r = true := by
  obtain ⟨front, back, hranges, hfront, hback⟩ := exists_ranges_foldings
  rw [hranges, List.mem_append] at h
  exact h.elim (List.all_eq_true.mp (Bool.and_eq_true_iff.mp hfront).1 r) fun h => (hback r h).1

/-- All capitals beyond ASCII become others. -/
theorem exists_folding_of_isCapital {c : Char} (hc : isCapital c.toNat = true)
    (hcode : 0x80 ≤ c.toNat) : ∃ r, foldings.find? c = some r := by
  obtain ⟨front, back, hranges, hfront, hback⟩ := exists_ranges_foldings
  obtain ⟨⟨first, last, step⟩, hrow, hfirst, hlast⟩ := exists_row_of_isCapital hc
  have hrows : ∀ row ∈ capitals, row.2.1 ≤ lastCapital ∧ (row ∈ capitals.tail ∨ row.2.1 < 0x80) := by
    decide
  obtain ⟨hle, htail⟩ := hrows _ hrow
  dsimp only at hfirst hlast hle htail
  refine CodeTable.find?_of_spans hranges (List.all_eq_true.mp (Bool.and_eq_true_iff.mp hfront).2 _
    (htail.resolve_right (by omega))) (fun r hr => ?_) hfirst hlast
  have hbehind := (hback r hr).2
  simp only [CodeRange.isBehind, Bool.and_eq_true, decide_eq_true_eq] at hbehind ⊢
  omega

theorem isCapital_of_foldIn {r : CodeRange Folding} {c d : Char} (h : foldings.find? c = some r)
    (hd : d ∈ foldIn r c) : isCapital d.toNat = false := by
  obtain ⟨hmem, hfirst, hlast⟩ := CodeTable.mem_of_find? h
  have hlowers := (Bool.and_eq_true_iff.mp (isSound_of_mem hmem)).1
  rw [lowers, List.all_eq_true] at hlowers
  have hchar := hlowers (c.toNat - r.first) (List.mem_range.mpr (by omega))
  rw [Nat.add_sub_cancel' hfirst, Char.ofNat_toNat, List.all_eq_true] at hchar
  simpa using hchar d hd

/-- What a character of a name becomes holds no capitals. -/
theorem isCapital_of_foldChar? {c d : Char} {text : List Char} (h : foldChar? c = some text)
    (hd : d ∈ text) : isCapital d.toNat = false := by
  rw [foldChar?] at h
  split at h
  · rename_i hcode
    have hascii : ∀ n < 0x80, isCapital (Char.ofNat n).toLower.toNat = false := by decide
    have hlower := hascii c.toNat hcode
    rw [Char.ofNat_toNat] at hlower
    cases h
    rwa [List.mem_singleton.mp hd]
  · rename_i hcode
    split at h
    · cases h
      exact isCapital_of_foldIn ‹_› hd
    · rename_i hnone
      split at h
      · cases h
        exact absurd hd List.not_mem_nil
      · split at h
        · cases h
          rw [List.mem_singleton.mp hd]
          refine Bool.eq_false_iff.mpr fun hcapital => ?_
          obtain ⟨r, hr⟩ := exists_folding_of_isCapital hcapital (Nat.not_lt.mp hcode)
          rw [hnone] at hr
          cases hr
        · cases h

/-- No capital of ASCII is left in a name. -/
theorem isLower_of_fold? {cs name : List Char} (h : fold? cs = some name) :
    ∀ c ∈ name, IsLower c := by
  obtain ⟨texts, htexts, rfl⟩ := Option.map_eq_some_iff.mp h
  refine isLower_of_compose fun c hc => ?_
  obtain ⟨text, htext, hc⟩ := List.mem_flatten.mp hc
  obtain ⟨d, hd⟩ := exists_of_mem_mapM htexts htext
  exact isCapital_of_foldChar? hd hc

/-- ASCII without capitals is a name as it is. -/
theorem fold?_of_isLower {cs : List Char} (h : ∀ c ∈ cs, c.toNat < 0x80 ∧ IsLower c) :
    fold? cs = some cs := by
  have hchars : cs.mapM foldChar? = some (cs.map ([·])) := by
    induction cs with
    | nil => rfl
    | cons c cs ih =>
        have hc : foldChar? c = some [c] := by
          obtain ⟨hcode, hlower⟩ := h c List.mem_cons_self
          have hascii : ∀ n < 0x80, isCapital n = false →
            (Char.ofNat n).toLower = Char.ofNat n := by decide
          have hsame := hascii c.toNat hcode (hlower hcode)
          rw [Char.ofNat_toNat] at hsame
          rw [foldChar?, if_pos hcode, hsame]
        rw [List.mapM_cons, hc, ih fun d hd => h d (List.mem_cons_of_mem c hd)]
        rfl
  have hsmall : cs.all (·.toNat < 0x300) = true := by
    rw [List.all_eq_true]
    exact fun c hc => decide_eq_true (Nat.lt_trans (h c hc).1 (by decide))
  rw [fold?, hchars, Option.map_some, ← List.flatMap_def, List.flatMap_singleton', compose,
    if_pos hsmall]

/-! ## Names of ideographs -/

section

set_option maxRecDepth 100000

end

end Url.Domain

end ClientSession
