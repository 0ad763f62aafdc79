import ClientSession.Json.Decoder
import ClientSession.Proofs.Json.Grammar
import Mathlib.Data.List.DropRight
import Mathlib.Tactic.SplitIfs

/-!
# Readers follow the grammar

Whatever a reader makes of a value, it finds one where it begins to read, and leaves unread what
follows it. That holds of the readers of atoms, of the pass over a value of any kind, and of
decoders that are put together.

- `takes_readNumber`, `takes_skipNumber`, `quoted_readChars`, `quoted_skipChars`: the atoms.
- `passes_skipInside`, `spells_skipValue`: what is passed over is a value.
- `Spelled`: what a decoder reads is a value.
- `spelled_decodeText`, `spelled_decodeNumber`, `Spelled.option`, `Spelled.list`, `Spelled.table`,
  `RecordShape.spelled_decode`: so it is with each kind of decoder.
- `spelled_readValue`, `document_of_parse?`: and with values of any shape.
-/

namespace ClientSession.Json

variable {α β κ δ : Type}

/-- The text begins with such characters, and goes on with the rest. -/
def Takes (P : List Char → Prop) (cs rest : List Char) : Prop :=
  ∃ front, P front ∧ cs = front ++ rest

theorem Takes.append {P Q R : List Char → Prop} {cs mid rest : List Char} (h : Takes P cs mid)
    (h' : Takes Q mid rest) (hboth : ∀ front back, P front → Q back → R (front ++ back)) :
    Takes R cs rest := by
  obtain ⟨front, hfront, rfl⟩ := h
  obtain ⟨back, hback, rfl⟩ := h'
  exact ⟨front ++ back, hboth front back hfront hback, (List.append_assoc ..).symm⟩

theorem Takes.mono {P Q : List Char → Prop} {cs rest : List Char} (h : Takes P cs rest)
    (himp : ∀ front, P front → Q front) : Takes Q cs rest := by
  obtain ⟨front, hfront, hcs⟩ := h
  exact ⟨front, himp front hfront, hcs⟩

theorem takes_nothing {P : List Char → Prop} (h : P []) (cs : List Char) : Takes P cs cs :=
  ⟨[], h, rfl⟩

/-! ## Numbers -/

theorem run_nil : Run [] := nofun

theorem Run.append {ds ds' : List Char} (h : Run ds) (h' : Run ds') : Run (ds ++ ds') :=
  fun c hc => (List.mem_append.mp hc).elim (h c) (h' c)

theorem Run.cons {c : Char} {ds : List Char} (hc : isDigit c = true) (h : Run ds) :
    Run (c :: ds) :=
  fun _ hd => (List.mem_cons.mp hd).elim (fun heq => heq ▸ hc) (h _)

theorem digits_cons {c : Char} {ds : List Char} (hc : isDigit c = true) (h : Run ds) :
    Digits (c :: ds) := ⟨List.cons_ne_nil c ds, h.cons hc⟩

/-- The end of a number that is not negative, behind its integer part. -/
def Fraction (cs : List Char) : Prop :=
  ∃ places power, Places places ∧ Power power ∧ cs = places ++ power

theorem Power.fraction {cs : List Char} (h : Power cs) : Fraction cs :=
  ⟨[], cs, .inl rfl, h, rfl⟩

theorem Whole.unsigned {whole fraction : List Char} (h : Whole whole) (h' : Fraction fraction) :
    Unsigned (whole ++ fraction) := by
  obtain ⟨places, power, hplaces, hpower, rfl⟩ := h'
  exact ⟨whole, places, power, h, hplaces, hpower, rfl⟩

/-- An exponent is a sign that may be left out, a digit and more of them. -/
theorem takes_signed {sign ds : List Char} {c : Char} (hsign : sign ∈ [[], ['+'], ['-']])
    (hc : isDigit c = true) (hds : Run ds) (rest : List Char) :
    Takes Signed (sign ++ c :: (ds ++ rest)) rest :=
  ⟨sign ++ c :: ds, ⟨sign, c :: ds, hsign, digits_cons hc hds, rfl⟩, by simp⟩

theorem not_zero_of_head {c : Char} {ds : List Char} (hc : c ≠ '0') :
    (c :: ds).head? ≠ some '0' := fun h => hc (Option.some.inj h)

section Numbers

variable {positive : Bool} {m : Nat} {e : Int} {cs rest : List Char} {v : JsonNumber}

theorem takes_dropWhile (cs : List Char) : Takes Run cs (cs.dropWhile isDigit) :=
  ⟨cs.takeWhile isDigit, fun _ hc => List.mem_takeWhile_imp hc,
    List.takeWhile_append_dropWhile.symm⟩

theorem takes_takeDigits (m : Nat) (cs : List Char) :
    Takes (fun ds => Run ds ∧ ds.length = (takeDigits m cs).2.1) cs (takeDigits m cs).2.2 := by
  induction cs generalizing m with
  | nil => exact takes_nothing ⟨run_nil, rfl⟩ []
  | cons c cs ih =>
      rw [takeDigits]
      split
      · rename_i hdigit
        dsimp only
        split
        · obtain ⟨ds, ⟨hds, hlength⟩, hcs⟩ := ih (m * 10 + digitValue c)
          exact ⟨c :: ds, ⟨hds.cons hdigit, congrArg (· + 1) hlength⟩, congrArg (c :: ·) hcs⟩
        · exact takes_nothing ⟨run_nil, rfl⟩ _
      · exact takes_nothing ⟨run_nil, rfl⟩ _

theorem takes_takeExponent (n : Nat) (cs : List Char) :
    Takes Run cs (takeExponent n cs).2.2 := by
  induction cs generalizing n with
  | nil => exact takes_nothing run_nil []
  | cons c cs ih =>
      rw [takeExponent]
      split
      · rename_i hdigit
        dsimp only
        split
        · obtain ⟨ds, hds, hcs⟩ := ih (n * 10 + digitValue c)
          exact ⟨c :: ds, hds.cons hdigit, congrArg (c :: ·) hcs⟩
        · exact ⟨[c], run_nil.cons hdigit, rfl⟩
      · exact takes_nothing run_nil _

theorem rest_of_readScaled {unread : List Char}
    (h : readScaled positive m e unread = .ok (v, rest)) : unread = rest := by
  rw [readScaled] at h
  split at h
  · cases h
    rfl
  · cases h

theorem takes_readExponent (h : readExponent positive m e cs = .ok (v, rest)) :
    Takes Signed cs rest := by
  rw [readExponent.eq_def] at h
  dsimp only at h
  split at h
  · cases h
  · rename_i c unread hunsigned
    have hsign : ∃ sign ∈ [[], ['+'], ['-']], cs = sign ++ c :: unread := by
      split at hunsigned
      · exact ⟨['+'], by simp, congrArg ('+' :: ·) hunsigned⟩
      · exact ⟨['-'], by simp, congrArg ('-' :: ·) hunsigned⟩
      · exact ⟨[], by simp, hunsigned⟩
    obtain ⟨sign, hsign, rfl⟩ := hsign
    split at h
    · rename_i hdigit
      have htaken := takes_takeExponent (digitValue c) unread
      have hrun : Takes Run unread rest := by
        by_cases hoverflow : (takeExponent (digitValue c) unread).2.1 = true
        · rw [if_pos hoverflow] at h
          split_ifs at h
          cases h
          exact htaken.append (takes_dropWhile _) fun _ _ => Run.append
        · rw [if_neg hoverflow] at h
          rwa [rest_of_readScaled h] at htaken
      obtain ⟨ds, hds, rfl⟩ := hrun
      exact takes_signed hsign hdigit hds rest
    · cases h

theorem takes_readTail (h : readTail positive m e cs = .ok (v, rest)) : Takes Power cs rest := by
  rw [readTail.eq_def] at h
  split at h
  · obtain ⟨ds, hds, rfl⟩ := takes_readExponent h
    exact ⟨'e' :: ds, .inr ⟨ds, hds, .inl rfl⟩, rfl⟩
  · obtain ⟨ds, hds, rfl⟩ := takes_readExponent h
    exact ⟨'E' :: ds, .inr ⟨ds, hds, .inr rfl⟩, rfl⟩
  · obtain rfl := rest_of_readScaled h
    exact takes_nothing (.inl rfl) _

theorem takes_readPlaces (h : readPlaces positive m e cs = .ok (v, rest)) :
    Takes Fraction ('.' :: cs) rest := by
  rw [readPlaces] at h
  dsimp only at h
  obtain ⟨ds, ⟨hds, hlength⟩, hcs⟩ := takes_takeDigits m cs
  -- Behind the point there is a digit at least.
  have hjoin {ds' unread : List Char} (hdigits : Digits ds')
      (hcs : cs = ds' ++ unread) (htail : Takes Power unread rest) :
      Takes Fraction ('.' :: cs) rest := by
    obtain ⟨power, hpower, rfl⟩ := htail
    refine ⟨'.' :: ds' ++ power, ⟨'.' :: ds', power, .inr ⟨ds', hdigits, rfl⟩, hpower, rfl⟩, ?_⟩
    rw [hcs]
    simp
  have hne (hn : (takeDigits m cs).2.1 ≠ 0) : Digits ds := by
    refine ⟨fun hnil => hn ?_, hds⟩
    rw [← hlength, hnil]
    rfl
  split at h
  · rename_i c unread hunread
    split at h
    · rename_i hdigit
      obtain ⟨ds', hds', hrest⟩ := takes_dropWhile unread
      rw [hunread] at hcs
      have hdrop : (c :: unread).dropWhile isDigit = unread.dropWhile isDigit :=
        List.dropWhile_cons_of_pos hdigit
      rw [hunread, hdrop] at h
      have hdigits : Digits (ds ++ c :: ds') := ⟨by simp, hds.append (hds'.cons hdigit)⟩
      refine hjoin hdigits ?_ (takes_readTail h)
      rw [hcs, List.append_assoc, List.cons_append, ← hrest]
    · split at h
      · cases h
      · exact hjoin (hne ‹_›) hcs (takes_readTail h)
  · rename_i hunread
    split at h
    · cases h
    · rw [hunread] at hcs
      exact hjoin (hne ‹_›) hcs (takes_readTail h)

theorem takes_readLong (h : readLong positive m cs = .ok (v, rest)) :
    Takes (fun ds => ∃ run fraction, Run run ∧ Fraction fraction ∧ ds = run ++ fraction) cs
      rest := by
  have hrun := takes_dropWhile cs
  rw [readLong] at h
  split at h
  · rename_i unread hunread
    rw [hunread] at hrun
    exact hrun.append (takes_readPlaces h) fun run fraction hrun hfraction =>
      ⟨run, fraction, hrun, hfraction, rfl⟩
  · exact hrun.append (takes_readTail h) fun run power hrun hpower =>
      ⟨run, power, hrun, hpower.fraction, rfl⟩

theorem takes_readFraction (h : readFraction positive m cs = .ok (v, rest)) :
    Takes Fraction cs rest := by
  rw [readFraction.eq_def] at h
  split at h
  · exact takes_readPlaces h
  · obtain ⟨ds, hds, rfl⟩ := takes_readExponent h
    exact ⟨'e' :: ds, Power.fraction (.inr ⟨ds, hds, .inl rfl⟩), rfl⟩
  · obtain ⟨ds, hds, rfl⟩ := takes_readExponent h
    exact ⟨'E' :: ds, Power.fraction (.inr ⟨ds, hds, .inr rfl⟩), rfl⟩
  · have hrest : cs = rest := by
      split at h
      · cases h
        rfl
      · split at h <;>
        · cases h
          rfl
    rw [hrest]
    exact takes_nothing (Power.fraction (.inl rfl)) rest

/-- A number that is read is written as one. -/
theorem takes_readNumber (h : readNumber positive cs = .ok (v, rest)) :
    Takes Unsigned cs rest := by
  have hjoin {whole unread : List Char} (hwhole : Whole whole)
      (htail : Takes Fraction unread rest) : Takes Unsigned (whole ++ unread) rest := by
    obtain ⟨fraction, hfraction, rfl⟩ := htail
    exact ⟨whole ++ fraction, hwhole.unsigned hfraction, by simp⟩
  rw [readNumber.eq_def] at h
  split at h
  · cases h
  · have hzero : Whole ['0'] := .inl rfl
    split at h
    · split at h
      · cases h
      · exact hjoin hzero (takes_readFraction h)
    · exact hjoin hzero (takes_readFraction h)
  · rename_i c unread hc
    split at h
    · rename_i hdigit
      dsimp only at h
      have hwhole {ds : List Char} (hds : Run ds) : Whole (c :: ds) :=
        .inr ⟨digits_cons hdigit hds, not_zero_of_head hc⟩
      obtain ⟨ds, ⟨hds, -⟩, hunread⟩ := takes_takeDigits (digitValue c) unread
      rw [hunread]
      split at h
      · split at h
        · obtain ⟨_, ⟨run, fraction, hrun, hfraction, rfl⟩, hlong⟩ := takes_readLong h
          have hnumber := hjoin (hwhole (hds.append hrun)) ⟨fraction, hfraction, rfl⟩
          rw [hlong]
          simpa only [List.append_assoc, List.cons_append] using hnumber
        · exact hjoin (hwhole hds) (takes_readFraction h)
      · exact hjoin (hwhole hds) (takes_readFraction h)
    · cases h

theorem takes_skipExponent (h : skipExponent cs = .ok rest) : Takes Signed cs rest := by
  rw [skipExponent.eq_def] at h
  dsimp only at h
  split at h
  · rename_i c unread hunsigned
    have hsign : ∃ sign ∈ [[], ['+'], ['-']], cs = sign ++ c :: unread := by
      split at hunsigned
      · exact ⟨['+'], by simp, congrArg ('+' :: ·) hunsigned⟩
      · exact ⟨['-'], by simp, congrArg ('-' :: ·) hunsigned⟩
      · exact ⟨[], by simp, hunsigned⟩
    obtain ⟨sign, hsign, rfl⟩ := hsign
    split at h
    · cases h
      obtain ⟨ds, hds, hunread⟩ := takes_dropWhile unread
      have hnumber := takes_signed hsign ‹_› hds (unread.dropWhile isDigit)
      rwa [← hunread] at hnumber
    · cases h
  · cases h

theorem takes_skipTail (h : skipTail cs = .ok rest) : Takes Power cs rest := by
  rw [skipTail.eq_def] at h
  split at h
  · obtain ⟨ds, hds, rfl⟩ := takes_skipExponent h
    exact ⟨'e' :: ds, .inr ⟨ds, hds, .inl rfl⟩, rfl⟩
  · obtain ⟨ds, hds, rfl⟩ := takes_skipExponent h
    exact ⟨'E' :: ds, .inr ⟨ds, hds, .inr rfl⟩, rfl⟩
  · cases h
    exact takes_nothing (.inl rfl) cs

theorem takes_skipWhole (h : skipWhole cs = .ok rest) : Takes Whole cs rest := by
  rw [skipWhole.eq_def] at h
  split at h
  · cases h
  · rename_i c unread
    by_cases hc : c = '0'
    · rw [if_pos hc] at h
      split_ifs at h
      cases h
      rw [hc]
      exact ⟨['0'], .inl rfl, rfl⟩
    · rw [if_neg hc] at h
      split_ifs at h with hdigit
      cases h
      obtain ⟨ds, hds, hunread⟩ := takes_dropWhile unread
      exact ⟨c :: ds, .inr ⟨digits_cons hdigit hds, not_zero_of_head hc⟩, congrArg (c :: ·) hunread⟩

/-- So is a number that is passed over. -/
theorem takes_skipNumber (h : skipNumber cs = .ok rest) : Takes Unsigned cs rest := by
  rw [skipNumber, bind_eq_ok_iff] at h
  obtain ⟨unread, hwhole, h⟩ := h
  refine (takes_skipWhole hwhole).append (Q := Fraction) ?_ fun _ _ => Whole.unsigned
  split at h
  · rename_i places
    obtain ⟨ds, hds, hplaces⟩ := takes_dropWhile places
    dsimp only at h
    split at h
    · cases h
    · rename_i hsome
      have hdigits : Digits ds := by
        refine ⟨fun hnil => hsome ?_, hds⟩
        rw [hnil, List.nil_append] at hplaces
        rw [← hplaces]
      have hpoint : Takes Places ('.' :: places) (places.dropWhile isDigit) :=
        ⟨'.' :: ds, .inr ⟨ds, hdigits, rfl⟩, congrArg ('.' :: ·) hplaces⟩
      exact hpoint.append (takes_skipTail h) fun places power hplaces hpower =>
        ⟨places, power, hplaces, hpower, rfl⟩
  · exact (takes_skipTail h).mono fun _ => Power.fraction

end Numbers

/-! ## Words and strings -/

theorem readWord_eq_ok {word cs rest : List Char} (h : readWord word cs = .ok rest) :
    cs = word ++ rest := by
  induction word generalizing cs with
  | nil =>
      cases h
      rfl
  | cons w ws ih =>
      cases cs with
      | nil => cases h
      | cons c cs =>
          rw [readWord] at h
          split at h
          · rename_i hc
            rw [hc, ih h]
            rfl
          · cases h

theorem spells_word {c : Char} {word cs rest : List Char} (h : readWord word cs = .ok rest)
    (hword : c :: word ∈ ["null".toList, "true".toList, "false".toList]) :
    Spells .value (c :: cs) rest := by
  rw [readWord_eq_ok h]
  exact .word hword

theorem spells_number {c : Char} {cs rest : List Char} (h : Takes IsNumber (c :: cs) rest) :
    Spells .value (c :: cs) rest := by
  obtain ⟨number, hnumber, hcs⟩ := h
  rw [hcs]
  exact .number hnumber

theorem Takes.negative {cs rest : List Char} (h : Takes Unsigned cs rest) :
    Takes IsNumber ('-' :: cs) rest := by
  obtain ⟨number, hnumber, rfl⟩ := h
  exact ⟨'-' :: number, .inr ⟨number, hnumber, rfl⟩, rfl⟩

section Strings

variable {cs mid rest : List Char}

theorem takes_readHex4 {n : Nat} (h : readHex4 cs = .ok (n, rest)) :
    Takes (fun hex => hex.length = 4 ∧ ∀ c ∈ hex, (hexValue? c).isSome = true) cs rest := by
  rw [readHex4.eq_def] at h
  split at h
  · rename_i a b c d unread
    split at h
    · rename_i ha hb hc hd
      cases h
      refine ⟨[a, b, c, d], ⟨rfl, ?_⟩, rfl⟩
      simp [ha, hb, hc, hd]
    · cases h
  · split at h <;> cases h

/-- A string that goes on behind four hexadecimal digits goes on before their mark. -/
theorem quoted_readHex4 {n : Nat} (h : readHex4 cs = .ok (n, mid)) (hmid : Quoted mid rest) :
    Quoted ('\\' :: 'u' :: cs) rest := by
  obtain ⟨hex, ⟨hlength, hhex⟩, rfl⟩ := takes_readHex4 h
  exact .unicode hlength hhex hmid

theorem quoted_readUnicodeEscape {c : Char} (h : readUnicodeEscape cs = .ok (c, mid))
    (hmid : Quoted mid rest) : Quoted ('\\' :: 'u' :: cs) rest := by
  rw [readUnicodeEscape, bind_eq_ok_iff] at h
  obtain ⟨⟨high, unread⟩, hhigh, h⟩ := h
  refine quoted_readHex4 hhigh ?_
  dsimp only at h
  split at h
  · cases h
  split at h
  · cases h
    exact hmid
  split at h
  · cases h
  · obtain ⟨⟨low, unread⟩, hlow, h⟩ := bind_eq_ok_iff.mp h
    refine quoted_readHex4 hlow ?_
    dsimp only at h
    split at h
    · cases h
    · obtain ⟨-, rfl⟩ := Prod.mk.inj (Except.ok.inj h)
      exact hmid
  · cases h
  · cases h
  · cases h

theorem quoted_readEscape {c : Char} (h : readEscape cs = .ok (c, mid)) (hmid : Quoted mid rest) :
    Quoted ('\\' :: cs) rest := by
  rw [readEscape.eq_def] at h
  split at h
  · cases h
  · rename_i d unread
    by_cases hd : d = 'u'
    · subst hd
      exact quoted_readUnicodeEscape h hmid
    · split_ifs at h
      all_goals
        cases h
        subst d
        exact .escape (by decide) hmid

/-- The characters that are read are written as a string. -/
theorem quoted_readChars {fuel : Nat} {xs : List Char} (h : readChars fuel cs = .ok (xs, rest)) :
    Quoted cs rest := by
  induction fuel generalizing cs xs with
  | zero => cases h
  | succ fuel ih =>
      rw [readChars.eq_def] at h
      dsimp only at h
      split at h
      · cases h
      · rename_i c unread
        split_ifs at h with hquote hback hcontrol
        · cases h
          rw [hquote]
          exact .close
        · obtain ⟨⟨x, unread'⟩, hescape, h⟩ := bind_eq_ok_iff.mp h
          obtain ⟨⟨ys, unread''⟩, hread, h⟩ := bind_eq_ok_iff.mp h
          cases h
          rw [hback]
          exact quoted_readEscape hescape (ih hread)
        · obtain ⟨⟨ys, unread'⟩, hread, h⟩ := bind_eq_ok_iff.mp h
          cases h
          exact .plain hquote hback (Nat.not_lt.mp hcontrol) (ih hread)

theorem quoted_readString {s : String} (h : readString cs = .ok (s, rest)) : Quoted cs rest := by
  obtain ⟨⟨xs, unread⟩, hread, h⟩ := bind_eq_ok_iff.mp h
  cases h
  exact quoted_readChars hread

/-- So are those that are passed over. -/
theorem quoted_skipChars {fuel : Nat} (h : skipChars fuel cs = .ok rest) : Quoted cs rest := by
  induction fuel generalizing cs with
  | zero => cases h
  | succ fuel ih =>
      rw [skipChars.eq_def] at h
      dsimp only at h
      split at h
      · cases h
      · cases h
        exact .close
      · cases h
      · obtain ⟨⟨n, unread⟩, hhex, h⟩ := bind_eq_ok_iff.mp h
        exact quoted_readHex4 hhex (ih h)
      · split_ifs at h with hescape
        exact .escape hescape (ih h)
      · rename_i c unread hquote hlast _ hmore
        have hback : c ≠ '\\' := by
          cases unread with
          | nil => exact fun hc => hlast hc rfl
          | cons d unread => exact fun hc => hmore d unread hc rfl
        split_ifs at h with hcontrol
        exact .plain hquote hback (Nat.not_lt.mp hcontrol) (ih h)

end Strings

/-! ## From member to member -/

@[simp] theorem skipSpace_skipSpace (cs : List Char) : skipSpace (skipSpace cs) = skipSpace cs :=
  List.dropWhile_idempotent isSpace cs

/-- The place in a container where it may go on, as its first step or behind a member. -/
def Place.within (first : Bool) (frame : Frame) : Place :=
  if first then .inside frame else .behind frame

/-- The text goes on to a member of a container, which begins there, or to its end. -/
inductive Turns (frame : Frame) : Bool → List Char → Bool → List Char → Prop where
  | close (first : Bool) {cs rest : List Char} (h : skipSpace cs = frame.closing :: rest) :
      Turns frame first cs false (frame.closing :: rest)
  | filled (cs : List Char) : Turns frame true cs true (skipSpace cs)
  | next {cs unread : List Char} (h : skipSpace cs = ',' :: unread) :
      Turns frame false cs true (skipSpace unread)

section Members

variable {frame : Frame} {first more : Bool} {cs mid rest : List Char}

theorem spells_close (h : skipSpace cs = frame.closing :: rest) :
    Spells (.within first frame) cs rest := by
  cases first with
  | true => exact .empty h
  | false => exact .close h

theorem Turns.closed (h : Turns frame first cs false mid)
    (hmid : skipSpace mid = frame.closing :: rest) : Spells (.within first frame) cs rest := by
  cases h with
  | close first h => exact spells_close (by rw [← hmid, ← h, skipSpace_skipSpace])

theorem Turns.member (h : Turns frame first cs true mid)
    (hmember : Spells (.member frame) mid rest) : Spells (.within first frame) cs rest := by
  cases h with
  | filled cs => exact .filled hmember
  | next h => exact .next h hmember

theorem turns_nextItem (h : nextItem first cs = .ok (more, mid)) :
    Turns .list first cs more mid := by
  rw [nextItem.eq_def] at h
  split at h
  · cases h
  · rename_i c unread hskip
    split_ifs at h with hclose hfirst hcomma
    · cases h
      subst hclose
      exact .close first hskip
    · cases h
      rw [hfirst, ← hskip]
      exact .filled cs
    · split at h
      · cases h
      · rename_i d unread' hnext
        split_ifs at h
        cases h
        subst hcomma
        rw [Bool.not_eq_true] at hfirst
        rw [hfirst, ← hnext]
        exact .next hskip

/-- A field begins with the quote of its key. -/
theorem turns_nextField (h : nextField first cs = .ok (more, mid)) :
    Turns .object first cs more mid ∧ (more = true → ∃ key, mid = '"' :: key) := by
  rw [nextField.eq_def] at h
  split at h
  · cases h
  · rename_i c unread hskip
    split_ifs at h with hclose hfirst hquote hcomma
    · cases h
      subst hclose
      exact ⟨.close first hskip, nofun⟩
    · cases h
      subst hquote
      refine ⟨?_, fun _ => ⟨unread, rfl⟩⟩
      rw [hfirst, ← hskip]
      exact .filled cs
    · split at h
      · cases h
      · rename_i d unread' hnext
        split_ifs at h with hquote
        cases h
        subst hcomma
        subst hquote
        refine ⟨?_, fun _ => ⟨unread', rfl⟩⟩
        rw [Bool.not_eq_true] at hfirst
        rw [hfirst, ← hnext]
        exact .next hskip

theorem readColon_eq_ok (h : readColon cs = .ok rest) : skipSpace cs = ':' :: rest := by
  rw [readColon.eq_def] at h
  split at h
  · cases h
  · rename_i c unread hskip
    split_ifs at h with hcolon
    cases h
    rw [hskip, hcolon]

theorem closeList_eq_ok (h : closeList cs = .ok rest) : skipSpace cs = ']' :: rest := by
  rw [closeList.eq_def] at h
  split at h
  · cases h
  · rename_i c unread hskip
    dsimp only at h
    split_ifs at h with hclose
    cases h
    rw [hskip, hclose]

theorem closeObject_eq_ok (h : closeObject cs = .ok rest) : skipSpace cs = '\x7d' :: rest := by
  rw [closeObject.eq_def] at h
  split at h
  · cases h
  · rename_i c unread hskip
    split_ifs at h with hclose
    cases h
    rw [hskip, hclose]

/-- A key that is read labels what follows its colon. -/
theorem label_of_readString {key : String} {behind : List Char} (hquote : ∃ key, cs = '"' :: key)
    (hkey : readString (cs.drop 1) = .ok (key, behind)) (hcolon : readColon behind = .ok rest) :
    Label .object cs rest := by
  obtain ⟨text, rfl⟩ := hquote
  exact ⟨text, behind, rfl, quoted_readString hkey, readColon_eq_ok hcolon⟩

end Members

/-! ## Passing over values -/

/-- The containers that the text is in come to their ends, the innermost first. -/
def Closes : List Frame → List Char → List Char → Prop
  | [], cs, rest => rest = cs
  | frame :: frames, cs, rest => ∃ mid, Spells (.behind frame) cs mid ∧ Closes frames mid rest

/-- What a pass expects next stands there, and then the containers that it is in end. -/
def Passes : Skipping → List Frame → List Char → List Char → Prop
  | .value, frames, cs, rest => ∃ mid, Spells .value (skipSpace cs) mid ∧ Closes frames mid rest
  | .after _, [], cs, rest => rest = cs
  | .after comma, frame :: frames, cs, rest =>
    ∃ mid, Spells (.within (!comma) frame) cs mid ∧ Closes frames mid rest

section Skipping

variable {frame : Frame} {frames : List Frame} {cs rest : List Char}

theorem Passes.closes (h : Passes (.after true) frames cs rest) : Closes frames cs rest := by
  cases frames with
  | nil => exact h
  | cons frame frames => exact h

theorem member_of_skipKey {value behind : List Char} (h : skipKey (frame :: frames) cs = .ok value)
    (hvalue : Spells .value (skipSpace value) behind)
    (hbehind : Spells (.behind frame) behind rest) : Spells (.member frame) (skipSpace cs) rest := by
  cases frame with
  | list =>
      cases h
      refine .member rfl ?_ hbehind
      rwa [skipSpace_skipSpace]
  | object =>
      rw [skipKey.eq_def] at h
      dsimp only at h
      split at h
      · cases h
      · rename_i c unread hskip
        split_ifs at h with hquote
        obtain ⟨behind, hkey, hcolon⟩ := bind_eq_ok_iff.mp h
        subst hquote
        rw [hskip]
        exact .member ⟨unread, behind, rfl, quoted_skipChars hkey, readColon_eq_ok hcolon⟩ hvalue
          hbehind

/-- Each step of a pass is one of the grammar. -/
theorem passes_skipInside {fuel : Nat} {state : Skipping}
    (h : skipInside fuel state frames cs = .ok rest) : Passes state frames cs rest := by
  induction fuel generalizing state frames cs with
  | zero => cases h
  | succ fuel ih =>
      cases state with
      | value =>
          rw [skipInside] at h
          split at h
          · cases h
          · rename_i c unread hskip
            have hatom {mid : List Char} (hvalue : Spells .value (c :: unread) mid)
                (h : skipInside fuel (.after true) frames mid = .ok rest) :
                Passes .value frames cs rest := by
              refine ⟨mid, ?_, (ih h).closes⟩
              rwa [hskip]
            split_ifs at h with hlist hobject hnull htrue hfalse hsign hdigit hquote
            · obtain ⟨mid, hinside, hcloses⟩ := ih h
              subst hlist
              exact ⟨mid, hskip ▸ .nested .list hinside, hcloses⟩
            · obtain ⟨mid, hinside, hcloses⟩ := ih h
              subst hobject
              exact ⟨mid, hskip ▸ .nested .object hinside, hcloses⟩
            all_goals obtain ⟨mid, hread, h⟩ := bind_eq_ok_iff.mp h
            · subst hnull
              exact hatom (spells_word hread (by decide)) h
            · subst htrue
              exact hatom (spells_word hread (by decide)) h
            · subst hfalse
              exact hatom (spells_word hread (by decide)) h
            · subst hsign
              exact hatom (spells_number (takes_skipNumber hread).negative) h
            · exact hatom (spells_number ((takes_skipNumber hread).mono fun _ => .inl)) h
            · subst hquote
              exact hatom (.string (quoted_skipChars hread)) h
            · cases hread
      | after comma =>
          cases frames with
          | nil =>
              cases h
              rfl
          | cons frame frames =>
              rw [skipInside.eq_def] at h
              dsimp only at h
              split at h
              · cases h
              · rename_i c unread hskip
                split_ifs at h with hcomma hclose hfirst
                · rw [Bool.and_eq_true, decide_eq_true_eq] at hcomma
                  obtain ⟨rfl, rfl⟩ := hcomma
                  obtain ⟨value, hkey, h⟩ := bind_eq_ok_iff.mp h
                  obtain ⟨behind, hvalue, mid, hbehind, hcloses⟩ := ih h
                  exact ⟨mid, .next hskip (member_of_skipKey hkey hvalue hbehind), hcloses⟩
                · have hclosing : c = frame.closing := by
                    cases frame <;> simpa [Frame.closing] using hclose
                  subst hclosing
                  exact ⟨unread, spells_close hskip, (ih h).closes⟩
                · rw [Bool.not_eq_true] at hfirst
                  subst hfirst
                  obtain ⟨value, hkey, h⟩ := bind_eq_ok_iff.mp h
                  obtain ⟨behind, hvalue, mid, hbehind, hcloses⟩ := ih h
                  have hmember := member_of_skipKey hkey hvalue hbehind
                  rw [← hskip, skipSpace_skipSpace] at hmember
                  exact ⟨mid, .filled hmember, hcloses⟩

/-- What is passed over is a value. -/
theorem spells_skipValue (h : skipValue cs = .ok rest) : Spells .value (skipSpace cs) rest := by
  obtain ⟨mid, hvalue, hcloses⟩ := passes_skipInside h
  obtain rfl : rest = mid := hcloses
  exact hvalue

end Skipping

/-! ## Decoders -/

/-- Where something is read there stands a value, and what follows it is left unread. -/
def Spelled (read : List Char → Except Issue (α × List Char)) : Prop :=
  ∀ cs v rest, read cs = .ok (v, rest) → Spells .value (skipSpace cs) rest

theorem spelled_decodeText (expected : String) (meaning : String → Except Cause α) (depth : Nat) :
    Spelled (decodeText expected meaning depth) := by
  intro cs v rest h
  rw [decodeText] at h
  split at h
  · cases h
  · rename_i c unread hskip
    split_ifs at h with hquote
    obtain ⟨⟨s, unread'⟩, hread, h⟩ := bind_eq_ok_iff.mp h
    dsimp only at h
    split at h
    · cases h
      rw [hskip, hquote]
      exact .string (quoted_readString hread)
    · cases h

theorem spelled_decodeNumber (expected : String) (meaning : JsonNumber → Except Cause α)
    (depth : Nat) : Spelled (decodeNumber expected meaning depth) := by
  intro cs v rest h
  rw [decodeNumber] at h
  split at h
  · cases h
  · rename_i c unread hskip
    rw [hskip]
    split_ifs at h with hsign hdigit
    · obtain ⟨⟨n, mid⟩, hread, h⟩ := bind_eq_ok_iff.mp h
      dsimp only at h
      split at h
      · cases h
        rw [hsign]
        exact spells_number (takes_readNumber hread).negative
      · cases h
    · obtain ⟨⟨n, mid⟩, hread, h⟩ := bind_eq_ok_iff.mp h
      dsimp only at h
      split at h
      · cases h
        exact spells_number ((takes_readNumber hread).mono fun _ => .inl)
      · cases h
    · cases h

theorem Spelled.option {decode : Decoder α} (h : ∀ depth, Spelled (decode depth)) (depth : Nat) :
    Spelled (decodeOption decode depth) := by
  intro cs v rest hread
  rw [decodeOption] at hread
  split at hread
  · rename_i unread hskip
    obtain ⟨unread', hword, hread⟩ := bind_eq_ok_iff.mp hread
    cases hread
    rw [hskip]
    exact spells_word hword (by decide)
  · obtain ⟨⟨w, unread⟩, hw, hread⟩ := bind_eq_ok_iff.mp hread
    cases hread
    have hvalue := h depth _ w rest hw
    rwa [skipSpace_skipSpace] at hvalue

section Containers

variable {cs mid rest : List Char} {fuel : Nat}

/-- The items that are read are members up to the bracket. -/
theorem spells_decodeItems {item : List Char → Except Issue (α × List Char)} (h : Spelled item)
    {index : Nat} {vs : List α} (hread : decodeItems item fuel index cs = .ok (vs, mid))
    (hclose : closeList mid = .ok rest) : Spells (.within (index = 0) .list) cs rest := by
  induction fuel generalizing index cs vs with
  | zero => cases hread
  | succ fuel ih =>
      rw [decodeItems] at hread
      obtain ⟨⟨more, unread⟩, hnext, hread⟩ := bind_eq_ok_iff.mp hread
      have hturns := turns_nextItem hnext
      cases more with
      | false =>
          cases hread
          exact hturns.closed (closeList_eq_ok hclose)
      | true =>
          obtain ⟨⟨v, unread₁⟩, hv, hread⟩ := bind_eq_ok_iff.mp hread
          obtain ⟨⟨vs', unread₂⟩, hvs, hread⟩ := bind_eq_ok_iff.mp hread
          cases hread
          have hvalue := h unread v unread₁ (inPart_eq_ok_iff.mp hv)
          exact hturns.member (.member rfl hvalue (ih hvs))

theorem Spelled.list {decode : Decoder α} (h : ∀ depth, Spelled (decode depth)) (depth : Nat) :
    Spelled (decodeList decode depth) := by
  intro cs vs rest hread
  rw [decodeList] at hread
  split at hread
  · cases hread
  · rename_i c unread hskip
    split_ifs at hread with hopen
    obtain ⟨⟨items, unread₁⟩, hitems, hread⟩ := bind_eq_ok_iff.mp hread
    obtain ⟨unread₂, hclose, hread⟩ := bind_eq_ok_iff.mp hread
    cases hread
    rw [hskip, hopen]
    exact .nested .list (spells_decodeItems (h _) hitems hclose)

theorem label_of_decodeKey {keys : KeyShape κ} {key : κ} {part : Segment}
    (h : decodeKey keys cs = .ok (key, part, rest)) (hquote : ∃ key, cs = '"' :: key) :
    Label .object cs rest := by
  obtain ⟨⟨text, unread⟩, hread, h⟩ := bind_eq_ok_iff.mp h
  dsimp only at h
  split at h
  · cases h
  · obtain ⟨unread', hcolon, h⟩ := bind_eq_ok_iff.mp h
    cases h
    exact label_of_readString hquote (inPart_eq_ok_iff.mp hread) hcolon

/-- The entries that are read are members up to the brace. -/
theorem spells_decodeEntries {keys : KeyShape κ} {value : List Char → Except Issue (α × List Char)}
    (h : Spelled value) {first : Bool} {es : List (κ × α)}
    (hread : decodeEntries keys value fuel first cs = .ok (es, mid))
    (hclose : closeObject mid = .ok rest) : Spells (.within first .object) cs rest := by
  induction fuel generalizing first cs es with
  | zero => cases hread
  | succ fuel ih =>
      rw [decodeEntries] at hread
      obtain ⟨⟨more, unread⟩, hnext, hread⟩ := bind_eq_ok_iff.mp hread
      obtain ⟨hturns, hquote⟩ := turns_nextField (inPart_eq_ok_iff.mp hnext)
      cases more with
      | false =>
          cases hread
          exact hturns.closed (closeObject_eq_ok hclose)
      | true =>
          obtain ⟨⟨key, part, unread₁⟩, hkey, hread⟩ := bind_eq_ok_iff.mp hread
          obtain ⟨⟨v, unread₂⟩, hv, hread⟩ := bind_eq_ok_iff.mp hread
          obtain ⟨⟨es', unread₃⟩, hes, hread⟩ := bind_eq_ok_iff.mp hread
          cases hread
          have hlabel := label_of_decodeKey hkey (hquote rfl)
          have hvalue := h unread₁ v unread₂ (inPart_eq_ok_iff.mp hv)
          exact hturns.member (.member hlabel hvalue (ih hes))

theorem Spelled.table [KeyOrder κ] {keys : KeyShape κ} {decode : Decoder α}
    (h : ∀ depth, Spelled (decode depth)) (depth : Nat) :
    Spelled (decodeTable keys decode depth) := by
  intro cs t rest hread
  rw [decodeTable] at hread
  split at hread
  · cases hread
  · rename_i c unread hskip
    split_ifs at hread with hopen
    obtain ⟨⟨es, unread₁⟩, hes, hread⟩ := bind_eq_ok_iff.mp hread
    obtain ⟨unread₂, hclose, hread⟩ := bind_eq_ok_iff.mp hread
    cases hread
    rw [hskip, hopen]
    exact .nested .object (spells_decodeEntries (h _) hes hclose)

/-! ## Values of any shape -/

theorem spells_readItems {item : List Char → Reading α} (h : Spelled item) {first : Bool}
    {vs : List α} (hread : readItems item fuel first cs = .ok (vs, mid))
    (hclose : closeList mid = .ok rest) : Spells (.within first .list) cs rest := by
  induction fuel generalizing first cs vs with
  | zero => cases hread
  | succ fuel ih =>
      rw [readItems] at hread
      obtain ⟨⟨more, unread⟩, hnext, hread⟩ := bind_eq_ok_iff.mp hread
      have hturns := turns_nextItem hnext
      cases more with
      | false =>
          cases hread
          exact hturns.closed (closeList_eq_ok hclose)
      | true =>
          obtain ⟨⟨v, unread₁⟩, hv, hread⟩ := bind_eq_ok_iff.mp hread
          obtain ⟨⟨vs', unread₂⟩, hvs, hread⟩ := bind_eq_ok_iff.mp hread
          cases hread
          exact hturns.member (.member rfl (h unread v unread₁ hv) (ih hvs))

theorem spells_readFields {value : List Char → Reading α} (h : Spelled value) {first : Bool}
    {fs : List (String × α)} (hread : readFields value fuel first cs = .ok (fs, mid))
    (hclose : closeObject mid = .ok rest) : Spells (.within first .object) cs rest := by
  induction fuel generalizing first cs fs with
  | zero => cases hread
  | succ fuel ih =>
      rw [readFields] at hread
      obtain ⟨⟨more, unread⟩, hnext, hread⟩ := bind_eq_ok_iff.mp hread
      obtain ⟨hturns, hquote⟩ := turns_nextField hnext
      cases more with
      | false =>
          cases hread
          exact hturns.closed (closeObject_eq_ok hclose)
      | true =>
          obtain ⟨⟨key, unread₁⟩, hkey, hread⟩ := bind_eq_ok_iff.mp hread
          obtain ⟨unread₂, hcolon, hread⟩ := bind_eq_ok_iff.mp hread
          obtain ⟨⟨v, unread₃⟩, hv, hread⟩ := bind_eq_ok_iff.mp hread
          obtain ⟨⟨fs', unread₄⟩, hfs, hread⟩ := bind_eq_ok_iff.mp hread
          cases hread
          have hlabel := label_of_readString (hquote rfl) hkey hcolon
          exact hturns.member (.member hlabel (h unread₂ v unread₃ hv) (ih hfs))

theorem spelled_readValue (depth : Nat) : Spelled (readValue depth) := by
  induction depth with
  | zero => exact nofun
  | succ depth ih =>
      intro cs v rest h
      rw [readValue] at h
      split at h
      · cases h
      rename_i c unread hskip
      rw [hskip]
      by_cases hnull : c = 'n'
      · rw [if_pos hnull] at h
        obtain ⟨unread', hread, h⟩ := bind_eq_ok_iff.mp h
        cases h
        rw [hnull]
        exact spells_word hread (by decide)
      rw [if_neg hnull] at h
      by_cases htrue : c = 't'
      · rw [if_pos htrue] at h
        obtain ⟨unread', hread, h⟩ := bind_eq_ok_iff.mp h
        cases h
        rw [htrue]
        exact spells_word hread (by decide)
      rw [if_neg htrue] at h
      by_cases hfalse : c = 'f'
      · rw [if_pos hfalse] at h
        obtain ⟨unread', hread, h⟩ := bind_eq_ok_iff.mp h
        cases h
        rw [hfalse]
        exact spells_word hread (by decide)
      rw [if_neg hfalse] at h
      by_cases hsign : c = '-'
      · rw [if_pos hsign] at h
        obtain ⟨⟨n, unread'⟩, hread, h⟩ := bind_eq_ok_iff.mp h
        cases h
        rw [hsign]
        exact spells_number (takes_readNumber hread).negative
      rw [if_neg hsign] at h
      by_cases hdigit : isDigit c = true
      · rw [if_pos hdigit] at h
        obtain ⟨⟨n, unread'⟩, hread, h⟩ := bind_eq_ok_iff.mp h
        cases h
        exact spells_number ((takes_readNumber hread).mono fun _ => .inl)
      rw [if_neg hdigit] at h
      by_cases hquote : c = '"'
      · rw [if_pos hquote] at h
        obtain ⟨⟨s, unread'⟩, hread, h⟩ := bind_eq_ok_iff.mp h
        cases h
        rw [hquote]
        exact .string (quoted_readString hread)
      rw [if_neg hquote] at h
      split_ifs at h with hlist _ hobject
      · obtain ⟨⟨vs, mid⟩, hread, h⟩ := bind_eq_ok_iff.mp h
        obtain ⟨unread', hclose, h⟩ := bind_eq_ok_iff.mp h
        cases h
        rw [hlist]
        exact .nested .list (spells_readItems ih hread hclose)
      · obtain ⟨⟨fs, mid⟩, hread, h⟩ := bind_eq_ok_iff.mp h
        obtain ⟨unread', hclose, h⟩ := bind_eq_ok_iff.mp h
        cases h
        rw [hobject]
        exact .nested .object (spells_readFields ih hread hclose)

/-- What is read as a whole is a document. -/
theorem document_of_parse? {text : String} {v : Json} (h : parse? text = some v) :
    Document text.toList := by
  rw [parse?] at h
  split at h
  · rename_i w rest hread
    split_ifs at h with hblank
    exact ⟨rest, spelled_readValue _ _ _ _ hread, List.isEmpty_iff.mp hblank⟩
  · cases h

end Containers

/-! ## Records -/

/-- The field's value is read where one stands. -/
def FieldShape.Spelled (f : FieldShape δ) : Prop := ∀ draft depth, Json.Spelled (f.read draft depth)

theorem FieldShape.Spelled.keep {name : String} {isOptional : Bool} {get : δ → Option β}
    {set : δ → β → δ} {decode : Decoder β} (h : ∀ depth, Json.Spelled (decode depth)) :
    (FieldShape.keep name isOptional get set decode).Spelled := by
  intro draft depth cs v rest hread
  obtain ⟨⟨value, unread⟩, hvalue, hv⟩ := bind_eq_ok_iff.mp hread
  cases hv
  exact h depth cs value _ hvalue

namespace RecordShape

variable {shape : RecordShape δ α} {other : String → δ → Decoder δ} {depth fuel : Nat}
  {draft draft' : δ} {cs mid rest : List Char}

theorem spelled_ignore (name : String) (draft : δ) (depth : Nat) :
    Spelled (ignore name draft depth) := by
  intro cs v rest h
  obtain ⟨unread, hskip, h⟩ := bind_eq_ok_iff.mp h
  cases h
  exact spells_skipValue hskip

/-- The fields that are read are members up to the brace, known or not. -/
theorem spells_readFields (hfields : ∀ f ∈ shape.fields, f.Spelled)
    (hother : ∀ name draft depth, Spelled (other name draft depth)) {first : Bool}
    (hread : shape.readFields other depth fuel first draft cs = .ok (draft', mid))
    (hclose : closeObject mid = .ok rest) : Spells (.within first .object) cs rest := by
  induction fuel generalizing first draft cs with
  | zero => cases hread
  | succ fuel ih =>
      rw [readFields] at hread
      obtain ⟨⟨more, unread⟩, hnext, hread⟩ := bind_eq_ok_iff.mp hread
      obtain ⟨hturns, hquote⟩ := turns_nextField (inPart_eq_ok_iff.mp hnext)
      cases more with
      | false =>
          cases hread
          exact hturns.closed (closeObject_eq_ok hclose)
      | true =>
          obtain ⟨⟨name, unread₁⟩, hname, hread⟩ := bind_eq_ok_iff.mp hread
          have hname := inPart_eq_ok_iff.mp hname
          dsimp only at hread
          split at hread
          · rename_i field hfield
            split at hread
            · cases hread
            · obtain ⟨unread₂, hcolon, hread⟩ := bind_eq_ok_iff.mp hread
              obtain ⟨⟨draft₁, unread₃⟩, hvalue, hread⟩ := bind_eq_ok_iff.mp hread
              have hlabel := label_of_readString (hquote rfl) hname hcolon
              have hvalue := hfields field (List.mem_of_find?_eq_some hfield) draft depth unread₂
                draft₁ unread₃ (inPart_eq_ok_iff.mp hvalue)
              exact hturns.member (.member hlabel hvalue (ih hread))
          · obtain ⟨unread₂, hcolon, hread⟩ := bind_eq_ok_iff.mp hread
            obtain ⟨⟨draft₁, unread₃⟩, hvalue, hread⟩ := bind_eq_ok_iff.mp hread
            have hlabel := label_of_readString (hquote rfl) hname hcolon
            have hvalue := hother name draft depth unread₂ draft₁ unread₃
              (inPart_eq_ok_iff.mp hvalue)
            exact hturns.member (.member hlabel hvalue (ih hread))

theorem inside_decodeObject {v : α} {c : Char} (hfields : ∀ f ∈ shape.fields, f.Spelled)
    (hother : ∀ name draft depth, Spelled (other name draft depth))
    (hread : shape.decodeObject other depth c cs = .ok (v, rest)) :
    Spells (.inside .object) cs rest := by
  rw [decodeObject] at hread
  split_ifs at hread
  obtain ⟨⟨draft, unread⟩, hdraft, hfinish⟩ := bind_eq_ok_iff.mp hread
  dsimp only [finishObject] at hfinish
  split at hfinish
  · obtain ⟨unread', hclose, hfinish⟩ := bind_eq_ok_iff.mp hfinish
    cases hfinish
    exact spells_readFields hfields hother hdraft hclose
  · cases hfinish

/-- So are the items that are read as fields. -/
theorem spells_readItems {tooShort : Nat → Cause} {fields : List (FieldShape δ)}
    (hfields : ∀ f ∈ fields, f.Spelled) {index : Nat}
    (hread : readItems depth tooShort fields index draft cs = .ok (draft', mid))
    (hclose : closeList mid = .ok rest) : Spells (.within (index = 0) .list) cs rest := by
  induction fields generalizing index draft cs with
  | nil =>
      cases hread
      exact spells_close (closeList_eq_ok hclose)
  | cons field fields ih =>
      rw [readItems] at hread
      obtain ⟨⟨more, unread⟩, hnext, hread⟩ := bind_eq_ok_iff.mp hread
      have hturns := turns_nextItem hnext
      cases more with
      | false =>
          dsimp only at hread
          split at hread
          · cases hread
            exact hturns.closed (closeList_eq_ok hclose)
          · cases hread
      | true =>
          obtain ⟨⟨draft₁, unread₁⟩, hvalue, hread⟩ := bind_eq_ok_iff.mp hread
          have hvalue := hfields field List.mem_cons_self draft depth unread draft₁ unread₁
            (inPart_eq_ok_iff.mp hvalue)
          have hbehind := ih (fun f hf => hfields f (List.mem_cons_of_mem _ hf)) hread
          exact hturns.member (.member rfl hvalue hbehind)

/-- A record is read from an object or an array. -/
theorem inside_decode (hfields : ∀ f ∈ shape.fields, f.Spelled) {v : α}
    (hread : shape.decode depth cs = .ok (v, rest)) :
    ∃ (frame : Frame) (text : List Char), skipSpace cs = frame.opening :: text ∧
      Spells (.inside frame) text rest := by
  rw [decode] at hread
  split at hread
  · cases hread
  · rename_i c unread hskip
    split_ifs at hread with hobject hlist
    · subst hobject
      exact ⟨.object, unread, hskip, inside_decodeObject hfields spelled_ignore hread⟩
    · subst hlist
      obtain ⟨⟨draft, unread'⟩, hitems, hfinish⟩ := bind_eq_ok_iff.mp hread
      dsimp only at hfinish
      split at hfinish
      · obtain ⟨unread'', hclose, hfinish⟩ := bind_eq_ok_iff.mp hfinish
        cases hfinish
        exact ⟨.list, unread, hskip, spells_readItems hfields hitems hclose⟩
      · cases hfinish

theorem spelled_decode (hfields : ∀ f ∈ shape.fields, f.Spelled) (depth : Nat) :
    Spelled (shape.decode depth) := by
  intro cs v rest hread
  obtain ⟨frame, text, hskip, hinside⟩ := inside_decode hfields hread
  rw [hskip]
  exact .nested frame hinside

end RecordShape

end ClientSession.Json
