import ClientSession.Proofs.Json.Beginnings
import ClientSession.Proofs.Json.Quoting
import ClientSession.Proofs.Tables
import ClientSession.Proofs.Text.Numerals
import Mathlib.Data.List.Forall2

/-!
# What is printed is read

A value whose printed form a decoder reads, wherever it stands in a document. Each rule says so for
one kind of value, given that it holds of the parts; for an object the fields may stand in any
order.

- `Reads`: the printed form is read as the value, up to where it ends.
- `reads_natural`, `reads_text`, `reads_bool`, `Reads.option`: the atoms.
- `reads_list`, `reads_table`, `RecordShape.reads_object`: what holds parts.
- `ordered`: a value whose objects have their fields in the order of the keys.
-/

namespace ClientSession.Json

variable {α β κ δ : Type}

/-- The text does not go on with what could belong to a number. -/
def Stops (rest : List Char) : Prop :=
  ∀ c ∈ rest.head?, isDigit c = false ∧ c ≠ '.' ∧ c ≠ 'e' ∧ c ≠ 'E'

/-- The printed form begins, and neither with a blank nor like a null nor like the end of a
list. -/
def Opens (j : Json) : Prop :=
  ∃ c cs, print j = c :: cs ∧ isSpace c = false ∧ c ≠ 'n' ∧ c ≠ ']'

/-- At a depth or further from the limit, the printed form is read as the value, up to where it
ends. -/
structure Reads (decode : Decoder α) (depth : Nat) (v : α) (j : Json) : Prop where
  opens : Opens j
  reads : ∀ d rest, depth ≤ d → Stops rest → decode d (print j ++ rest) = .ok (v, rest)

theorem stops_nil : Stops [] := by
  simp [Stops]

theorem stops_cons {c : Char} {rest : List Char} (h : c = ',' ∨ c = ']' ∨ c = '\x7d') :
    Stops (c :: rest) := by
  rintro d hd
  rw [List.head?_cons, Option.mem_some_iff] at hd
  subst hd
  rcases h with rfl | rfl | rfl <;> decide

theorem Opens.skipSpace {j : Json} (h : Opens j) (rest : List Char) :
    skipSpace (print j ++ rest) = print j ++ rest := by
  obtain ⟨c, cs, hprint, hspace, -⟩ := h
  rw [hprint, List.cons_append, Json.skipSpace, List.dropWhile_cons, hspace]
  rfl

theorem Reads.mono {decode : Decoder α} {depth depth' : Nat} {v : α} {j : Json}
    (h : Reads decode depth v j) (hle : depth ≤ depth') : Reads decode depth' v j :=
  ⟨h.opens, fun d rest hd => h.reads d rest (Nat.le_trans hle hd)⟩

/-- A whole document is read. -/
theorem Reads.whole {decode : Decoder α} {v : α} {j : Json} (h : Reads decode maxDepth v j) :
    decodeWhole decode (compact j) = .ok v := by
  rw [decodeWhole_eq_ok_iff, compact, String.toList_ofList]
  refine ⟨[], ?_, rfl⟩
  simpa using h.reads maxDepth [] (Nat.le_refl _) stops_nil

theorem Reads.first {decode : Decoder α} {v : α} {j : Json} (h : Reads decode maxDepth v j) :
    decodeFirst decode (compact j).toList = .ok v := by
  have hread := h.reads maxDepth [] (Nat.le_refl _) stops_nil
  rw [List.append_nil] at hread
  rw [decodeFirst, compact, String.toList_ofList, hread]
  rfl

/-! ## Numbers -/

theorem isDigit_eq (c : Char) : isDigit c = c.isDigit := by
  simp [isDigit, Char.isDigit, Char.le_def]

theorem le_ofDigitChars (cs : List Char) (m : Nat) : m ≤ Nat.ofDigitChars 10 cs m := by
  induction cs generalizing m with
  | nil => exact Nat.le_refl m
  | cons c cs ih =>
      rw [Nat.ofDigitChars_cons]
      have := ih (10 * m + (c.toNat - '0'.toNat))
      omega

/-- Digits are taken as long as they make a number that is kept. -/
theorem takeDigits_append {cs rest : List Char} (hdigits : ∀ c ∈ cs, c.isDigit = true)
    (hrest : ∀ c ∈ rest.head?, isDigit c = false) {m : Nat}
    (h : Nat.ofDigitChars 10 cs m ≤ maxSignificand) :
    takeDigits m (cs ++ rest) = (Nat.ofDigitChars 10 cs m, cs.length, rest) := by
  induction cs generalizing m with
  | nil =>
      cases rest with
      | nil => rfl
      | cons c rest =>
          have hc : isDigit c = false := hrest c rfl
          simp [takeDigits, hc]
  | cons c cs ih =>
      have hc : isDigit c = true := by
        rw [isDigit_eq]
        exact hdigits c List.mem_cons_self
      have hvalue : m * 10 + digitValue c = 10 * m + (c.toNat - '0'.toNat) := by
        rw [Nat.mul_comm]
        rfl
      rw [Nat.ofDigitChars_cons] at h
      have hfits : m * 10 + digitValue c ≤ maxSignificand := by
        rw [hvalue]
        exact Nat.le_trans (le_ofDigitChars cs _) h
      rw [List.cons_append, takeDigits, if_pos hc, if_pos hfits, hvalue,
        ih (fun d hd => hdigits d (List.mem_cons_of_mem _ hd)) h]
      simp [Nat.ofDigitChars_cons]

theorem readFraction_stops {rest : List Char} (h : Stops rest) (m : Nat) :
    readFraction true m rest = .ok (.natural m, rest) := by
  unfold readFraction
  split
  · exact absurd rfl (h _ rfl).2.1
  · exact absurd rfl (h _ rfl).2.2.1
  · exact absurd rfl (h _ rfl).2.2.2
  · rfl

theorem head_toDigits {n : Nat} (hn : 0 < n) : (Nat.toDigits 10 n).head? ≠ some '0' := by
  induction n using Nat.strongRecOn with
  | _ n ih =>
      rw [Nat.toDigits_eq_if (by decide)]
      split
      · simpa using Nat.ne_of_gt hn
      · have htens : 0 < n / 10 := by omega
        rw [List.head?_append_of_ne_nil _ Nat.toDigits_ne_nil]
        exact ih (n / 10) (by omega) htens

/-- A number is read back from its digits. -/
theorem readNumber_toDigits {n : Nat} (hn : n ≤ maxSignificand) {rest : List Char}
    (hrest : Stops rest) : readNumber true (Nat.toDigits 10 n ++ rest) = .ok (.natural n, rest) := by
  have hfraction := readFraction_stops hrest
  rcases Nat.eq_zero_or_pos n with rfl | hpos
  · rw [Nat.toDigits_zero]
    cases rest with
    | nil => rfl
    | cons c rest =>
        have hc : isDigit c = false := (hrest c rfl).1
        simp only [List.cons_append, List.nil_append, readNumber, hc, Bool.false_eq_true, if_false,
          hfraction]
  · have hhead := head_toDigits hpos
    have hvalue := Nat.ofDigitChars_ten_toDigits (n := n)
    have hdigits : ∀ c ∈ Nat.toDigits 10 n, c.isDigit = true := fun _ => Text.isDigit_of_mem_toDigits
    cases hcs : Nat.toDigits 10 n with
    | nil => exact absurd hcs Nat.toDigits_ne_nil
    | cons c cs =>
        rw [hcs] at hhead hvalue hdigits
        have hzero : c ≠ '0' := by
          rintro rfl
          exact hhead rfl
        have hc : isDigit c = true := by
          rw [isDigit_eq]
          exact hdigits c List.mem_cons_self
        have hall : Nat.ofDigitChars 10 cs (digitValue c) = n := by
          rw [Nat.ofDigitChars_cons, Nat.mul_zero, Nat.zero_add] at hvalue
          exact hvalue
        have htaken : takeDigits (digitValue c) (cs ++ rest) = (n, cs.length, rest) := by
          rw [takeDigits_append (fun d hd => hdigits d (List.mem_cons_of_mem _ hd))
            (fun d hd => (hrest d hd).1) (hall.symm ▸ hn), hall]
        rw [List.cons_append, readNumber.eq_def]
        split
        · cases ‹_ :: _ = []›
        · exact absurd (List.cons.inj ‹_›).1 hzero
        · rename_i d ds heq
          obtain ⟨rfl, rfl⟩ := List.cons.inj heq
          rw [if_pos hc, htaken]
          cases rest with
          | nil => exact hfraction n
          | cons d ds =>
              have hd : isDigit d = false := (hrest d rfl).1
              simp only [hd, Bool.false_eq_true, if_false, hfraction]

theorem isSpace_of_isDigit {c : Char} (h : c.isDigit = true) : isSpace c = false := by
  simp only [isSpace, Bool.or_eq_false_iff, decide_eq_false_iff_not]
  refine ⟨⟨⟨?_, ?_⟩, ?_⟩, ?_⟩ <;>
  · rintro rfl
    cases h

theorem opens_ofNat (n : Nat) : Opens (.ofNat n) := by
  cases hcs : Nat.toDigits 10 n with
  | nil => exact absurd hcs Nat.toDigits_ne_nil
  | cons c cs =>
      have hc : c.isDigit = true :=
        Text.isDigit_of_mem_toDigits (n := n) (hcs ▸ List.mem_cons_self)
      refine ⟨c, cs, ?_, isSpace_of_isDigit hc, ?_, ?_⟩
      · rw [ofNat, print, numberText, Nat.toString_eq_repr, Nat.toList_repr, hcs]
      all_goals
        rintro rfl
        cases hc

/-- A natural number is read if it fits. -/
theorem reads_natural (expected : String) {bound n : Nat} (hbound : bound ≤ maxUnsigned64)
    (hn : n ≤ bound) : Reads (decodeNatural expected bound) 0 n (.ofNat n) := by
  refine ⟨opens_ofNat n, fun d rest _ hrest => ?_⟩
  have hprint : print (.ofNat n) = Nat.toDigits 10 n := by
    rw [ofNat, print, numberText, Nat.toString_eq_repr, Nat.toList_repr]
  have hskip := (opens_ofNat n).skipSpace rest
  rw [hprint] at hskip ⊢
  have hread := readNumber_toDigits (Nat.le_trans hn hbound) hrest
  cases hcs : Nat.toDigits 10 n with
  | nil => exact absurd hcs Nat.toDigits_ne_nil
  | cons c cs =>
      have hdigit : c.isDigit = true :=
        Text.isDigit_of_mem_toDigits (n := n) (hcs ▸ List.mem_cons_self)
      have hminus : c ≠ '-' := by
        rintro rfl
        cases hdigit
      rw [hcs, List.cons_append] at hskip hread
      rw [← isDigit_eq] at hdigit
      rw [List.cons_append, decodeNatural, decodeNumber, hskip]
      simp only [hminus, if_false, hdigit, if_true, hread, hn, bind, Except.bind, pure, Except.pure]

/-! ## Texts and truth values -/

theorem opens_string (s : String) : Opens (.string s) := by
  refine ⟨'"', s.toList.flatMap escape ++ ['"'], rfl, ?_, ?_, ?_⟩ <;> decide

/-- A text is read as what it means. -/
theorem reads_text {expected : String} {meaning : String → Except Cause α} {s : String} {v : α}
    (h : meaning s = .ok v) : Reads (decodeText expected meaning) 0 v (.string s) := by
  refine ⟨opens_string s, fun d rest _ _ => ?_⟩
  have hskip := (opens_string s).skipSpace rest
  rw [print, quote_append] at hskip ⊢
  rw [decodeText, hskip]
  simp only [if_true, readString_quoted, h, bind, Except.bind, pure, Except.pure]

theorem reads_string (s : String) : Reads decodeString 0 s (.string s) := reads_text rfl

theorem reads_bool (b : Bool) : Reads decodeBool 0 b (.bool b) := by
  cases b with
  | false => exact ⟨⟨'f', "alse".toList, rfl, by decide, by decide, by decide⟩, fun _ _ _ _ => rfl⟩
  | true => exact ⟨⟨'t', "rue".toList, rfl, by decide, by decide, by decide⟩, fun _ _ _ _ => rfl⟩

/-- A value that is there is read where one may be missing. -/
theorem Reads.option {decode : Decoder α} {depth : Nat} {v : α} {j : Json}
    (h : Reads decode depth v j) : Reads (decodeOption decode) depth (some v) j := by
  refine ⟨h.opens, fun d rest hd hrest => ?_⟩
  have hread := h.reads d rest hd hrest
  have hskip := h.opens.skipSpace rest
  obtain ⟨c, cs, hprint, -, hnull, -⟩ := h.opens
  rw [hprint, List.cons_append] at hskip hread ⊢
  rw [decodeOption, hskip]
  split
  · exact absurd (List.cons.inj ‹_›).1 hnull
  · rw [hread]
    rfl

/-! ## Parts in a row -/

/-- What stands before a part of a list or of an object: nothing before the first. -/
def separator (first : Bool) : List Char := if first then [] else [',']

/-- Parts with commas between them, and one before the first part unless it is the very first. -/
def strung (first : Bool) : List (List Char) → List Char
  | [] => []
  | part :: parts => separator first ++ (part ++ strung false parts)

theorem length_le_strung (first : Bool) (parts : List (List Char)) :
    parts.length ≤ (strung first parts).length + 1 := by
  have hlater : ∀ ps : List (List Char), ps.length ≤ (strung false ps).length := by
    intro ps
    induction ps with
    | nil => exact Nat.le_refl 0
    | cons p ps ih =>
        rw [strung, separator, if_neg Bool.false_ne_true]
        simp only [List.length_append, List.length_cons, List.length_nil]
        omega
  cases parts with
  | nil => exact Nat.zero_le _
  | cons part parts =>
      have hparts := hlater parts
      rw [strung]
      simp only [List.length_append, List.length_cons]
      omega

theorem stops_strung {c : Char} (h : c = ']' ∨ c = '\x7d') (parts : List (List Char))
    (rest : List Char) : Stops (strung false parts ++ c :: rest) := by
  cases parts with
  | nil => exact stops_cons (.inr h)
  | cons part parts => exact stops_cons (.inl rfl)

/-! ## Lists -/

theorem printItems_eq_strung (js : List Json) : printItems js = strung true (js.map print) := by
  cases js with
  | nil => rfl
  | cons j js =>
      induction js generalizing j with
      | nil => simp [printItems, strung, separator]
      | cons j' js ih =>
          have hrest := ih j'
          simp only [List.map_cons, strung, separator, if_true, List.nil_append] at hrest ⊢
          rw [printItems, hrest]
          simp

theorem nextItem_print {j : Json} (h : Opens j) (first : Bool) (rest : List Char) :
    nextItem first (separator first ++ (print j ++ rest)) = .ok (true, print j ++ rest) := by
  have hskip := h.skipSpace rest
  obtain ⟨c, cs, hprint, -, -, hend⟩ := h
  rw [hprint, List.cons_append] at hskip ⊢
  cases first with
  | true =>
      rw [separator, if_pos rfl, List.nil_append, nextItem, hskip]
      simp only [hend, if_false, if_true]
  | false =>
      have hcomma : skipSpace (',' :: c :: (cs ++ rest)) = ',' :: c :: (cs ++ rest) := rfl
      have hne : ¬ ',' = ']' := by decide
      rw [separator, if_neg Bool.false_ne_true, List.singleton_append, nextItem, hcomma]
      simp only [hne, if_false, Bool.false_eq_true, if_true, hskip, hend]

/-- Items are read up to the end of the list. -/
theorem decodeItems_print {decode : Decoder α} {depth d : Nat} (hd : depth ≤ d) {vs : List α}
    {js : List Json} (h : List.Forall₂ (Reads decode depth) vs js) (index : Nat) (first : Bool)
    (hfirst : decide (index = 0) = first) (fuel : Nat) (hfuel : js.length < fuel)
    (rest : List Char) :
    decodeItems (decode d) fuel index (strung first (js.map print) ++ ']' :: rest) =
      .ok (vs, ']' :: rest) := by
  induction h generalizing index first fuel with
  | nil =>
      obtain ⟨fuel, rfl⟩ := Nat.exists_eq_succ_of_ne_zero (Nat.ne_of_gt hfuel)
      rw [decodeItems, hfirst]
      cases first <;> rfl
  | @cons v j vs js hj _ ih =>
      obtain ⟨fuel, rfl⟩ := Nat.exists_eq_succ_of_ne_zero (Nat.ne_of_gt (Nat.zero_lt_of_lt hfuel))
      have hnext := nextItem_print hj.opens first (strung false (js.map print) ++ ']' :: rest)
      have hitem := hj.reads d _ hd (stops_strung (.inl rfl) (js.map print) rest)
      have hmore := ih (index + 1) false (by simp) fuel (by simpa using hfuel)
      rw [List.map_cons, strung, List.append_assoc, List.append_assoc, decodeItems, hfirst, hnext]
      simp only [bind, Except.bind, hitem, inPart, Except.mapError, hmore, pure, Except.pure]

/-- A list is read when its items are. -/
theorem reads_list {decode : Decoder α} {depth : Nat} (hdepth : 0 < depth) {vs : List α}
    {js : List Json} (h : List.Forall₂ (Reads decode depth) vs js) :
    Reads (decodeList decode) (depth + 1) vs (.array js) := by
  refine ⟨⟨'[', _, rfl, by decide, by decide, by decide⟩, fun d rest hd _ => ?_⟩
  have hshallow : ¬ d ≤ 1 := by omega
  have hlength := length_le_strung true (js.map print)
  rw [List.length_map] at hlength
  have hitems := decodeItems_print (d := d - 1) (by omega) h 0 true rfl
    ((strung true (js.map print) ++ ']' :: rest).length + 1)
    (by simp only [List.length_append, List.length_cons]; omega) rest
  have hskip : ∀ cs, skipSpace ('[' :: cs) = '[' :: cs := fun _ => rfl
  have hclose : closeList (']' :: rest) = .ok rest := rfl
  rw [print, printItems_eq_strung, List.cons_append, List.append_assoc, List.singleton_append,
    decodeList, hskip]
  simp only [if_true, hshallow, if_false, hitems, bind, Except.bind, hclose, pure, Except.pure]

/-! ## Objects -/

/-- A field as it is printed. -/
def printField (f : String × Json) : List Char := quote f.1 ++ ':' :: print f.2

theorem printFields_eq_strung (fs : List (String × Json)) :
    printFields fs = strung true (fs.map printField) := by
  cases fs with
  | nil => rfl
  | cons f fs =>
      induction fs generalizing f with
      | nil => simp [printFields, strung, separator, printField]
      | cons f' fs ih =>
          have hrest := ih f'
          simp only [List.map_cons, strung, separator, if_true, List.nil_append] at hrest ⊢
          rw [printFields, hrest]
          simp [printField]

theorem nextField_printField (f : String × Json) (first : Bool) (rest : List Char) :
    nextField first (separator first ++ (printField f ++ rest)) =
      .ok (true, quote f.1 ++ ':' :: (print f.2 ++ rest)) := by
  rw [printField, List.append_assoc, List.cons_append, quote_append]
  cases first <;> rfl

theorem decodeKey_printed {keys : KeyShape κ} {name : String} {k : κ}
    (h : keys.meaning name = .ok k) (rest : List Char) :
    decodeKey keys (quote name ++ ':' :: rest) = .ok (k, keys.part name, rest) := by
  have hcolon : readColon (':' :: rest) = .ok rest := rfl
  rw [quote_append, decodeKey, List.drop_one, List.tail_cons, readString_quoted]
  simp only [bind, Except.bind, inPart, Except.mapError, h, hcolon, pure, Except.pure]

/-- An entry of a table as it is printed. -/
structure ReadsEntry (keys : KeyShape κ) (decode : Decoder α) (depth : Nat) (e : κ × α)
    (f : String × Json) : Prop where
  key : keys.meaning f.1 = .ok e.1
  value : Reads decode depth e.2 f.2

/-- Entries are read up to the end of the object. -/
theorem decodeEntries_print {keys : KeyShape κ} {decode : Decoder α} {depth d : Nat}
    (hd : depth ≤ d) {es : List (κ × α)} {fs : List (String × Json)}
    (h : List.Forall₂ (ReadsEntry keys decode depth) es fs) (first : Bool) (fuel : Nat)
    (hfuel : fs.length < fuel) (rest : List Char) :
    decodeEntries keys (decode d) fuel first (strung first (fs.map printField) ++ '\x7d' :: rest) =
      .ok (es, '\x7d' :: rest) := by
  induction h generalizing first fuel with
  | nil =>
      obtain ⟨fuel, rfl⟩ := Nat.exists_eq_succ_of_ne_zero (Nat.ne_of_gt hfuel)
      cases first <;> rfl
  | @cons e f es fs hf _ ih =>
      obtain ⟨fuel, rfl⟩ := Nat.exists_eq_succ_of_ne_zero (Nat.ne_of_gt (Nat.zero_lt_of_lt hfuel))
      have hnext := nextField_printField f first
        (strung false (fs.map printField) ++ '\x7d' :: rest)
      have hvalue := hf.value.reads d _ hd (stops_strung (.inr rfl) (fs.map printField) rest)
      have hmore := ih false fuel (by simpa using hfuel)
      rw [List.map_cons, strung, List.append_assoc, List.append_assoc, decodeEntries, hnext]
      simp only [bind, Except.bind, inPart, Except.mapError, decodeKey_printed hf.key, hvalue, hmore,
        pure, Except.pure]

/-- A table is read when its entries are. -/
theorem reads_table [KeyOrder κ] {keys : KeyShape κ} {decode : Decoder α} {depth : Nat}
    (hdepth : 0 < depth) {t : Table κ α} {fs : List (String × Json)}
    (h : List.Forall₂ (ReadsEntry keys decode depth) t.entries fs) :
    Reads (decodeTable keys decode) (depth + 1) t (.object fs) := by
  refine ⟨⟨'\x7b', _, rfl, by decide, by decide, by decide⟩, fun d rest hd _ => ?_⟩
  have hshallow : ¬ d ≤ 1 := by omega
  have hlength := length_le_strung true (fs.map printField)
  rw [List.length_map] at hlength
  have hentries := decodeEntries_print (d := d - 1) (by omega) h true
    ((strung true (fs.map printField) ++ '\x7d' :: rest).length + 1)
    (by simp only [List.length_append, List.length_cons]; omega) rest
  have hskip : ∀ cs, skipSpace ('\x7b' :: cs) = '\x7b' :: cs := fun _ => rfl
  have hclose : closeObject ('\x7d' :: rest) = .ok rest := rfl
  rw [print, printFields_eq_strung, List.cons_append, List.append_assoc, List.singleton_append,
    decodeTable, hskip]
  simp only [if_true, hshallow, if_false, hentries, bind, Except.bind, hclose,
    Table.ofList_entries, pure, Except.pure]

/-! ## Records -/

/-- Reading the printed form into the draft, which lacks the field, gives the other draft. -/
structure FieldShape.Fills (f : FieldShape δ) (depth : Nat) (draft draft' : δ) (j : Json) :
    Prop where
  missing : f.present draft = false
  reads : ∀ d rest, depth ≤ d → Stops rest →
    f.read draft d (print j ++ rest) = .ok (draft', rest)

theorem Reads.fills {decode : Decoder β} {depth : Nat} {v : β} {j : Json}
    (h : Reads decode depth v j) {name : String} {isOptional : Bool} {get : δ → Option β}
    {set : δ → β → δ} {draft draft' : δ} (hget : get draft = none) (hset : set draft v = draft') :
    (FieldShape.keep name isOptional get set decode).Fills depth draft draft' j where
  missing := by simp [FieldShape.keep, hget]
  reads d rest hd hrest := by
    simp only [FieldShape.keep, h.reads d rest hd hrest, bind, Except.bind, hset, pure, Except.pure]

namespace RecordShape

variable {shape : RecordShape δ α} {depth : Nat} {taken : List String → δ}

/-- The field is one of the record's, and fills any draft of other fields. -/
def ReadsField (shape : RecordShape δ α) (depth : Nat) (taken : List String → δ)
    (f : String × Json) : Prop :=
  ∃ field, shape.fields.find? (·.name = f.1) = some field ∧
    ∀ names, f.1 ∉ names → field.Fills depth (taken names) (taken (names ++ [f.1])) f.2

theorem readsField_keep {name : String} {isOptional : Bool} {get : δ → Option β} {set : δ → β → δ}
    {decode : Decoder β} {v : β} {j : Json}
    (hfield : shape.fields.find? (·.name = name) =
      some (FieldShape.keep name isOptional get set decode))
    (hreads : Reads decode depth v j) (hget : ∀ names, name ∉ names → get (taken names) = none)
    (hset : ∀ names, set (taken names) v = taken (names ++ [name])) :
    shape.ReadsField depth taken (name, j) :=
  ⟨_, hfield, fun names hnew => hreads.fills (hget names hnew) (hset names)⟩

/-- Fields are read up to the end of the object. -/
theorem readFields_print (other : String → δ → Decoder δ) {d : Nat} (hd : depth ≤ d)
    {fs : List (String × Json)} (h : ∀ f ∈ fs, shape.ReadsField depth taken f)
    (names : List String) (hnames : (names ++ fs.map Prod.fst).Nodup) (first : Bool) (fuel : Nat)
    (hfuel : fs.length < fuel) (rest : List Char) :
    shape.readFields other d fuel first (taken names)
        (strung first (fs.map printField) ++ '\x7d' :: rest) =
      .ok (taken (names ++ fs.map Prod.fst), '\x7d' :: rest) := by
  induction fs generalizing names first fuel with
  | nil =>
      obtain ⟨fuel, rfl⟩ := Nat.exists_eq_succ_of_ne_zero (Nat.ne_of_gt hfuel)
      simp only [List.map_nil, List.append_nil]
      cases first <;> rfl
  | cons f fs ih =>
      obtain ⟨fuel, rfl⟩ := Nat.exists_eq_succ_of_ne_zero (Nat.ne_of_gt (Nat.zero_lt_of_lt hfuel))
      obtain ⟨field, hfield, hfills⟩ := h f List.mem_cons_self
      have hnew : f.1 ∉ names := by
        intro hmem
        exact (List.nodup_append.mp hnames).2.2 _ hmem _ (by simp) rfl
      have hmissing := (hfills names hnew).missing
      have hread := (hfills names hnew).reads d _ hd
        (stops_strung (.inr rfl) (fs.map printField) rest)
      have hnext := nextField_printField f first
        (strung false (fs.map printField) ++ '\x7d' :: rest)
      have hkey : ∀ cs, readString ((quote f.1 ++ cs).drop 1) = .ok (f.1, cs) := by
        intro cs
        rw [quote_append, List.drop_one, List.tail_cons, readString_quoted]
      have hcolon : ∀ cs, readColon (':' :: cs) = .ok cs := fun _ => rfl
      have hmore := ih (fun g hg => h g (List.mem_cons_of_mem _ hg)) (names ++ [f.1])
        (by simpa using hnames) false fuel (by simpa using hfuel)
      rw [List.map_cons, List.map_cons, strung, List.append_assoc, List.append_assoc, readFields,
        hnext]
      simp only [bind, Except.bind, inPart, Except.mapError, hkey, hfield, hmissing,
        Bool.false_eq_true, if_false, hcolon, hread, hmore, List.append_assoc,
        List.singleton_append]

/-- A record is read from its fields, in whatever order they stand. -/
theorem reads_object (taken : List String → δ) (hdepth : 0 < depth) {fs : List (String × Json)} {v : α}
    (hdraft : taken [] = shape.draft) (h : ∀ f ∈ fs, shape.ReadsField depth taken f)
    (hnames : (fs.map Prod.fst).Nodup) (hfinish : shape.finish (taken (fs.map Prod.fst)) = .ok v) :
    Reads shape.decode (depth + 1) v (.object fs) := by
  refine ⟨⟨'\x7b', _, rfl, by decide, by decide, by decide⟩, fun d rest hd _ => ?_⟩
  have hshallow : ¬ d ≤ 1 := by omega
  have hlength := length_le_strung true (fs.map printField)
  rw [List.length_map] at hlength
  have hfields := readFields_print ignore (d := d - 1) (by omega) h [] hnames true
    ((strung true (fs.map printField) ++ '\x7d' :: rest).length + 1)
    (by simp only [List.length_append, List.length_cons]; omega) rest
  rw [hdraft, List.nil_append] at hfields
  have hskip : ∀ cs, skipSpace ('\x7b' :: cs) = '\x7b' :: cs := fun _ => rfl
  have hclose : closeObject ('\x7d' :: rest) = .ok rest := rfl
  rw [print, printFields_eq_strung, List.cons_append, List.append_assoc, List.singleton_append,
    decode, hskip]
  simp only [if_true, decodeObject, hshallow, if_false, hfields, bind, Except.bind, finishObject,
    hfinish, hclose, pure, Except.pure]

end RecordShape

/-! ## Fields in order -/

mutual

/-- The value with the fields of every object in the order of their keys. -/
def ordered : Json → Json
  | .array items => .array (orderedItems items)
  | .object fields => ofFields (orderedFields fields)
  | v => v

def orderedItems : List Json → List Json
  | [] => []
  | v :: items => ordered v :: orderedItems items

def orderedFields : List (String × Json) → List (String × Json)
  | [] => []
  | (k, v) :: fields => (k, ordered v) :: orderedFields fields

end

theorem orderedItems_eq_map (items : List Json) : orderedItems items = items.map ordered := by
  induction items with
  | nil => rfl
  | cons v items ih => rw [orderedItems, ih, List.map_cons]

theorem orderedFields_eq_map (fields : List (String × Json)) :
    orderedFields fields = fields.map fun f => (f.1, ordered f.2) := by
  induction fields with
  | nil => rfl
  | cons f fields ih => rw [orderedFields, ih, List.map_cons]

theorem placeField_eq_place (k : String) (v : Json) (fs : List (String × Json)) :
    placeField k v fs = Table.place k v fs := by
  induction fs with
  | nil => rfl
  | cons f fs ih =>
      simp only [placeField, Table.place, ih, KeyOrder.before, decide_eq_true_eq]

/-- An object keeps its fields as a table does. -/
theorem ofFields_eq_table (fs : List (String × Json)) :
    ofFields fs = .object (Table.ofList fs).entries := by
  have hfold : ∀ t : Table String Json,
      fs.foldl (fun acc f => placeField f.1 f.2 acc) t.entries =
        (fs.foldl (fun t f => t.insert f.1 f.2) t).entries := by
    induction fs with
    | nil => exact fun t => rfl
    | cons f fs ih =>
        intro t
        rw [List.foldl_cons, List.foldl_cons, placeField_eq_place]
        exact ih (t.insert f.1 f.2)
  exact congrArg Json.object (hfold Table.empty)

/-- Fields with different keys are only put in order. -/
theorem ofFields_perm {fs : List (String × Json)} (h : (fs.map Prod.fst).Nodup) :
    ∃ gs : List (String × Json), ofFields fs = .object gs ∧ gs.Perm fs :=
  ⟨_, ofFields_eq_table fs, Table.entries_ofList_perm h⟩

/-- The entries of a table are in order. -/
theorem ofFields_entries (t : Table String Json) : ofFields t.entries = .object t.entries := by
  rw [ofFields_eq_table, Table.ofList_entries]

end ClientSession.Json
