import ClientSession.Proofs.Json.Beginnings
import Mathlib.Data.List.Basic
import Mathlib.Data.List.TakeWhile

/-!
# The grammar of JSON

How values are written, apart from any reader: what a text begins with, and what it goes on with.

- `IsNumber`, `Quoted`: how numbers are written, and strings behind their first quote.
- `Spells`: how values are, and what is inside of arrays and objects.
- `Document`: a text that is one value.
- `Spells.unique`: where a value ends is for the text to say, unless a number might go on.
- `document_iff`: what begins with an array or an object is a document if only blanks follow.
-/

namespace ClientSession.Json

variable {α : Type}

/-! ## Numbers -/

/-- Digits, perhaps none. -/
def Run (cs : List Char) : Prop := ∀ c ∈ cs, isDigit c = true

/-- Digits, at least one. -/
def Digits (cs : List Char) : Prop := cs ≠ [] ∧ Run cs

/-- An integer: zero, or digits that do not start with a zero. -/
def Whole (cs : List Char) : Prop := cs = ['0'] ∨ Digits cs ∧ cs.head? ≠ some '0'

/-- Digits behind a sign, which may be left out. -/
def Signed (cs : List Char) : Prop :=
  ∃ sign ds, sign ∈ [[], ['+'], ['-']] ∧ Digits ds ∧ cs = sign ++ ds

/-- Decimal places behind a point, if there are any. -/
def Places (cs : List Char) : Prop := cs = [] ∨ ∃ ds, Digits ds ∧ cs = '.' :: ds

/-- An exponent, if there is one. -/
def Power (cs : List Char) : Prop := cs = [] ∨ ∃ ds, Signed ds ∧ (cs = 'e' :: ds ∨ cs = 'E' :: ds)

/-- A number that is not negative. -/
def Unsigned (cs : List Char) : Prop :=
  ∃ whole places power, Whole whole ∧ Places places ∧ Power power ∧ cs = whole ++ (places ++ power)

def IsNumber (cs : List Char) : Prop := Unsigned cs ∨ ∃ ds, Unsigned ds ∧ cs = '-' :: ds

/-- The character may stand in a number. -/
def isNumeric (c : Char) : Bool := isDigit c || c ∈ ['.', 'e', 'E', '+', '-']

theorem isNumeric_of_isDigit {c : Char} (h : isDigit c = true) : isNumeric c = true := by
  rw [isNumeric, h]
  rfl

theorem Digits.numeric {cs : List Char} (h : Digits cs) : ∀ c ∈ cs, isNumeric c = true :=
  fun c hc => isNumeric_of_isDigit (h.2 c hc)

theorem Signed.numeric {cs : List Char} (h : Signed cs) : ∀ c ∈ cs, isNumeric c = true := by
  obtain ⟨sign, ds, hsign, hds, rfl⟩ := h
  have hsigns : ∀ sign ∈ [[], ['+'], ['-']], ∀ c ∈ sign, isNumeric c = true := by
    simp only [List.forall_mem_cons]
    exact ⟨nofun, ⟨rfl, nofun⟩, ⟨rfl, nofun⟩, nofun⟩
  rw [List.forall_mem_append]
  exact ⟨hsigns sign hsign, hds.numeric⟩

theorem Unsigned.numeric {cs : List Char} (h : Unsigned cs) : ∀ c ∈ cs, isNumeric c = true := by
  obtain ⟨whole, places, power, hwhole, hplaces, hpower, rfl⟩ := h
  rw [List.forall_mem_append, List.forall_mem_append]
  refine ⟨?_, ?_, ?_⟩
  · rcases hwhole with rfl | ⟨hdigits, -⟩
    · exact List.forall_mem_singleton.mpr rfl
    · exact hdigits.numeric
  · rcases hplaces with rfl | ⟨ds, hds, rfl⟩
    · exact nofun
    · exact List.forall_mem_cons.mpr ⟨rfl, hds.numeric⟩
  · rcases hpower with rfl | ⟨ds, hds, rfl | rfl⟩
    · exact nofun
    · exact List.forall_mem_cons.mpr ⟨rfl, hds.numeric⟩
    · exact List.forall_mem_cons.mpr ⟨rfl, hds.numeric⟩

theorem IsNumber.numeric {cs : List Char} (h : IsNumber cs) : ∀ c ∈ cs, isNumeric c = true := by
  rcases h with h | ⟨ds, hds, rfl⟩
  · exact h.numeric
  · exact List.forall_mem_cons.mpr ⟨rfl, hds.numeric⟩

/-- A number begins with a digit or a sign. -/
theorem IsNumber.head {cs : List Char} (h : IsNumber cs) :
    ∃ c rest, cs = c :: rest ∧ (isDigit c = true ∨ c = '-') := by
  have hunsigned {ds : List Char} (h : Unsigned ds) :
      ∃ c rest, ds = c :: rest ∧ isDigit c = true := by
    obtain ⟨whole, places, power, hwhole, -, -, rfl⟩ := h
    rcases hwhole with rfl | ⟨⟨hne, hdigits⟩, -⟩
    · exact ⟨'0', places ++ power, rfl, rfl⟩
    · cases whole with
      | nil => exact absurd rfl hne
      | cons c rest => exact ⟨c, rest ++ (places ++ power), rfl, hdigits c List.mem_cons_self⟩
  rcases h with h | ⟨ds, -, rfl⟩
  · obtain ⟨c, rest, hcs, hc⟩ := hunsigned h
    exact ⟨c, rest, hcs, .inl hc⟩
  · exact ⟨'-', ds, rfl, .inr rfl⟩

/-! ## Strings -/

/-- What a string is behind its first quote: the text up to the second one, and what follows. -/
inductive Quoted : List Char → List Char → Prop where
  | close {rest : List Char} : Quoted ('"' :: rest) rest
  | plain {c : Char} {cs rest : List Char} (hquote : c ≠ '"') (hback : c ≠ '\\')
      (hcontrol : 0x20 ≤ c.toNat) (h : Quoted cs rest) : Quoted (c :: cs) rest
  | escape {c : Char} {cs rest : List Char}
      (hc : c ∈ ['"', '\\', '/', 'b', 'f', 'n', 'r', 't']) (h : Quoted cs rest) :
      Quoted ('\\' :: c :: cs) rest
  | unicode {hex cs rest : List Char} (hlength : hex.length = 4)
      (hhex : ∀ c ∈ hex, (hexValue? c).isSome = true) (h : Quoted cs rest) :
      Quoted ('\\' :: 'u' :: (hex ++ cs)) rest

/-- A string ends at one place. -/
theorem Quoted.unique {cs rest rest' : List Char} (h : Quoted cs rest) (h' : Quoted cs rest') :
    rest = rest' := by
  induction h with
  | close =>
      cases h' with
      | close => rfl
      | plain hquote => exact absurd rfl hquote
  | plain hquote hback _ _ ih =>
      cases h' with
      | close => exact absurd rfl hquote
      | plain _ _ _ h' => exact ih h'
      | escape => exact absurd rfl hback
      | unicode => exact absurd rfl hback
  | escape hc _ ih =>
      cases h' with
      | plain _ hback => exact absurd rfl hback
      | escape _ h' => exact ih h'
      | unicode => exact absurd hc (by decide)
  | @unicode hex cs rest hlength _ _ ih =>
      generalize htext : '\\' :: 'u' :: (hex ++ cs) = text at h'
      cases h' with
      | close => cases htext
      | plain _ hback => exact absurd (List.cons.inj htext).1.symm hback
      | escape hc =>
          cases htext
          exact absurd hc (by decide)
      | @unicode hex' cs' _ hlength' _ h' =>
          injection htext with _ htext
          injection htext with _ htext
          obtain ⟨-, rfl⟩ := List.append_inj htext (hlength.trans hlength'.symm)
          exact ih h'

/-! ## Values -/

namespace Frame

/-- The character that opens what a pass is inside of. -/
def opening : Frame → Char
  | .list => '['
  | .object => '\x7b'

def closing : Frame → Char
  | .list => ']'
  | .object => '\x7d'

end Frame

/-- What stands in front of a value: nothing in an array, and in an object its key and a colon. -/
def Label : Frame → List Char → List Char → Prop
  | .list, cs, rest => rest = cs
  | .object, cs, rest =>
    ∃ key behind, cs = '"' :: key ∧ Quoted key behind ∧ skipSpace behind = ':' :: rest

/-- A place in a document. -/
inductive Place where
  /-- A value begins here. -/
  | value
  /-- Something has just been opened here. -/
  | inside (frame : Frame)
  /-- Another value follows, perhaps behind its key. -/
  | member (frame : Frame)
  /-- A value has just ended. -/
  | behind (frame : Frame)

/-- What stands at a place, up to where the value ends that begins there or that the place is in,
and what follows. Blanks may stand in front of everything but a value. -/
inductive Spells : Place → List Char → List Char → Prop where
  | word {word rest : List Char} (h : word ∈ ["null".toList, "true".toList, "false".toList]) :
      Spells .value (word ++ rest) rest
  | number {number rest : List Char} (h : IsNumber number) : Spells .value (number ++ rest) rest
  | string {cs rest : List Char} (h : Quoted cs rest) : Spells .value ('"' :: cs) rest
  | nested (frame : Frame) {cs rest : List Char} (h : Spells (.inside frame) cs rest) :
      Spells .value (frame.opening :: cs) rest
  | empty {frame : Frame} {cs rest : List Char} (h : skipSpace cs = frame.closing :: rest) :
      Spells (.inside frame) cs rest
  | filled {frame : Frame} {cs rest : List Char} (h : Spells (.member frame) (skipSpace cs) rest) :
      Spells (.inside frame) cs rest
  | member {frame : Frame} {cs value behind rest : List Char} (hlabel : Label frame cs value)
      (hvalue : Spells .value (skipSpace value) behind) (h : Spells (.behind frame) behind rest) :
      Spells (.member frame) cs rest
  | close {frame : Frame} {cs rest : List Char} (h : skipSpace cs = frame.closing :: rest) :
      Spells (.behind frame) cs rest
  | next {frame : Frame} {cs next rest : List Char} (hcomma : skipSpace cs = ',' :: next)
      (h : Spells (.member frame) (skipSpace next) rest) : Spells (.behind frame) cs rest

/-- The text is one value, with blanks around it. -/
def Document (cs : List Char) : Prop :=
  ∃ rest, Spells .value (skipSpace cs) rest ∧ skipSpace rest = []

/-! ## Where values end -/

/-- The text does not go on with a character that may stand in a number. -/
def Ended (rest : List Char) : Prop := ∀ c ∈ rest.head?, isNumeric c = false

theorem ended_of_blank {rest : List Char} (h : skipSpace rest = []) : Ended rest := by
  intro c hc
  have hblank : isSpace c = true :=
    List.dropWhile_eq_nil_iff.mp h c (List.mem_of_mem_head? hc)
  simp only [isSpace, Bool.or_eq_true, decide_eq_true_eq] at hblank
  rcases hblank with ((rfl | rfl) | rfl) | rfl <;> rfl

theorem ended_of_skipSpace {cs rest : List Char} {c : Char} (h : skipSpace cs = c :: rest)
    (hc : isNumeric c = false) : Ended cs := by
  cases cs with
  | nil => exact nofun
  | cons d ds =>
      by_cases hd : isSpace d = true
      · intro e he
        cases he
        simp only [isSpace, Bool.or_eq_true, decide_eq_true_eq] at hd
        rcases hd with ((rfl | rfl) | rfl) | rfl <;> rfl
      · rw [skipSpace, List.dropWhile_cons_of_neg hd] at h
        cases h
        intro e he
        cases he
        exact hc

theorem Spells.ended {frame : Frame} {cs rest : List Char} (h : Spells (.behind frame) cs rest) :
    Ended cs := by
  cases h with
  | close h => exact ended_of_skipSpace h (by cases frame <;> rfl)
  | next hcomma => exact ended_of_skipSpace hcomma rfl

theorem dropWhile_number {n rest : List Char} (hn : IsNumber n) (hrest : Ended rest) :
    (n ++ rest).dropWhile isNumeric = rest := by
  rw [List.dropWhile_append_of_pos hn.numeric]
  cases rest with
  | nil => rfl
  | cons c cs => exact List.dropWhile_cons_of_neg (by simp [hrest c rfl])

/-- A number ends where no character follows that may stand in one. -/
theorem number_unique {n n' rest rest' : List Char} (h : n ++ rest = n' ++ rest')
    (hn : IsNumber n) (hn' : IsNumber n') (hrest : Ended rest) (hrest' : Ended rest') :
    rest = rest' := by
  rw [← dropWhile_number hn hrest, h, dropWhile_number hn' hrest']

/-- The kinds of values. -/
inductive Kind where
  | word
  | number
  | string
  | nested (frame : Frame)

/-- The kind of the value that begins with a character. -/
def kindOf (c : Char) : Kind :=
  if c = 'n' ∨ c = 't' ∨ c = 'f' then .word
  else if c = '"' then .string
  else if c = '[' then .nested .list
  else if c = '\x7b' then .nested .object
  else .number

/-- How values of a kind are written. -/
def Written (cs rest : List Char) : Kind → Prop
  | .word => ∃ word ∈ ["null".toList, "true".toList, "false".toList], cs = word ++ rest
  | .number => ∃ n, IsNumber n ∧ cs = n ++ rest
  | .string => ∃ text, cs = '"' :: text ∧ Quoted text rest
  | .nested frame => ∃ text, cs = frame.opening :: text ∧ Spells (.inside frame) text rest

theorem kindOf_opening (frame : Frame) : kindOf frame.opening = .nested frame := by
  cases frame <;> rfl

theorem exists_kind_word {word : List Char}
    (h : word ∈ ["null".toList, "true".toList, "false".toList]) (rest : List Char) :
    ∃ c, (word ++ rest).head? = some c ∧ kindOf c = .word := by
  have hwords : word = "null".toList ∨ word = "true".toList ∨ word = "false".toList := by
    simpa using h
  rcases hwords with rfl | rfl | rfl
  · exact ⟨'n', rfl, rfl⟩
  · exact ⟨'t', rfl, rfl⟩
  · exact ⟨'f', rfl, rfl⟩

theorem exists_kind_number {n : List Char} (h : IsNumber n) (rest : List Char) :
    ∃ c, (n ++ rest).head? = some c ∧ kindOf c = .number := by
  obtain ⟨c, tail, rfl, hc⟩ := h.head
  refine ⟨c, rfl, ?_⟩
  have hother : ¬(c = 'n' ∨ c = 't' ∨ c = 'f') ∧ c ≠ '"' ∧ c ≠ '[' ∧ c ≠ '\x7b' := by
    refine ⟨?_, ?_, ?_, ?_⟩
    · rintro (rfl | rfl | rfl) <;> simp [isDigit] at hc
    all_goals
      rintro rfl
      simp [isDigit] at hc
  rw [kindOf, if_neg hother.1, if_neg hother.2.1, if_neg hother.2.2.1, if_neg hother.2.2.2]

/-- A value is written as those of the kind that its first character tells. -/
theorem Spells.written {cs rest : List Char} {c : Char} (h : Spells .value cs rest)
    (hc : cs.head? = some c) : Written cs rest (kindOf c) := by
  cases h with
  | word hword =>
      obtain ⟨d, hd, hkind⟩ := exists_kind_word hword rest
      rw [hc] at hd
      cases hd
      rw [hkind]
      exact ⟨_, hword, rfl⟩
  | number hn =>
      obtain ⟨d, hd, hkind⟩ := exists_kind_number hn rest
      rw [hc] at hd
      cases hd
      rw [hkind]
      exact ⟨_, hn, rfl⟩
  | string htext =>
      cases hc
      exact ⟨_, rfl, htext⟩
  | nested frame hinside =>
      cases hc
      rw [kindOf_opening]
      exact ⟨_, rfl, hinside⟩

/-- No value begins with the end of an array or an object. -/
theorem Spells.not_closing {frame : Frame} {cs rest : List Char} :
    ¬Spells .value (frame.closing :: cs) rest := by
  intro h
  have hwritten := h.written rfl
  have hkind : kindOf frame.closing = .number := by cases frame <;> rfl
  rw [hkind] at hwritten
  obtain ⟨n, hn, heq⟩ := hwritten
  obtain ⟨c, tail, rfl, hc⟩ := hn.head
  cases heq
  cases frame <;> simp [Frame.closing, isDigit] at hc

theorem Label.unique {frame : Frame} {cs rest rest' : List Char} (h : Label frame cs rest)
    (h' : Label frame cs rest') : rest = rest' := by
  cases frame with
  | list => exact Eq.trans h h'.symm
  | object =>
      obtain ⟨key, behind, rfl, hquoted, hcolon⟩ := h
      obtain ⟨key', behind', hcs, hquoted', hcolon'⟩ := h'
      cases hcs
      rw [hquoted.unique hquoted', hcolon'] at hcolon
      exact (List.cons.inj hcolon).2.symm

theorem not_member_of_closing {frame : Frame} {cs rest rest' : List Char}
    (h : cs = frame.closing :: rest) : ¬Spells (.member frame) cs rest' := by
  intro hmember
  cases hmember with
  | member hlabel hvalue =>
      cases frame with
      | list =>
          obtain rfl : _ = cs := hlabel
          rw [h] at hvalue
          exact Spells.not_closing hvalue
      | object =>
          obtain ⟨key, behind, hkey, -⟩ := hlabel
          rw [h] at hkey
          cases hkey

/-- What stands at a place ends where the text has it end; only a number has to end before a
character that could not belong to it. -/
theorem Spells.unique {place : Place} {cs rest rest' : List Char} (h : Spells place cs rest)
    (h' : Spells place cs rest') (hend : place = .value → Ended rest ∧ Ended rest') :
    rest = rest' := by
  induction h generalizing rest' with
  | @word word rest hword =>
      obtain ⟨c, hc, hkind⟩ := exists_kind_word hword rest
      have hwritten := h'.written hc
      rw [hkind] at hwritten
      obtain ⟨word', hword', heq⟩ := hwritten
      obtain ⟨c', hc', -⟩ := exists_kind_word hword' rest'
      -- The words begin with different letters.
      have hwords : ∀ word ∈ ["null".toList, "true".toList, "false".toList],
          ∀ word' ∈ ["null".toList, "true".toList, "false".toList], word ≠ [] ∧
            (word.head? = word'.head? → word = word') := by decide
      have hfirst : word.head? = word'.head? := by
        have hheads := congrArg List.head? heq
        rwa [List.head?_append_of_ne_nil word (hwords word hword word' hword').1,
          List.head?_append_of_ne_nil word' (hwords word' hword' word hword).1] at hheads
      obtain rfl := (hwords word hword word' hword').2 hfirst
      exact List.append_cancel_left heq
  | @number n rest hn =>
      obtain ⟨c, hc, hkind⟩ := exists_kind_number hn rest
      have hwritten := h'.written hc
      rw [hkind] at hwritten
      obtain ⟨n', hn', heq⟩ := hwritten
      exact number_unique heq hn hn' (hend rfl).1 (hend rfl).2
  | string hquoted =>
      obtain ⟨text, heq, hquoted'⟩ := h'.written rfl
      cases heq
      exact hquoted.unique hquoted'
  | nested frame _ ih =>
      have hwritten := h'.written rfl
      rw [kindOf_opening] at hwritten
      obtain ⟨text, heq, hinside⟩ := hwritten
      cases heq
      exact ih hinside nofun
  | empty hclose =>
      cases h' with
      | empty hclose' =>
          rw [hclose] at hclose'
          exact (List.cons.inj hclose').2
      | filled hmember => exact absurd hmember (not_member_of_closing hclose)
  | filled hmember ih =>
      cases h' with
      | empty hclose => exact absurd hmember (not_member_of_closing hclose)
      | filled hmember' => exact ih hmember' nofun
  | member hlabel hvalue hbehind ihvalue ihbehind =>
      cases h' with
      | member hlabel' hvalue' hbehind' =>
          obtain rfl := hlabel.unique hlabel'
          obtain rfl := ihvalue hvalue' fun _ => ⟨hbehind.ended, hbehind'.ended⟩
          exact ihbehind hbehind' nofun
  | @close frame _ _ hclose =>
      cases h' with
      | close hclose' =>
          rw [hclose] at hclose'
          exact (List.cons.inj hclose').2
      | next hcomma =>
          rw [hclose] at hcomma
          cases frame <;> cases (List.cons.inj hcomma).1
  | @next frame _ _ _ hcomma _ ih =>
      cases h' with
      | close hclose =>
          rw [hclose] at hcomma
          cases frame <;> cases (List.cons.inj hcomma).1
      | next hcomma' hmember =>
          rw [hcomma] at hcomma'
          cases hcomma'
          exact ih hmember nofun

/-- A text that begins with an array or an object is a document exactly if nothing but blanks
follows. -/
theorem document_iff {cs text rest : List Char} {frame : Frame}
    (hskip : skipSpace cs = frame.opening :: text) (h : Spells (.inside frame) text rest) :
    Document cs ↔ skipSpace rest = [] := by
  constructor
  · rintro ⟨rest', h', hblank⟩
    have hwritten := h'.written (congrArg List.head? hskip)
    rw [kindOf_opening, hskip] at hwritten
    obtain ⟨text', heq, hinside⟩ := hwritten
    cases heq
    rwa [h.unique hinside nofun]
  · intro hblank
    refine ⟨rest, ?_, hblank⟩
    rw [hskip]
    exact .nested frame h

end ClientSession.Json
