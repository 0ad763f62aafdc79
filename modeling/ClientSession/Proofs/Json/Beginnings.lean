import ClientSession.Json.Decoder

/-!
# Readers do not look ahead

A reader of texts or tables of texts that succeeds has not looked at what it leaves unread: it
reads the same from every text that goes on differently. So a whole document is never the
beginning of another.

- `Settled`: what is read stays when the text goes on.
- `settled_readString`, `settled_decodeTable`: strings and tables are read so.
-/

namespace ClientSession.Json

variable {α β κ : Type}

/-- What is read, and where the reading ends, stays the same when the text goes on. -/
def Settled (read : List Char → Except Issue (α × List Char)) : Prop :=
  ∀ cs v rest more, read cs = .ok (v, rest) → read (cs ++ more) = .ok (v, rest ++ more)

theorem bind_eq_ok_iff {x : Except Issue α} {f : α → Except Issue β} {b : β} :
    (x >>= f) = .ok b ↔ ∃ a, x = .ok a ∧ f a = .ok b := by
  constructor
  · intro h
    rcases x with issue | a
    · cases h
    · exact ⟨a, rfl, h⟩
  · rintro ⟨a, rfl, h⟩
    exact h

theorem skipSpace_append {cs rest : List Char} {c : Char} (h : skipSpace cs = c :: rest)
    (more : List Char) : skipSpace (cs ++ more) = c :: (rest ++ more) := by
  unfold skipSpace at h ⊢
  rw [List.dropWhile_append, h]
  rfl

/-! ## Strings -/

theorem settled_readHex4 : Settled readHex4 := by
  intro cs v rest more h
  rcases cs with _ | ⟨a, _ | ⟨b, _ | ⟨c, _ | ⟨d, cs⟩⟩⟩⟩
  case cons.cons.cons.cons =>
    simp only [readHex4, List.cons_append] at h ⊢
    split at h
    · cases h
      rfl
    · cases h
  all_goals
    simp only [readHex4] at h
    split at h <;> cases h

theorem settled_readUnicodeEscape : Settled readUnicodeEscape := by
  intro cs v rest more h
  rw [readUnicodeEscape, bind_eq_ok_iff] at h ⊢
  obtain ⟨⟨high, unread⟩, hhigh, h⟩ := h
  refine ⟨(high, unread ++ more), settled_readHex4 _ _ _ more hhigh, ?_⟩
  dsimp only at h ⊢
  split at h
  · cases h
  rename_i hlow
  rw [if_neg hlow]
  split at h
  · rename_i hplain
    rw [if_pos hplain]
    cases h
    rfl
  rename_i hsurrogate
  rw [if_neg hsurrogate]
  split at h
  · cases h
  · simp only [List.cons_append]
    rw [bind_eq_ok_iff] at h ⊢
    obtain ⟨⟨low, unread⟩, hread, h⟩ := h
    refine ⟨(low, unread ++ more), settled_readHex4 _ _ _ more hread, ?_⟩
    dsimp only at h ⊢
    split at h
    · cases h
    · rename_i hpartner
      rw [if_neg hpartner]
      simp only [pure, Except.pure, Except.ok.injEq, Prod.mk.injEq] at h ⊢
      exact ⟨h.1, congrArg (· ++ more) h.2⟩
  · cases h
  · cases h
  · cases h

theorem settled_readEscape : Settled readEscape := by
  intro cs v rest more h
  rcases cs with _ | ⟨c, cs⟩
  · cases h
  simp only [readEscape, List.cons_append] at h ⊢
  by_cases hunicode : c = 'u'
  · subst hunicode
    exact settled_readUnicodeEscape cs v rest more h
  · repeat' split at h
    all_goals cases h
    all_goals simp_all

/-- What was read with some fuel is read with more, and when the text goes on. -/
theorem readChars_append {fuel n : Nat} {cs xs rest : List Char}
    (h : readChars fuel cs = .ok (xs, rest)) (after : List Char) :
    readChars (fuel + n) (cs ++ after) = .ok (xs, rest ++ after) := by
  induction fuel generalizing cs xs rest with
  | zero => cases h
  | succ fuel ih =>
      rw [Nat.succ_add_eq_add_succ, Nat.add_succ]
      rcases cs with _ | ⟨c, cs⟩
      · cases h
      simp only [readChars, List.cons_append] at h ⊢
      by_cases hquote : c = '"'
      · rw [if_pos hquote] at h ⊢
        cases h
        rfl
      rw [if_neg hquote] at h ⊢
      by_cases hback : c = '\\'
      · rw [if_pos hback, bind_eq_ok_iff] at h ⊢
        obtain ⟨⟨x, unread⟩, hx, h⟩ := h
        obtain ⟨⟨ys, unread'⟩, hys, h⟩ := bind_eq_ok_iff.1 h
        refine ⟨(x, unread ++ after), settled_readEscape _ _ _ after hx, ?_⟩
        rw [bind_eq_ok_iff]
        refine ⟨(ys, unread' ++ after), ih hys, ?_⟩
        cases h
        rfl
      rw [if_neg hback] at h ⊢
      by_cases hcontrol : c.toNat < 0x20
      · rw [if_pos hcontrol] at h
        cases h
      rw [if_neg hcontrol, bind_eq_ok_iff] at h ⊢
      obtain ⟨⟨ys, unread⟩, hys, h⟩ := h
      refine ⟨(ys, unread ++ after), ih hys, ?_⟩
      cases h
      rfl

theorem settled_readString : Settled readString := by
  intro cs v rest more h
  rw [readString, bind_eq_ok_iff] at h ⊢
  obtain ⟨⟨xs, unread⟩, hread, h⟩ := h
  refine ⟨(xs, unread ++ more), ?_, ?_⟩
  · have hmore := readChars_append (n := more.length) hread more
    rw [List.length_append]
    rwa [Nat.add_right_comm]
  · cases h
    rfl

/-! ## Tables -/

theorem settled_nextField (first : Bool) : Settled (nextField first) := by
  intro cs v rest more h
  unfold nextField at h ⊢
  rcases hskip : skipSpace cs with _ | ⟨c, unread⟩
  · rw [hskip] at h
    cases h
  rw [hskip] at h
  rw [skipSpace_append hskip]
  dsimp only at h ⊢
  by_cases hbrace : c = '\x7d'
  · rw [if_pos hbrace] at h ⊢
    cases h
    rfl
  rw [if_neg hbrace] at h ⊢
  by_cases hfirst : first = true
  · rw [if_pos hfirst] at h ⊢
    split at h
    · rename_i hquote
      rw [if_pos hquote]
      cases h
      rfl
    · cases h
  rw [if_neg hfirst] at h ⊢
  by_cases hcomma : c = ','
  · rw [if_pos hcomma] at h ⊢
    rcases hskip' : skipSpace unread with _ | ⟨d, unread'⟩
    · rw [hskip'] at h
      cases h
    rw [hskip'] at h
    rw [skipSpace_append hskip']
    dsimp only at h ⊢
    split at h
    · rename_i hquote
      rw [if_pos hquote]
      cases h
      rfl
    · split at h <;> cases h
  · rw [if_neg hcomma] at h
    cases h

theorem readColon_append {cs rest : List Char} (h : readColon cs = .ok rest) (more : List Char) :
    readColon (cs ++ more) = .ok (rest ++ more) := by
  unfold readColon at h ⊢
  rcases hskip : skipSpace cs with _ | ⟨c, unread⟩
  · rw [hskip] at h
    cases h
  rw [hskip] at h
  rw [skipSpace_append hskip]
  dsimp only at h ⊢
  split at h
  · rename_i hcolon
    rw [if_pos hcolon]
    cases h
    rfl
  · cases h

theorem closeObject_append {cs rest : List Char} (h : closeObject cs = .ok rest)
    (more : List Char) : closeObject (cs ++ more) = .ok (rest ++ more) := by
  unfold closeObject at h ⊢
  rcases hskip : skipSpace cs with _ | ⟨c, unread⟩
  · rw [hskip] at h
    cases h
  rw [hskip] at h
  rw [skipSpace_append hskip]
  dsimp only at h ⊢
  split at h
  · rename_i hbrace
    rw [if_pos hbrace]
    cases h
    rfl
  · split at h <;> cases h

theorem inPart_eq_ok_iff {s : Segment} {r : Except Issue α} {a : α} :
    inPart s r = .ok a ↔ r = .ok a := by
  rcases r with issue | b
  · constructor
    · intro h
      cases h
    · intro h
      cases h
  · exact Iff.rfl

theorem settled_decodeText (expected : String) (meaning : String → Except Cause α) (depth : Nat) :
    Settled (decodeText expected meaning depth) := by
  intro cs v rest more h
  unfold decodeText at h ⊢
  rcases hskip : skipSpace cs with _ | ⟨c, unread⟩
  · rw [hskip] at h
    cases h
  rw [hskip] at h
  rw [skipSpace_append hskip]
  dsimp only at h ⊢
  by_cases hquote : c = '"'
  · rw [if_pos hquote, bind_eq_ok_iff] at h ⊢
    obtain ⟨⟨text, unread'⟩, hread, h⟩ := h
    refine ⟨(text, unread' ++ more), settled_readString _ _ _ more hread, ?_⟩
    rcases hmeaning : meaning text with cause | w
    · simp only [hmeaning] at h
      cases h
    · simp only [hmeaning] at h ⊢
      cases h
      rfl
  · rw [if_neg hquote] at h
    cases h

theorem decodeKey_append {shape : KeyShape κ} {cs rest : List Char} {key : κ} {part : Segment}
    (h : decodeKey shape cs = .ok (key, part, rest)) (more : List Char) :
    decodeKey shape (cs ++ more) = .ok (key, part, rest ++ more) := by
  rcases cs with _ | ⟨c, cs⟩
  · cases h
  rw [decodeKey, bind_eq_ok_iff] at h ⊢
  obtain ⟨⟨text, unread⟩, hread, h⟩ := h
  refine ⟨(text, unread ++ more), ?_, ?_⟩
  · rw [inPart_eq_ok_iff] at hread ⊢
    exact settled_readString cs _ _ more hread
  rcases hmeaning : shape.meaning text with cause | k
  · simp only [hmeaning] at h
    cases h
  · simp only [hmeaning] at h ⊢
    obtain ⟨unread', hcolon, h⟩ := bind_eq_ok_iff.1 h
    rw [bind_eq_ok_iff]
    refine ⟨unread' ++ more, readColon_append hcolon more, ?_⟩
    cases h
    rfl

/-- The entries that were read with some fuel are read with more, and when the text goes on. -/
theorem decodeEntries_append {shape : KeyShape κ} {value : List Char → Except Issue (α × List Char)}
    (hvalue : Settled value) {fuel n : Nat} {first : Bool} {cs rest : List Char}
    {es : List (κ × α)} (h : decodeEntries shape value fuel first cs = .ok (es, rest))
    (after : List Char) :
    decodeEntries shape value (fuel + n) first (cs ++ after) = .ok (es, rest ++ after) := by
  induction fuel generalizing first cs es rest with
  | zero => cases h
  | succ fuel ih =>
      rw [Nat.succ_add_eq_add_succ, Nat.add_succ]
      rw [decodeEntries, bind_eq_ok_iff] at h ⊢
      obtain ⟨⟨another, unread⟩, hnext, h⟩ := h
      refine ⟨(another, unread ++ after), ?_, ?_⟩
      · rw [inPart_eq_ok_iff] at hnext ⊢
        exact settled_nextField first cs _ _ after hnext
      by_cases hanother : another = true
      · subst hanother
        obtain ⟨⟨key, part, unread₁⟩, hkey, h⟩ := bind_eq_ok_iff.1 h
        obtain ⟨⟨v, unread₂⟩, hv, h⟩ := bind_eq_ok_iff.1 h
        obtain ⟨⟨es', unread₃⟩, hes, h⟩ := bind_eq_ok_iff.1 h
        apply bind_eq_ok_iff.2 ⟨(key, part, unread₁ ++ after), decodeKey_append hkey after, ?_⟩
        apply bind_eq_ok_iff.2 ⟨(v, unread₂ ++ after), ?_, ?_⟩
        · rw [inPart_eq_ok_iff] at hv ⊢
          exact hvalue _ _ _ after hv
        apply bind_eq_ok_iff.2 ⟨(es', unread₃ ++ after), ih hes, ?_⟩
        cases h
        rfl
      · rw [Bool.not_eq_true] at hanother
        subst hanother
        cases h
        rfl

theorem settled_decodeTable [KeyOrder κ] (shape : KeyShape κ) {decode : Decoder α}
    (hdecode : ∀ depth, Settled (decode depth)) (depth : Nat) :
    Settled (decodeTable shape decode depth) := by
  intro cs v rest more h
  unfold decodeTable at h ⊢
  rcases hskip : skipSpace cs with _ | ⟨c, unread⟩
  · rw [hskip] at h
    cases h
  rw [hskip] at h
  rw [skipSpace_append hskip]
  dsimp only at h ⊢
  by_cases hbrace : c = '\x7b'
  · rw [if_pos hbrace] at h ⊢
    by_cases hdepth : depth ≤ 1
    · rw [if_pos hdepth] at h
      cases h
    rw [if_neg hdepth, bind_eq_ok_iff] at h ⊢
    obtain ⟨⟨es, unread₁⟩, hread, h⟩ := h
    obtain ⟨unread₂, hclose, h⟩ := bind_eq_ok_iff.1 h
    refine ⟨(es, unread₁ ++ more), ?_, ?_⟩
    · have hmore := decodeEntries_append (hdecode (depth - 1)) (n := more.length) hread more
      rw [List.length_append]
      rwa [Nat.add_right_comm]
    · apply bind_eq_ok_iff.2 ⟨unread₂ ++ more, closeObject_append hclose more, ?_⟩
      cases h
      rfl
  · rw [if_neg hbrace] at h
    cases h

/-! ## Whole documents -/

theorem decodeWhole_eq_ok_iff {decode : Decoder α} {text : String} {v : α} :
    decodeWhole decode text = .ok v ↔
      ∃ rest, decode maxDepth text.toList = .ok (v, rest) ∧ skipSpace rest = [] := by
  rw [decodeWhole, bind_eq_ok_iff]
  constructor
  · rintro ⟨⟨w, rest⟩, hread, h⟩
    obtain ⟨_, hend, h⟩ := bind_eq_ok_iff.1 h
    cases h
    refine ⟨rest, hread, ?_⟩
    unfold readEnd at hend
    split at hend
    · assumption
    · cases hend
  · rintro ⟨rest, hread, hblank⟩
    refine ⟨(v, rest), hread, ?_⟩
    show (readEnd rest >>= fun _ => pure v) = .ok v
    rw [readEnd, hblank]
    rfl

/-- A text that begins with a whole document, and is a document itself, goes on with blanks. -/
theorem skipSpace_after_document {decode : Decoder α} (hdecode : ∀ depth, Settled (decode depth))
    {text more : List Char} {v w : α}
    (hbeginning : decodeWhole decode (String.ofList text) = .ok v)
    (hwhole : decodeWhole decode (String.ofList (text ++ more)) = .ok w) :
    skipSpace more = [] := by
  rw [decodeWhole_eq_ok_iff, String.toList_ofList] at hbeginning hwhole
  obtain ⟨rest, hread, hblank⟩ := hbeginning
  obtain ⟨rest', hread', hblank'⟩ := hwhole
  have hon : decode maxDepth (text ++ more) = .ok (v, rest ++ more) :=
    hdecode maxDepth text v rest more hread
  rw [hread'] at hon
  cases hon
  rw [skipSpace] at hblank hblank' ⊢
  rw [List.dropWhile_append, hblank] at hblank'
  simpa using hblank'

end ClientSession.Json
