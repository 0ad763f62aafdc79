import ClientSession.Proofs.Json.Beginnings
import ClientSession.Proofs.Tables

/-!
# What a reader may give

What a reader gives depends on the text, but not all values can be given: an integer that is read
fits 64 signed bits, and the draft of a record has whatever its fields keep.

- `gives_decodeInteger`: integers of 64 signed bits.
- `gives_decodeTable`: tables of values that are given.
- `RecordShape.gives_decodeOpen`, `RecordShape.gives_decode`: records of drafts that the fields keep
  in order.
-/

namespace ClientSession.Json

variable {α β δ κ : Type}

/-- A reading that succeeds gives a value with a property. -/
def Gives (P : α → Prop) (r : Except Issue (α × List Char)) : Prop :=
  ∀ v rest, r = .ok (v, rest) → P v

theorem Gives.ok {P : α → Prop} {v : α} (h : P v) (rest : List Char) : Gives P (.ok (v, rest)) := by
  rintro _ _ ⟨⟩
  exact h

theorem Gives.error (P : α → Prop) (issue : Issue) : Gives P (.error issue) := nofun

theorem Gives.ite {P : α → Prop} {c : Prop} [Decidable c] {r r' : Except Issue (α × List Char)}
    (h : Gives P r) (h' : Gives P r') : Gives P (if c then r else r') := by
  split
  · exact h
  · exact h'

theorem gives_true (r : Except Issue (α × List Char)) : Gives (fun _ => True) r :=
  fun _ _ _ => trivial

/-! ## Numbers -/

/-- A negative integer fits 64 signed bits. -/
def Fits : JsonNumber → Prop
  | .negative n => n ≤ maxSigned64 + 1
  | _ => True

theorem gives_readScaled (positive : Bool) (m : Nat) (e : Int) (rest : List Char) :
    Gives Fits (readScaled positive m e rest) := by
  rw [readScaled]
  split
  · exact .ok trivial _
  · exact .error _ _

theorem gives_readExponent (positive : Bool) (m : Nat) (start : Int) (cs : List Char) :
    Gives Fits (readExponent positive m start cs) := by
  rw [readExponent.eq_def]
  dsimp only
  split
  · exact .error _ _
  · refine .ite (.ite (.ite (.error _ _) (.ok ?_ _)) (gives_readScaled _ _ _ _)) (.error _ _)
    trivial

theorem gives_readTail (positive : Bool) (m : Nat) (e : Int) (cs : List Char) :
    Gives Fits (readTail positive m e cs) := by
  rw [readTail.eq_def]
  split
  · exact gives_readExponent _ _ _ _
  · exact gives_readExponent _ _ _ _
  · exact gives_readScaled _ _ _ _

theorem gives_readPlaces (positive : Bool) (m : Nat) (e : Int) (cs : List Char) :
    Gives Fits (readPlaces positive m e cs) := by
  rw [readPlaces]
  dsimp only
  split
  · exact .ite (gives_readTail _ _ _ _) (.ite (.error _ _) (gives_readTail _ _ _ _))
  · exact .ite (.error _ _) (gives_readTail _ _ _ _)

theorem gives_readLong (positive : Bool) (m : Nat) (cs : List Char) :
    Gives Fits (readLong positive m cs) := by
  rw [readLong]
  split
  · exact gives_readPlaces _ _ _ _
  · exact gives_readTail _ _ _ _

theorem gives_readFraction (positive : Bool) (m : Nat) (cs : List Char) :
    Gives Fits (readFraction positive m cs) := by
  rw [readFraction.eq_def]
  split
  · exact gives_readPlaces _ _ _ _
  · exact gives_readExponent _ _ _ _
  · exact gives_readExponent _ _ _ _
  · split
    · exact .ok trivial _
    · split
      · exact .ok trivial _
      · rename_i h
        refine .ok ?_ _
        rw [not_or, Nat.not_lt] at h
        exact h.2

theorem gives_readNumber (positive : Bool) (cs : List Char) :
    Gives Fits (readNumber positive cs) := by
  rw [readNumber.eq_def]
  split
  · exact .error _ _
  · split
    · exact .ite (.error _ _) (gives_readFraction _ _ _)
    · exact gives_readFraction _ _ _
  · refine .ite ?_ (.error _ _)
    dsimp only
    split
    · exact .ite (gives_readLong _ _ _) (gives_readFraction _ _ _)
    · exact gives_readFraction _ _ _

/-- The integer fits 64 signed bits. -/
def Signed64 (n : Int) : Prop := -(maxSigned64 : Int) - 1 ≤ n ∧ n ≤ maxSigned64

instance (n : Int) : Decidable (Signed64 n) := inferInstanceAs (Decidable (_ ∧ _))

theorem gives_decodeNumber {P : α → Prop} {expected : String}
    {meaning : JsonNumber → Except Cause α} (h : ∀ n v, Fits n → meaning n = .ok v → P v)
    (depth : Nat) (cs : List Char) : Gives P (decodeNumber expected meaning depth cs) := by
  intro v rest hread
  rw [decodeNumber] at hread
  split at hread
  · cases hread
  · dsimp only at hread
    split at hread
    · obtain ⟨⟨n, unread⟩, hn, hmeaning⟩ := bind_eq_ok_iff.mp hread
      dsimp only at hmeaning
      split at hmeaning
      · cases hmeaning
        exact h n v (gives_readNumber _ _ n _ hn) ‹_›
      · cases hmeaning
    · split at hread
      · obtain ⟨⟨n, unread⟩, hn, hmeaning⟩ := bind_eq_ok_iff.mp hread
        dsimp only at hmeaning
        split at hmeaning
        · cases hmeaning
          exact h n v (gives_readNumber _ _ n _ hn) ‹_›
        · cases hmeaning
      · obtain ⟨_, hwrong, -⟩ := bind_eq_ok_iff.mp hread
        cases hwrong

/-- An integer that is read fits 64 signed bits. -/
theorem gives_decodeInteger (depth : Nat) (cs : List Char) :
    Gives Signed64 (decodeInteger depth cs) := by
  refine gives_decodeNumber (fun n v hfits hv => ?_) depth cs
  cases n with
  | natural n =>
      dsimp only at hv
      split at hv
      · cases hv
        constructor <;> omega
      · cases hv
  | negative n =>
      cases hv
      have hn : n ≤ maxSigned64 + 1 := hfits
      constructor <;> omega
  | double bits => cases hv

/-- A natural number that is read is no larger than its bound. -/
theorem gives_decodeNatural (expected : String) (bound depth : Nat) (cs : List Char) :
    Gives (· ≤ bound) (decodeNatural expected bound depth cs) := by
  refine gives_decodeNumber (fun n v _ hv => ?_) depth cs
  cases n with
  | natural n =>
      dsimp only at hv
      split at hv
      · cases hv
        assumption
      · cases hv
  | negative n => cases hv
  | double bits => cases hv

/-! ## Texts and parts -/

theorem gives_decodeText {P : α → Prop} {expected : String} {meaning : String → Except Cause α}
    (h : ∀ s v, meaning s = .ok v → P v) (depth : Nat) (cs : List Char) :
    Gives P (decodeText expected meaning depth cs) := by
  intro v rest hread
  rw [decodeText] at hread
  split at hread
  · cases hread
  · split at hread
    · obtain ⟨⟨s, unread⟩, -, hmeaning⟩ := bind_eq_ok_iff.mp hread
      dsimp only at hmeaning
      split at hmeaning
      · cases hmeaning
        exact h s v ‹_›
      · cases hmeaning
    · cases hread

theorem gives_decodeOption {P : α → Prop} {decode : Decoder α}
    (h : ∀ depth cs, Gives P (decode depth cs)) (depth : Nat) (cs : List Char) :
    Gives (fun v => ∀ w ∈ v, P w) (decodeOption decode depth cs) := by
  intro v rest hread
  rw [decodeOption] at hread
  split at hread
  · obtain ⟨_, -, hnull⟩ := bind_eq_ok_iff.mp hread
    cases hnull
    exact nofun
  · obtain ⟨⟨w, unread⟩, hw, hsome⟩ := bind_eq_ok_iff.mp hread
    cases hsome
    intro w' hw'
    cases hw'
    exact h _ _ w _ hw

theorem Gives.inPart {P : α → Prop} {r : Except Issue (α × List Char)} (h : Gives P r)
    (s : Segment) : Gives P (inPart s r) := by
  intro v rest hr
  exact h v rest (inPart_eq_ok_iff.mp hr)

theorem gives_decodeEntries {P : α → Prop} {keys : KeyShape κ}
    {value : List Char → Except Issue (α × List Char)} (h : ∀ cs, Gives P (value cs)) (fuel : Nat)
    (first : Bool) (cs : List Char) :
    Gives (fun es => ∀ e ∈ es, P e.2) (decodeEntries keys value fuel first cs) := by
  induction fuel generalizing first cs with
  | zero => exact .error _ _
  | succ fuel ih =>
      intro es rest hread
      rw [decodeEntries] at hread
      obtain ⟨⟨more, unread⟩, -, hread⟩ := bind_eq_ok_iff.mp hread
      cases more with
      | false =>
          cases hread
          exact fun e he => absurd he List.not_mem_nil
      | true =>
          obtain ⟨⟨k, part, unread₁⟩, -, hread⟩ := bind_eq_ok_iff.mp hread
          obtain ⟨⟨v, unread₂⟩, hv, hread⟩ := bind_eq_ok_iff.mp hread
          obtain ⟨⟨vs, unread₃⟩, hvs, hread⟩ := bind_eq_ok_iff.mp hread
          cases hread
          exact List.forall_mem_cons.mpr
            ⟨(h unread₁).inPart part v _ hv, ih false unread₂ vs _ hvs⟩

/-- What holds of the values that are read holds of those in a table. -/
theorem gives_decodeTable [KeyOrder κ] {P : α → Prop} (keys : KeyShape κ) {decode : Decoder α}
    (h : ∀ depth cs, Gives P (decode depth cs)) (depth : Nat) (cs : List Char) :
    Gives (fun t => ∀ e ∈ t.entries, P e.2) (decodeTable keys decode depth cs) := by
  intro t rest hread
  rw [decodeTable] at hread
  split at hread
  · cases hread
  · split at hread
    · split at hread
      · cases hread
      · obtain ⟨⟨es, unread⟩, hes, hread⟩ := bind_eq_ok_iff.mp hread
        obtain ⟨unread', -, hclose⟩ := bind_eq_ok_iff.mp hread
        cases hclose
        exact fun e he =>
          gives_decodeEntries (h (depth - 1)) _ _ _ es _ hes e (Table.mem_of_mem_ofList he)
    · cases hread

/-! ## Records -/

/-- Reading the field keeps what holds of a draft. -/
def FieldShape.Keeps (P : δ → Prop) (f : FieldShape δ) : Prop :=
  ∀ draft depth cs, P draft → Gives P (f.read draft depth cs)

/-- A field that is kept keeps what its values do not break. -/
theorem FieldShape.keeps_keep {P : δ → Prop} {Q : β → Prop} {name : String} {isOptional : Bool}
    {get : δ → Option β} {set : δ → β → δ} {decode : Decoder β}
    (hdecode : ∀ depth cs, Gives Q (decode depth cs)) (hset : ∀ d v, P d → Q v → P (set d v)) :
    (FieldShape.keep name isOptional get set decode).Keeps P := by
  intro draft depth cs hdraft v rest hread
  obtain ⟨⟨value, unread⟩, hvalue, hv⟩ := bind_eq_ok_iff.mp hread
  cases hv
  exact hset draft value hdraft (hdecode depth cs value _ hvalue)

namespace RecordShape

variable {P : δ → Prop} {shape : RecordShape δ α} {other : String → δ → Decoder δ}

theorem gives_readFields (hfields : ∀ f ∈ shape.fields, f.Keeps P)
    (hother : ∀ k draft depth cs, P draft → Gives P (other k draft depth cs)) (depth fuel : Nat)
    (first : Bool) {draft : δ} (hdraft : P draft) (cs : List Char) :
    Gives P (shape.readFields other depth fuel first draft cs) := by
  induction fuel generalizing first draft cs with
  | zero => exact .error _ _
  | succ fuel ih =>
      intro v rest hread
      rw [readFields] at hread
      obtain ⟨⟨more, unread⟩, -, hread⟩ := bind_eq_ok_iff.mp hread
      cases more with
      | false =>
          cases hread
          exact hdraft
      | true =>
          obtain ⟨⟨k, unread₁⟩, -, hread⟩ := bind_eq_ok_iff.mp hread
          dsimp only at hread
          split at hread
          · rename_i field hfield
            have hkeeps := hfields field (List.mem_of_find?_eq_some hfield)
            split at hread
            · cases hread
            · obtain ⟨unread₂, -, hread⟩ := bind_eq_ok_iff.mp hread
              obtain ⟨⟨draft', unread₃⟩, hvalue, hread⟩ := bind_eq_ok_iff.mp hread
              have hdraft' : P draft' := (hkeeps _ _ _ hdraft).inPart _ _ _ hvalue
              exact ih false hdraft' unread₃ v rest hread
          · obtain ⟨unread₂, -, hread⟩ := bind_eq_ok_iff.mp hread
            obtain ⟨⟨draft', unread₃⟩, hvalue, hread⟩ := bind_eq_ok_iff.mp hread
            have hdraft' : P draft' := (hother _ _ _ _ hdraft).inPart _ _ _ hvalue
            exact ih false hdraft' unread₃ v rest hread

/-- A record is that of a draft which has whatever its fields keep. -/
theorem gives_decodeOpen (hfields : ∀ f ∈ shape.fields, f.Keeps P)
    (hother : ∀ k draft depth cs, P draft → Gives P (other k draft depth cs))
    (hdraft : P shape.draft) (depth : Nat) (cs : List Char) :
    Gives (fun v => ∃ draft, P draft ∧ shape.finish draft = .ok v)
      (shape.decodeOpen other depth cs) := by
  intro v rest hread
  rw [decodeOpen] at hread
  split at hread
  · cases hread
  · split at hread
    · rw [decodeObject] at hread
      split at hread
      · cases hread
      · obtain ⟨⟨draft, unread⟩, hdraft', hfinish⟩ := bind_eq_ok_iff.mp hread
        have hkept : P draft :=
          gives_readFields hfields hother _ _ _ hdraft _ draft unread hdraft'
        dsimp only [finishObject] at hfinish
        split at hfinish
        · rename_i v' hv
          obtain ⟨unread', -, hclose⟩ := bind_eq_ok_iff.mp hfinish
          cases hclose
          exact ⟨draft, hkept, hv⟩
        · cases hfinish
    · cases hread

theorem gives_readItems {fields : List (FieldShape δ)} (hfields : ∀ f ∈ fields, f.Keeps P)
    (depth : Nat) (tooShort : Nat → Cause) (index : Nat) {draft : δ} (hdraft : P draft)
    (cs : List Char) : Gives P (readItems depth tooShort fields index draft cs) := by
  induction fields generalizing index draft cs with
  | nil => exact .ok hdraft _
  | cons field fields ih =>
      intro v rest hread
      rw [readItems] at hread
      obtain ⟨⟨more, unread⟩, -, hread⟩ := bind_eq_ok_iff.mp hread
      cases more with
      | false =>
          dsimp only at hread
          split at hread
          · cases hread
            exact hdraft
          · cases hread
      | true =>
          obtain ⟨⟨draft', unread₁⟩, hvalue, hread⟩ := bind_eq_ok_iff.mp hread
          have hkeeps := hfields field List.mem_cons_self
          have hdraft' : P draft' := (hkeeps _ _ _ hdraft).inPart _ _ _ hvalue
          exact ih (fun f hf => hfields f (List.mem_cons_of_mem _ hf)) (index + 1) hdraft' unread₁ v
            rest hread

/-- So is a record that may as well be an array of its fields. -/
theorem gives_decode (hfields : ∀ f ∈ shape.fields, f.Keeps P) (hdraft : P shape.draft)
    (depth : Nat) (cs : List Char) :
    Gives (fun v => ∃ draft, P draft ∧ shape.finish draft = .ok v) (shape.decode depth cs) := by
  have hignore : ∀ k draft depth cs, P draft → Gives P (ignore k draft depth cs) := by
    intro k draft depth cs hd v rest hread
    obtain ⟨unread, -, hread⟩ := bind_eq_ok_iff.mp hread
    cases hread
    exact hd
  have hopen := gives_decodeOpen hfields hignore hdraft depth cs
  intro v rest hread
  rw [decode] at hread
  split at hread
  · cases hread
  · rename_i c unread hskip
    split at hread
    · rename_i hbrace
      refine hopen v rest ?_
      rw [decodeOpen, hskip]
      simpa only [hbrace, if_true] using hread
    · split at hread
      · split at hread
        · cases hread
        · obtain ⟨⟨draft, unread'⟩, hitems, hfinish⟩ := bind_eq_ok_iff.mp hread
          have hkept : P draft := gives_readItems hfields _ _ _ hdraft _ draft unread' hitems
          dsimp only at hfinish
          split at hfinish
          · rename_i v' hv
            obtain ⟨unread'', -, hclose⟩ := bind_eq_ok_iff.mp hfinish
            cases hclose
            exact ⟨draft, hkept, hv⟩
          · cases hfinish
      · cases hread

end RecordShape

end ClientSession.Json
