import ClientSession.Proofs.Json.Beginnings
import ClientSession.Proofs.Json.Quoting
import ClientSession.Proofs.Tables
import ClientSession.Storage.Snapshot
import Mathlib.Data.List.TakeWhile

/-!
# Documents of items

The document of items is read back as the same items, whatever texts the keys and the values are,
and the beginning of a document is no document.

- `Items.decodeEntries_line`: one line is read, and the reader stands before the next.
- `Items.ofDocument_document`: the items are read back.
- `Items.ofDocument_take`: of a part of the document no items are read.
-/

namespace ClientSession

namespace Items

open Json

/-- What the reader of entries takes for the separator before a line: none before the first. -/
def separator (first : Bool) : List Char := if first then [] else [',']

theorem nextField_line (first : Bool) (e : String × String) (rest : List Char) :
    nextField first (separator first ++ line e ++ rest) =
      .ok (true, quote e.1 ++ (':' :: ' ' :: (quote e.2 ++ rest))) := by
  have hkey : line e ++ rest =
      '\n' :: ' ' :: ' ' :: (quote e.1 ++ (':' :: ' ' :: (quote e.2 ++ rest))) := by
    simp [line]
  rw [List.append_assoc, hkey, quote_append]
  rcases first with _ | _
  · rfl
  · rfl

theorem decodeKey_quote (key : String) (rest : List Char) :
    decodeKey textKeys (quote key ++ (':' :: rest)) = .ok (key, .field key, rest) := by
  rw [quote_append, decodeKey, List.drop_one, List.tail_cons, readString_quoted]
  rfl

/-- One line is read, and the reader stands before the next. -/
theorem decodeEntries_line (depth fuel : Nat) (first : Bool) (e : String × String)
    (rest : List Char) :
    decodeEntries textKeys (decodeString depth) (fuel + 1) first
        (separator first ++ line e ++ rest) = do
      let (es, rest) ← decodeEntries textKeys (decodeString depth) fuel false rest
      return (e :: es, rest) := by
  have hpart : ∀ {α : Type} (s : Segment) (a : α), inPart s (.ok a) = .ok a := fun _ _ => rfl
  rw [decodeEntries, nextField_line]
  simp only [hpart, bind, Except.bind, decodeKey_quote, decodeString_quote]

/-- The lines after the first are read up to the brace that ends the document. -/
theorem decodeEntries_lines (depth : Nat) (es : List (String × String)) (fuel : Nat)
    (h : es.length < fuel) :
    decodeEntries textKeys (decodeString depth) fuel false
        (es.flatMap (fun e => ',' :: line e) ++ ['\n', '\x7d']) = .ok (es, ['\x7d']) := by
  induction es generalizing fuel with
  | nil =>
      obtain ⟨fuel, rfl⟩ := Nat.exists_eq_succ_of_ne_zero (Nat.ne_of_gt h)
      rfl
  | cons e es ih =>
      obtain ⟨fuel, rfl⟩ := Nat.exists_eq_succ_of_ne_zero (Nat.ne_of_gt (Nat.zero_lt_of_lt h))
      have hline := decodeEntries_line depth fuel false e
        (es.flatMap (fun e => ',' :: line e) ++ ['\n', '\x7d'])
      have hes : es.length < fuel := by simpa using h
      rw [ih fuel hes] at hline
      simp only [separator, Bool.false_eq_true, if_false] at hline
      rw [List.flatMap_cons, List.append_assoc]
      exact hline

theorem length_le_lines (es : List (String × String)) :
    es.length ≤ (es.flatMap fun e => ',' :: line e).length := by
  induction es with
  | nil => exact Nat.le_refl 0
  | cons e es ih =>
      rw [List.flatMap_cons, List.length_append, List.length_cons, List.length_cons]
      omega

theorem intercalate_lines (e : String × String) (es : List (String × String)) :
    List.intercalate [','] ((e :: es).map line) = line e ++ es.flatMap fun e => ',' :: line e := by
  induction es generalizing e with
  | nil => simp
  | cons e' es ih =>
      have hrest := ih e'
      simp only [List.map_cons] at hrest ⊢
      rw [List.intercalate_cons_cons, hrest, List.flatMap_cons]
      simp

/-- The characters of a document with a first line. -/
theorem toList_document {items : Items} {e : String × String} {es : List (String × String)}
    (h : items.entries = e :: es) :
    items.document.toList =
      '\x7b' :: (line e ++ (es.flatMap (fun e => ',' :: line e) ++ ['\n', '\x7d'])) := by
  rw [document, h]
  simp only [intercalate_lines, String.toList_ofList, List.append_assoc]

/-- The document of items is read back as the same items. -/
theorem ofDocument_document (items : Items) : ofDocument items.document = .ok items := by
  rcases hentries : items.entries with _ | ⟨e, es⟩
  · have hempty : items = Table.empty := Table.ext_entries hentries
    rw [hempty]
    rfl
  · let body := line e ++ (es.flatMap (fun e => ',' :: line e) ++ ['\n', '\x7d'])
    have hfuel : es.length < body.length := by
      have hlength := length_le_lines es
      simp only [body, List.length_append, List.length_cons, List.length_nil]
      omega
    have hread : decodeEntries textKeys (decodeString (maxDepth - 1)) (body.length + 1) true body =
        .ok (e :: es, ['\x7d']) := by
      have hline := decodeEntries_line (maxDepth - 1) body.length true e
        (es.flatMap (fun e => ',' :: line e) ++ ['\n', '\x7d'])
      rw [decodeEntries_lines (maxDepth - 1) es body.length hfuel] at hline
      exact hline
    have htable : decodeTable textKeys decodeString maxDepth ('\x7b' :: body) =
        .ok (items, []) := by
      have hdepth : ¬ maxDepth ≤ 1 := by decide
      have hskip : skipSpace ('\x7b' :: body) = '\x7b' :: body := rfl
      simp only [decodeTable, hskip, if_true, hdepth, if_false, hread, ← hentries]
      show Except.ok (Table.ofList items.entries, []) = Except.ok (items, [])
      rw [Table.ofList_entries]
    rw [ofDocument, decodeWhole, toList_document hentries, htable]
    rfl

theorem document_ends_with_brace (items : Items) :
    ∃ body, items.document.toList = body ++ ['\x7d'] := by
  rcases hentries : items.entries with _ | ⟨e, es⟩
  · refine ⟨['\x7b'], ?_⟩
    rw [document, hentries]
    rfl
  · refine ⟨'\x7b' :: (line e ++ (es.flatMap (fun e => ',' :: line e) ++ ['\n'])), ?_⟩
    rw [toList_document hentries]
    simp

/-- Of the beginning of a document no items are read: its brace is missing. -/
theorem ofDocument_take (items items' : Items) {n : Nat} (h : n < items.document.toList.length) :
    ofDocument (String.ofList (items.document.toList.take n)) ≠ .ok items' := by
  intro hpart
  have hwhole : decodeWhole (decodeTable textKeys decodeString)
      (String.ofList (items.document.toList.take n ++ items.document.toList.drop n)) =
        .ok items := by
    rw [List.take_append_drop, String.ofList_toList]
    exact ofDocument_document items
  have hblank : skipSpace (items.document.toList.drop n) = [] :=
    skipSpace_after_document
      (settled_decodeTable textKeys (settled_decodeText _ _)) hpart hwhole
  have hspaces : ∀ c ∈ items.document.toList.drop n, isSpace c = true :=
    List.dropWhile_eq_nil_iff.1 hblank
  obtain ⟨body, hbody⟩ := document_ends_with_brace items
  have hbrace : '\x7d' ∈ items.document.toList.drop n := by
    rw [hbody, List.length_append, List.length_singleton] at h
    rw [hbody, List.drop_append_of_le_length (Nat.le_of_lt_succ h)]
    exact List.mem_append_right _ (List.mem_singleton.2 rfl)
  have hspace := hspaces _ hbrace
  revert hspace
  decide

end Items

end ClientSession
