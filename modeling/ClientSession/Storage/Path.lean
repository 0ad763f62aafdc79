import ClientSession.Text.Basic

/-!
# Paths of snapshots

The staging file lies beside the snapshot: it has the name of the snapshot with the extension
`tmp`. The extension of a name is what follows its last dot, unless the name has no other dot and
starts with it.
-/

namespace ClientSession

namespace FileName

/-- The last dot of a name and what stands before it, read backwards. -/
def beforeExtension (name : List Char) : List Char := name.reverse.dropWhile (· ≠ '.')

def extension? (name : List Char) : Option (List Char) :=
  match beforeExtension name with
  | [] | [_] => none
  | _ :: _ :: _ => some (name.reverse.takeWhile (· ≠ '.')).reverse

/-- The name without its extension. -/
def stem (name : List Char) : List Char :=
  match beforeExtension name with
  | [] | [_] => name
  | _ :: before => before.reverse

/-- The name with the extension `tmp`, in the place of another extension if it has one. -/
def staging (name : List Char) : List Char := stem name ++ ['.', 't', 'm', 'p']

theorem eq_stem_append {name ext : List Char} (h : extension? name = some ext) :
    name = stem name ++ '.' :: ext := by
  cases hbefore : beforeExtension name with
  | nil => simp [extension?, hbefore] at h
  | cons dot before =>
      have hdot : dot = '.' := by
        have hhead := List.head?_dropWhile_not (fun x : Char => decide (x ≠ '.')) name.reverse
        rw [← beforeExtension, hbefore] at hhead
        simpa using hhead
      cases before with
      | nil => simp [extension?, hbefore] at h
      | cons c before =>
          have hstem : stem name = (c :: before).reverse := by simp [stem, hbefore]
          have hext : ext = (name.reverse.takeWhile (· ≠ '.')).reverse := by
            simpa [extension?, hbefore] using h.symm
          calc name
              = (name.reverse.takeWhile (· ≠ '.') ++ beforeExtension name).reverse := by
                rw [beforeExtension, List.takeWhile_append_dropWhile, List.reverse_reverse]
            _ = (beforeExtension name).reverse ++ ext := by rw [List.reverse_append, hext]
            _ = stem name ++ '.' :: ext := by rw [hbefore, hdot, hstem]; simp

theorem stem_of_no_extension {name : List Char} (h : extension? name = none) :
    stem name = name := by
  unfold extension? at h
  unfold stem
  split at h <;> simp_all

/-- The staging file is the snapshot itself if and only if the snapshot has the extension `tmp`. -/
theorem staging_eq_iff (name : List Char) :
    staging name = name ↔ extension? name = some ['t', 'm', 'p'] := by
  constructor
  · intro h
    cases hext : extension? name with
    | none =>
        rw [staging, stem_of_no_extension hext] at h
        have hlength := congrArg List.length h
        simp at hlength
    | some ext =>
        have hname := eq_stem_append hext
        have hsame : stem name ++ ['.', 't', 'm', 'p'] = stem name ++ '.' :: ext :=
          h.trans hname
        have htail := List.append_cancel_left hsame
        cases htail
        rfl
  · intro h
    exact (eq_stem_append h).symm

end FileName

namespace FilePath

/-- The name of the file at a path: its last part, unless that leads to the directory above. Empty
parts and single dots are no parts. -/
def name? (path : String) : Option (List Char) :=
  let parts := (Text.splitOnChar '/' path.toList).filter fun part => part ≠ [] ∧ part ≠ ['.']
  parts.getLast?.filter (· ≠ ['.', '.'])

/-- The extension of the file at a path. -/
def extension? (path : String) : Option (List Char) := (name? path).bind FileName.extension?

/-- The staging file of a snapshot at a path is the snapshot: its name stays the same, or it has
no name that could change. -/
def stagesInPlace (path : String) : Bool :=
  match name? path with
  | none => true
  | some name => FileName.staging name = name

theorem stagesInPlace_iff {path : String} (h : name? path ≠ none) :
    stagesInPlace path = true ↔ extension? path = some ['t', 'm', 'p'] := by
  unfold stagesInPlace extension?
  cases hname : name? path with
  | none => exact absurd hname h
  | some name => simp [FileName.staging_eq_iff]

end FilePath

end ClientSession
