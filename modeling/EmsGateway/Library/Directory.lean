import Mathlib.Data.List.AList

/-!
A directory of text files with modification times, as the calls of Python's
`os` module and of `open` see it. A file is the list of its lines. An operation
is `none` where the call raises an `OSError`.
-/

namespace EmsGateway.Library

/-- What a name in a directory stands for. `os.stat` follows links, so it
raises on a dangling one. -/
inductive Entry (α : Type)
  | file (lines : List α) (mtime : ℕ)
  | folder (mtime : ℕ)
  | dangling
  deriving DecidableEq

namespace Entry

variable {α : Type}

/-- `os.stat(entry).st_mtime`. -/
def mtime? : Entry α → Option ℕ
  | .file _ mtime => some mtime
  | .folder mtime => some mtime
  | .dangling => none

def isfile : Entry α → Bool
  | .file _ _ => true
  | .folder _ => false
  | .dangling => false

/-- The lines of a regular file. -/
def lines? : Entry α → Option (List α)
  | .file ls _ => some ls
  | .folder _ => none
  | .dangling => none

/-- The modification time of a regular file. -/
def modified? : Entry α → Option ℕ
  | .file _ mtime => some mtime
  | .folder _ => none
  | .dangling => none

end Entry

abbrev Directory (ν α : Type) := AList fun _ : ν => Entry α

namespace Directory

variable {ν α : Type} [DecidableEq ν]

/-- `os.path.isfile(name)`. -/
def isfile (d : Directory ν α) (name : ν) : Bool := (d.lookup name).any Entry.isfile

/-- `open(name,'r').readlines()`. -/
def readlines (d : Directory ν α) (name : ν) : Option (List α) :=
  (d.lookup name).bind Entry.lines?

/-- The lines a file holds, none for a name that is no regular file. -/
def lines (d : Directory ν α) (name : ν) : List α := (readlines d name).getD []

def modified (d : Directory ν α) (name : ν) : Option ℕ := (d.lookup name).bind Entry.modified?

/-- `open(name,'w')`: an existing file loses its contents, a missing one is
created. -/
def truncate (d : Directory ν α) (name : ν) (now : ℕ) : Option (Directory ν α) :=
  match d.lookup name with
  | some (.folder _) => none
  | _ => some (d.insert name (.file [] now))

/-- `open(name,'a+')`, one line written, and the file closed. -/
def appendLine (d : Directory ν α) (name : ν) (line : α) (now : ℕ) : Option (Directory ν α) :=
  match d.lookup name with
  | some (.folder _) => none
  | _ => some (d.insert name (.file (lines d name ++ [line]) now))

/-- `open(name,'a+')` with nothing written: a missing file is created empty. -/
def touch (d : Directory ν α) (name : ν) (now : ℕ) : Option (Directory ν α) :=
  match d.lookup name with
  | some (.folder _) => none
  | some (.file _ _) => some d
  | _ => some (d.insert name (.file [] now))

variable {d d' : Directory ν α} {name : ν} {line : α} {now : ℕ}

@[simp] theorem lines_empty (name : ν) : lines (∅ : Directory ν α) name = [] := by
  simp [lines, readlines]

@[simp] theorem modified_empty (name : ν) : modified (∅ : Directory ν α) name = none := by
  simp [modified]

theorem lines_eq_of_readlines {ls : List α} (h : readlines d name = some ls) :
    lines d name = ls := by
  simp [lines, h]

theorem isfile_of_readlines {ls : List α} (h : readlines d name = some ls) :
    isfile d name = true := by
  obtain ⟨e, he, hls⟩ := Option.bind_eq_some_iff.mp h
  rw [isfile, he]
  cases e with
  | file ls mtime => rfl
  | folder mtime => cases hls
  | dangling => cases hls

/-! ### What an operation leaves under each name -/

theorem lines_insert (e : Entry α) (m : ν) :
    lines (d.insert name e) m = if m = name then e.lines?.getD [] else lines d m := by
  split
  · subst m
    simp [lines, readlines]
  · simp [lines, readlines, AList.lookup_insert_ne ‹_›]

theorem modified_insert (e : Entry α) (m : ν) :
    modified (d.insert name e) m = if m = name then e.modified? else modified d m := by
  split
  · subst m
    simp [modified]
  · simp [modified, AList.lookup_insert_ne ‹_›]

theorem lines_erase (m : ν) : lines (d.erase name) m = if m = name then [] else lines d m := by
  split
  · subst m
    simp [lines, readlines]
  · simp [lines, readlines, AList.lookup_erase_ne ‹_›]

theorem modified_erase (m : ν) :
    modified (d.erase name) m = if m = name then none else modified d m := by
  split
  · subst m
    simp [modified]
  · simp [modified, AList.lookup_erase_ne ‹_›]

theorem eq_insert_of_truncate (h : truncate d name now = some d') :
    d' = d.insert name (.file [] now) := by
  unfold truncate at h
  split at h
  · cases h
  · exact (Option.some.inj h).symm

theorem exists_truncate_of_readlines {ls : List α} (h : readlines d name = some ls) (now : ℕ) :
    ∃ d', truncate d name now = some d' := by
  unfold readlines at h
  unfold truncate
  cases hlookup : d.lookup name with
  | none => exact ⟨_, rfl⟩
  | some e =>
      cases e with
      | file ls mtime => exact ⟨_, rfl⟩
      | folder mtime => simp [hlookup, Entry.lines?] at h
      | dangling => exact ⟨_, rfl⟩

theorem lines_eq_nil_of_truncate_eq_none (h : truncate d name now = none) : lines d name = [] := by
  unfold lines
  cases hread : readlines d name with
  | none => rfl
  | some ls =>
      obtain ⟨d', htruncate⟩ := exists_truncate_of_readlines hread now
      rw [htruncate] at h
      cases h

theorem eq_insert_of_appendLine (h : appendLine d name line now = some d') :
    d' = d.insert name (.file (lines d name ++ [line]) now) := by
  unfold appendLine at h
  split at h
  · cases h
  · exact (Option.some.inj h).symm

theorem readlines_appendLine {ls : List α} (h : readlines d name = some ls) (line : α) (now : ℕ) :
    ∃ d', appendLine d name line now = some d' ∧ readlines d' name = some (ls ++ [line]) := by
  have hlines := lines_eq_of_readlines h
  unfold readlines at h
  unfold appendLine
  cases hlookup : d.lookup name with
  | none => simp [hlookup] at h
  | some e =>
      cases e with
      | file ls' mtime => exact ⟨_, rfl, by simp [readlines, Entry.lines?, hlines]⟩
      | folder mtime => simp [hlookup, Entry.lines?] at h
      | dangling => simp [hlookup, Entry.lines?] at h

/-- Opening a file for appending creates it when it is missing and changes
nothing else. -/
theorem eq_or_insert_of_touch (h : touch d name now = some d') :
    d' = d ∨ lines d name = [] ∧ d' = d.insert name (.file [] now) := by
  unfold touch at h
  split at h
  · cases h
  · exact .inl (Option.some.inj h).symm
  · rename_i hfolder hfile
    refine .inr ⟨?_, (Option.some.inj h).symm⟩
    cases hl : d.lookup name with
    | none => simp [lines, readlines, hl]
    | some e =>
        cases e with
        | file ls mtime => exact absurd hl (hfile ls mtime)
        | folder mtime => exact absurd hl (hfolder mtime)
        | dangling => simp [lines, readlines, hl, Entry.lines?]

theorem lines_truncate (h : truncate d name now = some d') (m : ν) :
    lines d' m = if m = name then [] else lines d m := by
  rw [eq_insert_of_truncate h, lines_insert]
  rfl

theorem modified_truncate (h : truncate d name now = some d') (m : ν) :
    modified d' m = if m = name then some now else modified d m := by
  rw [eq_insert_of_truncate h, modified_insert]
  rfl

theorem lines_appendLine (h : appendLine d name line now = some d') (m : ν) :
    lines d' m = if m = name then lines d name ++ [line] else lines d m := by
  rw [eq_insert_of_appendLine h, lines_insert]
  rfl

theorem modified_appendLine (h : appendLine d name line now = some d') (m : ν) :
    modified d' m = if m = name then some now else modified d m := by
  rw [eq_insert_of_appendLine h, modified_insert]
  rfl

theorem lines_touch (h : touch d name now = some d') (m : ν) : lines d' m = lines d m := by
  rcases eq_or_insert_of_touch h with rfl | ⟨hnil, rfl⟩
  · rfl
  · rw [lines_insert]
    split
    · subst m
      exact hnil.symm
    · rfl

theorem modified_touch (h : touch d name now = some d') (m : ν) :
    modified d' m = modified d m ∨ m = name ∧ modified d' m = some now := by
  rcases eq_or_insert_of_touch h with rfl | ⟨-, rfl⟩
  · exact .inl rfl
  · rw [modified_insert]
    split
    · exact .inr ⟨‹_›, rfl⟩
    · exact .inl rfl

end Directory

end EmsGateway.Library
