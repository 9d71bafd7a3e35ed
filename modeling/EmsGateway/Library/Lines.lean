import Mathlib.Tactic.Common

/-!
The lines of a text file. Python translates every line break to `'\n'` when it
reads a text, so a text is read back as the lines that were written when none of
these holds a line break of its own.
-/

namespace EmsGateway.Library

namespace Lines

/-- A text with its line breaks translated. -/
def translate : List Char → List Char
  | [] => []
  | '\r' :: '\n' :: text => '\n' :: translate text
  | '\r' :: text => '\n' :: translate text
  | c :: text => c :: translate text

/-- A text cut behind each line break. -/
def split : List Char → List (List Char)
  | [] => []
  | c :: text =>
      if c = '\n' then [c] :: split text
      else
        match split text with
        | [] => [[c]]
        | line :: lines => (c :: line) :: lines

/-- `file.readlines()`. -/
def readlines (text : List Char) : List (List Char) := split (translate text)

/-- A character that breaks no line. -/
def Inline (c : Char) : Prop := c ≠ '\n' ∧ c ≠ '\r'

theorem translate_cons {c : Char} (hc : Inline c) (text : List Char) :
    translate (c :: text) = c :: translate text :=
  translate.eq_4 c text (fun _ hr _ => hc.2 hr) hc.2

theorem translate_newline (text : List Char) :
    translate ('\n' :: text) = '\n' :: translate text :=
  translate.eq_4 '\n' text (fun _ hr _ => absurd hr (by decide)) (by decide)

/-- A line and its break are read as one line. -/
theorem readlines_line {line : List Char} (hline : ∀ c ∈ line, Inline c) (text : List Char) :
    readlines (line ++ '\n' :: text) = (line ++ ['\n']) :: readlines text := by
  induction line with
  | nil =>
      rw [List.nil_append, readlines, translate_newline, split, if_pos rfl]
      rfl
  | cons c line ih =>
      rw [List.forall_mem_cons] at hline
      have ih := ih hline.2
      rw [readlines] at ih ⊢
      rw [List.cons_append, translate_cons hline.1, split, if_neg hline.1.1, ih]
      rfl

/-- Lines that are written one after the other are read as they were written. -/
theorem readlines_flatMap {α : Type} {line : α → List Char} {xs : List α}
    (hxs : ∀ x ∈ xs, ∀ c ∈ line x, Inline c) :
    readlines (xs.flatMap fun x => line x ++ ['\n']) = xs.map fun x => line x ++ ['\n'] := by
  induction xs with
  | nil => rfl
  | cons x xs ih =>
      rw [List.forall_mem_cons] at hxs
      rw [List.flatMap_cons, List.append_assoc, List.singleton_append, readlines_line hxs.1,
        ih hxs.2]
      rfl

end Lines

end EmsGateway.Library
