import Mathlib.Data.List.TakeWhile
import Mathlib.Tactic.Common

/-!
Arguments of a request, as Parsing.cpp of WebServer reads them: `urlDecode`, and
`_parseArguments` with its positions.
-/

namespace EmsGateway.Portal

/-! ### Up to a byte -/

section UpTo

variable {α : Type} [DecidableEq α] {c : α} {line rest : List α}

theorem takeWhile_append (h : c ∉ line) :
    (line ++ rest).takeWhile (· ≠ c) = line ++ rest.takeWhile (· ≠ c) := by
  apply List.takeWhile_append_of_pos
  intro b hb
  rw [decide_eq_true_iff]
  rintro rfl
  exact h hb

theorem dropWhile_append (h : c ∉ line) :
    (line ++ rest).dropWhile (· ≠ c) = rest.dropWhile (· ≠ c) := by
  apply List.dropWhile_append_of_pos
  intro b hb
  rw [decide_eq_true_iff]
  rintro rfl
  exact h hb

theorem takeWhile_line (h : c ∉ line) : (line ++ c :: rest).takeWhile (· ≠ c) = line := by
  rw [takeWhile_append h, List.takeWhile_cons_of_neg (by simp), List.append_nil]

theorem dropWhile_line (h : c ∉ line) :
    (line ++ c :: rest).dropWhile (· ≠ c) = c :: rest := by
  rw [dropWhile_append h, List.dropWhile_cons_of_neg (by simp)]

end UpTo

/-! ### Strings -/

/-- An Arduino `String`. -/
abbrev Str := List UInt8

namespace Str

/-- A string up to its first zero, where its C functions stop. -/
def cut (s : Str) : Str := s.takeWhile (· ≠ 0)

/-- `indexOf(c, start)`, and none for -1. -/
def indexOf (s : Str) (c : UInt8) (start : ℕ) : Option ℕ :=
  ((cut (s.drop start)).idxOf? c).map (· + start)

/-- `substring(left, right)` -/
def substring (s : Str) (left right : ℕ) : Str :=
  cut ((s.take (max left right)).drop (min left right))

end Str

/-! ### urlDecode -/

/-- A digit of `strtol(.., 16)`. -/
def hexDigit (c : UInt8) : Option UInt8 :=
  if 0x30 ≤ c ∧ c ≤ 0x39 then some (c - 0x30)
  else if 0x41 ≤ c ∧ c ≤ 0x46 then some (c - 0x37)
  else if 0x61 ≤ c ∧ c ≤ 0x66 then some (c - 0x57)
  else none

/-- `strtol(temp, NULL, 16)`, which stops at what is no digit. -/
def strtol (high low : UInt8) : UInt8 :=
  match hexDigit high, hexDigit low with
  | none, _ => 0
  | some h, none => h
  | some h, some l => 16 * h + l

def urlDecode : Str → Str
  | 0x25 :: high :: low :: text => strtol high low :: urlDecode text
  | encodedChar :: text => (if encodedChar = 0x2B then 0x20 else encodedChar) :: urlDecode text
  | [] => []

/-! ### _parseArguments -/

structure RequestArgument where
  key : Str
  value : Str
  deriving DecidableEq

/-- Parsing.cpp, lines 283-289, for at most so many rounds. -/
def argCount (data : Str) : ℕ → ℕ → ℕ → ℕ
  | 0, _, count => count
  | k + 1, i, count =>
      if i < data.length then
        match data.indexOf 0x26 i with
        | none => count
        | some i => argCount data k (i + 1) (count + 1)
      else count

/-- Parsing.cpp, lines 298-335, for at most so many rounds. -/
def parseLoop (data : Str) (count : ℕ) : ℕ → ℕ → List RequestArgument → List RequestArgument
  | 0, _, args => args
  | k + 1, pos, args =>
      if args.length < count then
        match data.indexOf 0x3D pos, data.indexOf 0x26 pos with
        | none, none => args
        | none, some next => parseLoop data count k (next + 1) args
        | some equal, none =>
            args ++ [⟨data.substring pos equal, data.substring (equal + 1) data.length⟩]
        | some equal, some next =>
            if next < equal then parseLoop data count k (next + 1) args
            else parseLoop data count k (next + 1)
              (args ++ [⟨data.substring pos equal, data.substring (equal + 1) next⟩])
      else args

def parseArguments (data : Str) : List RequestArgument :=
  if data.length = 0 then []
  else parseLoop data (argCount data (data.length + 1) 0 1) (data.length + 1) 0 []

/-- `arg(name)` -/
def arg (args : List RequestArgument) (name : Str) : Str :=
  ((args.find? fun a => a.key = name).map fun a => a.value).getD []

/-! ### What the arguments are -/

/-- A part with an `=` is an argument. -/
def argumentOf (part : Str) : Option RequestArgument :=
  if 0x3D ∈ part then
    some ⟨part.takeWhile (· ≠ 0x3D), (part.dropWhile (· ≠ 0x3D)).tail⟩
  else none

/-- The arguments of a text: its parts between `&` that have an `=`. -/
def arguments (text : Str) : List RequestArgument := (text.splitOn 0x26).filterMap argumentOf

section Scan

variable {text part rest : Str}

theorem arguments_of_notMem (h : 0x26 ∉ text) : arguments text = (argumentOf text).toList := by
  rw [arguments, List.splitOn_eq_singleton h, List.filterMap_cons]
  cases argumentOf text <;> rfl

theorem arguments_append (h : 0x26 ∉ part) :
    arguments (part ++ 0x26 :: rest) = (argumentOf part).toList ++ arguments rest := by
  rw [arguments, List.splitOn_append_cons_self_of_not_mem h, List.filterMap_cons, arguments]
  cases argumentOf part <;> rfl

theorem argumentOf_append {key value : Str} (h : 0x3D ∉ key) :
    argumentOf (key ++ 0x3D :: value) = some ⟨key, value⟩ := by
  rw [argumentOf, if_pos (by simp), takeWhile_line h, dropWhile_line h]
  rfl

/-- A text is its last part, or a part with an `&` behind it and a text. -/
theorem parts_induction {motive : Str → Prop} (last : ∀ text, 0x26 ∉ text → motive text)
    (next : ∀ part rest, 0x26 ∉ part → motive rest → motive (part ++ 0x26 :: rest)) (text : Str) :
    motive text := by
  induction h : text.length using Nat.strong_induction_on generalizing text with
  | _ n ih =>
      by_cases hamp : 0x26 ∈ text
      · obtain ⟨part, rest, rfl, hpart⟩ := List.eq_append_cons_of_mem hamp
        rw [List.length_append, List.length_cons] at h
        exact next part rest hpart (ih rest.length (by omega) rest rfl)
      · exact last text hamp

end Scan

/-! ### The positions in a text -/

section Positions

variable {data front part rest : Str} {c : UInt8}

theorem cut_append {text tail : Str} (h : 0 ∉ text) :
    Str.cut (text ++ tail) = text ++ Str.cut tail := takeWhile_append h

theorem cut_eq_self {text : Str} (h : 0 ∉ text) : text.cut = text := by
  have hcut : Str.cut (text ++ []) = text ++ [] := cut_append h
  rwa [List.append_nil] at hcut

theorem zero_notMem_cut (text : Str) : 0 ∉ text.cut := by
  intro h
  simpa using List.mem_takeWhile_imp h

/-- A text goes on behind its cut with a zero, or not at all. -/
theorem exists_eq_cut_append (text : Str) :
    ∃ tail, text = text.cut ++ tail ∧ Str.cut tail = [] := by
  have htext : text = text.cut ++ text.dropWhile (· ≠ 0) :=
    List.takeWhile_append_dropWhile.symm
  have hcut : text.cut = text.cut ++ Str.cut (text.dropWhile (· ≠ 0)) :=
    (congrArg Str.cut htext).trans (cut_append (zero_notMem_cut text))
  exact ⟨_, htext, List.self_eq_append_right.mp hcut⟩

theorem zero_notMem_of_cut (h : data.cut = front ++ rest) : 0 ∉ front ∧ 0 ∉ rest := by
  have hz : 0 ∉ front ++ rest := h ▸ zero_notMem_cut data
  rw [List.mem_append, not_or] at hz
  exact hz

theorem cut_drop (h : data.cut = front ++ rest) : Str.cut (data.drop front.length) = rest := by
  obtain ⟨tail, hdata, htail⟩ := exists_eq_cut_append data
  rw [hdata, h, List.append_assoc, List.drop_left, cut_append (zero_notMem_of_cut h).2, htail,
    List.append_nil]

theorem indexOf_eq_none (h : data.cut = front ++ rest) (hc : c ∉ rest) :
    data.indexOf c front.length = none := by
  rw [Str.indexOf, cut_drop h, List.idxOf?_eq_none_iff.mpr hc, Option.map_none]

theorem idxOf?_append_cons (h : c ∉ part) : (part ++ c :: rest).idxOf? c = some part.length := by
  induction part with
  | nil => simp [List.idxOf?_cons]
  | cons b part ih =>
      rw [List.mem_cons, not_or] at h
      rw [List.cons_append, List.idxOf?_cons, ih h.2]
      simp [beq_eq_false_iff_ne.mpr (Ne.symm h.1)]

theorem indexOf_eq_some (h : data.cut = front ++ (part ++ c :: rest)) (hc : c ∉ part) :
    data.indexOf c front.length = some (front.length + part.length) := by
  rw [Str.indexOf, cut_drop h, idxOf?_append_cons hc, Option.map_some, Nat.add_comm]

/-- A piece of the text before its zero. -/
theorem substring_part (h : data.cut = front ++ (part ++ rest)) :
    data.substring front.length (front.length + part.length) = part := by
  obtain ⟨tail, hdata, -⟩ := exists_eq_cut_append data
  have hz := (zero_notMem_of_cut h).2
  rw [List.mem_append, not_or] at hz
  rw [Str.substring, Nat.max_eq_right (Nat.le_add_right ..),
    Nat.min_eq_left (Nat.le_add_right ..), hdata, h, List.append_assoc, List.append_assoc,
    ← List.append_assoc, ← List.length_append, List.take_left, List.drop_left,
    cut_eq_self hz.1]

/-- The last piece ends where the text does, or at its zero. -/
theorem substring_rest (h : data.cut = front ++ rest) :
    data.substring front.length data.length = rest := by
  have hle : front.length ≤ data.length := by
    have hcut := (data.takeWhile_prefix (· ≠ 0)).length_le
    rw [← Str.cut, h, List.length_append] at hcut
    omega
  rw [Str.substring, Nat.max_eq_right hle, Nat.min_eq_left hle, List.take_length, cut_drop h]

end Positions

/-! ### The loops over the text -/

section Loops

variable {data : Str}

/-- A text behind its first `&`. -/
theorem cut_next {front part rest : Str} (h : data.cut = front ++ (part ++ 0x26 :: rest)) :
    data.cut = (front ++ (part ++ [0x26])) ++ rest := by
  rw [h, List.append_assoc, List.append_assoc, List.singleton_append]

theorem length_next (front part : Str) :
    (front ++ (part ++ [0x26])).length = front.length + part.length + 1 := by
  rw [List.length_append, List.length_append, List.length_singleton, Nat.add_assoc]

theorem argCount_eq (k : ℕ) : ∀ {front rest : Str} (count : ℕ),
    data.cut = front ++ rest → rest.length < k →
      argCount data k front.length count = count + rest.count 0x26 := by
  induction k with
  | zero =>
      intro front rest count h hk
      exact absurd hk (Nat.not_lt_zero _)
  | succ k ih =>
      intro front rest count h hk
      by_cases hamp : 0x26 ∈ rest
      · obtain ⟨part, rest, rfl, hpart⟩ := List.eq_append_cons_of_mem hamp
        have hlt : front.length < data.length := by
          have hcut := (data.takeWhile_prefix (· ≠ 0)).length_le
          rw [← Str.cut, h, List.length_append, List.length_append, List.length_cons] at hcut
          omega
        have hcount := ih (count + 1) (cut_next h) (by
          rw [List.length_append, List.length_cons] at hk
          omega)
        rw [length_next] at hcount
        rw [argCount, if_pos hlt, indexOf_eq_some h hpart, List.count_append,
          List.count_eq_zero_of_not_mem hpart, List.count_cons_self]
        simp only [hcount]
        omega
      · rw [argCount, indexOf_eq_none h hamp, List.count_eq_zero_of_not_mem hamp]
        split <;> rfl

/-- One round of the loop takes the part up to the next `&`. -/
theorem parseLoop_next {count k : ℕ} {front part rest : Str} {args : List RequestArgument}
    (h : data.cut = front ++ (part ++ 0x26 :: rest)) (hpart : 0x26 ∉ part)
    (hargs : args.length < count) :
    parseLoop data count (k + 1) front.length args =
      parseLoop data count k (front ++ (part ++ [0x26])).length
        (args ++ (argumentOf part).toList) := by
  rw [parseLoop, if_pos hargs, indexOf_eq_some h hpart, length_next]
  by_cases hequal : 0x3D ∈ part
  · obtain ⟨key, value, rfl, hkey⟩ := List.eq_append_cons_of_mem hequal
    have hk : data.cut = front ++ (key ++ 0x3D :: (value ++ 0x26 :: rest)) := by
      rw [h, List.append_assoc, List.cons_append]
    have hv : data.cut = (front ++ (key ++ [0x3D])) ++ (value ++ 0x26 :: rest) := by
      rw [hk, List.append_assoc, List.append_assoc, List.singleton_append]
    have hlen : (front ++ (key ++ [0x3D])).length = front.length + key.length + 1 := by
      rw [List.length_append, List.length_append, List.length_singleton, Nat.add_assoc]
    have hvalue := substring_part hv
    rw [hlen] at hvalue
    have hend : front.length + (key ++ 0x3D :: value).length =
        front.length + key.length + 1 + value.length := by
      rw [List.length_append, List.length_cons]
      omega
    rw [indexOf_eq_some hk hkey, argumentOf_append hkey, hend]
    simp only [hvalue, substring_part hk, Option.toList_some]
    rw [if_neg (by omega)]
  · rw [argumentOf, if_neg hequal, Option.toList_none, List.append_nil]
    by_cases hrest : 0x3D ∈ rest
    · obtain ⟨before, behind, rfl, hbefore⟩ := List.eq_append_cons_of_mem hrest
      have he : data.cut =
          front ++ ((part ++ 0x26 :: before) ++ 0x3D :: behind) := by
        rw [h, List.append_assoc part, List.cons_append]
      have hnone : 0x3D ∉ part ++ 0x26 :: before := by
        simp [hequal, hbefore]
      rw [indexOf_eq_some he hnone]
      simp only
      rw [if_pos]
      rw [List.length_append, List.length_cons]
      omega
    · rw [indexOf_eq_none h]
      simp [hequal, hrest]

/-- The last round takes what is left. -/
theorem parseLoop_last {count k : ℕ} {front rest : Str} {args : List RequestArgument}
    (h : data.cut = front ++ rest) (hrest : 0x26 ∉ rest) (hargs : args.length < count) :
    parseLoop data count (k + 1) front.length args = args ++ (argumentOf rest).toList := by
  rw [parseLoop, if_pos hargs, indexOf_eq_none h hrest]
  by_cases hequal : 0x3D ∈ rest
  · obtain ⟨key, value, rfl, hkey⟩ := List.eq_append_cons_of_mem hequal
    have hv : data.cut = (front ++ (key ++ [0x3D])) ++ value := by
      rw [h, List.append_assoc, List.append_assoc, List.singleton_append]
    have hlen : (front ++ (key ++ [0x3D])).length = front.length + key.length + 1 := by
      rw [List.length_append, List.length_append, List.length_singleton, Nat.add_assoc]
    have hvalue := substring_rest hv
    rw [hlen] at hvalue
    rw [indexOf_eq_some h hkey, argumentOf_append hkey]
    simp only [hvalue, substring_part h, Option.toList_some]
  · rw [indexOf_eq_none h hequal, argumentOf, if_neg hequal, Option.toList_none, List.append_nil]

/-- The array is never too small for the loop. -/
theorem parseLoop_eq {count : ℕ} (k : ℕ) : ∀ {front rest : Str} {args : List RequestArgument},
    data.cut = front ++ rest → rest.length < k → args.length + rest.count 0x26 < count →
      parseLoop data count k front.length args = args ++ arguments rest := by
  induction k with
  | zero =>
      intro front rest args h hk hcount
      exact absurd hk (Nat.not_lt_zero _)
  | succ k ih =>
      intro front rest args h hk hcount
      by_cases hamp : 0x26 ∈ rest
      · obtain ⟨part, rest, rfl, hpart⟩ := List.eq_append_cons_of_mem hamp
        rw [List.count_append, List.count_eq_zero_of_not_mem hpart, List.count_cons_self] at hcount
        rw [List.length_append, List.length_cons] at hk
        rw [parseLoop_next h hpart (by omega), ih (cut_next h) (by omega),
          arguments_append hpart, List.append_assoc]
        -- a part is one argument at most
        have hone : (argumentOf part).toList.length ≤ 1 := by
          cases argumentOf part <;> simp
        rw [List.length_append]
        omega
      · rw [parseLoop_last h hamp (by omega), arguments_of_notMem hamp]

end Loops

/-- What the positions of `_parseArguments` come to, for every text: the parts of it between `&`
that have an `=`. The text ends at its first zero. -/
theorem parseArguments_eq (data : Str) : parseArguments data = arguments data.cut := by
  rw [parseArguments]
  split
  case isTrue h => rw [List.eq_nil_of_length_eq_zero h]; rfl
  case isFalse h =>
    have hle := (data.takeWhile_prefix (· ≠ 0)).length_le
    rw [← Str.cut] at hle
    have hnil : data.cut = [] ++ data.cut := rfl
    have hcount := argCount_eq (data.length + 1) 1 hnil (by omega)
    rw [List.length_nil] at hcount
    have hloop := parseLoop_eq (data.length + 1) hnil (by omega)
      (show List.length [] + data.cut.count 0x26 < 1 + data.cut.count 0x26 by
        rw [List.length_nil]; omega)
    rw [hcount]
    exact hloop

end EmsGateway.Portal
