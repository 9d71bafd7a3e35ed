import EmsGateway.Library.JsonString
import Mathlib.Data.List.TakeWhile

/-!
JSON texts as Python's `json` module writes and reads them. A number is known by
its text. What is written for a value is read back as that value, and it holds no
line break.
-/

namespace EmsGateway.Library

namespace Json

/-! ### Numbers -/

/-- A character of a number. -/
def numberChar (c : Char) : Bool :=
  c.isDigit || c = '+' || c = '-' || c = '.' || c = 'e' || c = 'E'

def isDigits : List Char → Bool
  | [] => false
  | c :: cs => (c :: cs).all Char.isDigit

/-- Nothing, or an exponent. -/
def isExponent : List Char → Bool
  | [] => true
  | 'e' :: '+' :: cs | 'e' :: '-' :: cs | 'E' :: '+' :: cs | 'E' :: '-' :: cs => isDigits cs
  | 'e' :: cs | 'E' :: cs => isDigits cs
  | _ => false

/-- Nothing, or a fraction, and then an exponent. -/
def isFraction : List Char → Bool
  | '.' :: c :: cs => c.isDigit && isExponent (cs.dropWhile Char.isDigit)
  | cs => isExponent cs

/-- A number: no leading zeros, and digits on both sides of the point. -/
def isNumber : List Char → Bool
  | '-' :: '0' :: cs | '0' :: cs => isFraction cs
  | '-' :: c :: cs | c :: cs => c.isDigit && isFraction (cs.dropWhile Char.isDigit)
  | [] => false

/-- The text of a number. -/
structure Number where
  text : List Char
  chars : text.all numberChar = true
  grammar : isNumber text = true
  deriving DecidableEq

def Number.toString (n : Number) : String := String.ofList n.text

theorem isNumber_of_digits {c : Char} {cs : List Char} (hdigits : ∀ d ∈ c :: cs, d.isDigit = true)
    (hzero : c ≠ '0') : isNumber (c :: cs) = true := by
  have hdrop : cs.dropWhile Char.isDigit = [] :=
    List.dropWhile_eq_nil_iff.mpr fun d hd => hdigits d (List.mem_cons_of_mem _ hd)
  have hc := hdigits c List.mem_cons_self
  unfold isNumber
  split
  · rename_i h
    obtain ⟨rfl, -⟩ := List.cons.inj h
    cases hc
  · rename_i h
    exact absurd (List.cons.inj h).1 hzero
  · rename_i h
    obtain ⟨rfl, -⟩ := List.cons.inj h
    cases hc
  · rename_i h
    obtain ⟨rfl, rfl⟩ := List.cons.inj h
    rw [hc, hdrop]
    rfl
  · rename_i h
    cases h

theorem exists_toDigits_eq_cons {n : ℕ} (hn : 0 < n) :
    ∃ c cs, Nat.toDigits 10 n = c :: cs ∧ c ≠ '0' := by
  induction n using Nat.strongRecOn with
  | ind n ih =>
      by_cases hlt : n < 10
      · have hdigit : ∀ d < 10, 0 < d → d.digitChar ≠ '0' := by decide
        exact ⟨n.digitChar, [], Nat.toDigits_of_lt_base hlt, hdigit n hlt hn⟩
      · obtain ⟨c, cs, hcs, hc⟩ := ih (n / 10) (by omega) (by omega)
        refine ⟨c, cs ++ [(n % 10).digitChar], ?_, hc⟩
        rw [Nat.toDigits_of_base_le (by decide) (by omega), hcs]
        rfl

theorem isNumber_toDigits (n : ℕ) : isNumber (Nat.toDigits 10 n) = true := by
  have hdigits : ∀ c ∈ Nat.toDigits 10 n, c.isDigit = true :=
    fun c hc => Nat.isDigit_of_mem_toDigits (by decide) (by decide) hc
  by_cases hn : n = 0
  · rw [hn]
    rfl
  · obtain ⟨c, cs, hcs, hc⟩ := exists_toDigits_eq_cons (Nat.pos_of_ne_zero hn)
    rw [hcs] at hdigits ⊢
    exact isNumber_of_digits hdigits hc

/-- A natural number in decimal. -/
def Number.ofNat (n : ℕ) : Number where
  text := Nat.toDigits 10 n
  chars := by
    rw [List.all_eq_true]
    intro c hc
    have hdigit : c.isDigit = true := Nat.isDigit_of_mem_toDigits (by decide) (by decide) hc
    simp [numberChar, hdigit]
  grammar := isNumber_toDigits n

end Json

/-- A JSON value. -/
inductive Json
  | null
  | bool (b : Bool)
  | num (n : Json.Number)
  | str (s : String)
  | arr (xs : List Json)
  | obj (fields : List (String × Json))

namespace Json

/-! ### Writing -/

mutual

/-- `json.dumps`. -/
def render : Json → List Char
  | .null => "null".toList
  | .bool true => "true".toList
  | .bool false => "false".toList
  | .num n => n.text
  | .str s => writeString s.toList
  | .arr xs => '[' :: renderElems xs
  | .obj fields => '\x7b' :: renderMembers fields

/-- The elements of an array, with the bracket behind them. -/
def renderElems : List Json → List Char
  | [] => [']']
  | [x] => render x ++ [']']
  | x :: y :: ys => render x ++ ',' :: ' ' :: renderElems (y :: ys)

/-- The members of an object, with the brace behind them. -/
def renderMembers : List (String × Json) → List Char
  | [] => ['\x7d']
  | [(name, x)] => writeString name.toList ++ ':' :: ' ' :: render x ++ ['\x7d']
  | (name, x) :: y :: ys =>
      writeString name.toList ++ ':' :: ' ' :: render x ++ ',' :: ' ' :: renderMembers (y :: ys)

end

def dumps (v : Json) : String := String.ofList (render v)

/-! ### Reading -/

/-- White space between tokens. -/
def isSpace (c : Char) : Bool := c = ' ' || c = '\t' || c = '\n' || c = '\r'

def skip (text : List Char) : List Char := text.dropWhile isSpace

/-- A keyword at the start of the text. -/
def keyword (word : String) (v : Json) (text : List Char) : Option (Json × List Char) :=
  if word.toList <+: text then some (v, text.drop word.length) else none

/-- The number that the longest run of number characters is. -/
def readNumber (text : List Char) : Option (Json × List Char) :=
  if h : (text.takeWhile numberChar).all numberChar = true ∧
      isNumber (text.takeWhile numberChar) = true then
    some (.num ⟨text.takeWhile numberChar, h.1, h.2⟩, text.dropWhile numberChar)
  else none

/-- Behind an element: a comma and more elements, or the closing character. -/
def moreOrClose {α : Type} (close : Char) (more : List Char → Option (List α × List Char))
    (x : α) (text : List Char) : Option (List α × List Char) :=
  match skip text with
  | [] => none
  | c :: rest =>
      if c = ',' then (more rest).map fun p => (x :: p.1, p.2)
      else if c = close then some ([x], rest)
      else none

/-- Behind an opening character: the closing one, or elements. -/
def closeOrMore {α : Type} (close : Char) (more : List Char → Option (List α × List Char))
    (text : List Char) : Option (List α × List Char) :=
  match skip text with
  | [] => none
  | c :: rest => if c = close then some ([], rest) else more (c :: rest)

mutual

/-- A value at the start of the text, nested less deep than `fuel`. -/
def readValue : ℕ → List Char → Option (Json × List Char)
  | 0, _ => none
  | fuel + 1, text =>
      match skip text with
      | [] => none
      | c :: rest =>
          if c = '"' then (readString rest).map fun p => (.str (String.ofList p.1), p.2)
          else if c = '[' then
            (closeOrMore ']' (readElems fuel) rest).map fun p => (.arr p.1, p.2)
          else if c = '\x7b' then
            (closeOrMore '\x7d' (readMembers fuel) rest).map fun p => (.obj p.1, p.2)
          else if c = 'n' then keyword "null" .null (c :: rest)
          else if c = 't' then keyword "true" (.bool true) (c :: rest)
          else if c = 'f' then keyword "false" (.bool false) (c :: rest)
          else readNumber (c :: rest)

def readElems : ℕ → List Char → Option (List Json × List Char)
  | 0, _ => none
  | fuel + 1, text =>
      (readValue fuel text).bind fun p => moreOrClose ']' (readElems fuel) p.1 p.2

def readMembers : ℕ → List Char → Option (List (String × Json) × List Char)
  | 0, _ => none
  | fuel + 1, text =>
      match skip text with
      | [] => none
      | c :: rest =>
          if c = '"' then
            (readString rest).bind fun name =>
              match skip name.2 with
              | [] => none
              | c :: rest =>
                  if c = ':' then
                    (readValue fuel rest).bind fun p =>
                      moreOrClose '\x7d' (readMembers fuel) (String.ofList name.1, p.1) p.2
                  else none
          else none

end

/-- `json.loads`, none where it raises. `NaN`, the infinities and lone surrogates,
which Python lets pass, are refused too. -/
def loads (text : String) : Option Json :=
  (readValue (text.length + 1) text.toList).bind fun p =>
    if skip p.2 = [] then some p.1 else none

/-- The values an object has under a name. -/
def fields (name : String) : Json → List Json
  | .obj members => (members.filter fun p => p.1 = name).map Prod.snd
  | _ => []

/-! ### One token at a time -/

variable {fuel : ℕ} {text rest : List Char}

@[simp] theorem skip_nil : skip [] = [] := rfl

theorem skip_cons {c : Char} (hc : isSpace c = false) (rest : List Char) :
    skip (c :: rest) = c :: rest := by
  rw [skip, List.dropWhile_cons_of_neg (by simp [hc])]

@[simp] theorem skip_space (rest : List Char) : skip (' ' :: rest) = skip rest :=
  List.dropWhile_cons_of_pos (by decide)

theorem readValue_quote (hfuel : 0 < fuel) (text : List Char) :
    readValue fuel ('"' :: text) =
      (readString text).map fun p => (.str (String.ofList p.1), p.2) := by
  obtain ⟨fuel, rfl⟩ := Nat.exists_eq_add_of_lt hfuel
  rw [readValue, skip_cons (by decide)]
  simp only [if_true]

theorem readValue_str (hfuel : 0 < fuel) (s : String) (rest : List Char) :
    readValue fuel (render (.str s) ++ rest) = some (.str s, rest) := by
  obtain ⟨text, htext, hread⟩ := readString_writeString s.toList rest
  rw [render, htext, readValue_quote hfuel, hread, Option.map_some, String.ofList_toList]

theorem readValue_plain (hfuel : 0 < fuel) {s : String} (hs : ∀ c ∈ s.toList, Plain c)
    (rest : List Char) :
    readValue fuel ('"' :: (s.toList ++ '"' :: rest)) = some (.str s, rest) := by
  rw [readValue_quote hfuel, readString_plain s.toList hs, Option.map_some, String.ofList_toList]

theorem readValue_bracket (fuel : ℕ) (text : List Char) :
    readValue (fuel + 1) ('[' :: text) =
      (closeOrMore ']' (readElems fuel) text).map fun p => (.arr p.1, p.2) := by
  rw [readValue, skip_cons (by decide)]
  simp only [if_neg (show '[' ≠ '"' by decide), if_true]

theorem readValue_brace (fuel : ℕ) (text : List Char) :
    readValue (fuel + 1) ('\x7b' :: text) =
      (closeOrMore '\x7d' (readMembers fuel) text).map fun p => (.obj p.1, p.2) := by
  rw [readValue, skip_cons (by decide)]
  simp only [if_neg (show '\x7b' ≠ '"' by decide), if_neg (show '\x7b' ≠ '[' by decide),
    if_true]

/-- Behind a number that ends stands no further character of it. -/
def Ends (rest : List Char) : Prop := ∀ c ∈ rest.head?, numberChar c = false

theorem takeWhile_append_of_ends {cs : List Char} (hcs : cs.all numberChar = true)
    (hrest : Ends rest) :
    (cs ++ rest).takeWhile numberChar = cs ∧ (cs ++ rest).dropWhile numberChar = rest := by
  have hall := List.all_eq_true.mp hcs
  rw [List.takeWhile_append_of_pos hall, List.dropWhile_append_of_pos hall]
  cases rest with
  | nil => exact ⟨List.append_nil cs, rfl⟩
  | cons c rest =>
      have hc : ¬numberChar c = true := by simp [hrest c rfl]
      rw [List.takeWhile_cons_of_neg hc, List.dropWhile_cons_of_neg hc]
      exact ⟨List.append_nil cs, rfl⟩

theorem readNumber_append (n : Number) (hrest : Ends rest) :
    readNumber (n.text ++ rest) = some (.num n, rest) := by
  obtain ⟨htake, hdrop⟩ := takeWhile_append_of_ends n.chars hrest
  have hnumber : ((n.text ++ rest).takeWhile numberChar).all numberChar = true ∧
      isNumber ((n.text ++ rest).takeWhile numberChar) = true := by
    rw [htake]
    exact ⟨n.chars, n.grammar⟩
  rw [readNumber, dif_pos hnumber, hdrop]
  congr 2
  simp only [htake]

theorem ne_of_numberChar {c d : Char} (hc : numberChar c = true) (hd : numberChar d = false) :
    c ≠ d := by
  rintro rfl
  rw [hc] at hd
  cases hd

theorem isSpace_of_numberChar {c : Char} (hc : numberChar c = true) : isSpace c = false := by
  simp [isSpace, ne_of_numberChar hc (d := ' ') (by decide),
    ne_of_numberChar hc (d := '\t') (by decide), ne_of_numberChar hc (d := '\n') (by decide),
    ne_of_numberChar hc (d := '\r') (by decide)]

theorem Number.exists_text_eq_cons (n : Number) :
    ∃ c cs, n.text = c :: cs ∧ numberChar c = true := by
  cases htext : n.text with
  | nil =>
      have hgrammar := n.grammar
      rw [htext] at hgrammar
      cases hgrammar
  | cons c cs => exact ⟨c, cs, rfl, List.all_eq_true.mp n.chars c (by simp [htext])⟩

theorem readValue_num (hfuel : 0 < fuel) (n : Number) (hrest : Ends rest) :
    readValue fuel (n.text ++ rest) = some (.num n, rest) := by
  obtain ⟨fuel, rfl⟩ := Nat.exists_eq_add_of_lt hfuel
  obtain ⟨c, cs, htext, hc⟩ := n.exists_text_eq_cons
  have hread := readNumber_append n hrest
  have hne := fun d => ne_of_numberChar hc (d := d)
  rw [htext, List.cons_append] at hread ⊢
  rw [readValue, skip_cons (isSpace_of_numberChar hc)]
  simp only [if_neg (hne '"' (by decide)), if_neg (hne '[' (by decide)),
    if_neg (hne '\x7b' (by decide)), if_neg (hne 'n' (by decide)),
    if_neg (hne 't' (by decide)), if_neg (hne 'f' (by decide)), hread]

theorem keyword_append (word : String) (v : Json) (rest : List Char) :
    keyword word v (word.toList ++ rest) = some (v, rest) := by
  rw [keyword, if_pos (List.prefix_append _ _), ← String.length_toList, List.drop_left]

theorem readValue_null (fuel : ℕ) (rest : List Char) :
    readValue (fuel + 1) ("null".toList ++ rest) = some (.null, rest) := by
  have hskip : skip ("null".toList ++ rest) = 'n' :: ("ull".toList ++ rest) := skip_cons rfl _
  rw [← keyword_append "null" .null rest, readValue, hskip]
  rfl

theorem readValue_bool (fuel : ℕ) (b : Bool) (rest : List Char) :
    readValue (fuel + 1) (render (.bool b) ++ rest) = some (.bool b, rest) := by
  cases b with
  | true =>
      have hskip : skip ("true".toList ++ rest) = 't' :: ("rue".toList ++ rest) := skip_cons rfl _
      rw [← keyword_append "true" (.bool true) rest, render, readValue, hskip]
      rfl
  | false =>
      have hskip : skip ("false".toList ++ rest) = 'f' :: ("alse".toList ++ rest) :=
        skip_cons rfl _
      rw [← keyword_append "false" (.bool false) rest, render, readValue, hskip]
      rfl

/-- A member at the start of a text: its name, and the text from its value on. -/
def member (name : String) (text : List Char) : List Char :=
  writeString name.toList ++ ':' :: ' ' :: text

section Lists

variable {α : Type} {close : Char} {more : List Char → Option (List α × List Char)}

theorem moreOrClose_comma (x : α) (text : List Char) :
    moreOrClose close more x (',' :: text) = (more text).map fun p => (x :: p.1, p.2) := by
  rw [moreOrClose, skip_cons (by decide)]
  simp only [if_true]

theorem moreOrClose_close (hspace : isSpace close = false) (hcomma : close ≠ ',') (x : α)
    (text : List Char) : moreOrClose close more x (close :: text) = some ([x], text) := by
  rw [moreOrClose, skip_cons hspace]
  simp only [if_neg hcomma, if_true]

/-- What is read from an element on has it in front. -/
theorem exists_cons_of_moreOrClose {x : α} {xs : List α}
    (h : moreOrClose close more x text = some (xs, rest)) : ∃ ys, xs = x :: ys := by
  unfold moreOrClose at h
  split at h
  · cases h
  split at h
  · obtain ⟨p, -, hp⟩ := Option.map_eq_some_iff.mp h
    exact ⟨p.1, (congrArg Prod.fst hp).symm⟩
  split at h
  · cases h
    exact ⟨[], rfl⟩
  · cases h

theorem closeOrMore_close (hspace : isSpace close = false) (text : List Char) :
    closeOrMore close more (close :: text) = some ([], text) := by
  rw [closeOrMore, skip_cons hspace]
  simp only [if_true]

theorem closeOrMore_more {c : Char} (hspace : isSpace c = false) (hne : c ≠ close)
    (text : List Char) : closeOrMore close more (c :: text) = more (c :: text) := by
  rw [closeOrMore, skip_cons hspace]
  simp only [if_neg hne]

end Lists

@[simp] theorem readValue_space (fuel : ℕ) (text : List Char) :
    readValue fuel (' ' :: text) = readValue fuel text := by
  cases fuel with
  | zero => simp only [readValue]
  | succ fuel => rw [readValue, readValue, skip_space]

@[simp] theorem readMembers_space (fuel : ℕ) (text : List Char) :
    readMembers fuel (' ' :: text) = readMembers fuel text := by
  cases fuel with
  | zero => simp only [readMembers]
  | succ fuel => rw [readMembers, readMembers, skip_space]

@[simp] theorem readElems_space (fuel : ℕ) (text : List Char) :
    readElems fuel (' ' :: text) = readElems fuel text := by
  cases fuel with
  | zero => simp only [readElems]
  | succ fuel => rw [readElems, readElems, readValue_space]

theorem readMembers_member (fuel : ℕ) (name : String) (text : List Char) :
    readMembers (fuel + 1) (member name text) =
      (readValue fuel text).bind fun p =>
        moreOrClose '\x7d' (readMembers fuel) (name, p.1) p.2 := by
  obtain ⟨after, htext, hread⟩ := readString_writeString name.toList (':' :: ' ' :: text)
  rw [member, htext, readMembers, skip_cons (by decide)]
  simp only [if_true, hread, Option.bind_some, skip_cons (show isSpace ':' = false by decide),
    readValue_space, String.ofList_toList]

theorem readElems_cons {x : Json} (hvalue : readValue fuel text = some (x, ',' :: ' ' :: rest)) :
    readElems (fuel + 1) text = (readElems fuel rest).map fun p => (x :: p.1, p.2) := by
  rw [readElems, hvalue, Option.bind_some, moreOrClose_comma, readElems_space]

theorem readElems_last {x : Json} (hvalue : readValue fuel text = some (x, ']' :: rest)) :
    readElems (fuel + 1) text = some ([x], rest) := by
  rw [readElems, hvalue, Option.bind_some]
  exact moreOrClose_close (show isSpace ']' = false by decide) (by decide) x rest

theorem closeOrMore_member {α : Type} (more : List Char → Option (List α × List Char))
    (name : String) (text : List Char) :
    closeOrMore '\x7d' more (member name text) = more (member name text) :=
  closeOrMore_more (by decide) (by decide) _

theorem readMembers_cons {x : Json} (name : String)
    (hvalue : readValue fuel text = some (x, ',' :: ' ' :: rest)) :
    readMembers (fuel + 1) (member name text) =
      (readMembers fuel rest).map fun p => ((name, x) :: p.1, p.2) := by
  rw [readMembers_member, hvalue, Option.bind_some, moreOrClose_comma, readMembers_space]

theorem readMembers_last {x : Json} (name : String)
    (hvalue : readValue fuel text = some (x, '\x7d' :: rest)) :
    readMembers (fuel + 1) (member name text) = some ([(name, x)], rest) := by
  rw [readMembers_member, hvalue, Option.bind_some]
  exact moreOrClose_close (show isSpace '\x7d' = false by decide) (by decide) (name, x) rest

/-! ### What is written is read back -/

/-- A text starts with a character that is no space and closes no array. -/
theorem render_head (v : Json) :
    ∃ c cs, render v = c :: cs ∧ isSpace c = false ∧ c ≠ ']' := by
  cases v with
  | null => exact ⟨'n', "ull".toList, rfl, by decide, by decide⟩
  | bool b =>
      cases b with
      | true => exact ⟨'t', "rue".toList, rfl, by decide, by decide⟩
      | false => exact ⟨'f', "alse".toList, rfl, by decide, by decide⟩
  | num n =>
      obtain ⟨c, cs, htext, hc⟩ := n.exists_text_eq_cons
      exact ⟨c, cs, htext, isSpace_of_numberChar hc, ne_of_numberChar hc (by decide)⟩
  | str s => exact ⟨'"', _, rfl, by decide, by decide⟩
  | arr xs => exact ⟨'[', _, rfl, by decide, by decide⟩
  | obj fields => exact ⟨'\x7b', _, rfl, by decide, by decide⟩

theorem renderElems_head (x : Json) (xs : List Json) :
    ∃ c cs, renderElems (x :: xs) = c :: cs ∧ isSpace c = false ∧ c ≠ ']' := by
  obtain ⟨c, cs, hhead, hspace, hclose⟩ := render_head x
  cases xs with
  | nil => exact ⟨c, cs ++ [']'], by rw [renderElems, hhead]; rfl, hspace, hclose⟩
  | cons y ys =>
      refine ⟨c, cs ++ ',' :: ' ' :: renderElems (y :: ys), ?_, hspace, hclose⟩
      rw [renderElems, hhead]
      rfl

theorem renderMembers_cons (name : String) (x : Json) (ms : List (String × Json))
    (rest : List Char) :
    ∃ text, renderMembers ((name, x) :: ms) ++ rest = member name text := by
  cases ms with
  | nil => exact ⟨render x ++ '\x7d' :: rest, by simp [renderMembers, member]⟩
  | cons m ms =>
      exact ⟨render x ++ ',' :: ' ' :: (renderMembers (m :: ms) ++ rest),
        by simp [renderMembers, member]⟩

theorem ends_cons {c : Char} (hc : numberChar c = false) (rest : List Char) : Ends (c :: rest) := by
  rintro _ ⟨⟩
  exact hc

mutual

theorem readValue_render : ∀ (v : Json) {fuel : ℕ} {rest : List Char},
    (render v).length < fuel → Ends rest → readValue fuel (render v ++ rest) = some (v, rest)
  | .null, fuel + 1, rest, _, _ => readValue_null fuel rest
  | .bool b, fuel + 1, rest, _, _ => readValue_bool fuel b rest
  | .num n, fuel, rest, hfuel, hrest => readValue_num (Nat.zero_lt_of_lt hfuel) n hrest
  | .str s, fuel, rest, hfuel, _ => readValue_str (Nat.zero_lt_of_lt hfuel) s rest
  | .arr [], fuel + 1, rest, _, _ => by
      rw [render, renderElems, List.cons_append, readValue_bracket]
      simp [closeOrMore_close (show isSpace ']' = false by decide)]
  | .arr (x :: xs), fuel + 1, rest, hfuel, _ => by
      rw [render, List.length_cons] at hfuel
      have helems : readElems fuel (renderElems (x :: xs) ++ rest) = some (x :: xs, rest) :=
        readElems_render x xs (Nat.lt_of_succ_lt_succ hfuel)
      obtain ⟨c, cs, hhead, hspace, hclose⟩ := renderElems_head x xs
      rw [render, List.cons_append, readValue_bracket]
      rw [hhead, List.cons_append] at helems ⊢
      rw [closeOrMore_more hspace hclose, helems]
      rfl
  | .obj [], fuel + 1, rest, _, _ => by
      rw [render, renderMembers, List.cons_append, readValue_brace]
      simp [closeOrMore_close (show isSpace '\x7d' = false by decide)]
  | .obj ((name, x) :: ms), fuel + 1, rest, hfuel, _ => by
      rw [render, List.length_cons] at hfuel
      have hmembers : readMembers fuel (renderMembers ((name, x) :: ms) ++ rest) =
          some ((name, x) :: ms, rest) :=
        readMembers_render (name, x) ms (Nat.lt_of_succ_lt_succ hfuel)
      obtain ⟨text, hmember⟩ := renderMembers_cons name x ms rest
      rw [render, List.cons_append, readValue_brace]
      rw [hmember] at hmembers ⊢
      rw [closeOrMore_member, hmembers]
      rfl

theorem readElems_render : ∀ (x : Json) (xs : List Json) {fuel : ℕ} {rest : List Char},
    (renderElems (x :: xs)).length < fuel →
      readElems fuel (renderElems (x :: xs) ++ rest) = some (x :: xs, rest)
  | x, [], fuel + 1, rest, hfuel => by
      rw [renderElems, List.length_append, List.length_singleton] at hfuel
      rw [renderElems, List.append_assoc]
      exact readElems_last (readValue_render x (by omega) (ends_cons (by decide) rest))
  | x, y :: ys, fuel + 1, rest, hfuel => by
      rw [renderElems, List.length_append, List.length_cons, List.length_cons] at hfuel
      have helems : readElems fuel (renderElems (y :: ys) ++ rest) = some (y :: ys, rest) :=
        readElems_render y ys (by omega)
      have hvalue := @readValue_render x fuel (',' :: ' ' :: (renderElems (y :: ys) ++ rest))
        (by omega) (ends_cons (by decide) _)
      rw [renderElems, List.append_assoc, List.cons_append, List.cons_append, readElems_cons hvalue,
        helems]
      rfl

theorem readMembers_render : ∀ (m : String × Json) (ms : List (String × Json)) {fuel : ℕ}
    {rest : List Char}, (renderMembers (m :: ms)).length < fuel →
      readMembers fuel (renderMembers (m :: ms) ++ rest) = some (m :: ms, rest)
  | (name, x), [], fuel + 1, rest, hfuel => by
      rw [renderMembers, List.length_append, List.length_singleton, List.length_append,
        List.length_cons, List.length_cons] at hfuel
      have hsplit : renderMembers [(name, x)] ++ rest =
          member name (render x ++ '\x7d' :: rest) := by
        simp [renderMembers, member]
      rw [hsplit]
      exact readMembers_last name (readValue_render x (by omega) (ends_cons (by decide) rest))
  | (name, x), m :: ms, fuel + 1, rest, hfuel => by
      rw [renderMembers, List.length_append, List.length_append, List.length_cons, List.length_cons,
        List.length_cons, List.length_cons] at hfuel
      have hmembers : readMembers fuel (renderMembers (m :: ms) ++ rest) = some (m :: ms, rest) :=
        readMembers_render m ms (by omega)
      have hvalue := @readValue_render x fuel (',' :: ' ' :: (renderMembers (m :: ms) ++ rest))
        (by omega) (ends_cons (by decide) _)
      have hsplit : renderMembers ((name, x) :: m :: ms) ++ rest = member name
          (render x ++ ',' :: ' ' :: (renderMembers (m :: ms) ++ rest)) := by
        simp [renderMembers, member]
      rw [hsplit, readMembers_cons name hvalue, hmembers]
      rfl

end

/-- `loads` undoes `dumps`, also with white space behind the text. -/
theorem loads_dumps (v : Json) {text : String} (hspace : ∀ c ∈ text.toList, isSpace c = true) :
    loads (dumps v ++ text) = some v := by
  have hends : Ends text.toList := by
    intro c hc
    apply Bool.eq_false_iff.mpr
    intro hnumber
    have hspace := hspace c (List.mem_of_mem_head? hc)
    rw [isSpace_of_numberChar hnumber] at hspace
    cases hspace
  have hskip : skip text.toList = [] := List.dropWhile_eq_nil_iff.mpr hspace
  have hread := readValue_render v (Nat.lt_succ_of_le (Nat.le_add_right _ text.length)) hends
  rw [loads, String.length_append, String.toList_append, dumps, String.toList_ofList,
    String.length_ofList, hread, Option.bind_some, if_pos hskip]

theorem printable_of_numberChar {c : Char} (hc : numberChar c = true) : Printable c := by
  simp only [numberChar, Char.isDigit, Bool.or_eq_true, Bool.and_eq_true, decide_eq_true_eq] at hc
  obtain ((((⟨h₁, h₂⟩ | rfl) | rfl) | rfl) | rfl) | rfl := hc
  · exact ⟨Nat.le_trans (by decide) h₁, Nat.le_trans h₂ (by decide)⟩
  all_goals decide

mutual

/-- The text of a value is printable ASCII. -/
theorem printable_render : ∀ (v : Json), ∀ c ∈ render v, Printable c
  | .null => List.all_iff_forall_prop.mp rfl
  | .bool true => List.all_iff_forall_prop.mp rfl
  | .bool false => List.all_iff_forall_prop.mp rfl
  | .num n => fun c hc => printable_of_numberChar (List.all_eq_true.mp n.chars c hc)
  | .str s => printable_writeString s.toList
  | .arr xs => by
      rw [render, List.forall_mem_cons]
      exact ⟨by decide, printable_renderElems xs⟩
  | .obj fields => by
      rw [render, List.forall_mem_cons]
      exact ⟨by decide, printable_renderMembers fields⟩

theorem printable_renderElems : ∀ (xs : List Json), ∀ c ∈ renderElems xs, Printable c
  | [] => List.all_iff_forall_prop.mp rfl
  | [x] => by
      rw [renderElems, List.forall_mem_append]
      exact ⟨printable_render x, List.all_iff_forall_prop.mp rfl⟩
  | x :: y :: ys => by
      rw [renderElems, List.forall_mem_append, List.forall_mem_cons, List.forall_mem_cons]
      exact ⟨printable_render x, by decide, by decide, printable_renderElems (y :: ys)⟩

theorem printable_renderMembers :
    ∀ (ms : List (String × Json)), ∀ c ∈ renderMembers ms, Printable c
  | [] => List.all_iff_forall_prop.mp rfl
  | [(name, x)] => by
      rw [renderMembers, List.forall_mem_append, List.forall_mem_append, List.forall_mem_cons,
        List.forall_mem_cons]
      exact ⟨⟨printable_writeString name.toList, by decide, by decide, printable_render x⟩,
        List.all_iff_forall_prop.mp rfl⟩
  | (name, x) :: m :: ms => by
      rw [renderMembers, List.forall_mem_append, List.forall_mem_append, List.forall_mem_cons,
        List.forall_mem_cons, List.forall_mem_cons, List.forall_mem_cons]
      exact ⟨⟨printable_writeString name.toList, by decide, by decide, printable_render x⟩,
        by decide, by decide, printable_renderMembers (m :: ms)⟩

end

end Json

end EmsGateway.Library
