import Mathlib.Data.Bool.AllAny
import Mathlib.Tactic.Common

/-!
The strings of JSON. A text is a list of characters; a string is written between
quotes with everything outside printable ASCII escaped by its UTF-16 code units,
so a written string holds no line break whatever the string.
-/

namespace EmsGateway.Library

namespace Json

/-! ### UTF-16 -/

/-- The UTF-16 code units of a character. -/
def utf16 (c : Char) : List ℕ :=
  if c.toNat < 0x10000 then [c.toNat]
  else [0xD800 + (c.toNat - 0x10000) / 0x400, 0xDC00 + (c.toNat - 0x10000) % 0x400]

/-- A unit that is a character by itself. -/
def ofUnit (n : ℕ) : Option Char := if n.isValidChar then some (Char.ofNat n) else none

/-- The characters that units stand for. A high surrogate joins the low one after
it; a surrogate left alone is no character. -/
def ofUnits : List ℕ → Option (List Char)
  | [] => some []
  | [n] => (ofUnit n).map ([·])
  | n :: m :: rest =>
      if 0xD800 ≤ n ∧ n < 0xDC00 ∧ 0xDC00 ≤ m ∧ m < 0xE000 then
        (ofUnits rest).map (Char.ofNat (0x10000 + (n - 0xD800) * 0x400 + (m - 0xDC00)) :: ·)
      else (ofUnit n).bind fun c => (ofUnits (m :: rest)).map (c :: ·)

theorem toNat_cases (c : Char) : c.toNat < 0xD800 ∨ 0xDFFF < c.toNat ∧ c.toNat < 0x110000 := c.valid

theorem toNat_ofNat {n : ℕ} (h : n.isValidChar) : (Char.ofNat n).toNat = n := by
  rw [Char.ofNat, dif_pos h]
  rfl

theorem ofUnit_toNat (c : Char) : ofUnit c.toNat = some c := by
  rw [ofUnit, if_pos (show c.toNat.isValidChar from c.valid), Char.ofNat_toNat]

/-- A character that needs one unit, before any others. -/
theorem ofUnits_toNat_cons (c : Char) (rest : List ℕ) :
    ofUnits (c.toNat :: rest) = (ofUnits rest).map (c :: ·) := by
  have hc := toNat_cases c
  cases rest with
  | nil => simp [ofUnits, ofUnit_toNat]
  | cons m rest =>
      rw [ofUnits, if_neg (by omega), ofUnit_toNat]
      rfl

theorem ofUnits_utf16_append (c : Char) (rest : List ℕ) :
    ofUnits (utf16 c ++ rest) = (ofUnits rest).map (c :: ·) := by
  unfold utf16
  split
  · exact ofUnits_toNat_cons c rest
  · have hc := toNat_cases c
    have hcode : 0x10000 + (0xD800 + (c.toNat - 0x10000) / 0x400 - 0xD800) * 0x400 +
        (0xDC00 + (c.toNat - 0x10000) % 0x400 - 0xDC00) = c.toNat := by omega
    rw [List.cons_append, List.cons_append, List.nil_append, ofUnits, if_pos (by omega), hcode,
      Char.ofNat_toNat]

theorem ofUnits_flatMap_utf16 (s : List Char) : ofUnits (s.flatMap utf16) = some s := by
  induction s with
  | nil => rfl
  | cons c s ih => rw [List.flatMap_cons, ofUnits_utf16_append, ih]; rfl

theorem ofUnits_map_toNat (s : List Char) : ofUnits (s.map Char.toNat) = some s := by
  induction s with
  | nil => rfl
  | cons c s ih => rw [List.map_cons, ofUnits_toNat_cons, ih]; rfl

theorem length_le_of_ofUnits {units : List ℕ} {s : List Char} (h : ofUnits units = some s) :
    s.length ≤ units.length := by
  induction units using ofUnits.induct generalizing s with
  | case1 => simp_all [ofUnits]
  | case2 n =>
      obtain ⟨c, -, rfl⟩ := Option.map_eq_some_iff.mp h
      exact Nat.le_refl _
  | case3 n m rest hpair ih =>
      rw [ofUnits, if_pos hpair] at h
      obtain ⟨t, ht, rfl⟩ := Option.map_eq_some_iff.mp h
      have := ih ht
      simp only [List.length_cons]
      omega
  | case4 n m rest hpair ih =>
      rw [ofUnits, if_neg hpair] at h
      obtain ⟨c, -, h⟩ := Option.bind_eq_some_iff.mp h
      obtain ⟨t, ht, rfl⟩ := Option.map_eq_some_iff.mp h
      have := ih ht
      simp only [List.length_cons] at this ⊢
      omega

/-! ### Escapes -/

def hex4 (n : ℕ) : List Char :=
  [Nat.digitChar (n / 4096), Nat.digitChar (n / 256 % 16), Nat.digitChar (n / 16 % 16),
    Nat.digitChar (n % 16)]

/-- The units that are escaped by a letter. -/
def letters : List (ℕ × Char) :=
  [(0x22, '"'), (0x5C, '\\'), (0x0A, 'n'), (0x0D, 'r'), (0x09, 't'), (0x0C, 'f'), (0x08, 'b')]

/-- How a unit is written: printable ASCII as it is, but for the quote and the
backslash, and all the rest escaped. -/
def escape (n : ℕ) : List Char :=
  match letters.find? (fun p => p.1 == n) with
  | some p => ['\\', p.2]
  | none => if 0x20 ≤ n ∧ n ≤ 0x7E then [Char.ofNat n] else '\\' :: 'u' :: hex4 n

/-- `json.dumps` of a string. -/
def writeString (s : List Char) : List Char :=
  '"' :: (s.flatMap utf16).flatMap escape ++ ['"']

def hexVal (c : Char) : Option ℕ :=
  if '0' ≤ c ∧ c ≤ '9' then some (c.toNat - 48)
  else if 'a' ≤ c ∧ c ≤ 'f' then some (c.toNat - 87)
  else if 'A' ≤ c ∧ c ≤ 'F' then some (c.toNat - 55)
  else none

/-- The unit that the letter after a backslash stands for. -/
def unescape (c : Char) : Option ℕ :=
  if c = '/' then some 0x2F else (letters.find? fun p => p.2 == c).map Prod.fst

/-- The units of a string from behind its opening quote, with the text behind its
closing quote. -/
def readUnits : List Char → Option (List ℕ × List Char)
  | [] => none
  | c :: rest =>
      if c = '"' then some ([], rest)
      else if c = '\\' then
        match rest with
        | [] => none
        | e :: rest =>
            if e = 'u' then
              match rest with
              | h₃ :: h₂ :: h₁ :: h₀ :: rest => do
                  let n := (((← hexVal h₃) * 16 + (← hexVal h₂)) * 16 + (← hexVal h₁)) * 16 +
                    (← hexVal h₀)
                  let (units, rest) ← readUnits rest
                  some (n :: units, rest)
              | _ => none
            else do
              let n ← unescape e
              let (units, rest) ← readUnits rest
              some (n :: units, rest)
      else if c.toNat < 0x20 then none
      else do
        let (units, rest) ← readUnits rest
        some (c.toNat :: units, rest)

/-- A string from behind its opening quote. -/
def readString (text : List Char) : Option (List Char × List Char) := do
  let (units, rest) ← readUnits text
  some (← ofUnits units, rest)

theorem readUnits_quote (rest : List Char) : readUnits ('"' :: rest) = some ([], rest) := by
  rw [readUnits.eq_def]
  simp only [if_true]

/-- A read of units that puts one more in front. -/
def consUnit (n : ℕ) : List ℕ × List Char → List ℕ × List Char := fun p => (n :: p.1, p.2)

theorem readUnits_u {h₃ h₂ h₁ h₀ : Char} {n₃ n₂ n₁ n₀ : ℕ} (e₃ : hexVal h₃ = some n₃)
    (e₂ : hexVal h₂ = some n₂) (e₁ : hexVal h₁ = some n₁) (e₀ : hexVal h₀ = some n₀)
    (rest : List Char) :
    readUnits ('\\' :: 'u' :: h₃ :: h₂ :: h₁ :: h₀ :: rest) =
      (readUnits rest).map (consUnit (((n₃ * 16 + n₂) * 16 + n₁) * 16 + n₀)) := by
  rw [readUnits.eq_def]
  simp only [if_neg (show '\\' ≠ '"' by decide), if_true, e₃, e₂, e₁, e₀, Option.bind_eq_bind,
    Option.bind_some]
  cases readUnits rest <;> rfl

theorem readUnits_backslash {e : Char} {n : ℕ} (he : unescape e = some n) (rest : List Char) :
    readUnits ('\\' :: e :: rest) = (readUnits rest).map (consUnit n) := by
  have hu : e ≠ 'u' := by
    rintro rfl
    cases he
  rw [readUnits.eq_def]
  simp only [if_neg (show '\\' ≠ '"' by decide), if_true, if_neg hu, he, Option.bind_eq_bind,
    Option.bind_some]
  cases readUnits rest <;> rfl

/-- A character that a JSON string may hold as it is. -/
def Plain (c : Char) : Prop := 0x20 ≤ c.toNat ∧ c ≠ '"' ∧ c ≠ '\\'

instance (c : Char) : Decidable (Plain c) := inferInstanceAs (Decidable (_ ∧ _))

theorem plain_of_isDigit {c : Char} (hc : c.isDigit = true) : Plain c := by
  refine ⟨Nat.le_trans (by decide) (Char.isDigit_iff_toNat.mp hc).1, ?_, ?_⟩
  · rintro rfl
    cases hc
  · rintro rfl
    cases hc

theorem readUnits_plain {c : Char} (hc : Plain c) (rest : List Char) :
    readUnits (c :: rest) = (readUnits rest).map (consUnit c.toNat) := by
  rw [readUnits.eq_def]
  simp only [if_neg hc.2.1, if_neg hc.2.2, if_neg (Nat.not_lt.mpr hc.1), Option.bind_eq_bind]
  cases readUnits rest <;> rfl

theorem hexVal_digitChar : ∀ d < 16, hexVal (Nat.digitChar d) = some d := by decide

theorem readUnits_hex4 {n : ℕ} (hn : n < 0x10000) (rest : List Char) :
    readUnits ('\\' :: 'u' :: hex4 n ++ rest) = (readUnits rest).map (consUnit n) := by
  have hread := readUnits_u (hexVal_digitChar (n / 4096) (by omega))
    (hexVal_digitChar (n / 256 % 16) (by omega)) (hexVal_digitChar (n / 16 % 16) (by omega))
    (hexVal_digitChar (n % 16) (by omega)) rest
  have hvalue : ((n / 4096 * 16 + n / 256 % 16) * 16 + n / 16 % 16) * 16 + n % 16 = n := by omega
  rw [hvalue] at hread
  exact hread

theorem unescape_letters : ∀ p ∈ letters, unescape p.2 = some p.1 := by decide

/-- What is written for a unit is read back as that unit. -/
theorem readUnits_escape {n : ℕ} (hn : n < 0x10000) (rest : List Char) :
    readUnits (escape n ++ rest) = (readUnits rest).map (consUnit n) := by
  unfold escape
  split
  · rename_i p hp
    have hletter := unescape_letters p (List.mem_of_find?_eq_some hp)
    have hkey : (p.1 == n) = true := List.find?_some (p := fun q : ℕ × Char => q.1 == n) hp
    rw [eq_of_beq hkey] at hletter
    exact readUnits_backslash hletter rest
  · rename_i hp
    have hnot := List.find?_eq_none.mp hp
    split
    · have hcode : (Char.ofNat n).toNat = n := toNat_ofNat (.inl (by omega))
      -- the quote and the backslash are among the letters, which `n` is not
      have hplain : Plain (Char.ofNat n) := by
        refine ⟨by omega, ?_, ?_⟩
        · intro hc
          refine hnot (0x22, '"') (by decide) (beq_iff_eq.mpr ?_)
          exact (congrArg Char.toNat hc).symm.trans hcode
        · intro hc
          refine hnot (0x5C, '\\') (by decide) (beq_iff_eq.mpr ?_)
          exact (congrArg Char.toNat hc).symm.trans hcode
      rw [List.singleton_append, readUnits_plain hplain, hcode]
    · exact readUnits_hex4 hn rest

theorem utf16_lt (c : Char) : ∀ n ∈ utf16 c, n < 0x10000 := by
  have hc := toNat_cases c
  unfold utf16
  split
  · simpa using ‹c.toNat < 0x10000›
  · simp only [List.mem_cons, List.not_mem_nil, or_false, forall_eq_or_imp, forall_eq]
    omega

theorem readUnits_flatMap_escape (units : List ℕ) (hunits : ∀ n ∈ units, n < 0x10000)
    (rest : List Char) : readUnits (units.flatMap escape ++ '"' :: rest) = some (units, rest) := by
  induction units with
  | nil => exact readUnits_quote rest
  | cons n units ih =>
      rw [List.forall_mem_cons] at hunits
      rw [List.flatMap_cons, List.append_assoc, readUnits_escape hunits.1, ih hunits.2]
      rfl

theorem readString_writeString (s rest : List Char) :
    ∃ text, writeString s ++ rest = '"' :: text ∧ readString text = some (s, rest) := by
  refine ⟨(s.flatMap utf16).flatMap escape ++ '"' :: rest, by simp [writeString], ?_⟩
  have hunits : ∀ n ∈ s.flatMap utf16, n < 0x10000 := by
    intro n hn
    obtain ⟨c, -, hc⟩ := List.mem_flatMap.mp hn
    exact utf16_lt c n hc
  rw [readString, readUnits_flatMap_escape _ hunits]
  simp [ofUnits_flatMap_utf16]

/-! ### What is written and what is read -/

/-- Printable ASCII. -/
def Printable (c : Char) : Prop := 0x20 ≤ c.toNat ∧ c.toNat ≤ 0x7E

instance (c : Char) : Decidable (Printable c) := inferInstanceAs (Decidable (_ ∧ _))

theorem printable_digitChar : ∀ d < 16, Printable (Nat.digitChar d) := by decide

theorem printable_letters : ∀ p ∈ letters, Printable p.2 := by decide

theorem printable_hex4 {n : ℕ} (hn : n < 0x10000) : ∀ c ∈ hex4 n, Printable c := by
  intro c hc
  simp only [hex4, List.mem_cons, List.not_mem_nil, or_false] at hc
  rcases hc with rfl | rfl | rfl | rfl
  · exact printable_digitChar _ (by omega)
  · exact printable_digitChar _ (by omega)
  · exact printable_digitChar _ (by omega)
  · exact printable_digitChar _ (by omega)

theorem printable_escape {n : ℕ} (hn : n < 0x10000) : ∀ c ∈ escape n, Printable c := by
  have hbackslash : Printable '\\' := by decide
  unfold escape
  split
  · rename_i p hp
    rw [List.forall_mem_cons, List.forall_mem_singleton]
    exact ⟨hbackslash, printable_letters p (List.mem_of_find?_eq_some hp)⟩
  · split
    · rename_i hascii
      rw [List.forall_mem_singleton, Printable, toNat_ofNat (.inl (by omega))]
      exact hascii
    · rw [List.forall_mem_cons, List.forall_mem_cons]
      exact ⟨hbackslash, by decide, printable_hex4 hn⟩

theorem printable_writeString (s : List Char) : ∀ c ∈ writeString s, Printable c := by
  have hquote : Printable '"' := by decide
  intro c hc
  simp only [writeString, List.cons_append, List.mem_cons, List.mem_append, List.mem_flatMap,
    List.not_mem_nil, or_false] at hc
  rcases hc with rfl | ⟨n, ⟨d, -, hn⟩, hc⟩ | rfl
  · exact hquote
  · exact printable_escape (utf16_lt d n hn) c hc
  · exact hquote

theorem readString_plain (s : List Char) (hs : ∀ c ∈ s, Plain c) (rest : List Char) :
    readString (s ++ '"' :: rest) = some (s, rest) := by
  have hunits : readUnits (s ++ '"' :: rest) = some (s.map Char.toNat, rest) := by
    induction s with
    | nil => exact readUnits_quote rest
    | cons c s ih =>
        rw [List.forall_mem_cons] at hs
        rw [List.cons_append, readUnits_plain hs.1, ih hs.2]
        rfl
  rw [readString, hunits]
  simp [ofUnits_map_toNat]

/-- What stands between the quotes is at least as long as its units, and plain
where it is as long. -/
structure Spells (raw : List Char) (units : List ℕ) : Prop where
  length_le : units.length ≤ raw.length
  plain : raw.length ≤ units.length → ∀ c ∈ raw, Plain c

theorem Spells.nil : Spells [] [] := ⟨Nat.le_refl _, by simp⟩

theorem Spells.cons {raw : List Char} {units : List ℕ} (h : Spells raw units) {c : Char}
    (hc : Plain c) (n : ℕ) : Spells (c :: raw) (n :: units) where
  length_le := Nat.succ_le_succ h.length_le
  plain hlength := List.forall_mem_cons.mpr ⟨hc, h.plain (Nat.le_of_succ_le_succ hlength)⟩

/-- An escape is longer than its unit. -/
theorem Spells.escape {raw : List Char} {units : List ℕ} (h : Spells raw units) (c d : Char)
    (digits : List Char) (n : ℕ) : Spells (c :: d :: (digits ++ raw)) (n :: units) := by
  have hlength := h.length_le
  constructor
  · simp only [List.length_cons, List.length_append]
    omega
  · intro hle
    simp only [List.length_cons, List.length_append] at hle
    omega

/-- Units are read up to the first quote that ends them. -/
theorem exists_spells_of_readUnits {text rest : List Char} {units : List ℕ}
    (h : readUnits text = some (units, rest)) :
    ∃ raw, text = raw ++ '"' :: rest ∧ Spells raw units := by
  induction text using readUnits.induct generalizing units with
  | case1 => cases h
  | case2 after =>
      rw [readUnits_quote] at h
      obtain ⟨rfl, rfl⟩ := h
      exact ⟨[], rfl, .nil⟩
  | case3 =>
      rw [readUnits.eq_def] at h
      simp at h
  | case4 h₃ h₂ h₁ h₀ after _ ih =>
      rw [readUnits.eq_def] at h
      simp only [if_neg (show '\\' ≠ '"' by decide), if_true, Option.bind_eq_bind,
        Option.bind_eq_some_iff, Option.some.injEq, Prod.mk.injEq] at h
      obtain ⟨n₃, -, n₂, -, n₁, -, n₀, -, p, hread, rfl, rfl⟩ := h
      obtain ⟨raw, rfl, hspells⟩ := ih hread
      exact ⟨'\\' :: 'u' :: ([h₃, h₂, h₁, h₀] ++ raw), rfl, hspells.escape _ _ _ _⟩
  | case5 after hshort =>
      rw [readUnits.eq_def] at h
      simp only [if_neg (show '\\' ≠ '"' by decide), if_true] at h
      cases h
  | case6 e after hu _ ih =>
      rw [readUnits.eq_def] at h
      simp only [if_neg (show '\\' ≠ '"' by decide), if_true, if_neg hu, Option.bind_eq_bind,
        Option.bind_eq_some_iff, Option.some.injEq, Prod.mk.injEq] at h
      obtain ⟨n, -, p, hread, rfl, rfl⟩ := h
      obtain ⟨raw, rfl, hspells⟩ := ih hread
      exact ⟨'\\' :: e :: ([] ++ raw), rfl, hspells.escape _ _ _ _⟩
  | case7 c after hquote hbackslash hcontrol =>
      rw [readUnits.eq_def] at h
      simp [if_neg hquote, if_neg hbackslash, if_pos hcontrol] at h
  | case8 c after hquote hbackslash hcontrol ih =>
      have hc : Plain c := ⟨Nat.le_of_not_lt hcontrol, hquote, hbackslash⟩
      rw [readUnits_plain hc, Option.map_eq_some_iff] at h
      obtain ⟨p, hread, hunits⟩ := h
      obtain ⟨rfl, rfl⟩ := hunits
      obtain ⟨raw, rfl, hspells⟩ := ih hread
      exact ⟨c :: raw, rfl, hspells.cons hc _⟩

/-- A text that is read as it stands, up to the quote behind it, is plain. -/
theorem plain_of_readString {s text rest : List Char}
    (h : readString (s ++ '"' :: text) = some (s, rest)) (htext : '"' ∉ text) :
    ∀ c ∈ s, Plain c := by
  simp only [readString, Option.bind_eq_bind, Option.bind_eq_some_iff, Option.some.injEq,
    Prod.mk.injEq] at h
  obtain ⟨⟨units, after⟩, hunits, t, hofUnits, rfl, rfl⟩ := h
  obtain ⟨raw, hraw, hspells⟩ := exists_spells_of_readUnits hunits
  have hlength : t.length ≤ raw.length :=
    Nat.le_trans (length_le_of_ofUnits hofUnits) hspells.length_le
  have hsame : raw = t := by
    obtain ⟨m, rfl, hm⟩ | ⟨m, rfl, hm⟩ := List.append_eq_append_iff.mp hraw
    · cases m with
      | nil => exact List.append_nil t
      | cons c m =>
          rw [List.cons_append, List.cons_eq_cons] at hm
          rw [hm.2] at htext
          exact absurd (List.mem_append_right _ List.mem_cons_self) htext
    · rw [List.length_append] at hlength
      have hm : m = [] := List.eq_nil_of_length_eq_zero (by omega)
      rw [hm, List.append_nil]
  rw [hsame] at hspells
  exact hspells.plain (length_le_of_ofUnits hofUnits)

end Json

end EmsGateway.Library
