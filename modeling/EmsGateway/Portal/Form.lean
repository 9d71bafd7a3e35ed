import EmsGateway.Portal.Arguments

/-!
What a browser sends of a form, and what the server reads of it. The server decodes the text
before it is cut into arguments, so a value that has an `&` is not read as it was typed.
-/

namespace EmsGateway.Portal

/-! ### The text of a form -/

/-- A byte that the browser writes as it is: a letter, a digit or one of `*-._`. -/
def Literal (b : UInt8) : Prop :=
  (0x30 ≤ b ∧ b ≤ 0x39) ∨ (0x41 ≤ b ∧ b ≤ 0x5A) ∨ (0x61 ≤ b ∧ b ≤ 0x7A) ∨
    b = 0x2A ∨ b = 0x2D ∨ b = 0x2E ∨ b = 0x5F

instance : DecidablePred Literal := fun _ => inferInstanceAs (Decidable (_ ∨ _))

/-- A digit of a `%` byte. -/
def upperHex (d : UInt8) : UInt8 := if d < 10 then 0x30 + d else 0x37 + d

/-- A byte of a name or a value, as the browser writes it. -/
def encodeByte (b : UInt8) : Str :=
  if b = 0x20 then [0x2B]
  else if Literal b then [b]
  else [0x25, upperHex (b / 16), upperHex (b % 16)]

def encodeText (text : Str) : Str := text.flatMap encodeByte

/-- A field of a form, its name and its value. -/
def encodeField (a : RequestArgument) : Str := encodeText a.key ++ 0x3D :: encodeText a.value

/-- The fields of a form, with an `&` between two of them. -/
def formEncode : List RequestArgument → Str
  | [] => []
  | [a] => encodeField a
  | a :: b :: fields => encodeField a ++ 0x26 :: formEncode (b :: fields)

/-- The fields as they are typed, with their `=` and `&`. -/
def typed : List RequestArgument → Str
  | [] => []
  | [a] => a.key ++ 0x3D :: a.value
  | a :: b :: fields => (a.key ++ 0x3D :: a.value) ++ 0x26 :: typed (b :: fields)

/-! ### What urlDecode makes of it -/

section Decode

variable {rest : Str}

theorem div_sixteen_lt (b : UInt8) : b / 16 < 16 := by
  rw [UInt8.lt_iff_toNat_lt, UInt8.toNat_div]
  exact Nat.div_lt_of_lt_mul (UInt8.toNat_lt b)

theorem hexDigit_upperHex {d : UInt8} (h : d < 16) : hexDigit (upperHex d) = some d := by
  unfold upperHex hexDigit
  grind

theorem strtol_upperHex (b : UInt8) : strtol (upperHex (b / 16)) (upperHex (b % 16)) = b := by
  rw [strtol, hexDigit_upperHex (div_sixteen_lt b),
    hexDigit_upperHex (UInt8.mod_lt b (by decide))]
  apply UInt8.toNat_inj.mp
  have hb := UInt8.toNat_lt b
  simp only [UInt8.toNat_add, UInt8.toNat_mul, UInt8.toNat_div, UInt8.toNat_mod,
    UInt8.toNat_ofNat, Nat.reducePow, Nat.reduceMod]
  omega

theorem urlDecode_cons {b : UInt8} (h : b ≠ 0x25) :
    urlDecode (b :: rest) = (if b = 0x2B then 0x20 else b) :: urlDecode rest := by
  rw [urlDecode.eq_2]
  rintro _ _ _ rfl
  exact absurd rfl h

theorem Literal.ne {b : UInt8} (h : Literal b) : b ≠ 0x25 ∧ b ≠ 0x2B := by
  constructor
  · rintro rfl
    exact absurd h (by decide)
  · rintro rfl
    exact absurd h (by decide)

theorem urlDecode_encodeByte (b : UInt8) :
    urlDecode (encodeByte b ++ rest) = b :: urlDecode rest := by
  rw [encodeByte]
  split
  case isTrue h => rw [h]; rfl
  split
  case isTrue h hlit =>
    rw [List.singleton_append, urlDecode_cons hlit.ne.1, if_neg hlit.ne.2]
  case isFalse h hlit =>
    rw [List.cons_append, List.cons_append, List.singleton_append, urlDecode, strtol_upperHex]

/-- A text is decoded to what was typed, whatever comes behind it. -/
theorem urlDecode_encodeText (text : Str) :
    urlDecode (encodeText text ++ rest) = text ++ urlDecode rest := by
  induction text with
  | nil => rfl
  | cons b text ih =>
      rw [encodeText, List.flatMap_cons, List.append_assoc, urlDecode_encodeByte, ← encodeText, ih,
        List.cons_append]

theorem urlDecode_encodeField (a : RequestArgument) :
    urlDecode (encodeField a ++ rest) = (a.key ++ 0x3D :: a.value) ++ urlDecode rest := by
  rw [encodeField, List.append_assoc, urlDecode_encodeText, List.cons_append,
    urlDecode_cons (by decide), urlDecode_encodeText, List.append_assoc, List.cons_append]
  rfl

theorem urlDecode_formEncode (fields : List RequestArgument) :
    urlDecode (formEncode fields) = typed fields := by
  induction fields with
  | nil => rfl
  | cons a fields ih =>
      cases fields with
      | nil =>
          have h := @urlDecode_encodeField [] a
          rwa [List.append_nil, urlDecode, List.append_nil] at h
      | cons b fields =>
          rw [formEncode, urlDecode_encodeField, urlDecode_cons (by decide), ih, typed]
          rfl

end Decode

/-! ### The bytes of a form -/

section Bytes

/-- A byte that may stand behind the `?` of a request. -/
def Clean (c : UInt8) : Prop := c ≠ 0 ∧ c ≠ 0x0D ∧ c ≠ 0x20

instance : DecidablePred Clean := fun _ => inferInstanceAs (Decidable (_ ∧ _))

theorem Literal.clean {c : UInt8} (h : Literal c) : Clean c := by
  refine ⟨?_, ?_, ?_⟩
  · rintro rfl
    exact absurd h (by decide)
  · rintro rfl
    exact absurd h (by decide)
  · rintro rfl
    exact absurd h (by decide)

theorem literal_upperHex {d : UInt8} (h : d < 16) : Literal (upperHex d) := by
  unfold upperHex Literal
  grind

theorem clean_encodeByte (b : UInt8) : ∀ c ∈ encodeByte b, Clean c := by
  rw [encodeByte]
  split
  case isTrue h => exact List.forall_mem_singleton.mpr (by decide)
  split
  case isTrue h hlit => exact List.forall_mem_singleton.mpr hlit.clean
  case isFalse h hlit =>
    rw [List.forall_mem_cons, List.forall_mem_cons, List.forall_mem_singleton]
    exact ⟨by decide, (literal_upperHex (div_sixteen_lt b)).clean,
      (literal_upperHex (UInt8.mod_lt b (by decide))).clean⟩

theorem clean_encodeText (text : Str) : ∀ c ∈ encodeText text, Clean c := by
  intro c hc
  obtain ⟨b, -, hb⟩ := List.mem_flatMap.mp hc
  exact clean_encodeByte b c hb

theorem clean_encodeField (a : RequestArgument) : ∀ c ∈ encodeField a, Clean c := by
  rw [encodeField, List.forall_mem_append, List.forall_mem_cons]
  exact ⟨clean_encodeText a.key, by decide, clean_encodeText a.value⟩

/-- What a browser sends of a form ends neither the line nor the string it stands in. -/
theorem clean_formEncode (fields : List RequestArgument) : ∀ c ∈ formEncode fields, Clean c := by
  induction fields with
  | nil => exact List.forall_mem_nil _
  | cons a fields ih =>
      cases fields with
      | nil => exact clean_encodeField a
      | cons b fields =>
          rw [formEncode, List.forall_mem_append, List.forall_mem_cons]
          exact ⟨clean_encodeField a, by decide, ih⟩

end Bytes

/-! ### What the server reads -/

/-- A field that is read as it was typed. -/
def Plain (a : RequestArgument) : Prop :=
  (0x3D ∉ a.key ∧ 0x26 ∉ a.key ∧ 0 ∉ a.key) ∧ 0x26 ∉ a.value ∧ 0 ∉ a.value

instance : DecidablePred Plain := fun _ => inferInstanceAs (Decidable (_ ∧ _))

theorem Plain.part {a : RequestArgument} (h : Plain a) : 0x26 ∉ a.key ++ 0x3D :: a.value := by
  rw [List.mem_append, List.mem_cons, not_or, not_or]
  exact ⟨h.1.2.1, by decide, h.2.1⟩

theorem arguments_typed {fields : List RequestArgument} (h : ∀ a ∈ fields, Plain a) :
    arguments (typed fields) = fields := by
  induction fields with
  | nil => rfl
  | cons a fields ih =>
      rw [List.forall_mem_cons] at h
      cases fields with
      | nil => rw [typed, arguments_of_notMem h.1.part, argumentOf_append h.1.1.1]; rfl
      | cons b fields =>
          rw [typed, arguments_append h.1.part, argumentOf_append h.1.1.1, ih h.2]
          rfl

theorem zero_notMem_typed {fields : List RequestArgument} (h : ∀ a ∈ fields, Plain a) :
    0 ∉ typed fields := by
  induction fields with
  | nil => exact List.not_mem_nil
  | cons a fields ih =>
      rw [List.forall_mem_cons] at h
      have hpart : 0 ∉ a.key ++ 0x3D :: a.value := by
        rw [List.mem_append, List.mem_cons, not_or, not_or]
        exact ⟨h.1.1.2.2, by decide, h.1.2.2⟩
      cases fields with
      | nil => exact hpart
      | cons b fields =>
          rw [typed, List.mem_append, List.mem_cons, not_or, not_or]
          exact ⟨hpart, by decide, ih h.2⟩

theorem plain_of_argumentOf {part : Str} (hamp : 0x26 ∉ part) (hzero : 0 ∉ part)
    {a : RequestArgument} (ha : argumentOf part = some a) : Plain a := by
  by_cases hequal : 0x3D ∈ part
  · obtain ⟨key, value, rfl, hkey⟩ := List.eq_append_cons_of_mem hequal
    rw [argumentOf_append hkey, Option.some.injEq] at ha
    subst ha
    rw [List.mem_append, List.mem_cons, not_or, not_or] at hamp hzero
    exact ⟨⟨hkey, hamp.1, hzero.1⟩, hamp.2.2, hzero.2.2⟩
  · rw [argumentOf, if_neg hequal] at ha
    exact absurd ha.symm (Option.some_ne_none a)

/-- No argument has a separator in its name, or a zero or an `&` anywhere. -/
theorem plain_of_mem_arguments {text : Str} (hzero : 0 ∉ text) {a : RequestArgument}
    (ha : a ∈ arguments text) : Plain a := by
  induction text using parts_induction with
  | last text hamp =>
      rw [arguments_of_notMem hamp, Option.mem_toList] at ha
      exact plain_of_argumentOf hamp hzero ha
  | next part rest hamp ih =>
      rw [arguments_append hamp, List.mem_append, Option.mem_toList] at ha
      rw [List.mem_append, List.mem_cons, not_or, not_or] at hzero
      rcases ha with ha | ha
      · exact plain_of_argumentOf hamp hzero.1 ha
      · exact ih hzero.2.2 ha

/-- The server reads the fields as they were typed just when no value has an `&` or a zero in it,
nor a name one of these or an `=`. -/
theorem form_read_iff (fields : List RequestArgument) :
    parseArguments (urlDecode (formEncode fields)) = fields ↔ ∀ a ∈ fields, Plain a := by
  rw [urlDecode_formEncode, parseArguments_eq]
  constructor
  · intro h a ha
    rw [← h] at ha
    exact plain_of_mem_arguments (zero_notMem_cut _) ha
  · intro h
    rw [cut_eq_self (zero_notMem_typed h), arguments_typed h]

end EmsGateway.Portal
