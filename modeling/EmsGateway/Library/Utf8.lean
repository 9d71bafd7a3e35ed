import Mathlib.Tactic.Common

/-!
The bytes of a text. A byte is zero only where the text has the character zero.
-/

namespace EmsGateway.Library

namespace Utf8

/-- The bytes of a text, in UTF-8. -/
def bytes (s : String) : List UInt8 := s.toList.flatMap String.utf8EncodeChar

theorem length_bytes (s : String) : (bytes s).length = s.utf8ByteSize := by
  rw [← String.size_toByteArray, ← String.utf8Encode_toList, List.utf8Encode,
    List.size_toByteArray, bytes]

theorem ofNat_ne_zero {n : ℕ} (h : n % 256 ≠ 0) : UInt8.ofNat n ≠ 0 := by
  intro heq
  have hmod := congrArg UInt8.toNat heq
  rw [UInt8.toNat_ofNat'] at hmod
  exact h hmod

theorem zero_notMem_utf8EncodeChar {c : Char} (hc : c ≠ '\x00') :
    0 ∉ String.utf8EncodeChar c := by
  have hne : c.val.toNat ≠ 0 := fun h => hc (Char.ext (UInt32.toNat_inj.mp h))
  have hall : ∀ b ∈ String.utf8EncodeChar c, ∃ n, b = UInt8.ofNat n ∧ n % 256 ≠ 0 := by
    intro b hb
    rw [String.utf8EncodeChar] at hb
    -- from one byte to four
    split at hb
    · exact ⟨_, List.mem_singleton.mp hb, by omega⟩
    · split at hb
      · rcases hb with _ | ⟨_, hb⟩
        · exact ⟨_, rfl, by omega⟩
        · exact ⟨_, List.mem_singleton.mp hb, by omega⟩
      · split at hb
        · rcases hb with _ | ⟨_, _ | ⟨_, hb⟩⟩
          · exact ⟨_, rfl, by omega⟩
          · exact ⟨_, rfl, by omega⟩
          · exact ⟨_, List.mem_singleton.mp hb, by omega⟩
        · rcases hb with _ | ⟨_, _ | ⟨_, _ | ⟨_, hb⟩⟩⟩
          · exact ⟨_, rfl, by omega⟩
          · exact ⟨_, rfl, by omega⟩
          · exact ⟨_, rfl, by omega⟩
          · exact ⟨_, List.mem_singleton.mp hb, by omega⟩
  intro hzero
  obtain ⟨n, heq, hn⟩ := hall 0 hzero
  exact ofNat_ne_zero hn heq.symm

/-- A text without the character zero, which would end it as a C string. -/
def NoNul (s : String) : Prop := '\x00' ∉ s.toList

instance (s : String) : Decidable (NoNul s) := inferInstanceAs (Decidable (_ ∉ _))

variable {s t : String}

theorem NoNul.append (hs : NoNul s) (ht : NoNul t) : NoNul (s ++ t) := by
  rw [NoNul, String.toList_append, List.mem_append, not_or]
  exact ⟨hs, ht⟩

theorem NoNul.zero_notMem_bytes (h : NoNul s) : 0 ∉ bytes s := by
  intro hzero
  obtain ⟨c, hc, hbyte⟩ := List.mem_flatMap.mp hzero
  refine zero_notMem_utf8EncodeChar ?_ hbyte
  rintro rfl
  exact h hc

end Utf8

end EmsGateway.Library
