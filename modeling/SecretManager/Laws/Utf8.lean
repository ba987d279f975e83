import SecretManager.Vault.Format

/-!
# The bytes of a text

UTF-8, character by character. An ASCII character is one byte, its own code, and no byte of any
other character is an ASCII byte. What is asked of ASCII bytes can therefore be asked of the
characters.
-/

namespace SecretManager

open String (utf8EncodeChar)

theorem utf8_ofList (cs : List Char) : utf8 (String.ofList cs) = cs.flatMap utf8EncodeChar := by
  have bytes : (String.ofList cs).toUTF8 = cs.utf8Encode := String.toByteArray_ofList
  rw [utf8, bytes, List.utf8Encode, List.toList_data_toByteArray]

theorem utf8_eq (s : String) : utf8 s = s.toList.flatMap utf8EncodeChar := by
  rw [← utf8_ofList, String.ofList_toList]

theorem utf8_append (s t : String) : utf8 (s ++ t) = utf8 s ++ utf8 t := by
  simp [utf8]

theorem utf8_ofUtf8 {bytes : Bytes} {s : String} (read : ofUtf8 bytes = some s) :
    utf8 s = bytes := by
  unfold ofUtf8 String.fromUTF8? at read
  split at read
  · cases read
    rfl
  · cases read

variable {c : Char}

theorem utf8EncodeChar_ascii (ascii : c.toNat < 128) :
    utf8EncodeChar c = [UInt8.ofNat c.toNat] := by
  have small : c.val.toNat ≤ 127 := Nat.le_of_lt_succ ascii
  unfold utf8EncodeChar
  rw [if_pos small]
  rfl

theorem utf8EncodeChar_wide (wide : 128 ≤ c.toNat) : ∀ b ∈ utf8EncodeChar c, 128 ≤ b.toNat := by
  have large : ¬c.val.toNat ≤ 127 := Nat.not_le.mpr wide
  -- each byte is a marker of at least 128 and the bits that fit beside it
  have marked : ∀ n room marker : Nat, 0 < room ∧ 128 ≤ marker ∧ room + marker ≤ 256 →
      128 ≤ (UInt8.ofNat (n % room + marker)).toNat := by
    rintro n room marker ⟨some, low, fits⟩
    have below := Nat.mod_lt n some
    rw [UInt8.toNat_ofNat']
    omega
  intro b mem
  unfold utf8EncodeChar at mem
  rw [if_neg large] at mem
  repeat' split at mem
  all_goals
    simp only [List.mem_cons, List.not_mem_nil, or_false] at mem
    rcases mem with rfl | mem
    · exact marked _ _ _ (by decide)
  · exact mem ▸ marked _ _ _ (by decide)
  · rcases mem with rfl | rfl <;> exact marked _ _ _ (by decide)
  · rcases mem with rfl | rfl | rfl <;> exact marked _ _ _ (by decide)

/-- **What is asked of ASCII bytes** is asked of the characters. -/
theorem all_utf8EncodeChar {p : UInt8 → Bool} (ascii : ∀ b, p b = true → b.toNat < 128) :
    (utf8EncodeChar c).all p = (decide (c.toNat < 128) && p (UInt8.ofNat c.toNat)) := by
  by_cases small : c.toNat < 128
  · rw [utf8EncodeChar_ascii small]
    simp [small]
  · have wide := utf8EncodeChar_wide (Nat.not_lt.mp small)
    obtain ⟨b, rest, bytes⟩ := List.exists_cons_of_ne_nil (l := utf8EncodeChar c) (by simp)
    have first := wide b (by rw [bytes]; exact List.mem_cons_self)
    have refused : p b = false := by
      rw [Bool.eq_false_iff]
      intro passed
      exact absurd (ascii b passed) (Nat.not_lt.mpr first)
    rw [bytes, List.all_cons, refused]
    simp [small]

end SecretManager
