import Mathlib

/-!
# Fixed-width wire fields

The little-endian and big-endian encodings of a natural, with their readings. An encoding sees only
the low bits, so the laws are about naturals that fit. The big-endian reading is one function for
every width: it is bounded by the width and tells byte strings of one width apart, so that an
encoding which it undoes is also undone by it.
-/

namespace Wire

/-- Little-endian 32-bit encoding: `u32::to_le_bytes` of the low 32 bits. -/
def le32 (n : Nat) : List UInt8 :=
  [UInt8.ofNat n, UInt8.ofNat (n >>> 8), UInt8.ofNat (n >>> 16), UInt8.ofNat (n >>> 24)]

def ofLe32 (a b c d : UInt8) : Nat :=
  a.toNat + b.toNat * 256 + c.toNat * 65536 + d.toNat * 16777216

@[simp] theorem le32_length (n : Nat) : (le32 n).length = 4 := rfl

variable {n : Nat}

theorem ofLe32_le32 (h : n < 2 ^ 32) :
    ofLe32 (UInt8.ofNat n) (UInt8.ofNat (n >>> 8)) (UInt8.ofNat (n >>> 16))
      (UInt8.ofNat (n >>> 24)) = n := by
  simp only [ofLe32, UInt8.toNat_ofNat']
  omega

/-- Little-endian 64-bit encoding: `u64::to_le_bytes` of the low 64 bits. -/
def le64 (n : Nat) : List UInt8 := le32 n ++ le32 (n >>> 32)

/-! ## Big-endian -/

/-- The big-endian reading, of a field of any width: `u32::from_be_bytes` and its like. -/
def ofBe (bytes : List UInt8) : Nat := bytes.foldl (fun n b => n * 256 + b.toNat) 0

theorem ofBe_concat (bytes : List UInt8) (b : UInt8) :
    ofBe (bytes ++ [b]) = ofBe bytes * 256 + b.toNat := by
  rw [ofBe, List.foldl_concat]
  rfl

theorem ofBe_lt (bytes : List UInt8) : ofBe bytes < 256 ^ bytes.length := by
  induction bytes using List.reverseRecOn with
  | nil => decide
  | append_singleton bytes b ih =>
    have digit := b.toNat_lt
    rw [ofBe_concat, List.length_append, List.length_singleton]
    omega

variable {bytes : List UInt8}

theorem ofBe_inj {bytes' : List UInt8} (width : bytes.length = bytes'.length)
    (same : ofBe bytes = ofBe bytes') : bytes = bytes' := by
  induction bytes using List.reverseRecOn generalizing bytes' with
  | nil => exact (List.length_eq_zero_iff.mp width.symm).symm
  | append_singleton bytes b ih =>
    rcases List.eq_nil_or_concat bytes' with rfl | ⟨bytes', b', rfl⟩
    · simp at width
    · have digit := b.toNat_lt
      have digit' := b'.toNat_lt
      rw [List.concat_eq_append] at width same ⊢
      rw [ofBe_concat, ofBe_concat] at same
      have high : ofBe bytes = ofBe bytes' := by omega
      have low : b.toNat = b'.toNat := by omega
      rw [ih (by simpa using width) high, UInt8.toNat.inj low]

/-- Big-endian 16-bit encoding: `u16::to_be_bytes` of the low 16 bits. -/
def be16 (n : Nat) : List UInt8 := [UInt8.ofNat (n >>> 8), UInt8.ofNat n]

@[simp] theorem be16_length (n : Nat) : (be16 n).length = 2 := rfl

theorem ofBe_be16 (h : n < 2 ^ 16) : ofBe (be16 n) = n := by
  simp only [ofBe, be16, List.foldl_cons, List.foldl_nil, UInt8.toNat_ofNat']
  omega

theorem be16_ofBe (len : bytes.length = 2) : be16 (ofBe bytes) = bytes := by
  have lt := ofBe_lt bytes
  rw [len] at lt
  exact ofBe_inj len.symm (ofBe_be16 lt)

/-- Big-endian 32-bit encoding: `u32::to_be_bytes` of the low 32 bits. -/
def be32 (n : Nat) : List UInt8 :=
  [UInt8.ofNat (n >>> 24), UInt8.ofNat (n >>> 16), UInt8.ofNat (n >>> 8), UInt8.ofNat n]

@[simp] theorem be32_length (n : Nat) : (be32 n).length = 4 := rfl

theorem ofBe_be32 (h : n < 2 ^ 32) : ofBe (be32 n) = n := by
  simp only [ofBe, be32, List.foldl_cons, List.foldl_nil, UInt8.toNat_ofNat',
    Nat.shiftRight_eq_div_pow]
  omega

theorem be32_ofBe (len : bytes.length = 4) : be32 (ofBe bytes) = bytes := by
  have lt := ofBe_lt bytes
  rw [len] at lt
  exact ofBe_inj len.symm (ofBe_be32 lt)

theorem be32_injOn : Set.InjOn be32 {n | n < 2 ^ 32} := by
  intro n hn m hm h
  rw [← ofBe_be32 hn, ← ofBe_be32 hm, h]

theorem be32_toNat_inj {a b : UInt32} (same : be32 a.toNat = be32 b.toNat) : a = b := by
  have lt := a.toNat_lt
  have lt' := b.toNat_lt
  exact UInt32.toNat.inj (be32_injOn (by simpa using lt) (by simpa using lt') same)

/-- Big-endian 64-bit encoding: `u64::to_be_bytes` of the low 64 bits. -/
def be64 (n : Nat) : List UInt8 :=
  [UInt8.ofNat (n >>> 56), UInt8.ofNat (n >>> 48), UInt8.ofNat (n >>> 40), UInt8.ofNat (n >>> 32),
    UInt8.ofNat (n >>> 24), UInt8.ofNat (n >>> 16), UInt8.ofNat (n >>> 8), UInt8.ofNat n]

@[simp] theorem be64_length (n : Nat) : (be64 n).length = 8 := rfl

theorem ofBe_be64 (h : n < 2 ^ 64) : ofBe (be64 n) = n := by
  simp only [ofBe, be64, List.foldl_cons, List.foldl_nil, UInt8.toNat_ofNat',
    Nat.shiftRight_eq_div_pow]
  omega

theorem be64_ofBe (len : bytes.length = 8) : be64 (ofBe bytes) = bytes := by
  have lt := ofBe_lt bytes
  rw [len] at lt
  exact ofBe_inj len.symm (ofBe_be64 lt)

theorem be64_injOn : Set.InjOn be64 {n | n < 2 ^ 64} := by
  intro n hn m hm h
  rw [← ofBe_be64 hn, ← ofBe_be64 hm, h]

end Wire
