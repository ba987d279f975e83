import SecretManager.Lib.Wire

/-!
# UTF-16

The code units of a text and the decoder that refuses an unpaired surrogate. The two are inverse to
each other: a sequence of units decodes exactly when it is the encoding of a text, and then to that
text. On the wire a unit is two big-endian bytes.
-/

namespace Utf16

/-! ## Code units -/

/-- The code units of a character: itself, or a pair of surrogates. -/
def encodeChar (c : Char) : List UInt16 :=
  if c.toNat < 0x10000 then [UInt16.ofNat c.toNat]
  else
    [UInt16.ofNat (0xD800 + (c.toNat - 0x10000) / 0x400), UInt16.ofNat (0xDC00 + (c.toNat - 0x10000) % 0x400)]

def encode (cs : List Char) : List UInt16 := cs.flatMap encodeChar

/-- `char::decode_utf16`, up to its first error. -/
def decode : List UInt16 → Option (List Char)
  | [] => some []
  | u :: rest =>
    if u.toNat < 0xD800 ∨ 0xDFFF < u.toNat then (decode rest).map (Char.ofNat u.toNat :: ·)
    else if 0xDC00 ≤ u.toNat then none
    else
      match rest with
      | [] => none
      | v :: rest =>
        if 0xDC00 ≤ v.toNat ∧ v.toNat ≤ 0xDFFF then
          (decode rest).map
            (Char.ofNat (0x10000 + (u.toNat - 0xD800) * 0x400 + (v.toNat - 0xDC00)) :: ·)
        else none

/-- Where a character lies: below or above the surrogates. -/
theorem char_range (c : Char) : c.toNat < 0xD800 ∨ 0xDFFF < c.toNat ∧ c.toNat < 0x110000 := c.valid

theorem toNat_ofNat {n : Nat} (valid : n.isValidChar) : (Char.ofNat n).toNat = n := by
  rw [Char.ofNat, dif_pos valid]
  exact Char.toNat_ofNatAux valid

variable {u : UInt16}

theorem decode_scalar (scalar : u.toNat < 0xD800 ∨ 0xDFFF < u.toNat) (rest : List UInt16) :
    decode (u :: rest) = (decode rest).map (Char.ofNat u.toNat :: ·) := by
  rw [decode.eq_def]
  exact if_pos scalar

theorem decode_encodeChar (c : Char) (rest : List UInt16) :
    decode (encodeChar c ++ rest) = (decode rest).map (c :: ·) := by
  have range := char_range c
  unfold encodeChar
  split
  next small =>
    have unit : (UInt16.ofNat c.toNat).toNat = c.toNat := UInt16.toNat_ofNat_of_lt' small
    rw [List.singleton_append, decode_scalar (by omega), unit, Char.ofNat_toNat]
  next big =>
    have high : (UInt16.ofNat (0xD800 + (c.toNat - 0x10000) / 0x400)).toNat =
        0xD800 + (c.toNat - 0x10000) / 0x400 := UInt16.toNat_ofNat_of_lt' (by change _ < 65536; omega)
    have low : (UInt16.ofNat (0xDC00 + (c.toNat - 0x10000) % 0x400)).toNat =
        0xDC00 + (c.toNat - 0x10000) % 0x400 := UInt16.toNat_ofNat_of_lt' (by change _ < 65536; omega)
    have whole : 0x10000 + (0xD800 + (c.toNat - 0x10000) / 0x400 - 0xD800) * 0x400 +
        (0xDC00 + (c.toNat - 0x10000) % 0x400 - 0xDC00) = c.toNat := by omega
    rw [List.cons_append, List.cons_append, List.nil_append, decode, high, if_neg (by omega), if_neg (by omega)]
    simp only [low]
    rw [if_pos (by omega), whole, Char.ofNat_toNat]

theorem decode_encode (cs : List Char) : decode (encode cs) = some cs := by
  induction cs with
  | nil => rfl
  | cons c cs ih =>
    change decode (encodeChar c ++ encode cs) = _
    rw [decode_encodeChar, ih, Option.map_some]

theorem encodeChar_ofNat_small (scalar : u.toNat < 0xD800 ∨ 0xDFFF < u.toNat) :
    encodeChar (Char.ofNat u.toNat) = [u] := by
  have lt := u.toNat_lt
  have valid : u.toNat.isValidChar := by
    omega
  rw [encodeChar, toNat_ofNat valid, if_pos (by omega), UInt16.ofNat_toNat]

theorem encodeChar_ofNat_pair {v : UInt16} (high : 0xD800 ≤ u.toNat ∧ u.toNat < 0xDC00)
    (low : 0xDC00 ≤ v.toNat ∧ v.toNat ≤ 0xDFFF) :
    encodeChar (Char.ofNat (0x10000 + (u.toNat - 0xD800) * 0x400 + (v.toNat - 0xDC00))) = [u, v] := by
  have valid : (0x10000 + (u.toNat - 0xD800) * 0x400 + (v.toNat - 0xDC00)).isValidChar := by
    omega
  rw [encodeChar, toNat_ofNat valid, if_neg (by omega)]
  have first : 0xD800 + (0x10000 + (u.toNat - 0xD800) * 0x400 + (v.toNat - 0xDC00) - 0x10000)
      / 0x400 =
      u.toNat := by omega
  have second : 0xDC00 + (0x10000 + (u.toNat - 0xD800) * 0x400 + (v.toNat - 0xDC00) - 0x10000)
      % 0x400 =
      v.toNat := by omega
  rw [first, second, UInt16.ofNat_toNat, UInt16.ofNat_toNat]

/-- **What decodes is the encoding of what it decodes to.** -/
theorem encode_decode {us : List UInt16} {cs : List Char} (h : decode us = some cs) :
    us = encode cs := by
  induction us using decode.induct generalizing cs with
  | case1 =>
    cases h
    rfl
  | case2 u rest scalar ih =>
    rw [decode_scalar scalar] at h
    obtain ⟨cs', decoded, rfl⟩ := Option.map_eq_some_iff.mp h
    change _ = encodeChar _ ++ encode cs'
    rw [encodeChar_ofNat_small scalar, ← ih decoded]
    rfl
  | case3 u rest surrogate low =>
    rw [decode.eq_def] at h
    simp only [if_neg surrogate, if_pos low] at h
    cases h
  | case4 u surrogate high =>
    rw [decode, if_neg surrogate, if_neg high] at h
    cases h
  | case5 u surrogate high v rest low ih =>
    rw [decode, if_neg surrogate, if_neg high] at h
    simp only [if_pos low] at h
    obtain ⟨cs', decoded, rfl⟩ := Option.map_eq_some_iff.mp h
    change _ = encodeChar _ ++ encode cs'
    rw [encodeChar_ofNat_pair (by omega) low, ← ih decoded]
    rfl
  | case6 u surrogate high v rest unpaired =>
    rw [decode, if_neg surrogate, if_neg high] at h
    simp only [if_neg unpaired] at h
    cases h

theorem decode_eq_some {us : List UInt16} {cs : List Char} :
    decode us = some cs ↔ us = encode cs := by
  constructor
  · exact encode_decode
  · rintro rfl
    exact decode_encode cs

/-! ## On the wire -/

/-- `chunks_exact(2)`, each as a big-endian unit. -/
def ofBytes : List UInt8 → List UInt16
  | a :: b :: rest => UInt16.ofNat (Wire.ofBe [a, b]) :: ofBytes rest
  | _ => []

def toBytes (us : List UInt16) : List UInt8 := us.flatMap fun u => Wire.be16 u.toNat

theorem length_toBytes (us : List UInt16) : (toBytes us).length = 2 * us.length := by
  induction us with
  | nil => rfl
  | cons u us ih =>
    change (Wire.be16 u.toNat ++ toBytes us).length = _
    rw [List.length_append, Wire.be16_length, List.length_cons]
    omega

theorem ofBytes_toBytes (us : List UInt16) : ofBytes (toBytes us) = us := by
  induction us with
  | nil => rfl
  | cons u us ih =>
    have lt := u.toNat_lt
    have read : Wire.ofBe (Wire.be16 u.toNat) = u.toNat := Wire.ofBe_be16 (by omega)
    change UInt16.ofNat (Wire.ofBe (Wire.be16 u.toNat)) :: ofBytes (toBytes us) = _
    rw [read, UInt16.ofNat_toNat, ih]

theorem toBytes_ofBytes :
    ∀ {bytes : List UInt8}, bytes.length % 2 = 0 → toBytes (ofBytes bytes) = bytes
  | [], _ => rfl
  | [_], odd => by simp at odd
  | a :: b :: rest, even => by
    have rest_even : rest.length % 2 = 0 := by
      simp only [List.length_cons] at even
      omega
    have lt : Wire.ofBe [a, b] < UInt16.size := by simpa using Wire.ofBe_lt [a, b]
    change Wire.be16 (UInt16.ofNat (Wire.ofBe [a, b])).toNat ++ toBytes (ofBytes rest) = _
    rw [UInt16.toNat_ofNat_of_lt' lt, Wire.be16_ofBe rfl, toBytes_ofBytes rest_even]
    rfl

end Utf16
