import Mathlib

/-!
# Self-delimiting byte codecs

A `Codec` carries its own round-trip law: an encoding, whatever follows it, decodes to its value and
leaves what follows. The combinators build the codec of a record from those of its fields, so a
record's law needs no proof of its own. The scalar format is the base-128 little-endian varint, and
a sequence is its varint length followed by its elements.

Only the forward direction is stated: a reader may also accept encodings the writer never emits, as
varint readers do.
-/

/-- A writer and a reader of one type, with the law that relates them. -/
structure Codec (α : Type*) where
  encode : α → List UInt8
  decode : List UInt8 → Option (α × List UInt8)
  decode_encode : ∀ a rest, decode (encode a ++ rest) = some (a, rest)

namespace Codec

variable {α β : Type*}

theorem encode_injective (c : Codec α) : Function.Injective c.encode := by
  intro a b same
  have read := c.decode_encode a []
  rw [same, c.decode_encode b []] at read
  exact (Prod.mk.inj (Option.some.inj read)).1.symm

/-! ## Varints -/

/-- The base-128 digits of a natural, least significant first, each but the last with its high bit
set. The fuel bounds the number of digits. -/
def varintFrom : Nat → Nat → List UInt8
  | 0, n => [UInt8.ofNat n]
  | fuel + 1, n =>
    if n < 128 then [UInt8.ofNat n]
    else UInt8.ofNat (n % 128 + 128) :: varintFrom fuel (n / 128)

def readVarint : List UInt8 → Option (Nat × List UInt8)
  | [] => none
  | b :: bs =>
    if b.toNat < 128 then some (b.toNat, bs)
    else (readVarint bs).map fun (n, rest) => (b.toNat - 128 + 128 * n, rest)

theorem readVarint_final {n : Nat} (h : n < 128) (rest : List UInt8) :
    readVarint (UInt8.ofNat n :: rest) = some (n, rest) := by
  have hn : (UInt8.ofNat n).toNat = n := by
    rw [UInt8.toNat_ofNat']
    omega
  simp only [readVarint, hn, if_pos h]

theorem readVarint_varintFrom (rest : List UInt8) : ∀ fuel n, n ≤ fuel →
    readVarint (varintFrom fuel n ++ rest) = some (n, rest) := by
  intro fuel
  induction fuel with
  | zero =>
    intro n h
    exact readVarint_final (by omega) rest
  | succ fuel ih =>
    intro n h
    unfold varintFrom
    by_cases hn : n < 128
    · rw [if_pos hn]
      exact readVarint_final hn rest
    · rw [if_neg hn, List.cons_append]
      have hbyte : (UInt8.ofNat (n % 128 + 128)).toNat = n % 128 + 128 := by
        rw [UInt8.toNat_ofNat']
        omega
      have hdigit : n % 128 + 128 - 128 + 128 * (n / 128) = n := by omega
      have hhigh : ¬n % 128 + 128 < 128 := by omega
      simp only [readVarint, hbyte, if_neg hhigh, ih (n / 128) (by omega), Option.map_some, hdigit]

def nat : Codec Nat where
  encode n := varintFrom n n
  decode := readVarint
  decode_encode n rest := readVarint_varintFrom rest n n le_rfl

/-! ## Combinators -/

/-- Carry a codec along a map with a partial inverse. -/
def via (c : Codec α) (f : β → α) (g : α → Option β) (inverse : ∀ b, g (f b) = some b) :
    Codec β where
  encode b := c.encode (f b)
  decode bytes := (c.decode bytes).bind fun (a, rest) => (g a).map fun b => (b, rest)
  decode_encode b rest := by
    simp only [c.decode_encode, Option.bind_some, inverse, Option.map_some]

def pair (c : Codec α) (d : Codec β) : Codec (α × β) where
  encode p := c.encode p.1 ++ d.encode p.2
  decode bytes := (c.decode bytes).bind fun (a, rest) =>
    (d.decode rest).map fun (b, rest') => ((a, b), rest')
  decode_encode p rest := by
    simp only [List.append_assoc, c.decode_encode, Option.bind_some, d.decode_encode, Option.map_some]

def unit : Codec Unit where
  encode _ := []
  decode bytes := some ((), bytes)
  decode_encode _ _ := rfl

/-- A tag, then what the tag announces. -/
def sigma {ι : Type*} {β : ι → Type*} (tag : Codec ι) (payload : ∀ i, Codec (β i)) :
    Codec (Σ i, β i) where
  encode v := tag.encode v.1 ++ (payload v.1).encode v.2
  decode bytes := (tag.decode bytes).bind fun (i, rest) =>
    ((payload i).decode rest).map fun (b, rest') => (⟨i, b⟩, rest')
  decode_encode v rest := by
    simp only [List.append_assoc, tag.decode_encode, Option.bind_some, (payload v.1).decode_encode, Option.map_some]

def byte : Codec UInt8 where
  encode b := [b]
  decode
    | [] => none
    | b :: rest => some (b, rest)
  decode_encode _ _ := rfl

/-- Run a reader a given number of times. -/
def readTimes (read : List UInt8 → Option (α × List UInt8)) : Nat → List UInt8 →
    Option (List α × List UInt8)
  | 0, bytes => some ([], bytes)
  | n + 1, bytes => (read bytes).bind fun (a, rest) =>
    (readTimes read n rest).map fun (as, rest') => (a :: as, rest')

theorem readTimes_flatMap (c : Codec α) (rest : List UInt8) : ∀ as : List α,
    readTimes c.decode as.length (as.flatMap c.encode ++ rest) = some (as, rest) := by
  intro as
  induction as with
  | nil => rfl
  | cons a as ih =>
    simp only [List.flatMap_cons, List.append_assoc, List.length_cons, readTimes, c.decode_encode,
      Option.bind_some, ih, Option.map_some]

/-- A sequence: its length, then its elements. -/
def list (c : Codec α) : Codec (List α) where
  encode as := nat.encode as.length ++ as.flatMap c.encode
  decode bytes := (nat.decode bytes).bind fun (n, rest) => readTimes c.decode n rest
  decode_encode as rest := by
    simp only [List.append_assoc, nat.decode_encode, Option.bind_some, readTimes_flatMap]

/-- A sequence is encoded no shorter than any of its elements. -/
theorem length_encode_le_list (c : Codec α) {a : α} {as : List α} (mem : a ∈ as) :
    (c.encode a).length ≤ (c.list.encode as).length := by
  obtain ⟨before, after, rfl⟩ := List.append_of_mem mem
  simp only [list, List.flatMap_append, List.flatMap_cons, List.length_append]
  omega

/-- An array: its elements, with no length. -/
def array (c : Codec α) (n : Nat) : Codec (Vector α n) where
  encode v := v.toList.flatMap c.encode
  decode bytes := (readTimes c.decode n bytes).bind fun (as, rest) =>
    if h : as.length = n then some (⟨as.toArray, h⟩, rest) else none
  decode_encode v rest := by
    have hread := readTimes_flatMap c rest v.toList
    rw [Vector.length_toList] at hread
    rw [hread, Option.bind_some]
    dsimp only
    rw [dif_pos Vector.length_toList]
    rfl

/-! ## Scalars, text and maps -/

def uint16 : Codec UInt16 :=
  nat.via UInt16.toNat (fun n => if n < 2 ^ 16 then some (UInt16.ofNat n) else none) fun b => by
    rw [if_pos b.toNat_lt, UInt16.ofNat_toNat]

def uint32 : Codec UInt32 :=
  nat.via UInt32.toNat (fun n => if n < 2 ^ 32 then some (UInt32.ofNat n) else none) fun b => by
    rw [if_pos b.toNat_lt, UInt32.ofNat_toNat]

def uint64 : Codec UInt64 :=
  nat.via UInt64.toNat (fun n => if n < 2 ^ 64 then some (UInt64.ofNat n) else none) fun b => by
    rw [if_pos b.toNat_lt, UInt64.ofNat_toNat]

/-- A number below a bound, as a varint. -/
def fin (n : Nat) : Codec (Fin n) :=
  nat.via Fin.val (fun i => if h : i < n then some ⟨i, h⟩ else none) fun i => by
    rw [dif_pos i.isLt]

def bool : Codec Bool :=
  (fin 2).via (fun b => if b then 1 else 0) (fun i => some (i = 1)) fun b => by
    cases b with
    | false => rfl
    | true => rfl

/-- A flag that says whether a value follows. -/
def option (c : Codec α) : Codec (Option α) where
  encode
    | none => bool.encode false
    | some a => bool.encode true ++ c.encode a
  decode bytes := (bool.decode bytes).bind fun (present, rest) =>
    if present then (c.decode rest).map fun (a, rest') => (some a, rest') else some (none, rest)
  decode_encode v rest := by
    cases v with
    | none => simp only [bool.decode_encode, Option.bind_some, Bool.false_eq_true, if_false]
    | some a =>
      simp only [List.append_assoc, bool.decode_encode, Option.bind_some, if_true, c.decode_encode, Option.map_some]

/-- UTF-8 text with its length in bytes. -/
def string : Codec String :=
  (list byte).via (fun s => s.toUTF8.data.toList) (fun bytes => String.fromUTF8? ⟨bytes.toArray⟩)
    fun s => by
      have valid : s.toUTF8.IsValidUTF8 := s.isValidUTF8
      have same : (⟨s.toUTF8.data.toList.toArray⟩ : ByteArray) = s.toUTF8 := by
        rw [Array.toArray_toList]
      rw [same, String.fromUTF8?, dif_pos valid]
      rfl

/-- A text is encoded no shorter than it is. -/
theorem length_le_encode_string (s : String) :
    s.toUTF8.data.toList.length ≤ (string.encode s).length := by
  simp only [string, via, list, List.length_append, List.length_flatMap, byte,
    List.length_singleton,
    List.map_const', List.sum_replicate, smul_eq_mul]
  omega

theorem ofList_toList (m : Std.ExtTreeMap String β) : Std.ExtTreeMap.ofList m.toList = m := by
  apply Std.ExtTreeMap.ext_getElem?
  intro k
  cases h : m[k]? with
  | none =>
    apply Std.ExtTreeMap.getElem?_ofList_of_contains_eq_false
    simpa using h
  | some v =>
    have hmem := Std.ExtTreeMap.mem_toList_iff_getElem?_eq_some.mpr h
    exact Std.ExtTreeMap.getElem?_ofList_of_mem Std.compare_self
      Std.ExtTreeMap.distinct_keys_toList hmem

/-- A map as the sequence of its entries, in key order. -/
def map (c : Codec β) : Codec (Std.ExtTreeMap String β) :=
  (list (pair string c)).via Std.ExtTreeMap.toList (fun l => some (Std.ExtTreeMap.ofList l))
    fun m => congrArg some (ofList_toList m)

end Codec
