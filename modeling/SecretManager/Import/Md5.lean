import SecretManager.Vault.Format

/-!
# The MD5 of a `.kwl` name

`md5` of `src/import/verify.rs`, written out there for one purpose: the hashes of folder and entry
names that a KWallet index holds. The arithmetic is on `UInt32`, which wraps as `wrapping_add` does.
-/

namespace SecretManager.Import

abbrev Md5Hash := Vector UInt8 16

namespace Md5

/-- `S`: how far each round rotates. -/
def shifts : List UInt32 :=
  [ 7, 12, 17, 22, 7, 12, 17, 22, 7, 12, 17, 22, 7, 12, 17, 22, 5, 9, 14, 20, 5, 9, 14, 20, 5, 9,
    14, 20, 5, 9, 14, 20,
    4, 11, 16, 23, 4, 11, 16, 23, 4, 11, 16, 23, 4, 11, 16, 23,
    6, 10, 15, 21, 6, 10, 15, 21, 6, 10, 15, 21, 6, 10, 15, 21 ]

/-- `K`: `floor (2 ^ 32 * |sin (i + 1)|)`, as the source tabulates it. -/
def sines : List UInt32 :=
  [ 0xd76aa478, 0xe8c7b756, 0x242070db, 0xc1bdceee, 0xf57c0faf, 0x4787c62a, 0xa8304613, 0xfd469501,
    0x698098d8, 0x8b44f7af, 0xffff5bb1, 0x895cd7be, 0x6b901122, 0xfd987193, 0xa679438e, 0x49b40821,
    0xf61e2562, 0xc040b340, 0x265e5a51, 0xe9b6c7aa, 0xd62f105d, 0x02441453, 0xd8a1e681, 0xe7d3fbc8,
    0x21e1cde6, 0xc33707d6, 0xf4d50d87, 0x455a14ed, 0xa9e3e905, 0xfcefa3f8, 0x676f02d9, 0x8d2a4c8a,
    0xfffa3942, 0x8771f681, 0x6d9d6122, 0xfde5380c, 0xa4beea44, 0x4bdecfa9, 0xf6bb4b60, 0xbebfbc70,
    0x289b7ec6, 0xeaa127fa, 0xd4ef3085, 0x04881d05, 0xd9d4d039, 0xe6db99e5, 0x1fa27cf8, 0xc4ac5665,
    0xf4292244, 0x432aff97, 0xab9423a7, 0xfc93a039, 0x655b59c3, 0x8f0ccc92, 0xffeff47d, 0x85845dd1,
    0x6fa87e4f, 0xfe2ce6e0, 0xa3014314, 0x4e0811a1, 0xf7537e82, 0xbd3af235, 0x2ad7d2bb, 0xeb86d391 ]

structure Words where
  a : UInt32
  b : UInt32
  c : UInt32
  d : UInt32
  deriving DecidableEq, Repr

def initial : Words := ⟨0x67452301, 0xefcdab89, 0x98badcfe, 0x10325476⟩

/-- `u32::rotate_left`, for the amounts of `shifts`. -/
def rotateLeft (x s : UInt32) : UInt32 := (x <<< s) ||| (x >>> (32 - s))

/-- The mixing function of round `i` and the message word it reads. -/
def mix (w : Words) (i : Nat) : UInt32 × Nat :=
  match i / 16 with
  | 0 => ((w.b &&& w.c) ||| (~~~w.b &&& w.d), i)
  | 1 => ((w.d &&& w.b) ||| (~~~w.d &&& w.c), (5 * i + 1) % 16)
  | 2 => (w.b ^^^ w.c ^^^ w.d, (3 * i + 5) % 16)
  | _ => (w.c ^^^ (w.b ||| ~~~w.d), (7 * i) % 16)

/-- One round over the sixteen words of a chunk. -/
def round (m : List UInt32) (w : Words) (i : Nat) : Words :=
  let (f, g) := mix w i
  let sum := rotateLeft (w.a + f + sines.getD i 0 + m.getD g 0) (shifts.getD i 0)
  ⟨w.d, w.b + sum, w.b, w.c⟩

/-- `u32::from_le_bytes` of each four bytes. -/
def words : Bytes → List UInt32
  | a :: b :: c :: d :: rest => UInt32.ofNat (Wire.ofLe32 a b c d) :: words rest
  | _ => []

/-- One chunk: the rounds, added onto the running words. -/
def absorb (state : Words) (chunk : Bytes) : Words :=
  let w := (List.range 64).foldl (round (words chunk)) state
  ⟨state.a + w.a, state.b + w.b, state.c + w.c, state.d + w.d⟩

/-- The loop that pushes zeros until the length is 56 modulo 64. It runs fewer than 64 times. -/
def padZeros : Nat → Bytes → Bytes
  | 0, msg => msg
  | fuel + 1, msg => if msg.length % 64 = 56 then msg else padZeros fuel (msg ++ [0])

/-- The padded message: the bytes, a `0x80`, zeros, and the bit length. -/
def padded (bytes : Bytes) : Bytes :=
  padZeros 64 (bytes ++ [0x80]) ++ Wire.le64 (bytes.length * 8)

def chunks (msg : Bytes) : List Bytes :=
  (List.range (msg.length / 64)).map fun i => (msg.drop (64 * i)).take 64

end Md5

def md5 (bytes : Bytes) : Md5Hash :=
  let w := (Md5.chunks (Md5.padded bytes)).foldl Md5.absorb Md5.initial
  ⟨(Wire.le32 w.a.toNat ++ Wire.le32 w.b.toNat ++ Wire.le32 w.c.toNat ++
    Wire.le32 w.d.toNat).toArray,
    rfl⟩

end SecretManager.Import
