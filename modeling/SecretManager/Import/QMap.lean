import SecretManager.Import.Source
import SecretManager.Lib.Reader
import SecretManager.Lib.Utf16

/-!
# A serialised `QMap<QString, QString>`

`src/import/kwallet.rs`: the decoder of the bytes that `readMap` returns, the canonical JSON that is
stored for them, and the decoder of a serialised password. A null `QString` and an empty one are
different on the wire and the same text afterwards.

The JSON itself is written by another crate, so its writer is an argument (`JsonWriter`), and what
the secrets rely on are its laws (`JsonWriter.Lawful`). The second half is the wire format as a type
of its own, with its encoding.
-/

namespace SecretManager.Import.KWallet

/-- The largest number of pairs a map may declare. -/
def maxMapEntries : Nat := 4096

inductive MapDecodeError where
  | truncated (field : String)
  | impossibleCount (declared : UInt32) (available : Nat)
  | tooManyPairs (declared limit : Nat)
  | oddStringLength (len : Nat)
  /-- A legal `QString` that no text is. -/
  | unrepresentable (what : String)
  | duplicateKey
  | trailingBytes (trailing : Nat)
  | tooLarge (len limit : Nat)
  deriving DecidableEq, Repr

/-! ## Strings -/

abbrev MapReader := Reader MapDecodeError

/-- `u32::MAX`: Qt's null `QString`. -/
def nullString : UInt32 := 0xffffffff

def unpairedSurrogate : String :=
  "a string contains an unpaired UTF-16 surrogate, which QString allows and Rust's String cannot hold"

/-- The text of a sequence of code units. -/
def ofUnits (units : List UInt16) : Except MapDecodeError String :=
  match Utf16.decode units with
  | some cs => .ok (String.ofList cs)
  | none => .error (.unrepresentable unpairedSurrogate)

/-- `Reader::qstring`: the text, and whether it was the null string. -/
def qstring (field : String) : MapReader (String × Bool) := do
  let len ← Reader.u32 (.truncated field)
  if len = nullString then return ("", true)
  else
    Reader.ensure (len.toNat % 2 = 0) (.oddStringLength len.toNat)
    let raw ← Reader.take len.toNat (.truncated field)
    let s ← Reader.ofExcept (ofUnits (Utf16.ofBytes raw))
    return (s, false)

/-- What is behind the value has to be nothing. -/
def exactly {α : Type} (p : MapReader α) (bytes : Bytes) : Except MapDecodeError α := do
  let (a, c) ← p (.new bytes)
  if c.remaining = 0 then .ok a else .error (.trailingBytes c.remaining)

/-- `decode_qstring_password`: the serialised text, as its bytes. -/
def decodeQstringPassword (bytes : Bytes) : Except MapDecodeError Bytes :=
  (exactly (qstring "password") bytes).map fun (s, _) => utf8 s

/-! ## Maps -/

/-- A digest of a map key, so that duplicate detection keeps no second copy of the plaintext. -/
def digest (x : Externals) (key : String) : Digest := x.sha256 (utf8 key)

/-- What the loop over the pairs keeps: the digests of the keys, and which empty keys it met. -/
structure QMapSeen where
  digests : List Digest := []
  nullKey : Bool := false
  emptyKey : Bool := false

def QMapSeen.note (s : QMapSeen) (key : String) (wasNull : Bool) : QMapSeen :=
  if key.isEmpty then
    if wasNull then { s with nullKey := true } else { s with emptyKey := true }
  else s

def bothEmptyKeys : String :=
  "the map has both a null and an empty string as keys, and Rust's String cannot tell them apart"

/-- Why a key that was seen already is refused. -/
def QMapSeen.refusal (s : QMapSeen) : MapDecodeError :=
  if s.nullKey && s.emptyKey then .unrepresentable bothEmptyKeys else .duplicateKey

def qmapLoop (x : Externals) : Nat → QMapSeen → MapReader (List (String × String))
  | 0, _ => return []
  | n + 1, s => do
    let key ← qstring "map key"
    let value ← qstring "map value"
    Reader.ensure (digest x key.1 ∉ s.digests) (s.note key.1 key.2).refusal
    let rest ← qmapLoop x n { s.note key.1 key.2 with digests := digest x key.1 :: s.digests }
    return (key.1, value.1) :: rest

def qmapPairs (x : Externals) : MapReader (List (String × String)) := do
  let declared ← Reader.u32 (.truncated "pair count")
  -- every pair is two strings, each at least a length of four bytes
  Reader.room (declared.toNat * 8) (.impossibleCount declared)
  Reader.ensure (declared.toNat ≤ maxMapEntries) (.tooManyPairs declared.toNat maxMapEntries)
  qmapLoop x declared.toNat {}

/-- `decode_qmap`: the pairs, in wire order. -/
def decodeQmap (x : Externals) (bytes : Bytes) : Except MapDecodeError (List (String × String)) :=
  exactly (qmapPairs x) bytes

/-! ## The canonical JSON -/

def usizeMax : Nat := 2 ^ 64 - 1

def saturatingAdd (a b : Nat) : Nat := min (a + b) usizeMax

def decodedLen (pairs : List (String × String)) : Nat :=
  (pairs.map fun p => saturatingAdd (utf8 p.1).length (utf8 p.2).length).foldl saturatingAdd 0

/-- `serde_json::to_writer` on a map of texts: the bytes it writes for these members, which it is
given in iteration order. It writes to a buffer, which does not fail. -/
structure JsonWriter where
  object : List (String × String) → Bytes

/-- What is assumed of the writer. It writes the members in the order it is given them and escapes
their texts injectively, so that an object determines its members; escaping never shortens a text;
and an object is never written as nothing. -/
structure JsonWriter.Lawful (json : JsonWriter) : Prop where
  injective : Function.Injective json.object
  le_length : ∀ members : List (String × String),
    (members.map fun p => (utf8 p.1).length + (utf8 p.2).length).sum ≤ (json.object members).length
  filled : ∀ members, json.object members ≠ []

/-- The pairs as a `BTreeMap`, written as an object in key order. -/
def canonicalJson (json : JsonWriter) (pairs : List (String × String)) : Bytes :=
  json.object (Std.ExtTreeMap.ofList pairs).toList

/-- `qmap_to_canonical_json`: the decoded length is bounded before anything is written. -/
def qmapToCanonicalJson (json : JsonWriter) (pairs : List (String × String)) :
    Except MapDecodeError Bytes :=
  if maxItemSecret < decodedLen pairs then .error (.tooLarge (decodedLen pairs) maxItemSecret)
  else .ok (canonicalJson json pairs)

def readMapSecret (x : Externals) (json : JsonWriter) (bytes : Bytes) :
    Except MapDecodeError Bytes := do
  let pairs ← decodeQmap x bytes
  qmapToCanonicalJson json pairs

/-! ## The wire format -/

def codeUnits (s : String) : List UInt16 := Utf16.encode s.toList

/-- A `QString`, null or a text with a length that is not the null marker. -/
structure QString where
  value : Option String
  fits : ∀ s, value = some s → 2 * (codeUnits s).length < nullString.toNat

namespace QString

def encode (q : QString) : Bytes :=
  match q.value with
  | none => Wire.be32 nullString.toNat
  | some s => Wire.be32 (2 * (codeUnits s).length) ++ Utf16.toBytes (codeUnits s)

/-- The text, where null and empty are the same. -/
def text (q : QString) : String := q.value.getD ""

end QString

/-- A `QMap<QString, QString>` in wire order: at most as many pairs as are read, and no two keys
with one text. -/
structure QMap where
  pairs : List (QString × QString)
  few : pairs.length ≤ maxMapEntries
  distinct : (pairs.map fun p => p.1.text).Nodup

namespace QMap

/-- Big-endian, as a default `QDataStream` writes it. -/
def encode (m : QMap) : Bytes :=
  Wire.be32 m.pairs.length ++ m.pairs.flatMap fun p => p.1.encode ++ p.2.encode

/-- The pairs as texts, in wire order. -/
def decoded (m : QMap) : List (String × String) := m.pairs.map fun p => (p.1.text, p.2.text)

end QMap

end SecretManager.Import.KWallet
