import SecretManager.Vault.Crypto
import SecretManager.Sanitize
import SecretManager.Lib.Wire

/-!
# On-disk vault layout

`src/vault/format.rs`: `magic(8) | header_len u32 LE | header (postcard) | ciphertext`. Everything
before the ciphertext is the associated data of the seal.

Postcard and SHA-256 come from other crates, so they are fields of `Externals`, beside the ciphers.
The per-item caps, the index builder and the header container are the source's own and are defined
here.
-/

namespace SecretManager

open Wire (le32 ofLe32)

/-- A `BTreeMap<String, String>` of item attributes. -/
abbrev Attributes := Std.ExtTreeMap String String

/-- The UTF-8 bytes of a string: `str::as_bytes`. -/
def utf8 (s : String) : Bytes := s.toUTF8.data.toList

/-- `String::from_utf8`. -/
def ofUtf8 (bytes : Bytes) : Option String := String.fromUTF8? ⟨bytes.toArray⟩

theorem ofUtf8_utf8 (s : String) : ofUtf8 (utf8 s) = some s := by
  have valid : s.toUTF8.IsValidUTF8 := s.isValidUTF8
  have same : (⟨s.toUTF8.data.toList.toArray⟩ : ByteArray) = s.toUTF8 := by
    rw [Array.toArray_toList]
  rw [ofUtf8, utf8, String.fromUTF8?, dif_pos valid]
  rfl

theorem utf8_inj {s t : String} (h : utf8 s = utf8 t) : s = t := by
  have read := ofUtf8_utf8 s
  rw [h, ofUtf8_utf8] at read
  exact (Option.some.inj read).symm

/-! ## Limits -/

/-- `MAGIC`: `SMVAULT` and a zero byte. -/
def magic : Bytes := utf8 "SMVAULT\x00"
def version : UInt16 := 3
def maxHeader : Nat := 16 * 2 ^ 20
def maxLabel : Nat := 4 * 2 ^ 10
/-- Magic plus the u32 header-length field. -/
def prefixLen : Nat := 12
def maxVaultBytes : Nat := 256 * 2 ^ 20

def maxItemSecret : Nat := 1024 * 1024
def maxItemLabel : Nat := 4 * 1024
def maxItemAttributes : Nat := 64
def maxAttributeKey : Nat := 256
def maxAttributeValue : Nat := 512
def maxItemContentType : Nat := 256

/-! ## Per-item caps -/

inductive Cap where
  | secret
  | label
  | attributeCount
  | attributeKey
  | attributeValue
  | contentType
  deriving DecidableEq, Repr

def Cap.limit : Cap → Nat
  | .secret => maxItemSecret
  | .label => maxItemLabel
  | .attributeCount => maxItemAttributes
  | .attributeKey => maxAttributeKey
  | .attributeValue => maxAttributeValue
  | .contentType => maxItemContentType

/-- The cap's name as an error message spells it. -/
def Cap.asStr : Cap → String
  | .secret => "secret"
  | .label => "label"
  | .attributeCount => "attribute count"
  | .attributeKey => "attribute name"
  | .attributeValue => "attribute value"
  | .contentType => "content type"

structure CapViolation where
  cap : Cap
  actual : Nat
  limit : Nat
  deriving DecidableEq, Repr

/-- Measure one value against a cap; a value of exactly the limit is accepted. -/
def Cap.check (cap : Cap) (actual : Nat) : Option CapViolation :=
  if actual > cap.limit then some { cap, actual, limit := cap.limit } else none

/-- `check_caps`: the first of the six caps an item violates. The order is the source's: secret,
label, content type, attribute count, then the pairs in map order, name before value. -/
def checkCaps (label : String) (attributes : Attributes) (secretLen : Nat) (contentType : String) :
    Option CapViolation :=
  (Cap.check .secret secretLen) <|> (Cap.check .label label.utf8ByteSize)
    <|> (Cap.check .contentType contentType.utf8ByteSize)
    <|> (Cap.check .attributeCount attributes.size)
    <|> (attributes.toList.findSome? fun kv =>
      (Cap.check .attributeKey kv.1.utf8ByteSize) <|> (Cap.check .attributeValue kv.2.utf8ByteSize))

/-! ## The data types -/

abbrev Digest := Vector UInt8 32

structure IndexEntry where
  id : String
  /-- Sorted `attributeHash` values, one for each attribute pair. -/
  attrHashes : List Digest
  deriving DecidableEq

structure Header where
  version : UInt16
  label : String
  created : UInt64
  modified : UInt64
  kdf : KdfParams
  salt : Salt
  indexSalt : Salt
  nonce : Nonce
  /-- One entry for each item. -/
  index : List IndexEntry
  deriving DecidableEq

structure Item where
  id : String
  label : String
  attributes : Attributes
  secret : Bytes
  contentType : String
  created : UInt64
  modified : UInt64
  deriving DecidableEq

/-! ## What other crates supply -/

/-- The two postcard entry points for one type: `to_allocvec`, and `take_from_bytes`, which decodes
the first message of a byte string and returns the unread remainder. -/
structure Postcard (α : Type) where
  toAllocvec : α → Except String Bytes
  takeFromBytes : Bytes → Except String (α × Bytes)

/-- `postcard::from_bytes`: the first message; the remainder is ignored. -/
def Postcard.fromBytes {α : Type} (p : Postcard α) (bytes : Bytes) : Except String α :=
  match p.takeFromBytes bytes with
  | .error e => .error e
  | .ok (a, _) => .ok a

/-- **Postcard round-trips**: an encoding, whatever follows it, decodes to its value and leaves what
follows. -/
structure Postcard.Lawful {α : Type} (p : Postcard α) : Prop where
  take_of_toAllocvec : ∀ {a b}, p.toAllocvec a = .ok b → ∀ rest,
    p.takeFromBytes (b ++ rest) = .ok (a, rest)

/-- Everything the vault and the daemon take from other crates. -/
structure Externals extends Ciphers where
  header : Postcard Header
  items : Postcard (List Item)
  sha256 : Bytes → Digest
  /-- `zvariant`: `ObjectPath::try_from` succeeds. -/
  objectPath : String → Bool

/-- What the vault relies on of the other crates to read back what it wrote. -/
structure Externals.Lawful (x : Externals) : Prop where
  ciphers : x.toCiphers.Lawful
  header : x.header.Lawful
  items : x.items.Lawful

/-! ## The index -/

variable (x : Externals)

/-- `attribute_hash`: `SHA-256(salt || len(key) LE u32 || key || value)`. -/
def attributeHash (salt : Salt) (key value : String) : Digest :=
  x.sha256 (salt.toList ++ le32 key.utf8ByteSize ++ utf8 key ++ utf8 value)

/-- `build_index`: one entry for each item, its hashes sorted; without attributes the entries carry
ids only. -/
def buildIndex (salt : Salt) (items : List Item) (withAttributes : Bool) : List IndexEntry :=
  items.map fun item =>
    let hashes :=
      if withAttributes then item.attributes.toList.map fun kv => attributeHash x salt kv.1 kv.2
      else []
    { id := item.id, attrHashes := hashes.insertionSort fun a b => a.toList ≤ b.toList }

/-! ## Errors -/

inductive FormatError where
  | badMagic
  | unsupportedVersion (v : UInt16)
  | truncated
  | encoding (reason : String)
  | unsafeKdf (reason : String)
  | headerTooLarge (len : Nat)
  | vaultTooLarge (len : Nat)
  | trailingHeaderBytes (n : Nat)
  deriving DecidableEq, Repr

def describeVersion (v : UInt16) : String :=
  if v < version then
    s!"vault predates version {version} (found {v}); recreate it with `sm init`"
  else
    s!"vault version {v} is newer than this build supports ({version})"

def FormatError.message : FormatError → String
  | .badMagic => "not a secret-manager vault (bad magic)"
  | .unsupportedVersion v => describeVersion v
  | .truncated => "truncated vault file"
  | .encoding e => s!"corrupt vault: {e}"
  | .unsafeKdf e => e
  | .headerTooLarge n =>
    s!"vault header is too large to write ({n} bytes; limit is {maxHeader})"
  | .vaultTooLarge n =>
    s!"vault file is too large to open ({n} bytes; limit is {maxVaultBytes})"
  | .trailingHeaderBytes n => s!"{n} unexpected bytes after the vault header"

def checkVaultSizeAgainst (len limit : Nat) : Except FormatError Unit :=
  if len > limit then .error (.vaultTooLarge len) else .ok ()

def checkVaultSize (len : Nat) : Except FormatError Unit := checkVaultSizeAgainst len maxVaultBytes

/-! ## The header container -/

/-- `header_prefix_len`: how many bytes the header occupies, magic and length field included, from
the first `prefixLen` bytes. A declared length over the limit is `truncated`, as the source argues:
it is the file's own claim about itself. -/
def headerPrefixLen (bytes : Bytes) : Except FormatError Nat :=
  if bytes.length < 8 then .error .truncated
  else if bytes.take 8 ≠ magic then .error .badMagic
  else
    match bytes.drop 8 with
    | a :: b :: c :: d :: _ =>
      let len := ofLe32 a b c d
      if len > maxHeader then .error .truncated else .ok (prefixLen + len)
    -- fewer than `prefixLen` bytes
    | _ => .error .truncated

/-- `check_header`: the version and the KDF bounds. -/
def checkHeader (header : Header) : Except FormatError Unit :=
  if header.version ≠ version then .error (.unsupportedVersion header.version)
  else
    match header.kdf.validate with
    | .error e => .error (.unsafeKdf e.message)
    | .ok () => .ok ()

/-- `decode_header_prefix`: the header and the length of the bytes it occupied. The declared region
must be consumed whole. -/
def decodeHeaderPrefix (bytes : Bytes) : Except FormatError (Header × Nat) :=
  match headerPrefixLen bytes with
  | .error e => .error e
  | .ok need =>
    if bytes.length < need then .error .truncated
    else
      match x.header.takeFromBytes ((bytes.take need).drop prefixLen) with
      | .error e => .error (.encoding e)
      | .ok (header, rest) =>
        if rest ≠ [] then .error (.trailingHeaderBytes rest.length)
        else
          match checkHeader header with
          | .error e => .error e
          | .ok () => .ok (header, need)

def decodeHeader (bytes : Bytes) : Except FormatError Header :=
  match decodeHeaderPrefix x bytes with
  | .error e => .error e
  | .ok (header, _) => .ok header

structure VaultFile where
  header : Header
  /-- Exact bytes preceding the ciphertext: magic, length, header. -/
  aad : Bytes
  ciphertext : Bytes
  deriving DecidableEq

namespace VaultFile

/-- `header_bytes`: magic, length and header body; the write side's `MAX_HEADER` check. -/
def headerBytes (header : Header) : Except FormatError Bytes :=
  match x.header.toAllocvec header with
  | .error e => .error (.encoding e)
  | .ok body =>
    if body.length > maxHeader then .error (.headerTooLarge body.length)
    else .ok (magic ++ le32 body.length ++ body)

def new (header : Header) (ciphertext : Bytes) : Except FormatError VaultFile :=
  match headerBytes x header with
  | .error e => .error e
  | .ok aad => .ok { header, aad, ciphertext }

def encode (vf : VaultFile) : Bytes := vf.aad ++ vf.ciphertext

def decode (bytes : Bytes) : Except FormatError VaultFile :=
  match decodeHeaderPrefix x bytes with
  | .error e => .error e
  | .ok (header, need) =>
    .ok { header, aad := bytes.take need, ciphertext := bytes.drop need }

end VaultFile

def encodeItems (items : List Item) : Except FormatError Bytes :=
  match x.items.toAllocvec items with
  | .error e => .error (.encoding e)
  | .ok b => .ok b

def decodeItems (bytes : Bytes) : Except FormatError (List Item) :=
  match x.items.fromBytes bytes with
  | .error e => .error (.encoding e)
  | .ok items => .ok items

end SecretManager
