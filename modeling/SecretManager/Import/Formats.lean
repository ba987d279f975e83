import SecretManager.Import.Pipeline
import SecretManager.Lib.Reader

/-!
# The cleartext headers of both sources

`src/import/formats.rs`: the parsers of a gnome-keyring `.keyring` and of a KWallet `.kwl` up to the
ciphertext, and the layouts they are written to. A parser is a `Reader`: its `Cursor` carries the
bytes that are left, so that the position never passes the end.

The second half is the documented layout of each file as a type of its own, with its encoding. Such
a file also holds what the parser reads past: the ids of the algorithms, the reserved words and the
hashed attribute values. A value of these types can be encoded, because each count and each length
carries the bound that its field has.
-/

namespace SecretManager.Import

/-! ## The errors -/

inductive HeaderError where
  | badMagic (source : Source)
  | unsupportedVersion (format : Source) (major minor expectedMajor expectedMinor : UInt8)
  | truncated (field : String)
  /-- A length or count field that claims more than the file holds. -/
  | impossibleLength (field : String) (declared : Nat)
  | nonUtf8 (field : String)
  | nullName (field : String)
  | unknownAttributeType (itemId attributeType : UInt32)
  deriving DecidableEq, Repr

/-! ## The cursor -/

namespace Formats

abbrev Parser := Reader HeaderError

def take (n : Nat) (field : String) : Parser Bytes := Reader.take n (.truncated field)

def u8 (field : String) : Parser UInt8 := Reader.u8 (.truncated field)

def u32 (field : String) : Parser UInt32 := Reader.u32 (.truncated field)

def u64 (field : String) : Parser UInt64 := Reader.u64 (.truncated field)

/-- `copy_from_slice` into an array of zeros. -/
def fill (n : Nat) (bytes : Bytes) : Vector UInt8 n := Vector.ofFn fun i => bytes.getD i 0

def array16 (field : String) : Parser Md5Hash := do
  let bytes ← take 16 field
  return fill 16 bytes

/-- A declared count, refused unless the file could hold that many elements of `minEach` bytes. -/
def count (declared : UInt32) (minEach : Nat) (field : String) : Parser Nat := do
  Reader.room (declared.toNat * minEach) fun _ => .impossibleLength field declared.toNat
  return declared.toNat

/-- `u32::MAX`, which stands for the NULL string. -/
def nullMarker : UInt32 := 0xffffffff

def optLen (field : String) : Parser (Option Nat) := do
  let len ← u32 field
  if len = nullMarker then return none
  else
    let n ← count len 1 field
    return some n

def optString (field : String) : Parser (Option String) := do
  match ← optLen field with
  | none => return none
  | some len =>
    let bytes ← take len field
    let s ← Reader.ofExcept ((ofUtf8 bytes).elim (.error (.nonUtf8 field)) .ok)
    return some s

end Formats

def AttributeKeys.fromNames (names : List String) : AttributeKeys :=
    (Std.ExtTreeSet.ofList names).toList

open Formats

/-! ## gnome-keyring -/

/-- `GnomeKeyring\n\r\0\n`. -/
def keyringMagic : Bytes := utf8 "GnomeKeyring\n\r\x00\n"

def keyringMajor : UInt8 := 0
def keyringMinor : UInt8 := 0

/-- Smallest encoding of an item: id, type and an attribute count. -/
def minItemBytes : Nat := 12

/-- Smallest encoding of an attribute: a name length, a type and a value that is at least a
`u32`. -/
def minAttributeBytes : Nat := 12

def attrTypeString : UInt32 := 0
def attrTypeUint32 : UInt32 := 1

/-- The fields of a `.keyring` header, in front of its ciphertext. -/
structure KeyringFields extends KeyringInventory where
  created : UInt64
  modified : UInt64
  flags : UInt32
  lockTimeout : UInt32
  hashIterations : UInt32
  salt : Vector UInt8 8
  ciphertextLen : Nat
  deriving DecidableEq

/-- What `parse_keyring_header` returns: an import reads only the inventory of it. -/
structure KeyringHeader extends KeyringFields where
  /-- Where the encrypted half begins. -/
  ciphertextOffset : Nat
  deriving DecidableEq

/-- The hashed value of an attribute, skipped and not kept. -/
def skipValue (itemId : UInt32) : Parser Unit := do
  let attributeType ← u32 "attribute type"
  if attributeType = attrTypeString then
    match ← optLen "attribute value" with
    | none => return ()
    | some len =>
      let _ ← take len "attribute value"
      return ()
  else if attributeType = attrTypeUint32 then
    let _ ← u32 "attribute value"
    return ()
  else Reader.ofExcept (.error (.unknownAttributeType itemId attributeType))

def parseAttribute (itemId : UInt32) : Parser String := do
  let name ← optString "attribute name"
  let name ← Reader.ofExcept (name.elim (.error (.nullName "attribute name")) .ok)
  skipValue itemId
  return name

def parseKeyringItem : Parser KeyringItemIndex := do
  let id ← u32 "item id"
  let itemType ← u32 "item type"
  let declared ← u32 "attribute count"
  let n ← count declared minAttributeBytes "attribute count"
  let names ← Reader.times (parseAttribute id) n
  return { id, itemType, attributeKeys := .fromNames names }

/-- The magic and the version; the ids of the algorithms are read past. -/
def keyringVersion : Parser Unit := do
  let magic ← take keyringMagic.length "magic"
  Reader.ensure (magic = keyringMagic) (.badMagic .gnomeKeyring)
  let major ← u8 "version"
  let minor ← u8 "version"
  let _ ← u8 "version"
  let _ ← u8 "version"
  Reader.ensure ((major, minor) = (keyringMajor, keyringMinor))
    (.unsupportedVersion .gnomeKeyring major minor keyringMajor keyringMinor)

/-- Everything up to the ciphertext's length. -/
def keyringFields : Parser KeyringFields := do
  keyringVersion
  let displayName ← optString "keyring name"
  let created ← u64 "created time"
  let modified ← u64 "modified time"
  let flags ← u32 "flags"
  let lockTimeout ← u32 "lock timeout"
  let hashIterations ← u32 "hash iterations"
  let salt ← take 8 "salt"
  let _ ← Reader.times (u32 "reserved words") 4
  let declared ← u32 "item count"
  let numItems ← count declared minItemBytes "item count"
  let items ← Reader.times parseKeyringItem numItems
  let declaredLen ← u32 "ciphertext length"
  return { displayName := displayName.getD "", created, modified, flags, lockTimeout, hashIterations
           salt := fill 8 salt, items, ciphertextLen := declaredLen.toNat }

/-- `parse_keyring_header`. The ciphertext's length is a plain count, and its bytes are not read. -/
def parseKeyringHeader (bytes : Bytes) : Except HeaderError KeyringHeader := do
  let (h, c) ← keyringFields (.new bytes)
  let (_, c) ← Reader.room h.ciphertextLen (fun _ =>
      .impossibleLength "ciphertext length" h.ciphertextLen) c
  return { toKeyringFields := h, ciphertextOffset := c.pos }

/-! ## KWallet -/

/-- `KWALLET\n\r\0\r\n`. -/
def kwalletMagic : Bytes := utf8 "KWALLET\n\r\x00\r\n"

def kwalletMajor : UInt8 := 0
def kwalletMinor : UInt8 := 1

/-- Smallest encoding of a folder: its name hash and an entry count. -/
def minFolderBytes : Nat := 20

/-- The fields of a `.kwl` header, in front of its ciphertext. -/
structure WalletFields extends WalletInventory where
  cipher : UInt8
  hash : UInt8
  deriving DecidableEq

/-- What `parse_wallet_header` returns: the verification reads only the inventory of it. -/
structure WalletHeader extends WalletFields where
  /-- Where the encrypted half begins. -/
  ciphertextOffset : Nat
  deriving DecidableEq

def parseFolder : Parser WalletFolderIndex := do
  let folderHash ← array16 "folder name hash"
  let declared ← u32 "entry count"
  let n ← count declared 16 "entry count"
  let entryHashes ← Reader.times (array16 "entry name hash") n
  return { folderHash, entryHashes }

def walletFields : Parser WalletFields := do
  let magic ← take kwalletMagic.length "magic"
  Reader.ensure (magic = kwalletMagic) (.badMagic .kwallet)
  let major ← u8 "version"
  let minor ← u8 "version"
  let cipher ← u8 "version"
  let hash ← u8 "version"
  Reader.ensure ((major, minor) = (kwalletMajor, kwalletMinor))
    (.unsupportedVersion .kwallet major minor kwalletMajor kwalletMinor)
  let declared ← u32 "folder count"
  let n ← count declared minFolderBytes "folder count"
  let folders ← Reader.times parseFolder n
  return { cipher, hash, folders }

def parseWalletHeader (bytes : Bytes) : Except HeaderError WalletHeader := do
  let (h, c) ← walletFields (.new bytes)
  return { toWalletFields := h, ciphertextOffset := c.pos }

/-! ## The documented layouts -/

/-- Bytes behind a length that is not the NULL marker. -/
structure Sized where
  bytes : Bytes
  fits : bytes.length < nullMarker.toNat

/-- A length-prefixed byte string or NULL. -/
def encodeOpt : Option Sized → Bytes
  | none => Wire.be32 nullMarker.toNat
  | some s => Wire.be32 s.bytes.length ++ s.bytes

/-- Text behind a length that is not the NULL marker. -/
structure Text where
  text : String
  fits : (utf8 text).length < nullMarker.toNat

def Text.sized (t : Text) : Sized := ⟨utf8 t.text, t.fits⟩

/-- The hashed value of an attribute, of one of the two defined types. -/
inductive AttributeValue where
  | string (hash : Option Sized)
  | uint32 (hash : UInt32)

def AttributeValue.encode : AttributeValue → Bytes
  | .string hash => Wire.be32 attrTypeString.toNat ++ encodeOpt hash
  | .uint32 hash => Wire.be32 attrTypeUint32.toNat ++ Wire.be32 hash.toNat

structure KeyringAttribute where
  name : Text
  value : AttributeValue

def KeyringAttribute.encode (a : KeyringAttribute) : Bytes := encodeOpt (some a.name.sized) ++
    a.value.encode

structure KeyringItem where
  id : UInt32
  itemType : UInt32
  attributes : List KeyringAttribute
  fits : attributes.length < 2 ^ 32

namespace KeyringItem

def encode (i : KeyringItem) : Bytes :=
  Wire.be32 i.id.toNat ++ Wire.be32 i.itemType.toNat ++ Wire.be32 i.attributes.length ++
    i.attributes.flatMap KeyringAttribute.encode

def index (i : KeyringItem) : KeyringItemIndex :=
  { id := i.id, itemType := i.itemType
    attributeKeys := .fromNames (i.attributes.map (·.name.text)) }

end KeyringItem

/-- A `.keyring` up to its ciphertext. -/
structure KeyringFile where
  crypto : UInt8
  hash : UInt8
  name : Option Text
  created : UInt64
  modified : UInt64
  flags : UInt32
  lockTimeout : UInt32
  hashIterations : UInt32
  salt : Vector UInt8 8
  reserved : Vector UInt32 4
  items : List KeyringItem
  ciphertextLen : UInt32
  fits : items.length < 2 ^ 32

namespace KeyringFile

def encode (f : KeyringFile) : Bytes :=
  keyringMagic ++ [keyringMajor, keyringMinor, f.crypto, f.hash] ++
    encodeOpt (f.name.map Text.sized) ++
    Wire.be64 f.created.toNat ++ Wire.be64 f.modified.toNat ++ Wire.be32 f.flags.toNat ++
    Wire.be32 f.lockTimeout.toNat ++ Wire.be32 f.hashIterations.toNat ++ f.salt.toList ++
    f.reserved.toList.flatMap (fun w => Wire.be32 w.toNat) ++ Wire.be32 f.items.length ++
    f.items.flatMap KeyringItem.encode ++ Wire.be32 f.ciphertextLen.toNat

/-- The fields the parser is to return. -/
def fields (f : KeyringFile) : KeyringFields :=
  { displayName := (f.name.map Text.text).getD "", items := f.items.map KeyringItem.index
    created := f.created, modified := f.modified, flags := f.flags, lockTimeout := f.lockTimeout
    hashIterations := f.hashIterations, salt := f.salt, ciphertextLen := f.ciphertextLen.toNat }

def header (f : KeyringFile) : KeyringHeader :=
  { toKeyringFields := f.fields, ciphertextOffset := f.encode.length }

end KeyringFile

/-- A folder of a `.kwl` index, with a number of entries that its count can hold. -/
structure WalletFolder extends WalletFolderIndex where
  fits : entryHashes.length < 2 ^ 32

def WalletFolder.encode (f : WalletFolder) : Bytes :=
  f.folderHash.toList ++ Wire.be32 f.entryHashes.length ++ f.entryHashes.flatMap Vector.toList

structure WalletFile where
  cipher : UInt8
  hash : UInt8
  folders : List WalletFolder
  fits : folders.length < 2 ^ 32

namespace WalletFile

def encode (f : WalletFile) : Bytes :=
  kwalletMagic ++ [kwalletMajor, kwalletMinor, f.cipher, f.hash] ++ Wire.be32 f.folders.length ++
    f.folders.flatMap WalletFolder.encode

/-- The fields the parser is to return. -/
def fields (f : WalletFile) : WalletFields :=
  { cipher := f.cipher, hash := f.hash, folders := f.folders.map WalletFolder.toWalletFolderIndex }

def header (f : WalletFile) : WalletHeader :=
  { toWalletFields := f.fields
    ciphertextOffset := 20 + 20 * f.folders.length + 16 * (f.folders.map (·.entryHashes.length)).sum }

end WalletFile

end SecretManager.Import
