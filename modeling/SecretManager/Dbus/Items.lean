import SecretManager.Dbus.Paths
import SecretManager.Vault.Store

/-!
# Creating an item over the bus

`src/dbus/collection.rs` (`create_item` and the checks it shares with the item setters),
`src/dbus/mod.rs` (the property readers) and `src/session/mod.rs` (the transport cipher). Every
check stands where the source has it: the cheap ones before the decryption, the exact length of the
secret after it, and the store's own after that.

The lookups under the state lock (the collection id, the session's cipher, the vault) are arguments,
as is AES. The reply's object path and the signals are left out.
-/

namespace SecretManager

/-! ## The transport cipher -/

/-- AES-128 in CBC mode with PKCS#7 padding, from other crates: key, IV, ciphertext. -/
structure Aes where
  decryptPadded : Vector UInt8 16 → Bytes → Bytes → Option Bytes

/-- **Padding adds 1 to 16 bytes**: what decrypts is that much shorter than its ciphertext. -/
structure Aes.Padded (aes : Aes) : Prop where
  length : ∀ {key iv value plaintext}, aes.decryptPadded key iv value = some plaintext →
    plaintext.length + 1 ≤ value.length ∧ value.length ≤ plaintext.length + 16

inductive SessionError where
  | badIv (len : Nat)
  | decrypt
  deriving DecidableEq, Repr

def SessionError.message : SessionError → String
  | .badIv len => s!"bad IV length {len}, expected 16"
  | .decrypt => "secret decryption failed"

inductive SessionCipher where
  | plain
  | aes (key : Vector UInt8 16)
  deriving DecidableEq

/-- `SessionCipher::decrypt`: a plain session's value is the secret itself. -/
def SessionCipher.decrypt (aes : Aes) (parameters value : Bytes) : SessionCipher →
    Except SessionError Bytes
  | .plain => .ok value
  | .aes key =>
    if parameters.length ≠ 16 then .error (.badIv parameters.length)
    else
      match aes.decryptPadded key parameters value with
      | some plaintext => .ok plaintext
      | none => .error .decrypt

/-! ## The checks of this layer -/

def capMessage (v : CapViolation) : String :=
  match v.cap with
  | .secret => s!"secret is too large; at most {v.limit} bytes per item"
  | .label => s!"label is too large; at most {v.limit} bytes per item"
  | .contentType => s!"content type is too large; at most {v.limit} bytes per item"
  | .attributeCount => s!"too many attributes; at most {v.limit} per item"
  | .attributeKey => s!"attribute name is too large; at most {v.limit} bytes per attribute"
  | .attributeValue => s!"attribute value is too large; at most {v.limit} bytes per attribute"

/-- A cap's verdict as a bus reply: `InvalidArgs` with the cap's message. -/
def capReply : Option CapViolation → Except DbusError Unit
  | some v => .error (.invalidArgs (capMessage v))
  | none => .ok ()

def Collection.checkLabel (label : String) : Except DbusError Unit :=
  capReply (Cap.check .label label.utf8ByteSize)

def Collection.checkContentType (contentType : String) : Except DbusError Unit :=
  capReply (Cap.check .contentType contentType.utf8ByteSize)

/-- `check_attributes`: the count first, then the pairs as they come. -/
def Collection.checkAttributes (count : Nat) (pairs : List (String × String)) :
    Except DbusError Unit :=
  capReply ((Cap.check .attributeCount count) <|> (pairs.findSome? fun kv =>
    (Cap.check .attributeKey kv.1.utf8ByteSize) <|> (Cap.check .attributeValue kv.2.utf8ByteSize)))

def maxItemCiphertext : Nat := maxItemSecret + 16

/-! ## Properties -/

/-- A `HashMap<String, String>` as it arrives: its pairs in the order it iterates them. -/
structure AttributeDict where
  pairs : List (String × String)
  distinct : pairs.Pairwise fun a b => a.1 ≠ b.1

def AttributeDict.toMap (m : AttributeDict) : Attributes := Std.ExtTreeMap.ofList m.pairs

/-- A property value: a string, an `a{ss}`, or something else. -/
inductive PropValue where
  | string (s : String)
  | dict (m : AttributeDict)
  | other

/-- The two properties `CreateItem` reads. -/
structure ItemProperties where
  label : Option PropValue
  attributes : Option PropValue

def itemLabelKey : String := "org.freedesktop.Secret.Item.Label"
def itemAttributesKey : String := "org.freedesktop.Secret.Item.Attributes"

def propString (key : String) : Option PropValue → Except DbusError (Option String)
  | none => .ok none
  | some (.string s) => .ok (some s)
  | some _ => .error (.invalidArgs s!"{key} must be a string")

/-- `prop_attributes`: the caps are checked as the map is read. -/
def propAttributes (key : String) : Option PropValue → Except DbusError Attributes
  | none => .ok ∅
  | some (.dict m) =>
    match Collection.checkAttributes m.pairs.length m.pairs with
    | .error e => .error e
    | .ok () => .ok m.toMap
  | some _ => .error (.invalidArgs (key ++ " must be a\x7bss\x7d"))

/-! ## The call -/

/-- The `(oayays)` struct, without the session path the cipher was looked up by. -/
structure SecretStruct where
  parameters : Bytes
  value : Bytes
  contentType : String

/-- `From<VaultError>`: a vault's own error text stays inside the daemon. -/
def DbusError.ofVault : VaultError → DbusError
  | .locked => .isLocked
  | .retired => .noSuchObject
  | .noSuchItem _ => .noSuchObject
  | _ => .failed "cannot access the collection"

/-- The checks before any lock: the label and the attributes of the new item. -/
def Collection.itemArguments (properties : ItemProperties) (secret : SecretStruct) :
    Except DbusError (String × Attributes) :=
  match propString itemLabelKey properties.label with
  | .error e => .error e
  | .ok label =>
    match Collection.checkLabel (label.getD "") with
    | .error e => .error e
    | .ok () =>
      match Collection.checkContentType secret.contentType with
      | .error e => .error e
      | .ok () =>
        match propAttributes itemAttributesKey properties.attributes with
        | .error e => .error e
        | .ok attributes => .ok (label.getD "", attributes)

/-- What one call is answered by the lookups under the state lock. -/
structure ItemLookups where
  id : Except DbusError String
  cipher : Except DbusError SessionCipher
  /-- `none` for a broken collection. -/
  vault : Option World

/-- `create_item`, up to its reply: the item's id, and whether one was replaced. -/
def Collection.createItem (aes : Aes) (x : Externals) (env : SaveEnv) (now : UInt64) (uuid : String)
    (properties : ItemProperties) (secret : SecretStruct) (replace : Bool) (found : ItemLookups) :
    Except DbusError (String × Bool) × Option World :=
  match Collection.itemArguments properties secret with
  | .error e => (.error e, found.vault)
  | .ok (label, attributes) =>
    match found.id with
    | .error e => (.error e, found.vault)
    | .ok _ =>
      match found.cipher with
      | .error e => (.error e, found.vault)
      | .ok cipher =>
        if secret.value.length > maxItemCiphertext then
          (.error (.invalidArgs s!"secret is too large; at most {maxItemSecret} bytes per item"), found.vault)
        else
          match found.vault with
          | none => (.error .isLocked, none)
          | some w =>
            if w.vault.isLocked then (.error .isLocked, some w)
            else
              match cipher.decrypt aes secret.parameters secret.value with
              | .error e => (.error (.failed e.message), some w)
              | .ok plaintext =>
                match Cap.check .secret plaintext.length with
                | some violation => (.error (.invalidArgs (capMessage violation)), some w)
                | none =>
                  match w.insertItem x env now uuid label attributes plaintext secret.contentType
                      replace with
                  | (.error e, w') => (.error (.ofVault e), some w')
                  | (.ok r, w') => (.ok r, some w')

end SecretManager
