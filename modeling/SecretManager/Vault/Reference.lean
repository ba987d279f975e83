import SecretManager.Vault.Session
import SecretManager.Dbus.Paths
import SecretManager.Lib.Codec

/-!
# A concrete instance of the other crates

The vault's results assume laws of the crates it calls (`Externals.Lawful`, `Ciphers.KeyBound`).
This instance satisfies them, so the assumptions are consistent, and it can be run. Postcard is
written out in full: varint scalars, length-prefixed text and sequences, bare arrays, a record as
its fields in order. The cipher and the key derivation are transparent stand-ins: the ciphertext is
the message followed by the key, the nonce and the associated data it was sealed with. The digest is
a constant, except in `hashing`, for the runs that hash an attribute.
-/

namespace SecretManager.Reference

/-! ## Postcard -/

def kdfParams : Codec KdfParams :=
  (Codec.uint32.pair (Codec.uint32.pair Codec.uint32)).via
    (fun p => (p.mCostKib, p.tCost, p.pCost)) (fun (m, t, p) => some ⟨m, t, p⟩) fun _ => rfl

def indexEntry : Codec IndexEntry :=
  (Codec.string.pair (Codec.byte.array 32).list).via (fun e => (e.id, e.attrHashes))
    (fun (id, attrHashes) => some ⟨id, attrHashes⟩) fun _ => rfl

def header : Codec Header :=
  (Codec.uint16.pair <| Codec.string.pair <| Codec.uint64.pair <| Codec.uint64.pair <|
    kdfParams.pair <| (Codec.byte.array saltLen).pair <| (Codec.byte.array saltLen).pair <|
    (Codec.byte.array nonceLen).pair indexEntry.list).via
    (fun h => (h.version, h.label, h.created, h.modified, h.kdf, h.salt, h.indexSalt, h.nonce, h.index))
    (fun (version, label, created, modified, kdf, salt, indexSalt, nonce, index) =>
      some ⟨version, label, created, modified, kdf, salt, indexSalt, nonce, index⟩)
    fun _ => rfl

def item : Codec Item :=
  (Codec.string.pair <| Codec.string.pair <| (Codec.map Codec.string).pair <|
    Codec.byte.list.pair <| Codec.string.pair <| Codec.uint64.pair Codec.uint64).via
    (fun i => (i.id, i.label, i.attributes, i.secret, i.contentType, i.created, i.modified))
    (fun (id, label, attributes, secret, contentType, created, modified) =>
      some ⟨id, label, attributes, secret, contentType, created, modified⟩)
    fun _ => rfl

/-- A codec as the two postcard entry points. -/
def postcard {α : Type} (c : Codec α) : Postcard α where
  toAllocvec a := .ok (c.encode a)
  takeFromBytes bytes :=
    match c.decode bytes with
    | some r => .ok r
    | none => .error "Hit the end of buffer, expected more data"

theorem postcard_lawful {α : Type} (c : Codec α) : (postcard c).Lawful where
  take_of_toAllocvec := by
    intro a b h rest
    cases h
    simp only [postcard, c.decode_encode]

/-! ## The cipher -/

def tag (key : Key) (nonce : Nonce) (aad : Bytes) : Bytes :=
  key.bytes.toList ++ (nonce.toList ++ aad)

def ciphers : Ciphers where
  argon2 _ password salt :=
    .ok ⟨Vector.ofFn fun i => password.reverse.getD i 0 + salt.toList.getD i 0⟩
  encrypt key nonce aad plaintext := some (plaintext ++ tag key nonce aad)
  decrypt key nonce aad ciphertext :=
    let n := ciphertext.length - (tag key nonce aad).length
    if ciphertext.drop n = tag key nonce aad then some (ciphertext.take n) else none

theorem tag_length (key : Key) (nonce : Nonce) (aad : Bytes) :
    (tag key nonce aad).length = keyLen + (nonceLen + aad.length) := by
  simp only [tag, List.length_append, Vector.length_toList]

theorem ciphers_lawful : ciphers.Lawful where
  decrypt_encrypt := by
    intro k n a p ct h
    cases h
    have hlen : (p ++ tag k n a).length - (tag k n a).length = p.length := by
      rw [List.length_append]
      omega
    simp only [ciphers, hlen, List.drop_left, if_true, List.take_left]

theorem ciphers_keyBound : ciphers.KeyBound where
  key_eq := by
    intro k k' n a p p' ct h h'
    cases h
    simp only [ciphers] at h'
    split at h'
    next htag =>
      -- both tags have the same length, so the one found is the one appended
      have hlen : (p ++ tag k n a).length - (tag k' n a).length = p.length := by
        rw [List.length_append, tag_length, tag_length]
        omega
      rw [hlen, List.drop_left] at htag
      have hkeys : k.bytes = k'.bytes := Vector.toList_inj.mp
        (List.append_inj_left htag (by rw [Vector.length_toList, Vector.length_toList]))
      cases k
      cases k'
      cases hkeys
      rfl
    · cases h'

/-! ## The instance, and an environment in which nothing fails -/

def externals : Externals :=
  { ciphers with
    header := postcard header
    items := postcard item.list
    sha256 := fun _ => Vector.replicate 32 0
    objectPath := Paths.isObjectPath }

theorem externals_lawful : externals.Lawful :=
  ⟨ciphers_lawful, postcard_lawful header, postcard_lawful item.list⟩

/-- The instance with a digest that keeps the last 32 bytes, for runs that hash attributes. -/
def hashing : Externals :=
  { externals with sha256 := fun bytes => Vector.ofFn fun i => bytes.reverse.getD i 0 }

theorem hashing_lawful : hashing.Lawful :=
  ⟨ciphers_lawful, postcard_lawful header, postcard_lawful item.list⟩

def writeEnv : WriteEnv where
  suffix := .ok (Vector.replicate 8 0)
  openTemp := .ok ()
  writeAll := .ok ()
  syncAll := .ok ()
  rename := .ok ()

def saveEnv : SaveEnv where
  nonce := .ok (Vector.replicate nonceLen 7)
  now := 1
  ensureDir := .ok ()
  write := writeEnv

def publishEnv : PublishEnv where
  ensureDir := .ok ()
  suffix := .ok (Vector.replicate 8 0)
  openTemp := .ok ()
  writeAll := .ok ()
  syncAll := .ok ()
  rename := none
  removeEmpty := none
  renameAgain := none
  reserve := none
  removeReserved := none
  reserveAgain := none
  renameOver := none
  removeAfter := none

def createEnv : CreateEnv where
  ensureDir := .ok ()
  build :=
    { salt := .ok (Vector.replicate saltLen 1), indexSalt := .ok (Vector.replicate saltLen 2)
      now := 1 }
  save := saveEnv
  publish := publishEnv

/-- The path of a vault file in the directory every example uses. -/
def path : VaultPath := { parent := "/vaults", name := "login.vault" }

/-- One creation in which nothing fails. -/
def created : Except VaultError Vault × Option Bytes :=
  Vault.create externals createEnv path "Login" [112, 119] .fastForTests none

/-- The key of the vault that such a creation makes. -/
def loginKey : Key :=
  match deriveKey ciphers [112, 119] (Vector.replicate saltLen 1) .fastForTests with
  | .ok key => key
  | .error _ => ⟨Vector.replicate keyLen 0⟩

def itemNamed (id : String) : Item :=
  { id, label := id, attributes := ∅, secret := [1], contentType := "text/plain", created := 1,
    modified := 1 }

def itemTagged (id key value : String) : Item :=
  { itemNamed id with attributes := (∅ : Attributes).insert key value }

/-- An unlocked vault with three items, beside no file. -/
def threeItems : World where
  vault :=
    { path
      header := { version := version, label := "Login", created := 1, modified := 1,
                  kdf := .fastForTests, salt := Vector.replicate saltLen 1,
                  indexSalt := Vector.replicate saltLen 2, nonce := Vector.replicate nonceLen 0,
                  index := [] }
      aad := [], ciphertext := []
      state := .unlocked ⟨Vector.replicate keyLen 3⟩ [itemNamed "a", itemNamed "b", itemNamed "c"]
      indexAttributes := true, indexWarning := none, sizeLimit := maxVaultBytes, retired := false,
      pinned := false }
  file := none

/-- Two items with an attribute and one without. -/
def tagged : List Item := [itemTagged "a" "app" "mail", itemTagged "b" "app" "chat", itemNamed "c"]

/-- The same vault with items of which two carry an attribute. -/
def taggedItems : World :=
  { threeItems with vault := { threeItems.vault with
      state := .unlocked ⟨Vector.replicate keyLen 3⟩ tagged } }

/-- A save whose last step, the rename, is refused. -/
def renameFails : SaveEnv :=
  { saveEnv with
    write := { writeEnv with rename := .error { kind := .other, message := "no space left" } } }

/-- A deletion of the first and the last of the three items that fails at the rename. -/
def deletion : Except VaultError Unit × World :=
  (VaultOp.deleteItems renameFails ["c", "a", "c"]).apply externals threeItems

end SecretManager.Reference
