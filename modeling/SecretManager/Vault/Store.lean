import SecretManager.Vault.Format
import SecretManager.Lib.Delta

/-!
# A collection on disk: load, unlock, edit, save atomically

`src/vault/store.rs`. A method taking `&mut self` becomes a function on a `World`, the vault with
the file at its path, and returns its result with the world it leaves. A mutation that the source
makes and then undoes is made and undone here too, so the rollback is in the definitions and not
assumed.

Randomness, the clock and the answers of the file system are arguments (`SaveEnv`, `PublishEnv`).
Left out: `saves`, which exists in test builds only; the log lines; and the sweep of temp files,
which touches no name modelled here.
-/

namespace SecretManager

/-- The path of a vault file: its directory and its file name. -/
structure VaultPath where
  parent : String
  name : String
  deriving DecidableEq, Repr

def VaultPath.display (p : VaultPath) : String := s!"{p.parent}/{p.name}"

/-- The temp name beside a path, `{name}.{16 hex}.tmp`. -/
def VaultPath.temp (p : VaultPath) (suffix : Vector UInt8 8) : VaultPath :=
  { p with name := s!"{p.name}.{String.ofList (suffix.toList.flatMap hexByte)}.tmp" }

/-! ## Errors -/

inductive VaultError where
  | locked
  | retired
  | wrongPassword
  | noSuchItem (id : String)
  | alreadyExists (path : VaultPath)
  | saltReused
  | labelTooLong (len limit : Nat)
  | itemTooLarge (what : String) (len limit : Nat)
  | importTooLarge (index : Nat) (label what : String) (len limit : Nat)
  | format (e : FormatError)
  | crypto (e : CryptoError)
  | io (path : String) (source : IoError)
  deriving DecidableEq, Repr

def VaultError.message : VaultError → String
  | .locked => "collection is locked"
  | .retired => "collection has been deleted"
  | .wrongPassword => "wrong password"
  | .noSuchItem id => s!"no such item: {id}"
  | .alreadyExists path => s!"vault already exists: {path.display}"
  | .saltReused => "the new salt must differ from the current one"
  | .labelTooLong len limit => s!"collection label is too long ({len} bytes; limit is {limit})"
  | .itemTooLarge what len limit => s!"item {what} is {len}, over the limit of {limit}"
  | .importTooLarge index label what len limit =>
    s!"import item {index} ({label}): {what} is {len}, over the limit of {limit}"
  | .format e => e.message
  | .crypto e => e.message
  | .io path source => s!"{path}: {source.message}"

def checkLabel (label : String) : Except VaultError Unit :=
  if label.utf8ByteSize > maxLabel then .error (.labelTooLong label.utf8ByteSize maxLabel)
  else .ok ()

/-! ## The vault -/

inductive State where
  | locked
  | unlocked (key : Key) (items : List Item)
  deriving DecidableEq

/-- What one item-list mutation did, so that `saveOrRestore` can undo it. -/
inductive ItemDelta where
  | pushed
  | replaced (index : Nat) (prior : Item)
  | removed (index : Nat) (prior : Item)
  /-- Each removed item with the index it held before the batch, ascending. -/
  | removedMany (removed : List (Nat × Item))

/-- One item to import, carrying its original timestamps. -/
structure ImportItem where
  label : String
  attributes : Attributes
  secret : Bytes
  contentType : String
  created : UInt64
  modified : UInt64

/-- A vault handle. `aad` and `ciphertext` are the file as this handle read or wrote it last. -/
structure Vault where
  path : VaultPath
  header : Header
  aad : Bytes
  ciphertext : Bytes
  state : State
  /-- Whether saves hash attributes into the header index. -/
  indexAttributes : Bool
  /-- Why the index on disk does not match `indexAttributes`, if it does not. -/
  indexWarning : Option String
  /-- Largest file this vault may write. -/
  sizeLimit : Nat
  /-- Set once this vault's file has been unlinked by a confirmed delete. -/
  retired : Bool
  /-- The idle-lock exemption. -/
  pinned : Bool
  deriving DecidableEq

/-- A vault handle and the file at its path, which others may change. -/
structure World where
  vault : Vault
  file : Option Bytes
  deriving DecidableEq

namespace Vault

def isLocked (v : Vault) : Bool :=
  match v.state with
  | .locked => true
  | .unlocked .. => false

def items (v : Vault) : Except VaultError (List Item) :=
  match v.state with
  | .unlocked _ items => .ok items
  | .locked => .error .locked

/-- Write the item list through `items_mut()`; a locked vault has none. -/
def setItems (v : Vault) (items : List Item) : Vault :=
  match v.state with
  | .unlocked key _ => { v with state := .unlocked key items }
  | .locked => v

/-- Replace the held key; a locked vault holds none. -/
def setKey (v : Vault) (key : Key) : Vault :=
  match v.state with
  | .unlocked _ items => { v with state := .unlocked key items }
  | .locked => v

def indexHasAttributes (v : Vault) : Bool := v.header.index.any fun e => !e.attrHashes.isEmpty

def itemIds (v : Vault) : List String := v.header.index.map (·.id)

def setIndexAttributes (v : Vault) (enabled : Bool) : Vault := { v with indexAttributes := enabled }

def retire (v : Vault) : Vault := { v with retired := true }

def unretire (v : Vault) : Vault := { v with retired := false }

/-- An explicit lock ends the login's exemption with it. -/
def lock (v : Vault) : Vault := { v with state := .locked, pinned := false }

/-- `verify_key`: check a derived key without changing lock state. -/
def verifyKey (x : Externals) (v : Vault) (key : Key) : Bool :=
  match v.state with
  | .unlocked current _ => decide (current = key)
  | .locked =>
    match Crypto.open x.toCiphers key v.header.nonce v.aad v.ciphertext with
    | .ok _ => true
    | .error _ => false

end Vault

/-! ## Publishing bytes -/

/-- What the random generator, the clock and the kernel answer during one save. -/
structure SaveEnv where
  nonce : Except CryptoError Nonce
  now : UInt64
  ensureDir : Except IoError Unit
  write : WriteEnv

variable (x : Externals) (env : SaveEnv)

/-- The step that publishes finished bytes at a path. -/
abbrev Publish := Bytes → Option Bytes → Except VaultError Unit × Option Bytes

/-- `store::write_atomic`: ensure the directory, then the shared atomic writer. -/
def Store.writeAtomic (path : VaultPath) : Publish := fun bytes file =>
  match env.ensureDir with
  | .error e => (.error (.io path.parent e), file)
  | .ok () =>
    match SecretManager.writeAtomic env.write bytes file with
    | (.error e, file') => (.error (.io path.display e), file')
    | (.ok (), file') => (.ok (), file')

/-- What the kernel answers to the calls of one `publish_new` where the state of the path does not
decide it. A `none` fault means the call does what the path allows. -/
structure PublishEnv where
  ensureDir : Except IoError Unit
  suffix : Except CryptoError (Vector UInt8 8)
  openTemp : Except IoError Unit
  writeAll : Except IoError Unit
  syncAll : Except IoError Unit
  rename : Option IoError
  removeEmpty : Option IoError
  renameAgain : Option IoError
  reserve : Option IoError
  removeReserved : Option IoError
  reserveAgain : Option IoError
  renameOver : Option IoError
  removeAfter : Option IoError

/-- `write_temp`: the finished bytes in a fresh temp file, or why not. -/
def writeTemp (env : PublishEnv) (path : VaultPath) : Except VaultError Unit :=
  match env.ensureDir with
  | .error e => .error (.io path.parent e)
  | .ok () =>
    match env.suffix with
    | .error e => .error (.crypto e)
    | .ok suffix =>
      match env.openTemp with
      | .error e => .error (.io (path.temp suffix).display e)
      | .ok () =>
        match env.writeAll with
        | .error e => .error (.io (path.temp suffix).display e)
        | .ok () =>
          match env.syncAll with
          | .error e => .error (.io (path.temp suffix).display e)
          | .ok () => .ok ()

/-- `rename_noreplace`: refuses an existing target. -/
def renameNoreplace (fault : Option IoError) (bytes : Bytes) (file : Option Bytes) :
    Except IoError Unit × Option Bytes :=
  match fault, file with
  | some e, _ => (.error e, file)
  | none, some _ => (.error .eexist, file)
  | none, none => (.ok (), some bytes)

/-- `OpenOptions::create_new`: an empty file, or `EEXIST`. -/
def createNew (fault : Option IoError) (file : Option Bytes) : Except IoError Unit × Option Bytes :=
  match fault, file with
  | some e, _ => (.error e, file)
  | none, some _ => (.error .eexist, file)
  | none, none => (.ok (), some [])

def removeFile (fault : Option IoError) (file : Option Bytes) :
    Except IoError Unit × Option Bytes :=
  match fault, file with
  | some e, _ => (.error e, file)
  | none, none => (.error .enoent, file)
  | none, some _ => (.ok (), none)

/-- `is_empty_file`: present and zero bytes long. -/
def isEmptyFile (file : Option Bytes) : Bool := decide (file = some [])

/-- The last step of `publish_new_via_reservation`: rename the finished temp file over the
reservation, and take the reservation away when that fails. -/
def renameOverReservation (env : PublishEnv) (path : VaultPath) : Publish := fun bytes file =>
  match env.renameOver with
  | none => (.ok (), some bytes)
  | some e => (.error (.io path.display e), (removeFile env.removeAfter file).2)

def publishNewViaReservation (env : PublishEnv) (path : VaultPath) : Publish := fun bytes file =>
  match createNew env.reserve file with
  | (.ok (), file₁) => renameOverReservation env path bytes file₁
  | (.error e, file₁) =>
    if e.kind = .alreadyExists then
      if isEmptyFile file₁ then
        match removeFile env.removeReserved file₁ with
        | (.error _, file₂) => (.error (.alreadyExists path), file₂)
        | (.ok (), file₂) =>
          match createNew env.reserveAgain file₂ with
          | (.error _, file₃) => (.error (.alreadyExists path), file₃)
          | (.ok (), file₃) => renameOverReservation env path bytes file₃
      else (.error (.alreadyExists path), file₁)
    else (.error (.io path.display e), file₁)

/-- `publish_new`: exactly one caller can win, and an existing collection is never renamed over. A
zero-length file left by an older build counts as absent. -/
def publishNew (env : PublishEnv) (path : VaultPath) : Publish := fun bytes file =>
  match writeTemp env path with
  | .error e => (.error e, file)
  | .ok () =>
    match renameNoreplace env.rename bytes file with
    | (.ok (), file₁) => (.ok (), file₁)
    | (.error e, file₁) =>
      if e.kind = .alreadyExists then
        if isEmptyFile file₁ then
          match removeFile env.removeEmpty file₁ with
          | (.error _, file₂) => (.error (.alreadyExists path), file₂)
          | (.ok (), file₂) =>
            match renameNoreplace env.renameAgain bytes file₂ with
            | (.ok (), file₃) => (.ok (), file₃)
            | (.error e', file₃) =>
              if e'.kind = .alreadyExists then (.error (.alreadyExists path), file₃)
              else (.error (.io path.display e'), file₃)
        else (.error (.alreadyExists path), file₁)
      else if e.rawOs.isSome then publishNewViaReservation env path bytes file₁
      else (.error (.io path.display e), file₁)

/-! ## Saving -/

namespace World

/-- `save_with`. The header is given its new nonce, time and index first; every refusal after that
puts the old header back. -/
def saveWith (publish : Publish) (w : World) : Except VaultError Unit × World :=
  let v := w.vault
  if v.retired then (.error .retired, w)
  else
    match v.state with
    | .locked => (.error .locked, w)
    | .unlocked key items =>
      match env.nonce with
      | .error e => (.error (.crypto e), w)
      | .ok nonce =>
        let savedHeader := v.header
        let v := { v with header := { v.header with
          modified := env.now
          nonce := nonce
          index := buildIndex x v.header.indexSalt items v.indexAttributes } }
        match VaultFile.headerBytes x v.header with
        | .error e => (.error (.format e), { w with vault := { v with header := savedHeader } })
        | .ok aad =>
          match encodeItems x items with
          | .error e => (.error (.format e), { w with vault := { v with header := savedHeader } })
          | .ok plain =>
            match Crypto.seal x.toCiphers key v.header.nonce aad plain with
            | .error e =>
              (.error (.crypto e), { w with vault := { v with header := savedHeader } })
            | .ok ciphertext =>
              let bytes := aad ++ ciphertext
              match checkVaultSizeAgainst bytes.length v.sizeLimit with
              | .error e =>
                (.error (.format e), { w with vault := { v with header := savedHeader } })
              | .ok () =>
                match publish bytes w.file with
                | (.error e, file) => (.error e, ⟨{ v with header := savedHeader }, file⟩)
                | (.ok (), file) => (.ok (), ⟨{ v with aad, ciphertext }, file⟩)

def save (w : World) : Except VaultError Unit × World :=
  w.saveWith x env (Store.writeAtomic env w.vault.path)

/-- `save_or_restore`: persist, and restore the vault if the write fails. -/
def saveOrRestore (restore : Vault → Vault) (w : World) : Except VaultError Unit × World :=
  match w.save x env with
  | (.ok (), w') => (.ok (), w')
  | (.error e, w') => (.error e, { w' with vault := restore w'.vault })

end World

/-- The item list with one mutation undone. -/
def ItemDelta.undo (items : List Item) : ItemDelta → List Item
  | .pushed => items.dropLast
  | .replaced index prior => items.set index prior
  | .removed index prior => if index ≤ items.length then items.insertIdx index prior else items
  | .removedMany out => Delta.putBack items out

/-- `restore_delta`: undo one item-list mutation; a locked vault has no list. -/
def Vault.restoreDelta (delta : ItemDelta) (v : Vault) : Vault :=
  match v.state with
  | .locked => v
  | .unlocked _ items => v.setItems (delta.undo items)

def Vault.truncateItems (len : Nat) (v : Vault) : Vault :=
  match v.state with
  | .locked => v
  | .unlocked _ items => v.setItems (items.take len)

/-! ## Opening, creating, unlocking -/

/-- What `fs::metadata` and `fs::read` give for a path. -/
def readFile (file : Option Bytes) : Except IoError Bytes :=
  match file with
  | none => .error .enoent
  | some bytes => .ok bytes

def Vault.open (path : VaultPath) (file : Option Bytes) : Except VaultError Vault :=
  match readFile file with
  | .error e => .error (.io path.display e)
  | .ok bytes =>
    match checkVaultSize bytes.length with
    | .error e => .error (.format e)
    | .ok () =>
      match VaultFile.decode x bytes with
      | .error e => .error (.format e)
      | .ok vf =>
        .ok { path, header := vf.header, aad := vf.aad, ciphertext := vf.ciphertext,
              state := .locked, indexAttributes := true, indexWarning := none,
              sizeLimit := maxVaultBytes, retired := false, pinned := false }

/-- What `Vault::build` draws: the two salts, and the time. -/
structure BuildEnv where
  salt : Except CryptoError Salt
  indexSalt : Except CryptoError Salt
  now : UInt64

/-- `Vault::build`: a new, unlocked, empty vault in memory. -/
def Vault.build (env : BuildEnv) (path : VaultPath) (label : String) (password : Bytes)
    (kdf : KdfParams) : Except VaultError Vault :=
  match checkLabel label with
  | .error e => .error e
  | .ok () =>
    match env.salt with
    | .error e => .error (.crypto e)
    | .ok salt =>
      match env.indexSalt with
      | .error e => .error (.crypto e)
      | .ok indexSalt =>
        match deriveKey x.toCiphers password salt kdf with
        | .error e => .error (.crypto e)
        | .ok key =>
          .ok { path
                header := { version := version, label, created := env.now, modified := env.now,
                            kdf, salt, indexSalt, nonce := Vector.replicate nonceLen 0,
                            index := [] }
                aad := [], ciphertext := [], state := .unlocked key [], indexAttributes := true,
                indexWarning := none, sizeLimit := maxVaultBytes, retired := false,
                pinned := false }

/-- What one `Vault::create` is answered. -/
structure CreateEnv where
  ensureDir : Except IoError Unit
  build : BuildEnv
  save : SaveEnv
  publish : PublishEnv

/-- `Vault::create`: build in memory, publish as a new file. Gives the vault on success, and the
file at the path either way. -/
def Vault.create (env : CreateEnv) (path : VaultPath) (label : String) (password : Bytes)
    (kdf : KdfParams) (file : Option Bytes) : Except VaultError Vault × Option Bytes :=
  match env.ensureDir with
  | .error e => (.error (.io path.parent e), file)
  | .ok () =>
    match Vault.build x env.build path label password kdf with
    | .error e => (.error e, file)
    | .ok v =>
      match World.saveWith x env.save (publishNew env.publish path) ⟨v, file⟩ with
      | (.error e, w) => (.error e, w.file)
      | (.ok (), w) => (.ok w.vault, w.file)

/-- Whether the current policy would put attribute hashes in the index of these items. -/
def Vault.wantsAttributes (v : Vault) : Bool :=
  v.indexAttributes &&
    match v.items with
    | .ok items => items.any fun i => !i.attributes.isEmpty
    | .error _ => false

namespace World

/-- `unlock_with_key`. A successful unlock brings the header index in line with the policy, by a
save whose failure is recorded and not returned. -/
def unlockWithKey (key : Key) (w : World) : Except VaultError Unit × World :=
  let v := w.vault
  if v.retired then (.error .retired, w)
  else if !v.isLocked then
    if v.verifyKey x key then (.ok (), w) else (.error .wrongPassword, w)
  else
    match Crypto.open x.toCiphers key v.header.nonce v.aad v.ciphertext with
    | .error _ => (.error .wrongPassword, w)
    | .ok plain =>
      match decodeItems x plain with
      | .error e => (.error (.format e), w)
      | .ok items =>
        let v := { v with state := .unlocked key items }
        if v.indexHasAttributes != v.wantsAttributes then
          match World.save x env ⟨v, w.file⟩ with
          | (.ok (), w') => (.ok (), { w' with vault := { w'.vault with indexWarning := none } })
          | (.error e, w') =>
            (.ok (), { w' with vault := { w'.vault with
              indexWarning := some s!"cannot rewrite the attribute index: {e.message}" } })
        else (.ok (), ⟨{ v with indexWarning := none }, w.file⟩)

/-! ## The mutators -/

/-- The item list after an insertion, what the call returns, and how to undo it. -/
structure Placed where
  result : String × Bool
  items : List Item
  delta : ItemDelta

/-- The mutation of `insert_item_unchecked`: overwrite the item with equal attributes, when asked to
and when there is one, or push a new item. -/
def placeItem (now : UInt64) (uuid label : String) (attributes : Attributes) (secret : Bytes)
    (contentType : String) (replace : Bool) (items : List Item) : Placed :=
  let pos := if replace then items.findIdx? (fun i => i.attributes = attributes) else none
  match pos.bind fun p => (items[p]?).map fun prior => (p, prior) with
  | some (p, prior) =>
    { result := (prior.id, true)
      items := items.set p { prior with label, secret, contentType, modified := now }
      delta := .replaced p prior }
  | none =>
    { result := (uuid, false)
      items := items ++ [{ id := uuid, label, attributes, secret, contentType,
                           created := now, modified := now }]
      delta := .pushed }

/-- `?; Ok(a)` after a call that returns nothing. -/
def thenReturn {α : Type} (a : α) (p : Except VaultError Unit × World) :
    Except VaultError α × World :=
  match p with
  | (.error e, w) => (.error e, w)
  | (.ok (), w) => (.ok a, w)

/-- `insert_item_unchecked`. `now` is the item's time stamp and `uuid` the fresh id a push gets. -/
def insertItemUnchecked (now : UInt64) (uuid : String) (label : String) (attributes : Attributes)
    (secret : Bytes) (contentType : String) (replace : Bool) (w : World) :
    Except VaultError (String × Bool) × World :=
  match w.vault.items with
  | .error e => (.error e, w)
  | .ok items =>
    let placed := placeItem now uuid label attributes secret contentType replace items
    thenReturn placed.result
      (World.saveOrRestore x env (Vault.restoreDelta placed.delta)
        { w with vault := w.vault.setItems placed.items })

/-- `insert_item`: a locked vault is refused before anything is checked. -/
def insertItem (now : UInt64) (uuid : String) (label : String) (attributes : Attributes)
    (secret : Bytes) (contentType : String) (replace : Bool) (w : World) :
    Except VaultError (String × Bool) × World :=
  match w.vault.items with
  | .error e => (.error e, w)
  | .ok _ =>
    match checkCaps label attributes secret.length contentType with
    | some c => (.error (.itemTooLarge c.cap.asStr c.actual c.limit), w)
    | none =>
      w.insertItemUnchecked x env now uuid label attributes secret contentType replace

/-- `update_item`: any edit of one item; the caps are checked on the edited item. -/
def updateItem (now : UInt64) (id : String) (f : Item → Item) (w : World) :
    Except VaultError Unit × World :=
  match w.vault.items with
  | .error e => (.error e, w)
  | .ok items =>
    match (items.findIdx? fun i => i.id = id).bind fun p => (items[p]?).map fun i => (p, i) with
    | none => (.error (.noSuchItem id), w)
    | some (index, prior) =>
      let item := { f prior with modified := now }
      let v := w.vault.setItems (items.set index item)
      match checkCaps item.label item.attributes item.secret.length item.contentType with
      | some c =>
        (.error (.itemTooLarge c.cap.asStr c.actual c.limit),
          { w with vault := v.setItems ((items.set index item).set index prior) })
      | none =>
        World.saveOrRestore x env (Vault.restoreDelta (.replaced index prior))
          { w with vault := v }

def deleteItem (id : String) (w : World) : Except VaultError Unit × World :=
  match w.vault.items with
  | .error e => (.error e, w)
  | .ok items =>
    match (items.findIdx? fun i => i.id = id).bind fun p => (items[p]?).map fun i => (p, i) with
    | none => (.error (.noSuchItem id), w)
    | some (index, prior) =>
      World.saveOrRestore x env (Vault.restoreDelta (.removed index prior))
        { w with vault := w.vault.setItems (items.eraseIdx index) }

/-- `delete_items`: every id is checked, in the order given, before anything is removed. -/
def deleteItems (ids : List String) (w : World) : Except VaultError Unit × World :=
  if ids.isEmpty then (.ok (), w)
  else
    match w.vault.items with
    | .error e => (.error e, w)
    | .ok items =>
      match ids.find? fun id => !(items.any fun i => i.id = id) with
      | some id => (.error (.noSuchItem id), w)
      | none =>
        let (kept, removed) := Delta.pullOut (fun i : Item => ids.contains i.id) 0 items
        World.saveOrRestore x env (Vault.restoreDelta (.removedMany removed))
          { w with vault := w.vault.setItems kept }

/-- The longest run of whole characters that fits in `n` bytes. -/
def takeBytes : Nat → List Char → List Char
  | _, [] => []
  | n, c :: cs => if c.utf8Size ≤ n then c :: takeBytes (n - c.utf8Size) cs else []

/-- `label_excerpt`: escaped first, then cut at a character boundary. -/
def labelExcerpt (label : String) : String :=
  let escaped := escapeControl label
  if escaped.utf8ByteSize ≤ 64 then escaped
  else String.ofList (takeBytes 64 escaped.toList) ++ "..."

def checkImportItem (index : Nat) (item : ImportItem) : Except VaultError Unit :=
  match checkCaps item.label item.attributes item.secret.length item.contentType with
  | none => .ok ()
  | some c =>
    .error (.importTooLarge index (labelExcerpt item.label) c.cap.asStr c.actual c.limit)

/-- The first refusal of a batch, if any. -/
def checkImportItems : Nat → List ImportItem → Except VaultError Unit
  | _, [] => .ok ()
  | i, item :: rest =>
    match checkImportItem i item with
    | .error e => .error e
    | .ok () => checkImportItems (i + 1) rest

/-- The item an import element becomes, under a fresh id. -/
def ofImport (uuid : String) (item : ImportItem) : Item :=
  { id := uuid, label := item.label, attributes := item.attributes, secret := item.secret,
    contentType := item.contentType, created := item.created, modified := item.modified }

/-- `import_items`: every element is checked before any is pushed. `uuid i` is the id drawn for the
element at `i`. -/
def importItems (uuid : Nat → String) (batch : List ImportItem) (w : World) :
    Except VaultError Unit × World :=
  if batch.isEmpty then (.ok (), w)
  else
    match w.vault.items with
    | .error e => (.error e, w)
    | .ok items =>
      let beforeLen := items.length
      match checkImportItems 0 batch with
      | .error e => (.error e, w)
      | .ok () =>
        World.saveOrRestore x env (Vault.truncateItems beforeLen)
          { w with vault :=
              w.vault.setItems (items ++ batch.mapIdx fun i item => ofImport (uuid i) item) }

def setLabel (label : String) (w : World) : Except VaultError Unit × World :=
  match checkLabel label with
  | .error e => (.error e, w)
  | .ok () =>
    match w.vault.items with
    | .error e => (.error e, w)
    | .ok _ =>
      let oldLabel := w.vault.header.label
      World.saveOrRestore x env
        (fun v => { v with header := { v.header with label := oldLabel } })
        { w with vault := { w.vault with header := { w.vault.header with label } } }

/-- The last part of `change_key`, on an unlocked vault: move to the new salt, parameters and key,
save, and put all four back when the save fails. -/
def rekey (oldKey : Key) (newSalt : Salt) (newKdf : KdfParams) (newKey : Key) (newIndexSalt : Salt)
    (w : World) : Except VaultError Unit × World :=
  let oldSalt := w.vault.header.salt
  let oldKdf := w.vault.header.kdf
  let oldIndexSalt := w.vault.header.indexSalt
  let v := { w.vault with header := { w.vault.header with
    salt := newSalt, kdf := newKdf, indexSalt := newIndexSalt } }
  match World.save x env { w with vault := v.setKey newKey } with
  | (.ok (), w') => (.ok (), w')
  | (.error e, w') =>
    let v' := { w'.vault with header := { w'.vault.header with
      salt := oldSalt, kdf := oldKdf, indexSalt := oldIndexSalt } }
    (.error e, { w' with vault := v'.setKey oldKey })

/-- `change_key`. `indexSalt` is the fresh index salt drawn before anything is changed, `unlockEnv`
what the save inside the unlock is answered, `env` what the rotation's own save is. -/
def changeKey (unlockEnv env : SaveEnv) (indexSalt : Except CryptoError Salt) (oldKey : Key)
    (newSalt : Salt) (newKdf : KdfParams) (newKey : Key) (w : World) :
    Except VaultError Unit × World :=
  match newKdf.validate with
  | .error e => (.error (.crypto e), w)
  | .ok () =>
    if newSalt = w.vault.header.salt then (.error .saltReused, w)
    else
      match indexSalt with
      | .error e => (.error (.crypto e), w)
      | .ok newIndexSalt =>
        if w.vault.isLocked then
          match w.unlockWithKey x unlockEnv oldKey with
          | (.error e, w') => (.error e, w')
          | (.ok (), w') =>
            match w'.rekey x env oldKey newSalt newKdf newKey newIndexSalt with
            | (r, w'') => (r, { w'' with vault := w''.vault.lock })
        else if w.vault.verifyKey x oldKey then
          w.rekey x env oldKey newSalt newKdf newKey newIndexSalt
        else (.error .wrongPassword, w)

end World

end SecretManager
