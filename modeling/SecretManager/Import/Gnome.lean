import SecretManager.Import.Report
import SecretManager.Import.QMap
import SecretManager.Dbus.Items

/-!
# The gnome-keyring walk

`src/import/gnome.rs`, from a connection to the source daemon on: `extract` and what it calls. Every
collection that passes the filter is unlocked and listed; a first pass reads about each of its items
and refuses some, a second one fetches the secrets of the others, in one batch and one by one for
what the batch left out.

The provider is the tree of its replies: a collection stands where it is listed, with the replies to
the calls made for that listing, and so does an item. A path may therefore be listed twice and be
answered about differently. A wait that expires is a reply. Durations are whole seconds.

The walk keeps its state when it fails. The state also holds the secret requests that were sent.
-/

namespace SecretManager.Import.Gnome

/-! ## Item types -/

def typeGeneric : String := "org.freedesktop.Secret.Generic"
def typeNetworkPassword : String := "org.gnome.keyring.NetworkPassword"
def typeNote : String := "org.gnome.keyring.Note"
def typeChainedKeyring : String := "org.gnome.keyring.ChainedKeyring"
def typeEncryptionKey : String := "org.gnome.keyring.EncryptionKey"
def typePkStorage : String := "org.gnome.keyring.PkStorage"

def itemTypeChainedKeyringPassword : UInt32 := 3

/-- `item_type_code`: the number of a type in the file format. -/
def itemTypeCode (itemType : String) : Option UInt32 :=
  if itemType = typeGeneric then some 0
  else if itemType = typeNetworkPassword then some 1
  else if itemType = typeNote then some 2
  else if itemType = typeChainedKeyring then some itemTypeChainedKeyringPassword
  else if itemType = typeEncryptionKey then some 4
  else if itemType = typePkStorage then some 5
  else none

def isUnlockCredentialType (itemType : String) : Bool :=
  itemType = typeChainedKeyring || itemType = typeEncryptionKey

/-! ## Object paths -/

/-- `rsplit('/').next()`. -/
def lastSegment (path : String) : String := String.ofList ((path.toList.splitOn '/').getLastD [])

/-- The in-memory collection, by the last segment of its path. -/
def isSessionCollection (path : String) : Bool := lastSegment path = "session"

def parseU32 (s : String) : Option UInt32 :=
  let digits :=
    match s.toList with
    | '+' :: rest => rest
    | all => all
  if digits.isEmpty || !digits.all Char.isDigit then none
  else
    let n := digits.foldl (fun n c => 10 * n + (c.toNat - '0'.toNat)) 0
    if n < UInt32.size then some (.ofNat n) else none

def pathItemId (path : String) : UInt32 := (parseU32 (lastSegment path)).getD 0

/-! ## Limits and errors -/

def callTimeout : Nat := 20
def promptTimeout : Nat := 10
def secretsFallbackTimeout : Nat := 120
def maxCollections : Nat := 512
def maxItemsPerCollection : Nat := 100000

/-- The most bytes of secrets one walk holds. -/
def maxSecretBytes : Nat := 256 * 2 ^ 20

def errorTextLimit : Nat := 512

/-- `error_text`: escaped first, then cut at a character boundary. -/
def errorText (text : String) : String :=
  let escaped := escapeControl text
  if escaped.utf8ByteSize ≤ errorTextLimit then escaped
  else String.ofList (World.takeBytes errorTextLimit escaped.toList ++ ['…'])

/-- The errors of a walk. Those of starting the private bus are left out. -/
inductive GnomeError where
  | unanswerablePrompt (object : String) (waited : Nat)
  | promptDismissed (object : String)
  | unlockOfferedNothing (object : String)
  | promptUnlockedNothing (object : String)
  | tooMany (what : String) (count limit : Nat)
  | bus (call message : String)
  | callTimeout (call : String) (waited : Nat)
  | noSuchCollection (container available : String)
  | ambiguousCollection (container first second : String)
  | noSession (message : String)
  | decrypt (message : String)
  deriving DecidableEq, Repr

def GnomeError.display : GnomeError → String
  | .unanswerablePrompt object waited =>
    s!"the unlock prompt for {object} cannot be answered: no prompter is running on the private bus, and nothing completed it within {waited}s"
  | .promptDismissed object => s!"the unlock prompt for {object} was dismissed"
  | .unlockOfferedNothing object =>
    s!"gnome-keyring did not unlock {object} and offered no prompt to unlock it with, so nothing further can be tried"
  | .promptUnlockedNothing object => s!"the unlock prompt for {object} completed without unlocking it"
  | .tooMany what count limit =>
    s!"the source offered {count} {what}, over the {limit} this import accepts; refusing rather than reading part of it"
  | .bus call message => s!"{call} failed: {message}"
  | .callTimeout call waited => s!"{call} did not answer within {waited}s"
  | .noSuchCollection container available =>
    s!"this gnome-keyring holds no keyring named '{container}'; it holds {available}. Import names one keyring, so a name that matches none of them would import nothing and report success"
  | .ambiguousCollection container first second =>
    s!"more than one collection is named '{container}' ({first} and {second}); refusing to import their union into one destination"
  | .noSession message => s!"could not open a session with gnome-keyring: {message}"
  | .decrypt message => s!"could not decrypt a secret off the transport: {message}"

/-! ## Replies -/

/-- A `zbus` error: its text, and the error name when it is an error reply. -/
structure BusError where
  name : Option String
  message : String
  deriving DecidableEq, Repr

/-- What becomes of a call that is waited for. -/
inductive Reply (α : Type) where
  | answered (a : α)
  | failed (e : BusError)
  | elapsed

/-- What becomes of building a proxy: `none`, or the text of its error. -/
abbrev Built := Option String

def call {α : Type} (name : String) : Reply α → Except GnomeError α
  | .answered a => .ok a
  | .failed e => .error (.bus name e.message)
  | .elapsed => .error (.callTimeout name callTimeout)

def proxyAt (name : String) : Built → Except GnomeError Unit
  | none => .ok ()
  | some message => .error (.bus name message)

/-- The replies about one listing of an item. -/
structure ItemReplies where
  path : String
  proxy : Built
  label : Reply String
  attributes : Reply Attributes
  typeProxy : Built
  type : Reply String
  created : Reply UInt64
  modified : Reply UInt64
  secretProxy : Built
  getSecret : Reply SecretStruct
  /-- The deadline of all the individual fetches passes while this one is waited for. -/
  overdue : Bool

/-- The `Completed` signal of a prompt. -/
structure Completed where
  dismissed : Bool
  /-- The result, if it can be owned, and the object paths it is, if it is an array of them. -/
  result : Except String (Except String (List String))

/-- The replies to `Service.Unlock` and to what its prompt is asked. -/
structure UnlockReplies where
  unlock : Reply (List String × String)
  promptProxy : Built
  subscribe : Reply Unit
  prompt : Reply Unit
  /-- `none` when no signal comes in time. -/
  completed : Option (Except String Completed)

/-- The replies about one listing of a collection. -/
structure CollectionReplies where
  path : String
  proxy : Built
  label : Reply String
  locked : Reply Bool
  created : Reply UInt64
  modified : Reply UInt64
  unlock : UnlockReplies
  items : Reply (List ItemReplies)
  getSecrets : Reply (Std.ExtTreeMap String SecretStruct)

structure Provider where
  service : Built
  /-- The reply to a Diffie-Hellman `OpenSession`: the peer's public key, if the output is bytes. -/
  openDh : Reply (Except String Bytes)
  openPlain : Reply Unit
  collections : Reply (List CollectionReplies)

/-! ## The session -/

/-- The cryptography of a session: the agreement with this side's key pair, and AES-CBC with
PKCS#7. -/
structure Transport where
  deriveAesKey : Bytes → Except String Bytes
  decryptPadded : (key iv value : Bytes) → Option Bytes

inductive SessionCipher where
  | plain
  | aes (key : Bytes)
  deriving DecidableEq, Repr

variable (t : Transport) (cipher : SessionCipher) (options : ExtractOptions)

def SessionCipher.decrypt (parameters value : Bytes) : SessionCipher → Except String Bytes
  | .plain => .ok value
  | .aes key =>
    if parameters.length ≠ 16 then .error s!"bad IV length {parameters.length}, expected 16"
    else
      match t.decryptPadded key parameters value with
      | some plaintext => .ok plaintext
      | none => .error "secret decryption failed"

def cipherDecrypt (secret : SecretStruct) : Except GnomeError Bytes :=
  (cipher.decrypt t secret.parameters secret.value).mapError .decrypt

def algorithmDh : String := "dh-ietf1024-sha256-aes128-cbc-pkcs7"

/-- `open_session`: the cipher, and why it is plain when it is. -/
def openSession (provider : Provider) (preferDh : Bool) :
    Except GnomeError (SessionCipher × Option String) :=
  if preferDh then
    match provider.openDh with
    | .elapsed => .error (.callTimeout "Service.OpenSession(dh)" callTimeout)
    | .answered output =>
      match output with
      | .error e => .error (.noSession s!"bad DH reply: {e}")
      | .ok peer =>
        match t.deriveAesKey peer with
        | .error e => .error (.noSession e)
        | .ok key => .ok (.aes key, none)
    | .failed e => do
      call "Service.OpenSession(plain)" provider.openPlain
      return (.plain, some s!"the source refused {algorithmDh}: {errorText e.message}")
  else do
    call "Service.OpenSession(plain)" provider.openPlain
    return (.plain, some "the caller asked for plain")

/-! ## Unlocking -/

def noPrompt : String := "/"

structure ExtractOptions where
  promptTimeout : Nat := Gnome.promptTimeout
  preferDh : Bool := true
  /-- The one container to walk. -/
  onlyContainer : Option String := none

/-- `await_prompt`, with the objects that its result names. A result that is no array of object
paths is `unlock`'s error, under the same name. -/
def awaitPrompt (replies : UnlockReplies) (prompt : String) (timeout : Nat) :
    Except GnomeError (List String) := do
  proxyAt "Prompt" replies.promptProxy
  call "Prompt.Completed subscribe" replies.subscribe
  call "Prompt.Prompt" replies.prompt
  match replies.completed with
  | none => .error (.unanswerablePrompt prompt timeout)
  | some (.error message) => .error (.bus "Prompt.Completed" message)
  | some (.ok completed) =>
    if completed.dismissed then .error (.promptDismissed prompt)
    else
      match completed.result with
      | .error message | .ok (.error message) => .error (.bus "Prompt.Completed" message)
      | .ok (.ok unlocked) => .ok unlocked

def unlock (replies : UnlockReplies) (path : String) (timeout : Nat) : Except GnomeError Unit := do
  let (unlocked, prompt) ← call "Service.Unlock" replies.unlock
  if unlocked.contains path then .ok ()
  else if prompt = noPrompt then .error (.unlockOfferedNothing path)
  else do
    let unlocked ← awaitPrompt replies prompt timeout
    if unlocked.contains path then .ok () else .error (.promptUnlockedNothing path)

/-- The failures to unlock that the walk reports and survives. -/
def GnomeError.isUnanswerable : GnomeError → Bool
  | .unanswerablePrompt .. | .promptDismissed _ | .unlockOfferedNothing _ | .promptUnlockedNothing _ => true
  | _ => false

/-! ## What comes out -/

structure CollectionSummary where
  path : String
  label : String
  locked : Bool
  created : UInt64
  modified : UInt64
  /-- `none` when the walk never got to look. -/
  itemCount : Option Nat
  unanswerablePrompt : Bool
  deriving DecidableEq, Repr

structure ExtractedItem where
  item : SourceItem
  itemType : Option String
  deriving DecidableEq

/-- `ExtractedItem::report`: every item loses its access list, and a type that is not the generic
one. -/
def ExtractedItem.report (e : ExtractedItem) : ReportRow :=
  let report := { ReportRow.imported e.item with aclDowngrade := true }
  match e.itemType.filter (· != typeGeneric) with
  | none => report
  | some itemType =>
    match itemTypeCode itemType with
    | some code => { report with lostItemType := some code }
    | none => { report with unknownItemType := some (displayLabel itemType) }

/-- An item that could not be carried: what is shown of it. -/
structure SkippedEntry where
  label : String
  reason : String
  deriving DecidableEq, Repr

structure Extraction where
  items : List ExtractedItem := []
  refused : List ReportRow := []
  skipped : List SkippedEntry := []
  collections : List CollectionSummary := []
  plainFallbackReason : Option String := none
  itemTypeUnavailable : Bool := false
  deriving DecidableEq

structure WalkState where
  out : Extraction := {}
  sawType : Bool := false
  sawItem : Bool := false
  /-- The plaintext bytes that were decrypted so far. -/
  secretBytes : Nat := 0
  seenContainers : List String := []
  matchedPaths : List String := []
  /-- The secret requests that were sent, with the paths each names. -/
  requests : List (List String) := []
  deriving DecidableEq

/-- A part of the walk: it may fail, and its state stays. -/
abbrev Walk := ExceptT GnomeError (StateM WalkState)

namespace Walk

def refuse (row : ReportRow) : Walk Unit :=
  modify fun st => { st with out.refused := st.out.refused ++ [row] }

def skip (label : String) (e : GnomeError) : Walk Unit :=
  modify fun st => { st with out.skipped := st.out.skipped ++
    [⟨displayLabel label, errorText e.display⟩] }

def carry (item : ExtractedItem) : Walk Unit :=
  modify fun st => { st with out.items := st.out.items ++ [item] }

def summarise (summary : CollectionSummary) : Walk Unit :=
  modify fun st => { st with out.collections := st.out.collections ++ [summary] }

def request (paths : List String) : Walk Unit :=
  modify fun st => { st with requests := st.requests ++ [paths] }

/-- Some plaintext exists: its bytes are counted before anything is kept of it. -/
def count (bytes : Nat) : Walk Unit := do
  modify fun st => { st with secretBytes := KWallet.saturatingAdd st.secretBytes bytes }
  let st ← get
  if maxSecretBytes < st.secretBytes then
    throw (.tooMany "secret bytes in this import" st.secretBytes maxSecretBytes)

end Walk

/-! ## The first pass -/

/-- What one read of `Item.Type` established. -/
inductive ItemType where
  | known (type : String)
  | unsupported
  | unreadable
  deriving DecidableEq, Repr

namespace ItemType

/-- `known`. -/
def type? : ItemType → Option String
  | .known t => some t
  | _ => none

/-- The error names of a property that does not exist. -/
def isAbsence (name : String) : Bool :=
  ".UnknownProperty".toList.isSuffixOf name.toList || ".InvalidArgs".toList.isSuffixOf name.toList

def classify : Reply String → ItemType
  | .answered t => .known t
  | .failed e => if e.name.any isAbsence then .unsupported else .unreadable
  | .elapsed => .unreadable

end ItemType

structure ItemMetadata where
  label : String
  attributes : Attributes
  created : UInt64
  modified : UInt64
  itemType : ItemType
  provenance : Provenance

inductive Metadata where
  | read (md : ItemMetadata)
  | refused (row : ReportRow)

def unreadableItemLabel (path : String) : String := s!"item {pathItemId path}"

/-- The type is asked through a proxy of its own. -/
def readType (i : ItemReplies) : ItemType :=
  match proxyAt "Item.Type" i.typeProxy with
  | .ok () => .classify i.type
  | .error _ => .unreadable

def readMetadata (i : ItemReplies) (container : String) : Except GnomeError Metadata := do
  proxyAt "Item" i.proxy
  let provenance := Provenance.gnome container (pathItemId i.path)
  match call "Item.Label" i.label with
  | .error _ => return .refused (.refused provenance (unreadableItemLabel i.path) .unreadableAttributes)
  | .ok label =>
    let unreadable := Metadata.refused (.refused provenance label .unreadableAttributes)
    match call "Item.Attributes" i.attributes with
    | .error _ => return unreadable
    | .ok attributes =>
      let itemType := readType i
      match call "Item.Created" i.created with
      | .error _ => return unreadable
      | .ok created =>
        match call "Item.Modified" i.modified with
        | .error _ => return unreadable
        | .ok modified => return .read { label, attributes, created, modified, itemType, provenance }

/-- An item whose secret is to be fetched. -/
structure Candidate where
  item : ItemReplies
  md : ItemMetadata

def consider (container : String) (candidates : List Candidate) (i : ItemReplies) :
    Walk (List Candidate) := do
  match ← readMetadata i container with
  | .refused row =>
    Walk.refuse row
    return candidates
  | .read md =>
    modify fun st => { st with sawItem := true }
    match md.itemType with
    | .known t =>
      modify fun st => { st with sawType := true }
      if isUnlockCredentialType t then
        Walk.refuse (.refused md.provenance md.label
          (.chainedKeyringItem ((itemTypeCode t).getD itemTypeChainedKeyringPassword)))
        return candidates
      else return candidates ++ [⟨i, md⟩]
    | .unsupported => return candidates ++ [⟨i, md⟩]
    | .unreadable =>
      Walk.refuse (.refused md.provenance md.label .unreadableItemType)
      return candidates

/-! ## The second pass -/

structure Drain where
  batch : Std.ExtTreeMap String SecretStruct
  /-- Items carried or refused. -/
  carried : Nat := 0
  firstFailure : Option GnomeError := none

/-- `batch.remove`. -/
def Drain.remove (d : Drain) (path : String) : Drain := { d with batch := d.batch.erase path }

/-- An item that failed is skipped, and the first failure is kept. -/
def Drain.skip (d : Drain) (label : String) (e : GnomeError) : Walk Drain := do
  Walk.skip label e
  return { d with firstFailure := d.firstFailure.orElse fun _ => some e }

/-- `fetch_secrets`, when the deadline of the individual fetches passes. -/
def overdueError : Option String → GnomeError
  | some cause =>
    .callTimeout s!"Item.GetSecret for the whole batch (after {cause})" secretsFallbackTimeout
  | none => .callTimeout "Item.GetSecret for the items the batch left out" secretsFallbackTimeout

/-- The cause of a failed batch goes with the failure of an item. -/
def blame (batchFailure : Option String) (e : GnomeError) : GnomeError :=
  match batchFailure with
  | some cause => .bus "Item.GetSecret" s!"{e.display} (the batch had already failed: {cause})"
  | none => e

/-- The secret of an item that the batch left out. -/
def getSecret (batchFailure : Option String) (i : ItemReplies) :
    Walk (Except GnomeError SecretStruct) :=
  match proxyAt "Item" i.secretProxy with
  | .error e => return .error e
  | .ok () => do
    Walk.request [i.path]
    if i.overdue then throw (overdueError batchFailure)
    else return (call "Item.GetSecret" i.getSecret).mapError (blame batchFailure)

/-- The item that is made of a candidate. -/
def Candidate.source (c : Candidate) (secret : SecretStruct) (plaintext : Bytes) : SourceItem :=
  { label := c.md.label, attributes := c.md.attributes, secret := plaintext
    contentType := secret.contentType, created := c.md.created, modified := c.md.modified
    provenance := c.md.provenance, insertedKeys := [] }

/-- A secret that was fetched: decrypted, counted and checked against the caps. -/
def keep (d : Drain) (c : Candidate) (secret : SecretStruct) : Walk Drain :=
  match cipherDecrypt t cipher secret with
  | .error e => d.skip c.md.label e
  | .ok plaintext => do
    Walk.count plaintext.length
    match (c.source secret plaintext).capViolation with
    | some violation =>
      Walk.refuse (.refused c.md.provenance c.md.label violation)
      return { d with carried := d.carried + 1 }
    | none =>
      Walk.carry ⟨c.source secret plaintext, c.md.itemType.type?⟩
      return { d with carried := d.carried + 1 }

/-- The secret of a candidate: what the batch holds for its path, or fetched by itself. -/
def fetchOne (batchFailure : Option String) (d : Drain) (c : Candidate) :
    Walk (Except GnomeError SecretStruct) :=
  match d.batch[c.item.path]? with
  | some secret => return .ok secret
  | none => getSecret batchFailure c.item

def drainOne (batchFailure : Option String) (d : Drain) (c : Candidate) : Walk Drain := do
  match ← fetchOne batchFailure d c with
  | .error e => (d.remove c.item.path).skip c.md.label e
  | .ok secret => keep t cipher (d.remove c.item.path) c secret

/-- `drain_batch`: that nothing was accounted for is the failure of the transport. -/
def drainBatch (candidates : List Candidate) (batch : Std.ExtTreeMap String SecretStruct)
    (batchFailure : Option String) : Walk Unit := do
  let d ← candidates.foldlM (drainOne t cipher batchFailure) { batch }
  match d.firstFailure with
  | some e => if d.carried = 0 then throw e else return
  | none => return

def batchReply : Reply (Std.ExtTreeMap String SecretStruct) →
    Std.ExtTreeMap String SecretStruct × Option String
  | .answered batch => (batch, none)
  | .failed e => (∅, some s!"Service.GetSecrets failed: {errorText e.message}")
  | .elapsed => (∅, some s!"Service.GetSecrets did not answer within {callTimeout}s")

def fetchSecrets (c : CollectionReplies) (candidates : List Candidate) : Walk Unit :=
  if candidates.isEmpty then return
  else do
    Walk.request (candidates.map fun c => c.item.path)
    drainBatch t cipher candidates (batchReply c.getSecrets).1 (batchReply c.getSecrets).2

/-! ## The walk -/

def containerOf (path label : String) : String := if label.isEmpty then lastSegment path else label

/-- The two passes over the items of a collection. -/
def twoPasses (c : CollectionReplies) (container : String) (items : List ItemReplies) :
    Walk Unit := do
  let candidates ← items.foldlM (consider container) []
  fetchSecrets t cipher c candidates

/-- The items of an unlocked collection: listed, read about, and fetched. -/
def walkItems (c : CollectionReplies) (container : String) (summary : CollectionSummary) :
    Walk Unit := do
  let items ← call "Collection.Items" c.items
  if maxItemsPerCollection < items.length then
    throw (.tooMany "items in one collection" items.length maxItemsPerCollection)
  else do
    Walk.summarise { summary with itemCount := some items.length }
    twoPasses t cipher c container items

/-- A collection that passed the filter: unlocked if it is locked. -/
def walkMatched (c : CollectionReplies) (label container : String) : Walk Unit := do
  let locked ← call "Collection.Locked" c.locked
  let created ← call "Collection.Created" c.created
  let modified ← call "Collection.Modified" c.modified
  let summary : CollectionSummary :=
    { path := c.path, label, locked, created, modified, itemCount := none, unanswerablePrompt := false }
  if locked then
    match unlock c.unlock c.path options.promptTimeout with
    | .ok () => walkItems t cipher c container { summary with locked := false }
    | .error e =>
      if e.isUnanswerable then Walk.summarise { summary with unanswerablePrompt := true }
      else throw e
  else walkItems t cipher c container summary

/-- A second match of the one name that is asked for is refused. -/
def pinMatched (path container : String) : Walk Unit :=
  if options.onlyContainer.isSome then do
    match (← get).matchedPaths.head? with
    | some first =>
      throw (.ambiguousCollection (displayLabel container) (errorText first) (errorText path))
    | none => modify fun st => { st with matchedPaths := st.matchedPaths ++ [path] }
  else return

def walkCollection (c : CollectionReplies) : Walk Unit :=
  if isSessionCollection c.path then return
  else do
    proxyAt "Collection" c.proxy
    let label ← call "Collection.Label" c.label
    let container := containerOf c.path label
    modify fun st => { st with seenContainers := st.seenContainers ++ [container] }
    if options.onlyContainer.any (· != container) then return
    else do
      pinMatched options c.path container
      walkMatched t cipher options c label container

/-- The names that were seen, for the error about a name that was not. -/
def available (seen : List String) : String :=
  if seen.isEmpty then "none" else ", ".intercalate (seen.map fun c => s!"'{displayLabel c}'")

/-- The end of the walk: the one name that was asked for has been seen. -/
def finish : Walk Extraction := do
  let st ← get
  match options.onlyContainer with
  | some only =>
    if st.seenContainers.contains only then
      return { st.out with itemTypeUnavailable := st.sawItem && !st.sawType }
    else throw (.noSuchCollection (displayLabel only) (available st.seenContainers))
  | none => return { st.out with itemTypeUnavailable := st.sawItem && !st.sawType }

/-- The walk over all the collections. -/
def walk (provider : Provider) : Walk Extraction := do
  let collections ← call "Service.Collections" provider.collections
  if maxCollections < collections.length then
    throw (.tooMany "collections" collections.length maxCollections)
  else do
    collections.forM (walkCollection t cipher options)
    finish options

/-- `extract`. Closing the session does not change its result. -/
def extract (provider : Provider) (options : ExtractOptions) : Walk Extraction := do
  proxyAt "Service" provider.service
  let (cipher, plainFallbackReason) ← openSession t provider options.preferDh
  modify fun st => { st with out.plainFallbackReason := plainFallbackReason }
  walk t cipher options provider

/-- What a call of `extract` comes to, with the state it leaves. -/
def extraction (provider : Provider) (options : ExtractOptions) :
    Except GnomeError Extraction × WalkState :=
  (extract t provider options).run.run {}

end SecretManager.Import.Gnome
