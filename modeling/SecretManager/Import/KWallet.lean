import SecretManager.Import.QMap

/-!
# The KWallet walk

`src/import/kwallet.rs`: what is read of an open wallet and made of it. The first pass lists every
folder and counts how many pairs compose each key of the sidecar; the second reads every entry that
was listed and puts it among the items, the refused or the skipped ones.

The provider is a `WalletReader`: its replies, one for each call. A folder may be listed more than
once and answered differently each time, so a listing is also told by its number. Each pair is read
once.

A `BTreeSet` that is only asked for its members is a `Finset`. The sidecar is the parsed file.
-/

namespace SecretManager.Import.KWallet

/-! ## Entry types -/

/-- KWallet's entry type, as `entryType` returns it. -/
inductive EntryType where
  | unknown
  | password
  | stream
  | map
  | other (code : Int32)
  deriving DecidableEq, Repr

namespace EntryType

def fromCode (code : Int32) : EntryType :=
  if code = 0 then .unknown
  else if code = 1 then .password
  else if code = 2 then .stream
  else if code = 3 then .map
  else .other code

/-- The value of the `kwallet:type` attribute. -/
def attributeValue : EntryType → String
  | .unknown => "unknown"
  | .password => "password"
  | .stream => "stream"
  | .map => "map"
  | .other n => toString n

def defaultContentType : EntryType → String
  | .password => "text/plain"
  | .map => "application/json"
  | .stream | .unknown | .other _ => "application/octet-stream"

end EntryType

/-! ## The sidecar -/

/-- One row of `<wallet>_attributes.json`. -/
structure SidecarEntry where
  created : Option UInt64 := none
  modified : Option UInt64 := none
  contentType : Option String := none
  attributes : Attributes := ∅
  /-- Fields the row declared that could not be used. -/
  malformedFields : Nat := 0
  deriving DecidableEq

/-- A parsed `<wallet>_attributes.json`. -/
structure Sidecar where
  entries : Std.ExtTreeMap String SidecarEntry := ∅
  skippedRows : Nat := 0
  duplicateKeys : List String := []

def Sidecar.get (s : Sidecar) (key : String) : Option SidecarEntry := s.entries[key]?

/-- `sidecar_key`: composed, never parsed back. -/
def sidecarKey (folder entry : String) : String := folder ++ "/" ++ entry

/-! ## What comes out -/

inductive ReadError where
  | failed (e : String)
  | timedOut (call : String)
  deriving DecidableEq, Repr

def ReadError.display : ReadError → String
  | .failed e => e
  | .timedOut call => s!"{call} did not answer within 60s"

inductive KWalletError where
  | callTimedOut (call : String)
  | dbus (e : String)
  | tooManyEntries (limit : Nat)
  | tooManySecretBytes (limit : Nat)
  deriving DecidableEq, Repr

inductive SkipReason where
  | mapUndecodable (e : MapDecodeError)
  | unreadable (why : String)
  | passwordUndecodable (e : MapDecodeError)
  | emptyRead (call : String)
  | typeUnavailable (why : String)
  deriving DecidableEq, Repr

/-- An entry the walk saw but did not turn into an item. -/
structure SkippedEntry where
  provenance : Provenance
  label : String
  reason : SkipReason
  deriving DecidableEq

/-- An item the walk produced but will not write. -/
structure RefusedEntry where
  provenance : Provenance
  label : String
  refusal : Refusal
  deriving DecidableEq

/-- Everything one wallet's walk produced. -/
structure Extraction where
  items : List SourceItem := []
  refused : List RefusedEntry := []
  skipped : List SkippedEntry := []
  emptyFolders : Nat := 0
  entriesWithoutSidecar : Nat := 0
  unresolvedSidecarRows : List String := []
  ambiguousSidecarKeys : List String := []
  skippedSidecarRows : Nat := 0
  duplicateSidecarKeys : List String := []
  malformedSidecarFields : Nat := 0
  passwordReadFallbacks : Nat := 0
  mapReadFallbacks : Nat := 0
  attributeConflicts : Nat := 0
  unreadableFolders : List String := []
  duplicateFolders : Nat := 0
  duplicateEntries : Nat := 0
  notes : List String := []
  deriving DecidableEq

/-- What the wallet daemon answers to each call; a listing may answer otherwise each time. -/
structure WalletReader where
  folderList : Except ReadError (List String)
  /-- The reply to the `n`th listing, of this folder. -/
  entryList : Nat → String → Except ReadError (List String)
  entryType : String → String → Except ReadError Int32
  readPassword : String → String → Except ReadError String
  readMap : String → String → Except ReadError Bytes
  readEntry : String → String → Except ReadError Bytes

/-! ## One entry -/

/-- The names the importer adds, each where it is free; which it added, and whether one was
taken. -/
def addNames (attributes : Attributes) : List (String × String) → Attributes × List String × Bool
  | [] => (attributes, [], false)
  | (name, value) :: rest =>
    if attributes.contains name then
      let (attributes, inserted, _) := addNames attributes rest
      (attributes, inserted, true)
    else
      let (attributes, inserted, collided) := addNames (attributes.insert name value) rest
      (attributes, name :: inserted, collided)

/-- `map_entry`: the item, and whether a `kwallet:` name was the sidecar's already. -/
def mapEntry (wallet folder entry : String) (entryType : EntryType) (secret : Bytes)
    (row : Option SidecarEntry) : SourceItem × Bool :=
  let attributes := (row.map SidecarEntry.attributes).getD ∅
  let (attributes, insertedKeys, collided) :=
    if attributes.contains xdgSchema then (attributes, [], false)
    else addNames attributes
      [("kwallet:folder", folder), ("kwallet:key", entry), ("kwallet:type", entryType.attributeValue)]
  let contentType :=
    match entryType with
    | .map => "application/json"
    | _ => (row.bind SidecarEntry.contentType).getD entryType.defaultContentType
  ({ label := entry, attributes, secret, contentType
     created := (row.bind SidecarEntry.created).getD 0
     modified := (row.bind SidecarEntry.modified).getD 0
     provenance := .kwallet wallet folder entry, insertedKeys }, collided)

variable (x : Externals) (json : JsonWriter) (reader : WalletReader)

/-- The bytes of a `Password` that `readPassword` did not give: what `readEntry` holds is the
serialised text. -/
def passwordFallback (folder entry : String) (out : Extraction) (first : String) :
    Except SkipReason Bytes × Extraction :=
  match reader.readEntry folder entry with
  | .error second =>
    (.error (.unreadable s!"readPassword failed ({first}) and readEntry failed ({second.display})"), out)
  | .ok raw =>
    if raw.isEmpty then (.error (.emptyRead "readEntry"), out)
    else
      match decodeQstringPassword raw with
      | .error e => (.error (.passwordUndecodable e), out)
      | .ok recovered => (.ok recovered, { out with passwordReadFallbacks := out.passwordReadFallbacks + 1 })

/-- `read_secret` for a `Password`: a failed or empty `readPassword` falls back to `readEntry`. -/
def readPasswordSecret (folder entry : String) (out : Extraction) :
    Except SkipReason Bytes × Extraction :=
  match reader.readPassword folder entry with
  | .ok s =>
    if s.isEmpty then passwordFallback reader folder entry out "readPassword answered with an empty string"
    else (.ok (utf8 s), out)
  | .error e => passwordFallback reader folder entry out e.display

/-- The bytes of a `Map` that `readMap` did not give. -/
def mapFallback (folder entry : String) (out : Extraction) (first : String) :
    Except SkipReason Bytes × Extraction :=
  match reader.readEntry folder entry with
  | .error second =>
    (.error (.unreadable s!"readMap failed ({first}) and readEntry failed ({second.display})"), out)
  | .ok recovered =>
    if recovered.isEmpty then (.error (.emptyRead "readEntry"), out)
    else (.ok recovered, { out with mapReadFallbacks := out.mapReadFallbacks + 1 })

/-- The bytes of a `Map`: a failed or empty `readMap` falls back to `readEntry`. -/
def readMapBytes (folder entry : String) (out : Extraction) :
    Except SkipReason Bytes × Extraction :=
  match reader.readMap folder entry with
  | .ok v => if v.isEmpty then mapFallback reader folder entry out "readMap answered with no bytes" else (.ok v, out)
  | .error e => mapFallback reader folder entry out e.display

/-- `read_secret`: the bytes of an entry, by its declared type. -/
def readSecret (folder entry : String) (entryType : EntryType) (out : Extraction) :
    Except SkipReason Bytes × Extraction :=
  match entryType with
  | .password => readPasswordSecret reader folder entry out
  | .map =>
    match readMapBytes reader folder entry out with
    | (.error reason, out) => (.error reason, out)
    | (.ok raw, out) => ((readMapSecret x json raw).mapError .mapUndecodable, out)
  | .stream | .unknown | .other _ =>
    match reader.readEntry folder entry with
    | .error e => (.error (.unreadable e.display), out)
    | .ok raw => if raw.isEmpty then (.error (.emptyRead "readEntry"), out) else (.ok raw, out)

/-! ## The first pass -/

/-- The most entries one walk produces. -/
def maxEntries : Nat := 200000

/-- The most bytes of secrets one walk holds. -/
def maxSecretBytes : Nat := 256 * 2 ^ 20

/-- One folder and its entries, as the listing pass found them. -/
structure Listing where
  folder : String
  entries : List String
  deriving DecidableEq

def Listing.pairs (l : Listing) : List (String × String) := l.entries.map fun e => (l.folder, e)

/-- How many pairs compose each sidecar key. -/
abbrev Claims := Std.ExtTreeMap String Nat

def Claims.claim (claims : Claims) (folder : String) (entry : String) : Claims :=
  claims.insert (sidecarKey folder entry) (claims.getD (sidecarKey folder entry) 0 + 1)

structure ListState where
  out : Extraction
  listings : List Listing := []
  claims : Claims := ∅
  listed : Nat := 0
  seenFolders : Finset String := ∅
  /-- Where the listing of a folder is. -/
  listingIndex : Std.ExtTreeMap String Nat := ∅
  /-- The folders with at least one listing that succeeded. -/
  liveFolders : Finset String := ∅
  countedEmpty : Finset String := ∅

namespace ListState

def meet (st : ListState) (folder : String) : ListState :=
  if folder ∈ st.seenFolders then { st with out.duplicateFolders := st.out.duplicateFolders + 1 }
  else { st with seenFolders := insert folder st.seenFolders }

def failed (st : ListState) (folder : String) (e : ReadError) : ListState :=
  if folder ∈ st.liveFolders then
    { st with out.notes := st.out.notes ++
        [s!"a repeat listing of the folder '{folder}' could not be read ({e.display}), so any entries only that listing held were not imported"] }
  else if folder ∈ st.out.unreadableFolders then st
  else
    { st with
      out.unreadableFolders := st.out.unreadableFolders ++ [folder]
      out.notes := st.out.notes ++ [s!"the folder '{folder}' could not be listed: {e.display}"] }

/-- A listing that succeeded: the folder is not unreadable any more. -/
def redeem (st : ListState) (folder : String) : ListState :=
  { st with
    liveFolders := insert folder st.liveFolders
    out.unreadableFolders := st.out.unreadableFolders.erase folder }

/-- One entry of a repeat listing: added unless an earlier listing of the folder held it. -/
def unite (folder : String) (idx : Nat) (st : ListState) (entry : String) :
    Except KWalletError ListState :=
  if st.listings[idx]?.any fun l => l.entries.contains entry then .ok st
  else if maxEntries < saturatingAdd st.listed 1 then .error (.tooManyEntries maxEntries)
  else
    .ok { st with
      listed := saturatingAdd st.listed 1
      claims := st.claims.claim folder entry
      listings := st.listings.modify idx fun l => { l with entries := l.entries ++ [entry] } }

def noteEmpty (st : ListState) (folder : String) : ListState :=
  if folder ∈ st.countedEmpty then st
  else
    { st with
      countedEmpty := insert folder st.countedEmpty, out.emptyFolders := st.out.emptyFolders + 1 }

/-- The first listing of a folder that has entries. An earlier empty one is not counted any more. -/
def begin (st : ListState) (folder : String) (entries : List String) :
    Except KWalletError ListState :=
  let st :=
    if folder ∈ st.countedEmpty then
      { st with countedEmpty := st.countedEmpty.erase folder, out.emptyFolders := st.out.emptyFolders - 1 }
    else st
  if maxEntries < saturatingAdd st.listed entries.length then .error (.tooManyEntries maxEntries)
  else
    .ok { st with
      listed := saturatingAdd st.listed entries.length
      claims := entries.foldl (fun claims entry => claims.claim folder entry) st.claims
      listingIndex := st.listingIndex.insert folder st.listings.length
      listings := st.listings ++ [⟨folder, entries⟩] }

/-- The entries of one listing, each name once. -/
def add (st : ListState) (folder : String) (entries : List String) :
    Except KWalletError ListState :=
  match st.listingIndex[folder]? with
  | some idx => entries.foldlM (unite folder idx) st
  | none => if entries.isEmpty then .ok (st.noteEmpty folder) else st.begin folder entries

/-- One turn of the first pass: a folder and the reply to its listing. -/
def list (st : ListState) (folder : String) (reply : Except ReadError (List String)) :
    Except KWalletError ListState :=
  match reply with
  | .error e => .ok ((st.meet folder).failed folder e)
  | .ok entries =>
    let st := (st.meet folder).redeem folder
    -- the filter keeps the first of each name
    let distinct := entries.eraseDups
    let st := { st with out.duplicateEntries := st.out.duplicateEntries + (entries.length - distinct.length) }
    st.add folder distinct

end ListState

/-- The folders in the order they are listed, each with the reply to that listing. -/
def WalletReader.listingReplies (folders : List String) :
    List (String × Except ReadError (List String)) :=
  folders.zipIdx.map fun (folder, n) => (folder, reader.entryList n folder)

/-! ## The second pass -/

structure ReadState where
  out : Extraction
  /-- The sidecar keys that were applied. -/
  resolved : Finset String := ∅
  secretBytes : Nat := 0

/-- The row of an entry: a key that more than one pair composes belongs to none of them. -/
def rowOf (claims : Claims) (sidecar : Sidecar) (folder entry : String) : Option SidecarEntry :=
  if claims.getD (sidecarKey folder entry) 0 =
    1 then sidecar.get (sidecarKey folder entry) else none

namespace ReadState

def skip (st : ReadState) (wallet folder entry : String) (reason : SkipReason) : ReadState :=
  { st with out.skipped := st.out.skipped ++ [⟨.kwallet wallet folder entry, entry, reason⟩] }

def refuse (st : ReadState) (provenance : Provenance) (label : String) (refusal : Refusal) :
    ReadState :=
  { st with out.refused := st.out.refused ++ [⟨provenance, label, refusal⟩] }

/-- The row is applied, or the entry has none. -/
def resolve (st : ReadState) (key : String) (row : Option SidecarEntry) : ReadState :=
  if row.isSome then { st with resolved := insert key st.resolved }
  else { st with out.entriesWithoutSidecar := st.out.entriesWithoutSidecar + 1 }

/-- A secret that was read: counted, mapped and checked against the caps. -/
def keep (st : ReadState) (wallet folder entry : String) (entryType : EntryType) (secret : Bytes)
    (row : Option SidecarEntry) : Except KWalletError ReadState :=
  if maxSecretBytes < saturatingAdd st.secretBytes secret.length then
    .error (.tooManySecretBytes maxSecretBytes)
  else
    let (item, collided) := mapEntry wallet folder entry entryType secret row
    let st :=
      { st with
        secretBytes := saturatingAdd st.secretBytes secret.length
        out.malformedSidecarFields := st.out.malformedSidecarFields + row.elim 0 SidecarEntry.malformedFields
        out.attributeConflicts := st.out.attributeConflicts + if collided then 1 else 0 }
    match item.capViolation with
    | some refusal => .ok (st.refuse item.provenance item.label refusal)
    | none => .ok { st with out.items := st.out.items ++ [item] }

/-- An entry whose type is known. An over-cap map is refused, not skipped. -/
def readTyped (st : ReadState) (wallet folder entry : String) (entryType : EntryType)
    (row : Option SidecarEntry) : Except KWalletError ReadState :=
  let (read, out) := readSecret x json reader folder entry entryType st.out
  let st := { st with out }
  match read with
  | .ok secret => st.keep wallet folder entry entryType secret row
  | .error (.mapUndecodable (.tooLarge len limit)) =>
    .ok (st.refuse (.kwallet wallet folder entry) entry (.capViolation .secret len limit))
  | .error reason => .ok (st.skip wallet folder entry reason)

/-- One turn of the second pass. A type that is not known, or reported as `0`, is not guessed at. -/
def read (wallet : String) (sidecar : Sidecar) (claims : Claims) (st : ReadState)
    (pair : String × String) : Except KWalletError ReadState :=
  let (folder, entry) := pair
  let row := rowOf claims sidecar folder entry
  let st := st.resolve (sidecarKey folder entry) row
  match reader.entryType folder entry with
  | .error e => .ok (st.skip wallet folder entry (.typeUnavailable e.display))
  | .ok code =>
    if EntryType.fromCode code = .unknown then
      .ok (st.skip wallet folder entry
        (.typeUnavailable "entryType reported 0 (Unknown), which no KWallet writer stores"))
    else st.readTyped x json reader wallet folder entry (.fromCode code) row

end ReadState

/-! ## The walk -/

def ReadError.folderList : ReadError → KWalletError
  | .timedOut call => .callTimedOut call
  | .failed e => .dbus e

def listPass (sidecar : Sidecar) (replies : List (String × Except ReadError (List String))) :
    Except KWalletError ListState :=
  replies.foldlM (fun st (folder, reply) => st.list folder reply)
    { out := { skippedSidecarRows := sidecar.skippedRows, duplicateSidecarKeys := sidecar.duplicateKeys } }

/-- The keys of the sidecar that more than one pair composes. -/
def ambiguousKeys (sidecar : Sidecar) (claims : Claims) : List String :=
  (claims.toList.filter fun (key, n) => 1 < n && (sidecar.get key).isSome).map (·.1)

/-- The second pass over the entries that were listed. -/
def readPass (wallet : String) (sidecar : Sidecar) (listed : ListState) :
    Except KWalletError ReadState :=
  (listed.listings.flatMap Listing.pairs).foldlM
    (ReadState.read x json reader wallet sidecar listed.claims)
    { out := { listed.out with ambiguousSidecarKeys := ambiguousKeys sidecar listed.claims } }

/-- `walk`, with the wallet already open. -/
def walk (wallet : String) (sidecar : Sidecar) : Except KWalletError Extraction := do
  let folders ← reader.folderList.mapError ReadError.folderList
  let listed ← listPass sidecar (reader.listingReplies folders)
  let read ← readPass x json reader wallet sidecar listed
  return { read.out with
    unresolvedSidecarRows := sidecar.entries.keys.filter fun key => decide (key ∉ read.resolved) }

end SecretManager.Import.KWallet
