import SecretManager.Import.Source
import SecretManager.Import.Md5
import SecretManager.Lib.Framing

/-!
# Whether the copy is faithful

`src/import/verify.rs`: the fingerprints of both sides and their comparison, the count of the
source's header, the KWallet hash table, the lookup probes, the histogram of secret lengths, and
what they conclude together.

The comparison's `BTreeMap<Fingerprint, usize>` is a function that is zero outside the map: the
source reads an absent digest and a zero count alike. A `Histogram` carries its number of buckets in
its type, as every histogram the code builds has it.
-/

namespace SecretManager.Import

def hex (bytes : Bytes) : String := String.ofList (bytes.flatMap hexByte)

/-! ## Fingerprints -/

abbrev Fingerprint := Digest

/-- `push_prefixed` onto an empty buffer: `u64be(len) || bytes`. -/
def prefixed (s : String) : Bytes := Framing.frame Wire.be64 (utf8 s)

/-- `for (k, v) sorted by k: u64be(len k) || k || u64be(len v) || v`. -/
def canonicalAttrs (attributes : Attributes) : Bytes :=
  attributes.toList.flatMap fun (k, v) => prefixed k ++ prefixed v

/-- What `fingerprint` feeds to the digest. The secret is hashed before it is mixed in. -/
def fingerprintBytes (x : Externals) (attributes : Attributes) (label contentType : String)
    (secret : Bytes) : Bytes :=
  canonicalAttrs attributes ++ (prefixed label ++ prefixed contentType) ++ (x.sha256 secret).toList

def fingerprint (x : Externals) (attributes : Attributes) (label contentType : String)
    (secret : Bytes) : Fingerprint :=
  x.sha256 (fingerprintBytes x attributes label contentType secret)

/-- One side's fingerprint, with the two identifiers a mismatch may be reported by. -/
structure FingerprintEntry where
  fingerprint : Fingerprint
  attributeKeys : AttributeKeys
  objectPath : Option String
  deriving DecidableEq

namespace FingerprintEntry

def source (x : Externals) (item : SourceItem) : FingerprintEntry :=
  { fingerprint := Import.fingerprint x item.attributes item.label item.contentType item.secret
    attributeKeys := item.attributes.keys, objectPath := none }

def destination (x : Externals) (attributes : Attributes) (label contentType : String)
    (secret : Bytes) (objectPath : String) : FingerprintEntry :=
  { fingerprint := Import.fingerprint x attributes label contentType secret
    attributeKeys := attributes.keys, objectPath := some objectPath }

/-- The first 16 hex characters of the digest. -/
def short (e : FingerprintEntry) : String := hex (e.fingerprint.toList.take 8)

end FingerprintEntry

/-- Which side of the copy an item is missing from. -/
inductive Side where
  | missingFromDestination
  | unexpectedInDestination
  deriving DecidableEq, Repr

/-- One item whose fingerprint has no partner on the other side. -/
structure FingerprintMismatch where
  side : Side
  attributeKeys : AttributeKeys
  objectPath : Option String
  fingerprint : String
  deriving DecidableEq, Repr

def FingerprintEntry.mismatch (e : FingerprintEntry) (side : Side) : FingerprintMismatch :=
  { side, attributeKeys := e.attributeKeys, objectPath := e.objectPath, fingerprint := e.short }

/-- How many entries of each fingerprint are still to be accounted for. -/
abbrev Remaining := Fingerprint → Nat

namespace Remaining

def add (r : Remaining) (f : Fingerprint) : Remaining := Function.update r f (r f + 1)

def take (r : Remaining) (f : Fingerprint) : Remaining := Function.update r f (r f - 1)

def of (entries : List FingerprintEntry) : Remaining :=
  entries.foldl (fun r e => r.add e.fingerprint) fun _ => 0

end Remaining

/-- The walk over the source: each entry takes one of its fingerprint, or is missing. -/
def takeSource : List FingerprintEntry → Remaining → List FingerprintMismatch × Remaining
  | [], r => ([], r)
  | e :: es, r =>
    if 0 < r e.fingerprint then takeSource es (r.take e.fingerprint)
    else
      let (out, r) := takeSource es r
      (e.mismatch .missingFromDestination :: out, r)

/-- The walk over the destination: each entry of a fingerprint with some left over is unexpected. -/
def takeSurplus : List FingerprintEntry → Remaining → List FingerprintMismatch
  | [], _ => []
  | e :: es, r =>
    if r e.fingerprint = 0 then takeSurplus es r
    else e.mismatch .unexpectedInDestination :: takeSurplus es (r.take e.fingerprint)

/-- `compare_fingerprints`: the two lists as multisets. -/
def compareFingerprints (source destination : List FingerprintEntry) : List FingerprintMismatch :=
  let (missing, remaining) := takeSource source (Remaining.of destination)
  missing ++ takeSurplus destination remaining

/-! ## The independent count -/

/-- The cleartext header's item count against the walk. -/
structure CountCheck where
  headerItemCount : Option Nat
  /-- Every item the walk accounted for: written, refused or skipped. -/
  walked : Nat
  /-- Index entries no walk listing ever produced. -/
  unlisted : Nat
  deriving DecidableEq, Repr

namespace CountCheck

/-- `false` only when the check was made and failed; `checked_add` fails past a `usize`. -/
def passed (c : CountCheck) : Bool :=
  match c.headerItemCount with
  | none => true
  | some n => c.walked + c.unlisted < 2 ^ 64 && c.walked + c.unlisted == n

def made (c : CountCheck) : Bool := c.headerItemCount.isSome

end CountCheck

/-! ## The KWallet hash table -/

structure WalletFolderIndex where
  folderHash : Md5Hash
  entryHashes : List Md5Hash
  deriving DecidableEq

/-- What a `.kwl` yields without its password, of which the verification reads the folders. -/
structure WalletInventory where
  folders : List WalletFolderIndex
  deriving DecidableEq

namespace WalletInventory

def entryCount (w : WalletInventory) : Nat := (w.folders.map fun f => f.entryHashes.length).sum

/-- The pairs of the index, folder by folder. -/
def pairs (w : WalletInventory) : List (Md5Hash × Md5Hash) :=
  w.folders.flatMap fun f => f.entryHashes.map fun entry => (f.folderHash, entry)

end WalletInventory

/-- `name_pair`: what one row of the index holds. -/
def namePair (folder entry : String) : Md5Hash × Md5Hash := (md5 (utf8 folder), md5 (utf8 entry))

/-- The pair of a provenance that records both names. -/
def Provenance.pair (p : Provenance) : Option (Md5Hash × Md5Hash) :=
  match p.folder, p.entry with
  | some folder, some entry => some (namePair folder entry)
  | _, _ => none

structure HashMiss where
  folderHash : String
  entryHash : String
  deriving DecidableEq, Repr

/-- `check_wallet_hash_table`: the imported items whose names are not in the index. -/
def checkWalletHashTable (inventory : WalletInventory) (items : List SourceItem) : List HashMiss :=
  (items.filterMap fun item => item.provenance.pair).filterMap fun pair =>
    if inventory.pairs.contains pair then none
    else some { folderHash := hex pair.1.toList, entryHash := hex pair.2.toList }

/-- An entry of the index that no listing produced. -/
structure UnlistedEntry where
  folderHash : String
  entryHash : String
  folder : Option String
  entry : Option String
  deriving DecidableEq, Repr

/-- The most splits of one sidecar key that are hashed. -/
def maxSplitsPerKey : Nat := 4096

/-- Every way to cut a key at a slash, in order; `before` is the part already passed, reversed. -/
def slashSplits : List Char → List Char → List (String × String)
  | _, [] => []
  | before, c :: rest =>
    if c = '/' then
      (String.ofList before.reverse, String.ofList rest) :: slashSplits (c :: before) rest
    else slashSplits (c :: before) rest

/-- The splits of one sidecar key that are hashed: none past the cap, else those at its slashes and
the whole key in no folder. -/
def keySplits (key : String) : List (String × String) :=
  let splits := slashSplits [] key.toList
  if splits.length + 1 > maxSplitsPerKey then [] else splits ++ [("", key)]

/-- `resolve_table` as a list of its insertions; `or_insert_with` keeps the first of a pair. -/
def resolveTable (sidecarKeys : List String) : List ((Md5Hash × Md5Hash) × (String × String)) :=
  (sidecarKeys.flatMap keySplits).map fun (folder, entry) =>
    (namePair folder entry, (folder, entry))

def resolveUnlisted (pair : Md5Hash × Md5Hash)
    (names : List ((Md5Hash × Md5Hash) × (String × String))) : Option String × Option String :=
  match names.lookup pair with
  | some (folder, entry) => (some folder, some entry)
  | none => (none, none)

/-- `unlisted_wallet_entries`: the file index minus the walk. -/
def unlistedWalletEntries (inventory : WalletInventory) (items : List SourceItem)
    (accounted : List Provenance) (sidecarKeys : List String) : List UnlistedEntry :=
  let walked := (items.map (·.provenance) ++ accounted).filterMap Provenance.pair
  let names := resolveTable sidecarKeys
  (inventory.pairs.filter fun pair => !walked.contains pair).map fun pair =>
    let (folder, entry) := resolveUnlisted pair names
    { folderHash := hex pair.1.toList, entryHash := hex pair.2.toList, folder, entry }

/-! ## The lookup probes -/

/-- One `SearchItems` call to make, and how many items must come back. -/
structure ProbeQuery where
  attributes : Attributes
  expected : Nat
  deriving DecidableEq

def ProbeQuery.keys (q : ProbeQuery) : AttributeKeys := q.attributes.keys

/-- How a `BTreeMap` orders maps: by their pairs in turn. -/
def compareAttributes (a b : Attributes) : Ordering :=
  List.compareLex (compareLex (compareOn Prod.fst) (compareOn Prod.snd)) a.toList b.toList

/-- Whether `attributes` has every pair of `query`. -/
def Attributes.covers (attributes query : Attributes) : Bool :=
  query.toList.all fun (k, v) => attributes[k]? == some v

/-- `probe_plan`: the distinct attribute sets in order, each with the number of items that carry it
or more. An item without attributes is not probed. -/
def probePlan (items : List SourceItem) : List ProbeQuery :=
  let sets := (items.map (·.attributes)).filter fun a => !a.isEmpty
  let distinct := sets.dedup.insertionSort fun a b => (compareAttributes a b).isLE
  distinct.map fun attributes =>
    { attributes, expected := items.countP fun item => Attributes.covers item.attributes attributes }

/-- What one probe found; `none` when it could not be issued. -/
structure ProbeResult where
  attributeKeys : AttributeKeys
  expected : Nat
  found : Option Nat
  deriving DecidableEq, Repr

namespace ProbeResult

def new (query : ProbeQuery) (found : Nat) : ProbeResult :=
  { attributeKeys := query.keys, expected := query.expected, found := some found }

def notIssued (query : ProbeQuery) : ProbeResult :=
  { attributeKeys := query.keys, expected := query.expected, found := none }

def passed (p : ProbeResult) : Bool := p.found == some p.expected

/-- Issued, and not what was expected: the results a report keeps. -/
def failed (p : ProbeResult) : Bool := p.found.isSome && !p.passed

end ProbeResult

structure ProbeSummary where
  passed : Nat := 0
  failed : Nat := 0
  notIssued : Nat := 0
  deriving DecidableEq, Repr

namespace ProbeSummary

def record (s : ProbeSummary) (r : ProbeResult) : ProbeSummary :=
  match r.found with
  | none => { s with notIssued := s.notIssued + 1 }
  | some _ =>
    if r.passed then { s with passed := s.passed + 1 } else { s with failed := s.failed + 1 }

def of (results : List ProbeResult) : ProbeSummary := results.foldl record {}

def total (s : ProbeSummary) : Nat := s.passed + s.failed + s.notIssued

end ProbeSummary

/-! ## Secret lengths -/

/-- Upper bounds of the buckets, in bytes; a last bucket is open. -/
def bucketBounds : List Nat := [0, 16, 64, 256, 1024, 16 * 1024, 256 * 1024]

structure Histogram where
  counts : Vector Nat 8
  deriving DecidableEq, Repr

namespace Histogram

def new : Histogram := ⟨Vector.replicate 8 0⟩

def bucket (len : Nat) : Nat := (bucketBounds.findIdx? fun bound => len ≤ bound).getD
    bucketBounds.length

def add (h : Histogram) (len : Nat) : Histogram :=
  ⟨Vector.ofFn fun i => if i = bucket len then h.counts[i] + 1 else h.counts[i]⟩

def ofLengths (lengths : List Nat) : Histogram := lengths.foldl add new

/-- The label of each bucket, from the low end of the next. -/
def labelsFrom : Nat → List Nat → List String
  | low, [] => [s!"{low}+"]
  | low, high :: bounds =>
    (if high = 0 then "0" else s!"{low}-{high}") :: labelsFrom (high + 1) bounds

/-- `(label, count)` for each bucket, ascending. -/
def rows (h : Histogram) : List (String × Nat) := (labelsFrom 0 bucketBounds).zip h.counts.toList

end Histogram

/-- One bucket where the two sides disagree. -/
structure HistogramDiff where
  bucket : String
  source : Nat
  destination : Nat
  deriving DecidableEq, Repr

/-- `compare_histograms`: over the longer of the two. -/
def compareHistograms (source destination : Histogram) : List HistogramDiff :=
  let src := source.rows
  let dst := destination.rows
  (List.range (max src.length dst.length)).filterMap fun i =>
    let s := src[i]?.elim 0 (·.2)
    let d := dst[i]?.elim 0 (·.2)
    if s = d then none
    else some { bucket := ((src[i]?.or dst[i]?).map (·.1)).getD "", source := s, destination := d }

/-! ## The whole verification -/

structure Verification where
  count : CountCheck
  fingerprintMismatches : List FingerprintMismatch
  /-- `none` when there was no destination to compare against. -/
  fingerprintsCompared : Option Nat
  hashTableMisses : List HashMiss
  unlisted : List UnlistedEntry
  /-- `none` for a source without a hash table. -/
  hashTableChecked : Option Nat
  probes : ProbeSummary
  failedProbes : List ProbeResult
  sourceLengths : Histogram
  destinationLengths : Option Histogram
  lengthDifferences : List HistogramDiff
  deriving DecidableEq

namespace Verification

def passed (v : Verification) : Bool :=
  v.count.passed && v.fingerprintMismatches.isEmpty && v.hashTableMisses.isEmpty &&
    v.probes.failed == 0 && v.lengthDifferences.isEmpty

/-- The checks that could not be made, phrased for a terminal. -/
def unproved (v : Verification) : List String :=
  (if v.count.made then [] else ["the source header gave no independent item count"]) ++
  (if v.unlisted.isEmpty then []
    else [s!"{v.unlisted.length} file entries were never listed by the source and were not migrated, so completeness is unproved"]) ++
  (if v.fingerprintsCompared.isSome then []
    else ["no destination was written, so no fingerprint was compared"]) ++
  (if v.probes.total = 0 then
    ["no attribute set was probed, so no lookup was proved against a running daemon"]
  else if 0 < v.probes.notIssued then
    [s!"{v.probes.notIssued} of {v.probes.total} lookup probes were not issued, so discoverability is unproved"]
  else [])

def maySuggestDecommission (v : Verification) : Bool :=
  v.passed && v.unproved.isEmpty && v.unlisted.isEmpty

end Verification

end SecretManager.Import
