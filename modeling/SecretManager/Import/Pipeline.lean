import SecretManager.Import.Verify
import SecretManager.Dbus.Objects

/-!
# The parts of `sm import`

`src/cli/import.rs`: what a source file and an extraction hold, what is read back from the
collection that was written, and the verification built from them. The pieces are put in order,
beside whatever else runs on the machine, in `Import.Run`.

Both extractors make the row of an item they hand over by `ItemReport::imported`, so an extraction
keeps the items alone and the rows are computed. What it only prints, the empty folders and the
notes, is left out.
-/

namespace SecretManager.Import

/-! ## The source -/

structure KeyringItemIndex where
  /-- Unique within the file and stable. -/
  id : UInt32
  itemType : UInt32
  attributeKeys : AttributeKeys
  deriving DecidableEq

/-- What a `.keyring` yields without its password, of which an import reads the name and the
items. -/
structure KeyringInventory where
  displayName : String
  items : List KeyringItemIndex
  deriving DecidableEq

def KeyringInventory.itemCount (k : KeyringInventory) : Nat := k.items.length

inductive Inventory where
  | keyring (k : KeyringInventory)
  | wallet (w : WalletInventory)
  deriving DecidableEq

/-- The independent count, from the cleartext header or index. -/
def Inventory.count : Inventory → Nat
  | .keyring k => k.itemCount
  | .wallet w => w.entryCount

structure SourceFile where
  /-- The file name without its extension. -/
  stem : Option String
  inventory : Inventory
  headerItemCount : Option Nat
  deriving DecidableEq

/-- What `locate` returns for a file whose header parses. -/
def SourceFile.located (stem : Option String) (inventory : Inventory) : SourceFile :=
  { stem, inventory, headerItemCount := some inventory.count }

/-- The source's own name for the container. -/
def SourceFile.container (f : SourceFile) : String :=
  match f.inventory with
  | .keyring k => if k.displayName.isEmpty then f.stem.getD "imported" else k.displayName
  | .wallet _ => f.stem.getD "imported"

/-- An entry the walk found and did not write, for a reason `Refusal` does not name. -/
structure NotMigrated where
  label : String
  reason : String
  provenance : Provenance
  deriving DecidableEq, Repr

/-- What the source's provider handed over. -/
structure Extraction where
  container : String
  items : List SourceItem
  refusals : List ItemReport
  skipped : List NotMigrated
  unresolvedSidecarRows : List String
  deriving DecidableEq

/-- The report of an extraction: the refusals first, then the items. -/
def Extraction.report (e : Extraction) : ImportReport :=
  (e.refusals ++ e.items.map ItemReport.imported).foldl ImportReport.push {}

/-- Every item the walk accounted for: written, refused or skipped. -/
def Extraction.walked (e : Extraction) : Nat := e.report.tally.seen + e.skipped.length

/-- `accounted_provenances`: every refused item's and every skipped entry's. -/
def accountedProvenances (report : ImportReport) (skipped : List NotMigrated) : List Provenance :=
  (report.items.filter (·.isRefused)).map (·.provenance) ++ skipped.map (·.provenance)

/-- `unlisted_entries`: only a hash index can prove them. -/
def unlistedEntries (file : SourceFile) (items : List SourceItem) (accounted : List Provenance)
    (sidecarKeys : List String) : List UnlistedEntry :=
  match file.inventory with
  | .wallet w => unlistedWalletEntries w items accounted sidecarKeys
  | .keyring _ => []

/-! ## The destination -/

/-- What the new vault holds, read back off disk. -/
structure Destination where
  fingerprints : List FingerprintEntry
  lengths : Histogram
  /-- Whether the header carries attribute hashes. -/
  indexed : Bool
  deriving DecidableEq

/-- The entry of one decrypted item; `none` where the object path's `expect` fires. -/
def destinationEntry (x : Externals) (id : String) (item : Item) : Option FingerprintEntry :=
  (Paths.item x id item.id).map fun path =>
    .destination x item.attributes item.label item.contentType item.secret path

/-- The last part of `reopen`, on the decrypted items. -/
def Destination.of (x : Externals) (id : String) (items : List Item) (indexed : Bool) :
    Option Destination :=
  (items.mapM (destinationEntry x id)).map fun fingerprints =>
    { fingerprints, lengths := .ofLengths (items.map (·.secret.length)), indexed }

/-! ## The verification -/

structure VerifyInput where
  file : SourceFile
  items : List SourceItem
  walked : Nat
  destination : Option Destination
  probes : List ProbeResult
  unlisted : List UnlistedEntry

/-- The KWallet hash-table check: the misses, and how many items were looked up. -/
def hashTableCheck (inventory : Inventory) (items : List SourceItem) : List HashMiss × Option Nat :=
  match inventory with
  | .wallet w =>
    (checkWalletHashTable w items, some (items.countP fun i => i.provenance.folder.isSome && i.provenance.entry.isSome))
  | .keyring _ => ([], none)

def verifyImport (x : Externals) (input : VerifyInput) : Verification :=
  let sourceEntries := input.items.map (FingerprintEntry.source x)
  let sourceLengths := Histogram.ofLengths (input.items.map fun i => i.secret.length)
  { count := ⟨input.file.headerItemCount, input.walked, input.unlisted.length⟩
    fingerprintMismatches :=
      match input.destination with
      | some dest => compareFingerprints sourceEntries dest.fingerprints
      | none => []
    fingerprintsCompared := input.destination.map fun dest => dest.fingerprints.length
    hashTableMisses := (hashTableCheck input.file.inventory input.items).1
    unlisted := input.unlisted
    hashTableChecked := (hashTableCheck input.file.inventory input.items).2
    probes := .of input.probes
    failedProbes := input.probes.filter fun p => p.failed
    sourceLengths
    destinationLengths := input.destination.map fun dest => dest.lengths
    lengthDifferences :=
      match input.destination with
      | some dest => compareHistograms sourceLengths dest.lengths
      | none => [] }

/-- The offline verification of a run: every probe is still to be issued. -/
def Extraction.verify (x : Externals) (e : Extraction) (file : SourceFile)
    (destination : Option Destination) : Verification :=
  verifyImport x
    { file, items := e.items, walked := e.walked, destination
      probes := (probePlan e.items).map .notIssued
      unlisted := unlistedEntries file e.items (accountedProvenances e.report e.skipped) e.unresolvedSidecarRows }

/-- The verification with the probes' results put in. -/
def Verification.probed (v : Verification) (probes : List ProbeResult) : Verification :=
  { v with probes := .of probes, failedProbes := probes.filter (·.failed) }

end SecretManager.Import
