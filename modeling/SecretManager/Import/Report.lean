import SecretManager.Import.Formats

/-!
# The report of an import

`src/import/mod.rs`, `src/import/verify.rs` and `src/cli/import.rs`: the report with all the fields
of its rows, what the lookup probes make of them, the file that `--report` writes and the reader
that checks it.

`Source` keeps the rows as far as the later stages read them; a `ReportRow` extends such a row with
what is only reported. Writing a value as JSON and finding its fields again is the work of `serde`
and `serde_json`, so a pair of writers and a reader are arguments here (`ReportJson`), and what is
relied on are their laws: a field is found as it was written, and one that is absent has its
default. What the source's own readers then do with the fields is modelled: the names are checked,
the tally is counted up anew, and both totals are compared with the rows.
-/

namespace SecretManager.Import

/-! ## The rows -/

/-- `ItemReport`, with every field. -/
structure ReportRow extends ItemReport where
  label : String
  contentType : String
  secretLen : Nat
  lostItemType : Option UInt32
  unknownItemType : Option String
  aclDowngrade : Bool
  /-- Both timestamps arrived as zero. -/
  epochStamped : Bool
  deriving DecidableEq

namespace ReportRow

def imported (item : SourceItem) : ReportRow :=
  { ItemReport.imported item with
    label := item.label, contentType := item.contentType, secretLen := item.secret.length
    lostItemType := none, unknownItemType := none, aclDowngrade := false
    epochStamped := item.created == 0 && item.modified == 0 }

def refused (provenance : Provenance) (label : String) (refusal : Refusal) : ReportRow :=
  { ItemReport.refused provenance refusal with
    label, contentType := "", secretLen := 0, lostItemType := none, unknownItemType := none
    aclDowngrade := false, epochStamped := false }

end ReportRow

/-! ## The report -/

/-- `ImportReport`, with every field. -/
structure Report where
  source : Source
  /-- Destination collection label. -/
  collection : String
  tally : Tally
  items : List ReportRow
  emptyFolders : Nat
  headerItemCount : Option Nat
  /-- How many written items carry zero timestamps. -/
  epochStampedItems : Nat
  deriving DecidableEq

namespace Report

def new (source : Source) (collection : String) : Report :=
  { source, collection, tally := {}, items := [], emptyFolders := 0, headerItemCount := none,
    epochStampedItems := 0 }

/-- A row that the epoch count counts. -/
def countsEpoch (row : ReportRow) : Bool := !row.isRefused && row.epochStamped

def push (r : Report) (row : ReportRow) : Report :=
  { r with
    tally := r.tally.record row.toItemReport
    epochStampedItems := r.epochStampedItems + if countsEpoch row then 1 else 0
    items := r.items ++ [row] }

def recomputedTally (items : List ReportRow) : Tally :=
  items.foldl (fun tally row => tally.record row.toItemReport) {}

def recomputedEpochStamped (items : List ReportRow) : Nat := (items.filter countsEpoch).length

end Report

/-! ## The probes' verdict -/

/-- `downgraded_keys`: the key sets whose probe was issued and did not find what was expected. -/
def downgradedKeys (probes : List ProbeResult) : List AttributeKeys :=
  (probes.filter (·.failed)).map (·.attributeKeys)

/-- `downgrade_outcome`: a portable item whose probe failed has its attributes preserved. -/
def downgradeOutcome (outcome : Option Outcome) (downgraded : Bool) : Option Outcome :=
  match outcome, downgraded with
  | some .fullyPortable, true => some .attributesPreserved
  | other, _ => other

def ReportRow.downgrade (failed : List AttributeKeys) (row : ReportRow) : ReportRow :=
  { row with outcome := downgradeOutcome row.outcome (failed.contains row.attributeKeys) }

def downgradeItems (items : List ReportRow) (probes : List ProbeResult) : List ReportRow :=
  items.map (.downgrade (downgradedKeys probes))

/-- `tally_with_probes`: a row without outcome and refusal counts as refused. -/
def tallyWithProbes (items : List ReportRow) (probes : List ProbeResult) : Tally :=
  items.foldl (fun tally row =>
    if row.isRefused then tally.recordRefused
    else
      match downgradeOutcome row.outcome ((downgradedKeys probes).contains row.attributeKeys) with
      | some outcome => tally.recordOutcome outcome
      | none => tally.recordRefused) {}

/-! ## The file of `--report` -/

/-- What became of the collection a report describes. -/
inductive Disposition where
  | dryRun
  | kept
  | removedAgain
  deriving DecidableEq, Repr

structure ReportFile where
  source : Source
  collection : String
  /-- The tally after the probes. -/
  tally : Tally
  tallyBeforeProbe : Tally
  items : List ReportRow
  emptyFolders : Nat
  headerItemCount : Option Nat
  verification : Verification
  notMigrated : List NotMigrated
  notes : List String
  dryRun : Bool
  written : Bool
  defaultAliasMoved : Bool

/-- `ReportFile::new`. The epoch count of the report is not copied: the file has no field for it. -/
def ReportFile.new (report : Report) (probedTally : Tally) (items : List ReportRow)
    (verification : Verification) (notMigrated : List NotMigrated) (notes : List String)
    (disposition : Disposition) (defaultAliasMoved : Bool) : ReportFile :=
  { source := report.source, collection := report.collection, tally := probedTally
    tallyBeforeProbe := report.tally, items, emptyFolders := report.emptyFolders
    headerItemCount := report.headerItemCount, verification, notMigrated, notes
    dryRun := disposition == .dryRun, written := disposition == .kept, defaultAliasMoved }

/-! ## What the JSON holds -/

/-- `ImportReportRepr`: the wire shape, with no invariant attached. It has the fields of a report;
its names and counters are those of the text, which nothing has checked yet. -/
abbrev ReportRepr := Report

/-- What a reader of reports sees of a file: the fields they have in common. The epoch count is not
among them and has its default. -/
def ReportFile.repr (f : ReportFile) : ReportRepr :=
  { source := f.source, collection := f.collection, tally := f.tally, items := f.items
    emptyFolders := f.emptyFolders, headerItemCount := f.headerItemCount, epochStampedItems := 0 }

/-- `serde_json` with the derived `Serialize` of the report and of the file, and with the derived
`Deserialize` of the wire shape. -/
structure ReportJson (Text : Type) where
  report : Report → Text
  file : ReportFile → Text
  read : Text → Option ReportRepr

/-- What is assumed of it: each field of the wire shape is read as it was written. A field that is
left out, because it is empty or because the writer has none, is read as its default; a field that
the wire shape does not have is passed over. -/
structure ReportJson.Lawful {Text : Type} (json : ReportJson Text) : Prop where
  read_report : ∀ r, json.read (json.report r) = some r
  read_file : ∀ f, json.read (json.file f) = some f.repr

/-! ## Reading a report -/

/-- `AttributeNameError`: the length of the name and the cap. -/
structure AttributeNameError where
  len : Nat
  limit : Nat
  deriving DecidableEq

def AttributeNameError.display (e : AttributeNameError) : String :=
  s!"attribute name is {e.len} bytes, over the {e.limit} byte limit"

/-- `AttributeName::try_from`: by its length only. -/
def attributeName (name : String) : Except AttributeNameError String :=
  if maxAttributeKey < (utf8 name).length then .error ⟨(utf8 name).length, maxAttributeKey⟩
  else .ok name

/-- `AttributeKeys::deserialize`: an array of names, each of which is checked. -/
def AttributeKeys.deserialize (names : List String) : Except AttributeNameError AttributeKeys :=
  (names.mapM attributeName).map AttributeKeys.fromNames

/-- `ItemReport::deserialize`, the derived one: the names are the only field with a reader of its
own. -/
def ReportRow.deserialize (row : ReportRow) : Except AttributeNameError ReportRow :=
  (AttributeKeys.deserialize row.attributeKeys).map fun attributeKeys => { row with attributeKeys }

/-- `Tally::deserialize`: the counters are moved by `record_outcome` and `record_refused` alone,
also when they are read. -/
def Tally.deserialize (repr : Tally) : Tally :=
  let tally := (recordOutcome · .fullyPortable)^[repr.fullyPortable] {}
  let tally := (recordOutcome · .attributesPreserved)^[repr.attributesPreserved] tally
  let tally := (recordOutcome · .preservedOnly)^[repr.preservedOnly] tally
  recordRefused^[repr.refused] tally

inductive ReportError where
  | malformed
  | attributeName (e : AttributeNameError)
  | tallyDisagrees (tally : Tally) (items : Nat) (recomputed : Tally)
  | epochDisagrees (count items recomputed : Nat)
  deriving DecidableEq

/-- The checks of `ImportReport::deserialize`: the tally and the epoch count are checked, not merely
read. -/
def ReportRepr.check (repr : ReportRepr) : Except ReportError Report := do
  let items ← (repr.items.mapM ReportRow.deserialize).mapError .attributeName
  let tally := repr.tally.deserialize
  if Report.recomputedTally items ≠ tally then
    .error (.tallyDisagrees tally items.length (Report.recomputedTally items))
  else if Report.recomputedEpochStamped items ≠ repr.epochStampedItems then
    .error (.epochDisagrees repr.epochStampedItems items.length (Report.recomputedEpochStamped items))
  else .ok { repr with items, tally }

/-- `serde_json::from_str::<ImportReport>`. -/
def Report.deserialize {Text : Type} (json : ReportJson Text) (text : Text) :
    Except ReportError Report :=
  match json.read text with
  | none => .error .malformed
  | some repr => repr.check

end SecretManager.Import
