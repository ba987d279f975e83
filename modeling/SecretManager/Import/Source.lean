import SecretManager.Vault.Format

/-!
# What an import reads and reports

`src/import/mod.rs`: the items of a source, the reasons an item is not written, and the report with
its tally. A report row keeps what the later stages read of it: where the item came from, the names
of its attributes, its outcome and its refusals. The label, the content type, the lengths and the
item type that `sm import` prints are left out.
-/

namespace SecretManager.Import

inductive Source where
  | gnomeKeyring
  | kwallet
  deriving DecidableEq, Repr

/-- Which container an item was read out of, in the source's own vocabulary. -/
structure Provenance where
  source : Source
  container : String
  folder : Option String
  entry : Option String
  itemId : Option UInt32
  deriving DecidableEq, Repr

def Provenance.gnome (container : String) (itemId : UInt32) : Provenance :=
  { source := .gnomeKeyring, container, folder := none, entry := none, itemId := some itemId }

def Provenance.kwallet (container folder entry : String) : Provenance :=
  { source := .kwallet, container, folder := some folder, entry := some entry, itemId := none }

structure SourceItem where
  label : String
  attributes : Attributes
  secret : Bytes
  contentType : String
  created : UInt64
  modified : UInt64
  provenance : Provenance
  /-- The synthesised names this importer added to `attributes`. -/
  insertedKeys : List String
  deriving DecidableEq

/-! ## Refusals -/

inductive Refusal where
  | chainedKeyringItem (itemType : UInt32)
  | unreadableItemType
  | unreadableAttributes
  | capViolation (cap : Cap) (actual limit : Nat)
  deriving DecidableEq, Repr

def Refusal.ofViolation (v : CapViolation) : Refusal := .capViolation v.cap v.actual v.limit

/-- `import::check_caps`: the pre-check, in the report's vocabulary. -/
def checkCaps (label : String) (attributes : Attributes) (secretLen : Nat) (contentType : String) :
    Option Refusal :=
  (SecretManager.checkCaps label attributes secretLen contentType).map Refusal.ofViolation

def SourceItem.capViolation (item : SourceItem) : Option Refusal :=
  checkCaps item.label item.attributes item.secret.length item.contentType

/-! ## Outcomes -/

/-- Whether a client can still find the item. -/
inductive Outcome where
  | fullyPortable
  | attributesPreserved
  | preservedOnly
  deriving DecidableEq, Repr

def xdgSchema : String := "xdg:schema"

/-- The attribute names the importer adds to KWallet entries without a schema. -/
def synthesisedAttributes : List String := ["kwallet:folder", "kwallet:key", "kwallet:type"]

def isSynthesisedAttribute (source : Source) (key : String) : Bool :=
  source == .kwallet && synthesisedAttributes.contains key

/-- `Outcome::classify`: only names this importer added do not count as attributes. -/
def Outcome.classify (source : Source) (attributes : Attributes) (inserted : List String) :
    Outcome :=
  if (attributes[xdgSchema]?).any fun schema => !schema.isEmpty then .fullyPortable
  else if attributes.keys.any fun k => !isSynthesisedAttribute source k || !inserted.contains k then
    .attributesPreserved
  else .preservedOnly

def SourceItem.outcome (item : SourceItem) : Outcome :=
  .classify item.provenance.source item.attributes item.insertedKeys

/-! ## The report -/

/-- The attribute names of an item, in order: a `BTreeSet<String>`. -/
abbrev AttributeKeys := List String

/-- Per-item outcome, with no value of any kind. -/
structure ItemReport where
  provenance : Provenance
  attributeKeys : AttributeKeys
  /-- `none` when the item was refused. -/
  outcome : Option Outcome
  refusals : List Refusal
  deriving DecidableEq

namespace ItemReport

def imported (item : SourceItem) : ItemReport :=
  { provenance := item.provenance, attributeKeys := item.attributes.keys
    outcome := some item.outcome, refusals := [] }

def refused (provenance : Provenance) (refusal : Refusal) : ItemReport :=
  { provenance, attributeKeys := [], outcome := none, refusals := [refusal] }

def isRefused (r : ItemReport) : Bool := !r.refusals.isEmpty

end ItemReport

/-- The three-way tally, plus what was refused. -/
structure Tally where
  fullyPortable : Nat := 0
  attributesPreserved : Nat := 0
  preservedOnly : Nat := 0
  refused : Nat := 0
  deriving DecidableEq, Repr

namespace Tally

def imported (t : Tally) : Nat := t.fullyPortable + t.attributesPreserved + t.preservedOnly

/-- Every item the walk produced, written or not. -/
def seen (t : Tally) : Nat := t.imported + t.refused

def recordOutcome (t : Tally) : Outcome → Tally
  | .fullyPortable => { t with fullyPortable := t.fullyPortable + 1 }
  | .attributesPreserved => { t with attributesPreserved := t.attributesPreserved + 1 }
  | .preservedOnly => { t with preservedOnly := t.preservedOnly + 1 }

def recordRefused (t : Tally) : Tally := { t with refused := t.refused + 1 }

/-- An item with neither an outcome nor a refusal counts as refused. -/
def record (t : Tally) (r : ItemReport) : Tally :=
  if r.isRefused then t.recordRefused
  else
    match r.outcome with
    | some outcome => t.recordOutcome outcome
    | none => t.recordRefused

end Tally

structure ImportReport where
  tally : Tally := {}
  items : List ItemReport := []
  deriving DecidableEq

/-- `push`: the row and the tally move together. -/
def ImportReport.push (r : ImportReport) (row : ItemReport) : ImportReport :=
  { tally := r.tally.record row, items := r.items ++ [row] }

end SecretManager.Import
