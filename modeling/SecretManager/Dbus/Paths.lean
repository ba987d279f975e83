import SecretManager.Vault.Format

/-!
# Object paths and bus errors

`src/dbus/paths.rs`: the path layout of the service and the reader of client-supplied paths, and the
error type of `src/dbus/errors.rs`.
-/

namespace SecretManager

/-- An error of a bus method. The three `fdo` kinds are the ones the code constructs. -/
inductive DbusError where
  | failed (message : String)
  | invalidArgs (message : String)
  | notSupported (message : String)
  | isLocked
  | noSession
  | noSuchObject
  deriving DecidableEq, Repr

namespace Paths

def collectionsPrefix : String := "/org/freedesktop/secrets/collection/"
def aliasesPrefix : String := "/org/freedesktop/secrets/aliases/"

def isSegmentByte (b : UInt8) : Bool :=
  (48 ≤ b && b ≤ 57) || (65 ≤ b && b ≤ 90) || (97 ≤ b && b ≤ 122) || b == 95

def isSegment (s : String) : Bool := !s.isEmpty && (utf8 s).all isSegmentByte

/-- The part of an object path after its first slash: segments with single slashes between them.
`fresh` says that the last byte read was a slash, so that a segment must follow. -/
def chainFrom : Bool → Bytes → Bool
  | fresh, [] => !fresh
  | fresh, b :: bs =>
    if isSegmentByte b then chainFrom false bs else if b == 47 && !fresh then chainFrom true bs else false

/-- The bus's grammar of object paths: a slash alone, or a slash before each segment. -/
def isObjectPath (s : String) : Bool :=
  match utf8 s with
  | [] => false
  | b :: bs => b == 47 && (bs.isEmpty || chainFrom true bs)

/-- What a path names, by its shape alone. -/
inductive Target where
  | collection (id : String)
  | aliasPath (name : String)
  | item (collection item : String)
  | aliasItem (name item : String)
  deriving DecidableEq, Repr

/-- `str::strip_prefix`. -/
def stripped (lead path : String) : Option String :=
  if lead.toList.isPrefixOf path.toList then
    some (String.ofList (path.toList.drop lead.toList.length))
  else none

/-- One segment, or two with a slash between. -/
def split (rest : String) : Option (String × Option String) :=
  match (rest.toList.splitOn '/').map String.ofList with
  | [first] => if isSegment first then some (first, none) else none
  | [first, second] =>
    if isSegment first && isSegment second then some (first, some second) else none
  | _ => none

def parse (path : String) : Option Target :=
  match stripped collectionsPrefix path with
  | some rest =>
    match split rest with
    | none => none
    | some (collection, none) => some (.collection collection)
    | some (collection, some item) => some (.item collection item)
  | none =>
    match stripped aliasesPrefix path with
    | some rest =>
      match split rest with
      | none => none
      | some (name, none) => some (.aliasPath name)
      | some (name, some item) => some (.aliasItem name item)
    | none => none

end Paths

end SecretManager
