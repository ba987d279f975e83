import SecretManager.Dbus.Paths
import SecretManager.Lib.Run

/-!
# The alias table, its file, and concurrent updates

`src/dbus/state.rs`: `AliasTable`, `load_aliases`, `save_aliases_to`, `update_aliases`, and the part
of `merge_scan` that touches the table; with the edits of `Service::set_alias` and of the create and
delete prompts.

`update_aliases` holds the state guard twice for each attempt and writes the file in between, so it
is cut where it gives the guard up: `beginAttempt` is its first critical section, `saveAliasesTo`
the write, `finishAttempt` its second critical section. `load_aliases` is cut between its `stat` and
its `read`. A system of calls and one Reload (a semaphore admits one at a time) interleaves these
pieces in any order. TOML comes from another crate and is an argument.
-/

namespace SecretManager

/-- `BTreeMap<String, String>`: alias name to collection id. -/
abbrev AliasMap := Std.ExtTreeMap String String

def aliasFile : String := "aliases.toml"
def maxAliasBytes : Nat := 2 ^ 20
def maxAliasError : Nat := 200
def maxAliasName : Nat := 128
def maxAliases : Nat := 256
def aliasUpdateAttempts : Nat := 8

/-- Why the alias table cannot be trusted. -/
structure AliasError where
  reason : String
  deriving DecidableEq, Repr

/-- `char::is_whitespace`, on characters that are not controls. -/
def isSpace (c : Char) : Bool :=
  let n := c.toNat
  n == 0x20 || n == 0xA0 || n == 0x1680 || (0x2000 ≤ n && n ≤ 0x200A) || n == 0x2028 ||
    n == 0x2029 || n == 0x202F || n == 0x205F || n == 0x3000

/-- `AliasError::new`: the file's name, then the reason without invisible characters, controls or
runs of blanks, and bounded. -/
def AliasError.new (e : IoError) : AliasError :=
  let raw := s!"{aliasFile}: {e.message}"
  let cleaned := (raw.toList.filter fun c => !isInvisibleFormat c).map fun c =>
    if isControl c then ' ' else c
  let words := (cleaned.splitOnP isSpace).filter fun w => !w.isEmpty
  let collapsed := [' '].intercalate words
  if collapsed.length > maxAliasError then
    ⟨String.ofList (collapsed.take maxAliasError ++ ['…'])⟩
  else ⟨String.ofList collapsed⟩

/-! ## The table -/

inductive AliasTable where
  /-- `aliases.toml` parsed. -/
  | usable (table : AliasMap)
  /-- It could not be read; `known` is the last table that was. -/
  | degraded (reason : AliasError) (known : AliasMap)
  deriving DecidableEq

namespace AliasTable

def known : AliasTable → AliasMap
  | .usable table => table
  | .degraded _ known => known

/-- The table, only when it is what is on disk. -/
def writable : AliasTable → Except AliasError AliasMap
  | .usable table => .ok table
  | .degraded reason _ => .error reason

/-- Look one name up; a name that a degraded table does not know is refused. -/
def resolve (t : AliasTable) (name : String) : Except AliasError (Option String) :=
  match t with
  | .usable table => .ok table[name]?
  | .degraded reason known =>
    match known[name]? with
    | some id => .ok (some id)
    | none => .error reason

/-- Record that the file could not be read, keeping what was last read. -/
def degrade (t : AliasTable) (reason : AliasError) : AliasTable := .degraded reason t.known

end AliasTable

/-! ## The file -/

/-- `toml::to_string` and `toml::from_str` at `AliasFile`. -/
structure Toml where
  toString : AliasMap → Except String String
  fromStr : String → Except String AliasMap

/-- **TOML round-trips.** -/
structure Toml.Lawful (toml : Toml) : Prop where
  fromStr_toString : ∀ {m s}, toml.toString m = .ok s → toml.fromStr s = .ok m

/-- An answer of the file system that is not about the file's absence. -/
structure Fault where
  error : IoError
  present : error.kind ≠ .notFound

def parseAliases (toml : Toml) (bytes : Bytes) : Except IoError AliasMap :=
  match ofUtf8 bytes with
  | none => .error { kind := .invalidData, message := "stream did not contain valid UTF-8" }
  | some text =>
    match toml.fromStr text with
    | .error e => .error { kind := .invalidData, message := e }
    | .ok aliases => .ok aliases

/-- The first half of `load_aliases`, its `stat`: an answer, or nothing yet. -/
def statAliases (fault : Option Fault) (file : Option Bytes) : Option (Except IoError AliasMap) :=
  match fault, file with
  | some f, _ => some (.error f.error)
  | none, none => some (.ok ∅)
  | none, some bytes =>
    if bytes.length > maxAliasBytes then
      some (.error { kind := .invalidData,
                     message := s!"too large: {bytes.length} bytes, at most {maxAliasBytes}" })
    else none

/-- The second half of `load_aliases`, its `read`. The file can be gone by now. -/
def readAliases (toml : Toml) (fault : Option Fault) (file : Option Bytes) :
    Except IoError AliasMap :=
  match fault, file with
  | some f, _ => .error f.error
  | none, none => .ok ∅
  | none, some bytes => parseAliases toml bytes

/-- What a scan makes of the answer of `load_aliases`: only a file that is there and makes no sense
is tolerated; every other error ends the scan. -/
def scanAliases : Except IoError AliasMap → Option (Except AliasError AliasMap)
  | .ok aliases => some (.ok aliases)
  | .error e => if e.kind = .invalidData then some (.error (.new e)) else none

/-- What one `save_aliases_to` is answered. -/
structure AliasWriteEnv where
  ensureDir : Except IoError Unit
  write : WriteEnv

def saveAliasesTo (toml : Toml) (env : AliasWriteEnv) (aliases : AliasMap) (file : Option Bytes) :
    Except IoError Unit × Option Bytes :=
  match env.ensureDir with
  | .error e => (.error e, file)
  | .ok () =>
    match toml.toString aliases with
    | .error e => (.error { kind := .invalidData, message := e }, file)
    | .ok text => writeAtomic env.write (utf8 text) file

/-! ## One update -/

/-- What `update_aliases` does with a table whose write failed. -/
inductive OnWriteError where
  | refuse
  | keep
  deriving DecidableEq, Repr

/-- How an `update_aliases` call ended. -/
inductive AliasUpdate (ε : Type) where
  | committed
  | notWritten (e : IoError)
  | unusable (e : AliasError)
  | rejected (e : ε)
  deriving DecidableEq

/-- The arguments of one call. The edit sees the rest of the daemon's state, of type `σ`, and the
table it starts from. -/
structure AliasCall (σ ε : Type) where
  onWriteError : OnWriteError
  edit : σ → AliasMap → Except ε AliasMap

/-- Where one call stands, between the pieces it runs without interruption. -/
inductive CallPhase (ε : Type) where
  /-- Before the first critical section of an attempt. -/
  | ready (attempt : Nat)
  /-- The guard is dropped and the write is next. -/
  | edited (attempt : Nat) (base next : AliasMap)
  /-- The write was made, and the second critical section is next. -/
  | written (attempt : Nat) (base next : AliasMap) (result : Except IoError Unit)
  | done (outcome : AliasUpdate ε)

/-- The first critical section of an attempt. -/
def beginAttempt {σ ε : Type} (call : AliasCall σ ε) (view : σ) (table : AliasTable)
    (attempt : Nat) : CallPhase ε :=
  match table.writable with
  | .error e => .done (.unusable e)
  | .ok base =>
    match call.edit view base with
    | .error e => .done (.rejected e)
    | .ok next => .edited attempt base next

/-- The second critical section: writability and staleness are looked at again, and the last
attempt commits regardless. -/
def finishAttempt {σ ε : Type} (call : AliasCall σ ε) (table : AliasTable) (attempt : Nat)
    (base next : AliasMap) (written : Except IoError Unit) : AliasTable × CallPhase ε :=
  match table.writable with
  | .error e => (table, .done (.unusable e))
  | .ok current =>
    if current ≠ base ∧ attempt < aliasUpdateAttempts then (table, .ready (attempt + 1))
    else
      match written with
      | .ok () => (.usable next, .done .committed)
      | .error e =>
        (if call.onWriteError = .keep then .usable next else table, .done (.notWritten e))

/-! ## The edits -/

/-- The part of `ServiceState` an alias edit reads, beside the table: the loaded ids and the broken
ones. -/
structure ServiceView where
  collections : List String
  broken : List String
  deriving DecidableEq

/-- `alias_target`: the collection an alias resolves to, if that collection is loaded. -/
def aliasTarget (view : ServiceView) (table : AliasTable) (name : String) :
    Except AliasError (Option String) :=
  match table.resolve name with
  | .error e => .error e
  | .ok id => .ok (id.filter fun id => view.collections.contains id)

def resolveCollection (view : ServiceView) (table : AliasTable) (path : String) : Option String :=
  match Paths.parse path with
  | some (.collection id) =>
    if view.collections.contains id || view.broken.contains id then some id else none
  | some (.aliasPath name) =>
    match aliasTarget view table name with
    | .ok target => target
    | .error _ => none
  | _ => none

def checkAliasName (name : String) : Except DbusError Unit :=
  if !Paths.isSegment name then .error (.invalidArgs "alias names must match [A-Za-z0-9_]+")
  else if name.utf8ByteSize > maxAliasName then
    .error (.invalidArgs s!"alias name too long; at most {maxAliasName} characters")
  else .ok ()

def checkAliasRoom (table : AliasMap) (name : String) : Except DbusError Unit :=
  if !table.contains name && decide (table.size ≥ maxAliases) then
    .error (.failed s!"too many aliases; at most {maxAliases}")
  else .ok ()

/-- The update of `Service::set_alias`, after `check_alias_name`. -/
def setAlias (name collection : String) : AliasCall ServiceView DbusError where
  onWriteError := .refuse
  edit view next :=
    if collection = "/" then .ok (next.erase name)
    else
      match resolveCollection view (.usable next) collection with
      | none => .error .noSuchObject
      | some id =>
        match checkAliasRoom next name with
        | .error e => .error e
        | .ok () => .ok (next.insert name id)

/-- The update of a confirmed create that carries an alias. -/
def recordAlias (name id : String) : AliasCall ServiceView DbusError where
  onWriteError := .keep
  edit _ next :=
    match checkAliasRoom next name with
    | .error e => .error e
    | .ok () => .ok (next.insert name id)

/-- The update of a confirmed delete: drop every alias of the collection. -/
def purgeAliases (id : String) : AliasCall ServiceView DbusError where
  onWriteError := .keep
  edit _ next := .ok (next.filter fun _ target => target != id)

end SecretManager
