import SecretManager.Dbus.Aliases

/-!
# Alias updates and a Reload, interleaved

The daemon's alias table and `aliases.toml` under any number of `update_aliases` calls, one Reload
at a time, and other programs that replace the file. Each action is one piece of the source that no
other task can interrupt. `AliasLog` records what a run did and the code does not store: who wrote
the file last, what clients were promised, what a Reload read. No transition of the code looks at
it.
-/

namespace SecretManager

/-- Where the Reload that holds the semaphore stands, as far as the alias file is concerned. -/
inductive ReloadPhase where
  | idle
  /-- The file was seen by `stat`; the read is next. -/
  | statted
  /-- The scan is finished; the merge is next. -/
  | scanned (aliases : Except AliasError AliasMap)
  deriving DecidableEq

/-- The shared state, and where each call stands. -/
structure AliasState (ι ε : Type) where
  table : AliasTable
  file : Option Bytes
  calls : ι → CallPhase ε
  reload : ReloadPhase

/-- The critical sections and file operations of the calls and of a Reload. -/
inductive AliasAction (ι σ : Type) where
  /-- A call runs its first critical section; `view` is the rest of the state at that moment. -/
  | edit (c : ι) (view : σ)
  /-- A call writes the file. -/
  | save (c : ι) (env : AliasWriteEnv)
  /-- A call runs its second critical section. -/
  | commit (c : ι)
  /-- The Reload looks at the file, -/
  | reloadStat (fault : Option Fault)
  /-- reads it, -/
  | reloadRead (fault : Option Fault)
  /-- and merges what it read. -/
  | merge
  /-- Another program replaces or removes the file. -/
  | external (file : Option Bytes)

section

variable {ι σ ε : Type} [DecidableEq ι]

/-- The alias part of a Reload's scan, once `load_aliases` has answered. -/
def ReloadPhase.afterLoad (answer : Except IoError AliasMap) : ReloadPhase :=
  match scanAliases answer with
  | some aliases => .scanned aliases
  | none => .idle

/-- The alias part of `merge_scan`. -/
def AliasTable.merge (table : AliasTable) : Except AliasError AliasMap → AliasTable
  | .ok aliases => .usable aliases
  | .error reason => table.degrade reason

def AliasState.step (toml : Toml) (prog : ι → AliasCall σ ε) (s : AliasState ι ε) :
    AliasAction ι σ → Option (AliasState ι ε)
  | .edit c view =>
    match s.calls c with
    | .ready attempt =>
      some { s with calls := Function.update s.calls c (beginAttempt (prog c) view s.table attempt) }
    | _ => none
  | .save c env =>
    match s.calls c with
    | .edited attempt base next =>
      let (result, file) := saveAliasesTo toml env next s.file
      some { s with file, calls := Function.update s.calls c (.written attempt base next result) }
    | _ => none
  | .commit c =>
    match s.calls c with
    | .written attempt base next result =>
      let (table, phase) := finishAttempt (prog c) s.table attempt base next result
      some { s with table, calls := Function.update s.calls c phase }
    | _ => none
  | .reloadStat fault =>
    match s.reload with
    | .idle =>
      match statAliases fault s.file with
      | some answer => some { s with reload := .afterLoad answer }
      | none => some { s with reload := .statted }
    | _ => none
  | .reloadRead fault =>
    match s.reload with
    | .statted => some { s with reload := .afterLoad (readAliases toml fault s.file) }
    | _ => none
  | .merge =>
    match s.reload with
    | .scanned aliases => some { s with table := s.table.merge aliases, reload := .idle }
    | _ => none
  | .external file => some { s with file }

/-- The state before any call has begun. -/
def AliasState.start (table : AliasTable) (file : Option Bytes) : AliasState ι ε :=
  { table, file, calls := fun _ => .ready 1, reload := .idle }

/-! ## Where a call stands -/

/-- The call has begun and has not ended. A call at its first attempt has not begun until it has
read the table. -/
def CallPhase.inFlight : CallPhase ε → Bool
  | .ready attempt => attempt != 1
  | .edited .. => true
  | .written .. => true
  | .done _ => false

/-- The call stands between its look at the table and its write of the file. -/
def CallPhase.isEdited : CallPhase ε → Bool
  | .edited .. => true
  | _ => false

/-! ## What a run has done -/

/-- What became of the attempt that wrote some bytes. -/
inductive WriteStatus where
  | pending
  | committed
  | abandoned
  deriving DecidableEq, Repr

/-- What is recorded of a run beside the state. -/
structure AliasLog (ι : Type) where
  /-- The call whose bytes the file holds and what became of them; `none` when the bytes were there
  from the start or come from another program. -/
  held : Option (ι × WriteStatus)
  /-- The same for the bytes that the Reload under way has read. -/
  source : Option (ι × WriteStatus)
  /-- Since that read, a call has committed whose bytes were not the ones read. -/
  raced : Bool
  /-- For each name, what the table must say of it: the value that the last committed edit of that
  name gave it, unless a later edit or another program has taken it back. -/
  promised : String → Option (Option String)
  /-- A merge has degraded the table, and no scan has read the file since. -/
  unreadable : Bool
  /-- A call has replaced the file while it was unreadable. -/
  overwritten : Bool

def AliasLog.start : AliasLog ι :=
  { held := none, source := none, raced := false, promised := fun _ => none, unreadable := false,
    overwritten := false }

/-- The last call that wrote the file. -/
def AliasLog.writer (log : AliasLog ι) : Option ι := log.held.map Prod.fst

/-- Some bytes after the attempt of `c` has ended: if they are that attempt's, their status. -/
def settle (c : ι) (status : WriteStatus) : Option (ι × WriteStatus) → Option (ι × WriteStatus)
  | some (d, .pending) => if d = c then some (d, status) else some (d, .pending)
  | bytes => bytes

/-- The promises after the table has changed from `current` to `next` by an edit of `base`. A name
the edit changed is promised its new value if `kept` holds; a name the change of table touches
otherwise is no longer promised. -/
def promisesAfter (kept : Bool) (current base next : AliasMap)
    (promised : String → Option (Option String)) (name : String) : Option (Option String) :=
  if base[name]? ≠ next[name]? then if kept then some next[name]? else none
  else if current[name]? ≠ next[name]? then none
  else promised name

/-- The promises another program leaves: those its file still keeps. A file that cannot be read
takes nothing back. -/
def promisesIn (toml : Toml) (file : Option Bytes) (promised : String → Option (Option String))
    (name : String) : Option (Option String) :=
  match readAliases toml none file with
  | .ok aliases => (promised name).filter fun value => aliases[name]? = value
  | .error _ => promised name

/-- The log after an action, from the states before and after it. A committed edit is promised if
the file still holds some call's bytes; when another program has replaced the file between the
call's write and its commit, the promise is dropped. -/
def AliasLog.record (toml : Toml) (prog : ι → AliasCall σ ε) (before : AliasState ι ε)
    (action : AliasAction ι σ) (after : AliasState ι ε) (log : AliasLog ι) : AliasLog ι :=
  match action with
  | .edit _ _ => log
  | .save c _ =>
    match after.calls c with
    | .written _ _ _ (.ok ()) =>
      { log with held := some (c, .pending), overwritten := log.overwritten || log.unreadable }
    | _ => log
  | .commit c =>
    match before.calls c, after.calls c with
    | .written _ base next _, .done .committed =>
      { log with
        held := settle c .committed log.held
        source := settle c .committed log.source
        raced := log.raced || decide (log.source ≠ some (c, .pending))
        promised := promisesAfter log.held.isSome before.table.known base next log.promised }
    | .written _ base next _, .done (.notWritten _) =>
      { log with
        held := settle c .abandoned log.held
        source := settle c .abandoned log.source
        -- an edit kept in memory only is promised to no one
        promised :=
          if (prog c).onWriteError = .keep then
            promisesAfter false before.table.known base next log.promised
          else log.promised }
    | _, _ =>
      { log with held := settle c .abandoned log.held, source := settle c .abandoned log.source }
  | .reloadStat _ | .reloadRead _ =>
    match after.reload with
    | .scanned (.ok _) => { log with source := log.held, raced := false, unreadable := false }
    | _ => log
  | .merge =>
    match before.reload with
    | .scanned (.error _) => { log with unreadable := true }
    | _ => log
  | .external file => { log with held := none, promised := promisesIn toml file log.promised }

/-- The alias table and its callers, with what has been seen of them. -/
structure AliasSystem (ι ε : Type) where
  state : AliasState ι ε
  log : AliasLog ι

def AliasSystem.step (toml : Toml) (prog : ι → AliasCall σ ε) (s : AliasSystem ι ε)
    (a : AliasAction ι σ) : Option (AliasSystem ι ε) :=
  (s.state.step toml prog a).map fun after =>
    { state := after, log := s.log.record toml prog s.state a after }

/-- The start. A daemon that could not read the file at startup begins with it marked. -/
def AliasSystem.start (table : AliasTable) (file : Option Bytes) : AliasSystem ι ε :=
  { state := .start table file
    log := { AliasLog.start with
      unreadable :=
        match table with
        | .usable _ => false
        | .degraded .. => true } }

end

end SecretManager
