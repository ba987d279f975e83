import SecretManager.Dbus.Prompt

/-!
# The daemon: tasks, vaults, files and the collection map

One transition system for what runs in the daemon at once: client requests that use the vault their
collection resolved to, `SetAlias` calls, create and delete prompts, the `Dismiss` calls and
disconnects that can stop those, one Reload at a time, and other programs that write the directory.
An action is one piece that nothing else can interrupt, because it runs under the state lock, under
one vault's lock, or is a single operation on a flag or a file. Locks are not state here: a task
that could be waiting for one is between two actions.
-/

namespace SecretManager

/-! ## The state -/

/-- Where the Reload that holds the semaphore stands. -/
inductive ScanPhase where
  | idle
  | scanning (loaded : List String) (scan : VaultScan)
  /-- Every entry was seen, and the alias file by `stat`; its read is next. -/
  | statted (scan : VaultScan)
  | scanned (scan : VaultScan) (aliases : Except AliasError AliasMap)

/-- The daemon between two critical sections: the directory, the vaults, and each task's progress.
-/
structure Daemon (ι : Type) where
  dir : Dir
  /-- Every vault that was created or opened, by its number. -/
  vaults : List Vault
  service : ServiceState
  aliasFile : Option Bytes
  tasks : ι → Task
  gates : ι → Gate
  reload : ScanPhase

inductive ReloadAction where
  /-- Copy the loaded ids under the state lock. -/
  | start
  /-- The directory stream gives a name. An entry that comes or goes during the scan may be given
  or not, so any name can come. -/
  | entry (name : String)
  | stat (fault : Option Fault)
  | read (fault : Option Fault)
  /-- The directory cannot be read. -/
  | fail

/-- What can happen next: a critical section or a file operation of one task, or a change by another
program. -/
inductive Action (ι : Type) where
  | task (t : ι) (a : TaskAction)
  | gate (t : ι) (a : GateAction)
  /-- A request makes one call on the vault it holds, under that vault's lock. -/
  | operate (t : ι) (op : VaultOp)
  /-- A confirmed delete retires its vault and unlinks the file, under the vault's lock. -/
  | unlink (t : ι) (fault : Option IoError)
  /-- It takes the id out of the collection map. -/
  | unmap (t : ι)
  /-- The blocking job of a create runs. -/
  | job (t : ι) (env : CreateEnv)
  /-- A create puts its vault into the collection map. -/
  | insert (t : ι)
  /-- A task runs the next piece of its alias update. -/
  | aliases (t : ι) (env : AliasWriteEnv)
  | reload (a : ReloadAction)
  | merge
  /-- Another program replaces or removes a vault file, -/
  | externalVault (name : String) (file : Option Bytes)
  /-- or the alias file. -/
  | externalAliases (file : Option Bytes)

/-! ## The pieces -/

section

variable {ι : Type}

/-- The vault with this number and the file at its path. -/
def Daemon.world (s : Daemon ι) (h : Handle) : Option World :=
  s.vaults[h]?.map fun v => ⟨v, s.dir[v.path.name]?⟩

/-- Put a vault and the file at its path back. -/
def Daemon.setWorld (s : Daemon ι) (h : Handle) (w : World) : Daemon ι :=
  { s with vaults := s.vaults.set h w.vault, dir := s.dir.put w.vault.path.name w.file }

def Daemon.setTask [DecidableEq ι] (s : Daemon ι) (t : ι) (task : Task) : Daemon ι :=
  { s with tasks := Function.update s.tasks t task }

/-- The attempts a create makes to find a free name. -/
def nameAttempts : Nat := 3

/-- What a create does with the error of its job. -/
def Task.afterError (label : String) (aliasName : Option String) (pin : Bytes) (attempt : Nat) :
    VaultError → Task
  | .alreadyExists _ =>
    if attempt < nameAttempts then .create label aliasName (.naming pin (attempt + 1))
    else .returned none
  | _ => .returned none

/-- What a create does once its vault is in the map. -/
def Task.afterInsert (label : String) (aliasName : Option String) (id : String) : Task :=
  match aliasName with
  | none => .returned (some id)
  | some name => .create label aliasName (.recording id name (.ready 1))

/-- The alias update a task is in, and where it stands. -/
def Task.update : Task → Option (AliasCall ServiceView DbusError × CallPhase DbusError)
  | .setAlias name collection call => some (SecretManager.setAlias name collection, call)
  | .create _ _ (.recording id name call) => some (recordAlias name id, call)
  | .delete id (.purging _ call) => some (purgeAliases id, call)
  | _ => none

/-- The task once its alias update has come to `call`. -/
def Task.updated (call : CallPhase DbusError) : Task → Task
  | .setAlias name collection _ =>
    match call with
    | .done _ => .finished
    | call => .setAlias name collection call
  | .create label aliasName (.recording id name _) =>
    match call with
    | .done _ => .returned (some id)
    | call => .create label aliasName (.recording id name call)
  | .delete id (.purging h _) =>
    match call with
    | .done _ => .returned (some id)
    | call => .delete id (.purging h call)
  | task => task

/-- The next piece of an alias update: the table, the file and the phase it leaves. -/
def updatePiece (toml : Toml) (call : AliasCall ServiceView DbusError) (st : ServiceState)
    (env : AliasWriteEnv) (file : Option Bytes) :
    CallPhase DbusError → AliasTable × Option Bytes × CallPhase DbusError
  | .ready attempt => (st.aliases, file, beginAttempt call st.view st.aliases attempt)
  | .edited attempt base next =>
    let (result, file) := saveAliasesTo toml env next file
    (st.aliases, file, .written attempt base next result)
  | .written attempt base next result =>
    let (table, phase) := finishAttempt call st.aliases attempt base next result
    (table, file, phase)
  | .done outcome => (st.aliases, file, .done outcome)

/-- The scan once `load_aliases` has answered. -/
def ScanPhase.afterLoad (scan : VaultScan) (answer : Except IoError AliasMap) : ScanPhase :=
  match scanAliases answer with
  | some aliases => .scanned scan aliases
  | none => .idle

def Daemon.reloadStep (x : Externals) (toml : Toml) (cfg : Config) (s : Daemon ι) : ReloadAction →
    Option (Daemon ι)
  | .start =>
    match s.reload with
    | .idle => some { s with reload := .scanning s.service.loadedIds .empty }
    | _ => none
  | .entry name =>
    match s.reload with
    | .scanning loaded scan =>
      let (scan, vaults) := scanEntry x cfg loaded name s.dir[name]? scan s.vaults
      some { s with vaults, reload := .scanning loaded scan }
    | _ => none
  | .stat fault =>
    match s.reload with
    | .scanning _ scan =>
      match statAliases fault s.aliasFile with
      | some answer => some { s with reload := .afterLoad scan answer }
      | none => some { s with reload := .statted scan }
    | _ => none
  | .read fault =>
    match s.reload with
    | .statted scan => some { s with reload := .afterLoad scan (readAliases toml fault s.aliasFile) }
    | _ => none
  | .fail =>
    match s.reload with
    | .scanning .. => some { s with reload := .idle }
    | _ => none

def Daemon.step [DecidableEq ι] (x : Externals) (toml : Toml) (cfg : Config) (s : Daemon ι) :
    Action ι → Option (Daemon ι)
  | .task t a =>
    ((s.tasks t).advance s.service s.dir (s.gates t) a).map fun (task, g) =>
      { s.setTask t task with gates := Function.update s.gates t g }
  | .gate t a =>
    ((s.gates t).step a).map fun g => { s with gates := Function.update s.gates t g }
  | .operate t op =>
    match s.tasks t with
    | .request h => (s.world h).map fun w => s.setWorld h (op.apply x w).2
    | _ => none
  | .unlink t fault =>
    match s.tasks t with
    | .delete id (.committed h) =>
      (s.world h).map fun w =>
        if w.vault.isLocked then s.setTask t (.returned none)
        else
          match removeFile fault w.file with
          | (.error _, file) =>
            (s.setWorld h ⟨w.vault.retire.unretire, file⟩).setTask t (.returned none)
          | (.ok (), file) => (s.setWorld h ⟨w.vault.retire, file⟩).setTask t (.delete id (.unlinked h))
    | _ => none
  | .unmap t =>
    match s.tasks t with
    | .delete id (.unlinked h) =>
      some { s.setTask t (.delete id (.purging h (.ready 1))) with
        service := { s.service with collections := s.service.collections.erase id } }
    | _ => none
  | .job t env =>
    match s.tasks t with
    | .create label aliasName (.running pin attempt id) =>
      match Vault.create x env (cfg.path id) label pin cfg.kdf s.dir[(cfg.path id).name]? with
      | (.ok v, file) =>
        some { s.setTask t (.create label aliasName (.created id s.vaults.length)) with
          vaults := s.vaults ++ [v], dir := s.dir.put (cfg.path id).name file }
      | (.error e, file) =>
        some { s.setTask t (.afterError label aliasName pin attempt e) with
          dir := s.dir.put (cfg.path id).name file }
    | .orphan label pin id =>
      match Vault.create x env (cfg.path id) label pin cfg.kdf s.dir[(cfg.path id).name]? with
      | (.ok v, file) =>
        some { s.setTask t .dead with
          vaults := s.vaults ++ [v], dir := s.dir.put (cfg.path id).name file }
      | (.error _, file) =>
        some { s.setTask t .dead with dir := s.dir.put (cfg.path id).name file }
    | _ => none
  | .insert t =>
    match s.tasks t with
    | .create label aliasName (.created id h) =>
      s.vaults[h]?.map fun v =>
        { s.setTask t (.afterInsert label aliasName id) with
          vaults := s.vaults.set h (v.setIndexAttributes cfg.indexAttributes)
          service := { s.service with collections := s.service.collections.insert id h } }
    | _ => none
  | .aliases t env =>
    (s.tasks t).update.map fun (call, phase) =>
      let (aliases, aliasFile, phase) := updatePiece toml call s.service env s.aliasFile phase
      { s.setTask t ((s.tasks t).updated phase) with
        service := { s.service with aliases }, aliasFile }
  | .reload a => s.reloadStep x toml cfg a
  | .merge =>
    match s.reload with
    | .scanned scan aliases =>
      some { s with service := (mergeScan s.service scan aliases).1, reload := .idle }
    | _ => none
  | .externalVault name file => some { s with dir := s.dir.put name file }
  | .externalAliases aliasFile => some { s with aliasFile }

end

/-! ## Startup -/

/-- `load_aliases` with nothing running beside it. -/
def loadAliases (toml : Toml) (file : Option Bytes) : Except IoError AliasMap :=
  match statAliases none file with
  | some answer => answer
  | none => readAliases toml none file

/-- The scan at startup: every entry of the directory, with nothing loaded. -/
def bootScan (x : Externals) (cfg : Config) (entries : List (String × Bytes)) :
    VaultScan × List Vault :=
  entries.foldl (fun acc entry => scanEntry x cfg [] entry.1 (some entry.2) acc.1 acc.2)
    (.empty, [])

/-- The daemon after startup, if its alias file does not keep it from starting. -/
def Daemon.boot (ι : Type) (x : Externals) (toml : Toml) (cfg : Config) (dir : Dir)
    (aliasFile : Option Bytes) : Option (Daemon ι) :=
  (scanAliases (loadAliases toml aliasFile)).map fun aliases =>
    let (scan, vaults) := bootScan x cfg dir.toList
    { dir, vaults, aliasFile
      service := (mergeScan { collections := ∅, broken := ∅, aliases := .usable ∅ } scan aliases).1
      tasks := fun _ => .idle
      gates := fun _ => .new
      reload := .idle }

end SecretManager
