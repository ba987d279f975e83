import SecretManager.Import.Pipeline
import SecretManager.Vault.Publish

/-!
# One run of `sm import`

`run_with` of `src/cli/import.rs`, from the finished extraction to its end, cut wherever something
else on the machine can come in between: at each call on a file and at each message to the daemon.
`Vault::create` is cut inside its `publish_new` too, since the exclusive creation of the file is the
one thing that keeps two processes apart.

A step is given the answers of the kernel, of the random generator and of the daemon, and the files
it finds. What the run prints is the report; the bytes of the report file are whatever the renderer
makes.
-/

namespace SecretManager.Import

/-! ## What a run works on -/

/-- The files of the vault directory, with the alias file apart. -/
structure Disk where
  dir : Dir
  aliasFile : Option Bytes

namespace Disk

def put (d : Disk) (path : VaultPath) (file : Option Bytes) : Disk :=
  { d with dir := d.dir.put path.name file }

/-- Replace the file of this name, which may be the alias file. -/
def write (d : Disk) (name : String) (bytes : Bytes) : Disk :=
  if name = SecretManager.aliasFile then { d with aliasFile := some bytes }
  else { d with dir := d.dir.put name (some bytes) }

end Disk

/-- The arguments of a run and what it has read of the source. -/
structure ImportJob where
  file : SourceFile
  extraction : Extraction
  /-- `--collection`. -/
  collection : Option String
  password : Bytes
  dryRun : Bool
  setDefault : Bool
  /-- The name in the vault directory that `--report` gives, if it lies there. -/
  report : Option String

namespace ImportJob

def label (job : ImportJob) : String := job.collection.getD job.extraction.container

def id (job : ImportJob) : String := collectionIdFromLabel job.label

def path (cfg : Config) (job : ImportJob) : VaultPath := cfg.path job.id

/-- The items as `import_items` takes them, every field verbatim. -/
def batch (job : ImportJob) : List ImportItem :=
  job.extraction.items.map fun i =>
    { label := i.label, attributes := i.attributes, secret := i.secret, contentType := i.contentType
      created := i.created, modified := i.modified }

/-- Whether `print_report` ends with the advice to decommission the source. -/
def advises (job : ImportJob) (v : Verification) : Bool := !job.dryRun && v.maySuggestDecommission

end ImportJob

variable (x : Externals) (job : ImportJob)

inductive ImportError where
  /-- The collection exists already. -/
  | usage
  | vault (e : VaultError)
  | verification
  | probes
  /-- The collection could not be removed again. -/
  | leftover (e : ImportError) (io : IoError)
  deriving DecidableEq

/-- The two failures after which the run removes its collection again, and their variant where that
could not be done. -/
def ImportError.beforePublication : ImportError → Bool
  | .vault _ | .verification => true
  | .leftover e _ => e.beforePublication
  | .usage | .probes => false

/-! ## Creating the vault -/

/-- A `publish` that records its bytes. -/
def recordBytes : Publish := fun bytes _ => (.ok (), some bytes)

/-- `Vault::create` up to its `publish_new`: the vault it will return and the bytes it will
publish. -/
def prepareCreate (env : CreateEnv) (path : VaultPath) (label : String) (password : Bytes)
    (kdf : KdfParams) : Except VaultError World :=
  match env.ensureDir with
  | .error e => .error (.io path.parent e)
  | .ok () =>
    match Vault.build x env.build path label password kdf with
    | .error e => .error e
    | .ok v =>
      match World.saveWith x env.save recordBytes ⟨v, none⟩ with
      | (.error e, _) => .error e
      | (.ok (), w) => .ok w

/-- `reopen` up to its fingerprints: the decrypted items, whether the header is indexed, and the
file, which the unlock may have rewritten. -/
def reopen (env : SaveEnv) (path : VaultPath) (password : Bytes) (file : Option Bytes) :
    Except VaultError (List Item × Bool) × Option Bytes :=
  match Vault.open x path file with
  | .error e => (.error e, file)
  | .ok v =>
    match deriveKey x.toCiphers password v.header.salt v.header.kdf with
    | .error e => (.error (.crypto e), file)
    | .ok key =>
      match World.unlockWithKey x env key ⟨v, file⟩ with
      | (.error e, w) => (.error e, w.file)
      | (.ok (), w) =>
        match w.vault.items with
        | .error e => (.error e, w.file)
        | .ok items => (.ok (items, w.vault.indexHasAttributes), w.file)

/-- `run_probes`: `found i` is what the daemon answers to the query at `i`, if it answers. A header
without attribute hashes is not asked about. -/
def runProbes (plan : List ProbeQuery) (indexed : Bool) (found : Nat → Option Nat) :
    List ProbeResult :=
  if indexed then
    plan.mapIdx fun i query =>
      match found i with
      | some n => .new query n
      | none => .notIssued query
  else plan.map .notIssued

/-! ## Where a run stands -/

inductive AfterReport where
  | unlink (e : ImportError)
  | fail (e : ImportError)
  | finish (aliasMoved : Bool)

/-- Where an import stands. -/
inductive ImportPhase where
  /-- `vault_path.exists()` is next. -/
  | checking
  /-- The password was given; `Vault::create` is next. -/
  | creating
  /-- It is inside its `publish_new`. -/
  | publishing (v : Vault) (call : PublishCall) (phase : PublishPhase)
  | importing (v : Vault)
  | reopening
  /-- The report is next, -/
  | reporting (v : Verification) (next : AfterReport)
  /-- then the removal of the collection. -/
  | unlinking (e : ImportError)
  /-- Every offline check passed; the Reload request is next, -/
  | notifying (v : Verification) (indexed : Bool)
  /-- then its answer, -/
  | waiting (v : Verification) (indexed : Bool)
  /-- then the probes, -/
  | probing (v : Verification) (indexed reloaded : Bool)
  /-- then `load_aliases`, -/
  | statingAliases (v : Verification)
  | readingAliases (v : Verification)
  /-- then the write of the alias file. -/
  | savingAliases (v : Verification) (aliases : AliasMap)
  | ended (result : Except ImportError Bool)
  /-- A panic. -/
  | crashed

inductive ImportAction where
  /-- `exists()`, which also answers no when the `stat` fails. -/
  | look (fails : Bool)
  | create (env : CreateEnv)
  /-- The next call of `publish_new`; the `stat` of its `is_empty_file` may fail. -/
  | publish (statFails : Bool)
  | importItems (env : SaveEnv) (uuid : Nat → String)
  | reopen (env : SaveEnv)
  /-- The report is printed, and written if `--report` was given and the write succeeds. -/
  | report (written : Option Bytes)
  | unlink (fault : Option IoError)
  | send
  /-- The answer to Reload, as `notify_daemon` returns it. -/
  | answer (reloaded : Bool)
  | probe (found : Nat → Option Nat)
  | statAliases (fault : Option Fault)
  | readAliases (fault : Option Fault)
  | saveAliases (env : AliasWriteEnv)

/-! ## The pieces -/

namespace ImportJob

/-- A failed write: the report says what the offline checks make of no destination, then the file
goes. -/
def failed (e : VaultError) : ImportPhase :=
  .reporting (job.extraction.verify x job.file none) (.unlink (.vault e))

/-- The offline verification and what it leads to. -/
def verified (dest : Option Destination) : ImportPhase :=
  let v := job.extraction.verify x job.file dest
  if !v.passed then .reporting v (if job.dryRun then .fail .verification else .unlink .verification)
  else if job.dryRun then .reporting v (.finish false)
  else .notifying v (dest.any (·.indexed))

/-- What `publish_new` has come to. -/
def published (v : Vault) (call : PublishCall) : PublishPhase → ImportPhase
  | .done (.ok ()) => .importing v
  | .done (.error e) => job.failed x e
  | phase => .publishing v call phase

/-- What the read back has come to. -/
def reopened : Except VaultError (List Item × Bool) → ImportPhase
  | .error e => job.failed x e
  | .ok (items, indexed) =>
    match Destination.of x job.id items indexed with
    | none => .crashed
    | some dest => job.verified x (some dest)

/-- The results of the probes, none of which is issued to a daemon that did not reload. -/
def probeResults (indexed reloaded : Bool) (found : Nat → Option Nat) : List ProbeResult :=
  let plan := probePlan job.extraction.items
  if reloaded then runProbes plan indexed found else plan.map .notIssued

/-- The verification once the probes are in. -/
def probed (v : Verification) : ImportPhase :=
  if !v.passed then .reporting v (.fail .probes)
  else if job.setDefault then .statingAliases v
  else .reporting v (.finish false)

/-- What `load_aliases` has answered: the table with the alias moved, or the alias left alone. -/
def aliasesLoaded (v : Verification) : Except IoError AliasMap → ImportPhase
  | .error _ => .reporting v (.finish false)
  | .ok aliases => .savingAliases v (aliases.insert "default" job.id)

def afterReport : AfterReport → ImportPhase
  | .unlink e => .unlinking e
  | .fail e => .ended (.error e)
  | .finish aliasMoved => .ended (.ok aliasMoved)

/-- `unlink_partial`: an absent file is fine. -/
def unlinked (e : ImportError) : Except IoError Unit → ImportPhase
  | .ok () => .ended (.error e)
  | .error io => if io.kind = .notFound then .ended (.error e) else .ended (.error (.leftover e io))

end ImportJob

/-- One step of a run: where it stands then, and the files it leaves. -/
def ImportJob.step (toml : Toml) (cfg : Config) (job : ImportJob) (disk : Disk) :
    ImportPhase → ImportAction → Option (ImportPhase × Disk)
  | .checking, .look fails =>
    let present := !fails && (disk.dir[(job.path cfg).name]?).isSome
    if job.dryRun then some (job.verified x none, disk)
    else if present then some (.ended (.error .usage), disk)
    else some (.creating, disk)
  | .creating, .create env =>
    match prepareCreate x env (job.path cfg) job.label job.password cfg.kdf with
    | .error e => some (job.failed x e, disk)
    | .ok w => some (.publishing w.vault ⟨w.file.getD [], env.publish⟩ .writing, disk)
  | .publishing v call .looking, .publish true =>
    some (job.published x v call (.done (.error (.alreadyExists (job.path cfg)))), disk)
  | .publishing v call .checking, .publish true =>
    some (job.published x v call (.done (.error (.alreadyExists (job.path cfg)))), disk)
  | .publishing v call phase, .publish false =>
    let (phase, file) := phase.next (job.path cfg) call disk.dir[(job.path cfg).name]?
    some (job.published x v call phase, disk.put (job.path cfg) file)
  | .importing v, .importItems env uuid =>
    match (⟨v, disk.dir[(job.path cfg).name]?⟩ : World).importItems x env uuid job.batch with
    | (.error e, w) => some (job.failed x e, disk.put (job.path cfg) w.file)
    | (.ok (), w) => some (.reopening, disk.put (job.path cfg) w.file)
  | .reopening, .reopen env =>
    let (answer, file) := reopen x env (job.path cfg) job.password disk.dir[(job.path cfg).name]?
    some (job.reopened x answer, disk.put (job.path cfg) file)
  | .reporting _ next, .report written =>
    match job.report, written with
    | some name, some bytes => some (ImportJob.afterReport next, disk.write name bytes)
    | _, _ => some (ImportJob.afterReport next, disk)
  | .unlinking e, .unlink fault =>
    let (answer, file) := removeFile fault disk.dir[(job.path cfg).name]?
    some (ImportJob.unlinked e answer, disk.put (job.path cfg) file)
  | .notifying v indexed, .send => some (.waiting v indexed, disk)
  | .waiting v indexed, .answer reloaded => some (.probing v indexed reloaded, disk)
  | .probing v indexed reloaded, .probe found =>
    some (job.probed (v.probed (job.probeResults indexed reloaded found)), disk)
  | .statingAliases v, .statAliases fault =>
    match SecretManager.statAliases fault disk.aliasFile with
    | some answer => some (job.aliasesLoaded v answer, disk)
    | none => some (.readingAliases v, disk)
  | .readingAliases v, .readAliases fault =>
    some (job.aliasesLoaded v (SecretManager.readAliases toml fault disk.aliasFile), disk)
  | .savingAliases v aliases, .saveAliases env =>
    match saveAliasesTo toml env aliases disk.aliasFile with
    | (.ok (), file) => some (.reporting v (.finish true), { disk with aliasFile := file })
    | (.error _, file) => some (.reporting v (.finish false), { disk with aliasFile := file })
  | _, _ => none

/-! ## A run beside everything else -/

structure ImportSystem where
  phase : ImportPhase
  disk : Disk

inductive SystemAction where
  | run (a : ImportAction)
  /-- Something else on the machine changes the files. -/
  | elsewhere (disk : Disk)

def ImportSystem.step (toml : Toml) (cfg : Config) (job : ImportJob) (s : ImportSystem) :
    SystemAction → Option ImportSystem
  | .run a => (job.step x toml cfg s.disk s.phase a).map fun next => ⟨next.1, next.2⟩
  | .elsewhere disk => some { s with disk }

/-- What the machine and the daemon have answered a run so far. -/
structure Evidence where
  /-- The items the collection holds once `import_items` has succeeded. -/
  written : List Item := []
  /-- The items that were decrypted from the file again, and whether its header is indexed. -/
  readBack : Option (List Item × Bool) := none
  /-- What the daemon finds for each probe, if it has reloaded. -/
  daemon : Option (Nat → Option Nat) := none

/-- What one action adds to the evidence. -/
def ImportSystem.record (cfg : Config) (job : ImportJob) (before : ImportSystem) (a : SystemAction)
    (_after : ImportSystem) (e : Evidence) : Evidence :=
  match before.phase, a with
  | .importing v, .run (.importItems env uuid) =>
    match (⟨v, before.disk.dir[(job.path cfg).name]?⟩ : World).importItems x env uuid job.batch with
    | (.ok (), w) => { e with written := w.vault.items.toOption.getD e.written }
    | (.error _, _) => e
  | .reopening, .run (.reopen env) =>
    { e with
      readBack := (reopen x env (job.path cfg) job.password
        before.disk.dir[(job.path cfg).name]?).1.toOption }
  | .probing _ _ reloaded, .run (.probe found) =>
    { e with daemon := if reloaded then some found else none }
  | _, _ => e

end SecretManager.Import
