import SecretManager.Import.Run

/-!
# A run among processes that create vaults

One import run and any number of other processes in one vault directory, each creating a vault by
`publish_new`, call by call. `Without` keeps beside them what the directory would hold had the run
not been started: the others make the same calls there, and the kernel answers each from what it
then finds. It also says whether the file at the run's own path is one the run put there.
-/

namespace SecretManager.Import

/-- Another process: the vault file it creates, and the bytes and the answers of its
`publish_new`. -/
structure Creator where
  path : VaultPath
  call : PublishCall
  vaultFile : (vaultStem path.name).isSome = true

/-- Its next call, where there is one. -/
def Creator.next (c : Creator) (statFails : Bool) (phase : PublishPhase) (dir : Dir) :
    Option (PublishPhase × Dir) :=
  match phase, statFails with
  | .done _, _ => none
  | .looking, true => some (.done (.error (.alreadyExists c.path)), dir)
  | .checking, true => some (.done (.error (.alreadyExists c.path)), dir)
  | _, true => none
  | phase, false =>
    let (phase, file) := phase.next c.path c.call dir[c.path.name]?
    some (phase, dir.put c.path.name file)

structure Neighbours (ι : Type) where
  disk : Disk
  run : ImportPhase
  others : ι → PublishPhase

inductive NeighbourAction (ι : Type) where
  | run (a : ImportAction)
  | other (i : ι) (statFails : Bool)

section

variable {ι : Type} [DecidableEq ι]

def Neighbours.step (x : Externals) (toml : Toml) (cfg : Config) (job : ImportJob)
    (creators : ι → Creator) (s : Neighbours ι) : NeighbourAction ι → Option (Neighbours ι)
  | .run a => (job.step x toml cfg s.disk s.run a).map fun next => { s with run := next.1, disk := next.2 }
  | .other i statFails =>
    ((creators i).next statFails (s.others i) s.disk.dir).map fun next =>
      { s with others := Function.update s.others i next.1, disk := { s.disk with dir := next.2 } }

/-- What there would be without the run, and whether the file at the run's path is its own. -/
structure Without (ι : Type) where
  own : Bool
  disk : Disk
  others : ι → PublishPhase

/-- A step of the run: a file that comes to be at its path is its own until it goes. -/
def Without.afterRun (w : Without ι) (before after : Option Bytes) : Without ι :=
  { w with own := after.isSome && (before.isNone || w.own) }

/-- A step of another process is made here too; a file it changes is no longer the run's. -/
def Without.afterOther (creators : ι → Creator) (w : Without ι) (i : ι) (statFails : Bool)
    (before after : Option Bytes) : Without ι :=
  let own := w.own && before == after
  match (creators i).next statFails (w.others i) w.disk.dir with
  | none => { w with own }
  | some (phase, dir) =>
    { own, disk := { w.disk with dir }, others := Function.update w.others i phase }

def Neighbours.record (cfg : Config) (job : ImportJob) (creators : ι → Creator)
    (before : Neighbours ι) (a : NeighbourAction ι) (after : Neighbours ι) (w : Without ι) :
    Without ι :=
  let own (s : Neighbours ι) : Option Bytes := s.disk.dir[(job.path cfg).name]?
  match a with
  | .run _ => w.afterRun (own before) (own after)
  | .other i statFails => w.afterOther creators i statFails (own before) (own after)

def Neighbours.start (disk : Disk) : Neighbours ι × Without ι :=
  (⟨disk, .checking, fun _ => .writing⟩, ⟨false, disk, fun _ => .writing⟩)

end

end SecretManager.Import
