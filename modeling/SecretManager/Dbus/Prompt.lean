import SecretManager.Dbus.Collections

/-!
# Prompt tasks and the calls that can stop them

`src/dbus/prompt.rs` and `reclaim_prompt` of `src/daemon.rs`. A confirmed create or delete runs as a
task of its own. The task, `Dismiss` and the watcher that sees the owner leave share the flags of
`Gate`. A task is cut wherever another task can run: at every `await`, and around every access to a
flag. The pieces that touch only the task and its flags are here; those that touch vaults, files and
the collection map are in the daemon.

`abort` does not stop a task at once. It takes effect when the task next waits, so a task that
finds every lock free runs on; and the blocking job of a create runs on even after its task is gone.
-/

namespace SecretManager

/-! ## The flags of a prompt -/

structure Gate where
  /-- The commit gate. -/
  committed : Bool
  /-- Some `Dismiss` has been received. -/
  cancelled : Bool
  /-- The prompt has an entry in `prompt_owners`, -/
  owned : Bool
  /-- in `prompt_tasks`, -/
  handle : Bool
  /-- and in `prompt_commits`. -/
  shown : Bool
  /-- A `Dismiss` has won the gate and has not finished the prompt yet. -/
  dismissing : Bool
  /-- Someone has taken the abort handle and is about to use it. -/
  aborting : Bool
  /-- The task has been told to abort. -/
  aborted : Bool
  deriving DecidableEq, Repr

/-- The flags of a prompt that was handed out and not performed. -/
def Gate.new : Gate :=
  { committed := false, cancelled := false, owned := true, handle := false, shown := false,
    dismissing := false, aborting := false, aborted := false }

/-- Someone is about to abort the task, or has. -/
def Gate.told (g : Gate) : Bool := g.aborting || g.aborted

/-- `claim`: true for the first caller only. -/
def Gate.claim (g : Gate) : Bool × Gate := (!g.committed, { g with committed := true })

/-- What `prompt()` registers along with the task. -/
def Gate.register (g : Gate) : Gate := { g with handle := true, shown := true }

/-- The entries that `finish` removes. -/
def Gate.finish (g : Gate) : Gate := { g with handle := false, shown := false, owned := false }

/-- `reclaim_prompt`, up to the abort. The gate is read and not claimed; a gate that is not shown
counts as unclaimed. -/
def Gate.reclaimPrompt (g : Gate) : Gate :=
  let committed := g.shown && g.committed
  { g with owned := false, shown := false, handle := false,
           aborting := g.aborting || (g.handle && !committed) }

inductive GateAction where
  /-- The owner has left the bus. -/
  | reclaim
  /-- `dismiss` records itself, -/
  | dismiss
  /-- tries the gate and takes the handle, -/
  | dismissClaim
  /-- and, if it has won, finishes the prompt. -/
  | dismissFinish
  /-- Whoever took the handle calls `abort`. -/
  | abort
  deriving DecidableEq, Repr

def Gate.step (g : Gate) : GateAction → Option Gate
  | .reclaim => if g.owned then some g.reclaimPrompt else none
  | .dismiss => some { g with cancelled := true }
  | .dismissClaim =>
    if !g.cancelled then none
    else
      match g.claim with
      | (false, _) => some g
      | (true, g') =>
        some { g' with handle := false, dismissing := true, aborting := g.aborting || g.handle }
  | .dismissFinish => if g.dismissing then some { g.finish with dismissing := false } else none
  | .abort => if g.aborting then some { g with aborting := false, aborted := true } else none

/-! ## Where a task stands -/

/-- A create prompt's task. -/
inductive CreatePhase where
  | opened
  /-- The dialog is up. -/
  | asking
  | answered (pin : Bytes)
  | checked (pin : Bytes)
  /-- The gate is won; the state lock is next. -/
  | naming (pin : Bytes) (attempt : Nat)
  | named (pin : Bytes) (attempt : Nat) (loaded : List String)
  /-- Waiting for a derivation slot. -/
  | queued (pin : Bytes) (attempt : Nat) (id : String)
  /-- The blocking job is under way. -/
  | running (pin : Bytes) (attempt : Nat) (id : String)
  /-- The job has returned a vault; the state lock is next. -/
  | created (id : String) (h : Handle)
  | recording (id name : String) (call : CallPhase DbusError)

/-- A delete prompt's task, with the vault it looked up when it began. -/
inductive DeletePhase where
  | opened (h : Handle)
  | asking (h : Handle)
  | confirmed (h : Handle)
  | checked (h : Handle)
  /-- The gate is won; the vault's lock is next. -/
  | committed (h : Handle)
  /-- The file is gone; the state lock is next. -/
  | unlinked (h : Handle)
  | purging (h : Handle) (call : CallPhase DbusError)

inductive Task where
  | idle
  /-- A client's request that holds the vault its collection resolved to. -/
  | request (h : Handle)
  /-- A `SetAlias` call. -/
  | setAlias (name collection : String) (call : CallPhase DbusError)
  | create (label : String) (aliasName : Option String) (phase : CreatePhase)
  | delete (id : String) (phase : DeletePhase)
  /-- A prompt's work is over, with the collection it made or deleted. -/
  | returned (collection : Option String)
  | finished
  /-- The task was aborted. -/
  | dead
  /-- The task was aborted and left its blocking job behind. -/
  | orphan (label : String) (pin : Bytes) (id : String)

/-- The task stands at an `await`, where an abort takes effect. The write of the alias file and the
choice of a name block the thread and do not wait. -/
def Task.awaits : Task → Bool
  | .create _ _ phase =>
    match phase with
    | .opened | .asking | .naming .. | .queued .. | .running .. | .created .. => true
    | .answered _ | .checked _ | .named .. => false
    | .recording _ _ call => !call.isEdited
  | .delete _ phase =>
    match phase with
    | .opened _ | .asking _ | .committed _ | .unlinked _ => true
    | .confirmed _ | .checked _ => false
    | .purging _ call => !call.isEdited
  | .returned _ => true
  | _ => false

def Task.killed : Task → Task
  | .create label _ (.running pin _ id) => .orphan label pin id
  | _ => .dead

/-! ## The pieces that touch only the task and its flags -/

inductive TaskAction where
  /-- A request looks its collection up, by id or through an alias. -/
  | resolve (id : String)
  | release
  | setAlias (name collection : String)
  /-- `prompt()` spawns a delete's task, and the task looks the collection up. -/
  | beginDelete (id : String)
  | confirm (answer : Bool)
  | beginCreate (label : String) (aliasName : Option String)
  /-- The dialog of a create closes, with a password unless it failed or was cancelled. -/
  | pin (answer : Option Bytes)
  /-- The task reads `cancelled`. -/
  | check
  | claim
  /-- A create copies the loaded ids under the state lock, -/
  | snapshot
  /-- picks a name with the lock released, -/
  | name
  /-- and starts the blocking job. -/
  | startJob
  | finish
  /-- An abort takes effect. -/
  | die

def Task.advance (st : ServiceState) (dir : Dir) (g : Gate) : Task → TaskAction →
    Option (Task × Gate)
  | .idle, .resolve id => st.collections[id]?.map fun h => (.request h, g)
  | .request _, .release => some (.finished, g)
  | .idle, .setAlias name collection =>
    match checkAliasName name with
    | .ok () => some (.setAlias name collection (.ready 1), g)
    | .error _ => some (.finished, g)
  -- the owner was checked before, under another hold of the state lock, and may have left since
  | .idle, .beginDelete id =>
    match st.collections[id]? with
    | some h => some (.delete id (.opened h), g.register)
    | none => some (.returned none, g.register)
  | .delete id (.opened h), .check =>
    some (if g.cancelled then .returned none else .delete id (.asking h), g)
  | .delete id (.asking h), .confirm answer =>
    some (if answer then .delete id (.confirmed h) else .returned none, g)
  | .delete id (.confirmed h), .check =>
    some (if g.cancelled then .returned none else .delete id (.checked h), g)
  | .delete id (.checked h), .claim =>
    let (won, g') := g.claim
    some (if won then .delete id (.committed h) else .returned none, g')
  | .idle, .beginCreate label aliasName => some (.create label aliasName .opened, g.register)
  | .create label aliasName .opened, .check =>
    some (if g.cancelled then .returned none else .create label aliasName .asking, g)
  | .create label aliasName .asking, .pin answer =>
    match answer with
    | some (b :: bs) => some (.create label aliasName (.answered (b :: bs)), g)
    | _ => some (.returned none, g)
  | .create label aliasName (.answered pin), .check =>
    some (if g.cancelled then .returned none else .create label aliasName (.checked pin), g)
  | .create label aliasName (.checked pin), .claim =>
    let (won, g') := g.claim
    some (if won then .create label aliasName (.naming pin 1) else .returned none, g')
  | .create label aliasName (.naming pin attempt), .snapshot =>
    some (.create label aliasName (.named pin attempt st.loadedIds), g)
  | .create label aliasName (.named pin attempt loaded), .name =>
    some (.create label aliasName (.queued pin attempt (uniqueCollectionIdIn dir loaded label)), g)
  | .create label aliasName (.queued pin attempt id), .startJob =>
    some (.create label aliasName (.running pin attempt id), g)
  | .returned _, .finish => some (.finished, g.finish)
  | task, .die => if g.aborted && task.awaits then some (task.killed, g) else none
  | _, _ => none

end SecretManager
