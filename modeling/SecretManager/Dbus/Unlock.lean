import SecretManager.Dbus.Daemon

/-!
# The task of an Unlock prompt

The `Unlock` arm of `run` in `src/dbus/prompt.rs`, with `unlock_collection_inner`. One prompt walks
a list of collections and raises a dialog for each that is locked. Unlocking is reversible, so the
commit gate is reset at the top of every collection and claimed by the first password given for it.
What the prompt has opened is to be locked again if its owner leaves the bus: by the task itself,
which looks for its owner once its loop is over, or by the watcher that sees the owner leave, from
the record the task keeps of what it is about to open.

The task is cut wherever another task can run, as the tasks of creates and deletes are.
-/

namespace SecretManager

/-! ## Where the task stands -/

/-- How the wait for the one dialog slot ends. -/
inductive SlotAnswer where
  | free
  | busy
  | failed

inductive PinAnswer where
  | pin (pin : Bytes)
  | cancelled
  | busy
  | failed

/-- Where the loop of an unlock prompt stands: one constructor for each point between two locks. -/
inductive UnlockPhase where
  /-- `prompt()` has not spawned the task. -/
  | idle
  /-- The top of the loop. -/
  | next
  /-- The gate is reset; the task reads `cancelled`, -/
  | checking (id : String)
  /-- and looks for its owner. -/
  | owner (id : String)
  | lookup (id : String)
  | peek (id : String) (h : Handle)
  /-- Waiting for the dialog slot. -/
  | queued (id : String) (h : Handle)
  | asking (id : String) (h : Handle) (attempt : Nat)
  /-- The first password is there; the gate is next. -/
  | answered (id : String) (h : Handle) (pin : Bytes)
  | loaded (id : String) (h : Handle) (attempt : Nat) (pin : Bytes)
  | salting (id : String) (h : Handle) (attempt : Nat) (pin : Bytes)
  | deriving (id : String) (h : Handle) (attempt : Nat) (pin : Bytes) (salt : Salt) (kdf : KdfParams)
  | derived (id : String) (h : Handle) (attempt : Nat) (key : Key)
  | recording (id : String) (h : Handle) (attempt : Nat) (key : Key)
  /-- The id is recorded; the vault's lock is next. -/
  | opening (id : String) (h : Handle) (attempt : Nat) (key : Key)
  /-- The vault refused the key; the record is to be taken back. -/
  | dropping (id : String) (h : Handle) (attempt : Nat) (e : VaultError)
  /-- The vault took the key; the activity is to be recorded, -/
  | touching (id : String)
  /-- and the change announced. -/
  | notifying (id : String)
  /-- The loop is over; the task looks for its owner. -/
  | leaving
  /-- The owner is gone; the task takes its record and looks the vaults up, -/
  | collecting
  /-- and locks them again. -/
  | relocking (todo : List (Option Handle))
  /-- The owner is there; the task reads which of the objects are unlocked now. -/
  | answering
  | returned (dismissed : Bool)
  | finished
  /-- The task was aborted. -/
  | dead

/-- The task of an unlock prompt, with the locals its loop carries. -/
structure UnlockTask where
  phase : UnlockPhase
  /-- The collections not reached yet. -/
  rest : List String
  any : Bool
  /-- `unlocked_now`. -/
  mine : List String

def UnlockTask.idle : UnlockTask := { phase := .idle, rest := [], any := false, mine := [] }

def UnlockTask.goto (task : UnlockTask) (phase : UnlockPhase) : UnlockTask := { task with phase }

/-- The task stands at an `await`, where an abort takes effect. -/
def UnlockPhase.awaits : UnlockPhase → Bool
  | .idle | .next | .checking _ | .answered .. | .finished | .dead => false
  | _ => true

/-- The attempts at one collection's password. -/
def pinAttempts : Nat := 3

/-- Where a refused key leads. -/
def UnlockPhase.afterRefusal (id : String) (h : Handle) (attempt : Nat) : VaultError → UnlockPhase
  | .wrongPassword => if attempt < pinAttempts then .asking id h (attempt + 1) else .next
  | _ => .next

/-! ## The pieces that touch only the task and its gate -/

inductive UnlockAction where
  /-- `prompt()` spawns the task. -/
  | start (collections : List String)
  | turn
  | check
  | owner
  | lookup
  | peek
  | session (answer : SlotAnswer)
  | answer (answer : PinAnswer)
  | claim
  /-- `still_loaded`, before the derivation and after it. -/
  | loaded
  | params
  | derive (fault : Option CryptoError)
  | notify
  | leave
  | report
  /-- An abort takes effect. -/
  | die

def UnlockTask.advance (x : Externals) (st : ServiceState) (vaults : List Vault) (g : Gate)
    (task : UnlockTask) (a : UnlockAction) : Option (UnlockTask × Gate) :=
  match task.phase, a with
  | .idle, .start collections =>
    some ({ phase := .next, rest := collections, any := false, mine := [] }, g.register)
  | .next, .turn =>
    match task.rest with
    | [] => some (task.goto .leaving, g)
    | id :: rest => some ({ task with phase := .checking id, rest }, { g with committed := false })
  | .checking id, .check => some (task.goto (if g.cancelled then .leaving else .owner id), g)
  | .owner id, .owner => some (task.goto (if g.owned then .lookup id else .leaving), g)
  | .lookup id, .lookup =>
    match st.brokenError id, st.collections[id]? with
    | none, some h => some (task.goto (.peek id h), g)
    | _, _ => some (task.goto .next, g)
  | .peek id h, .peek =>
    vaults[h]?.map fun v =>
      if v.isLocked then (task.goto (.queued id h), g) else ({ task with phase := .next, any := true }, g)
  | .queued id h, .session answer =>
    match answer with
    | .free => some (task.goto (.asking id h 1), g)
    | .busy => some (task.goto .leaving, g)
    | .failed => some (task.goto .next, g)
  | .asking id h attempt, .answer answer =>
    match answer with
    -- the gate is claimed by the first answer only
    | .pin pin => some (task.goto (if attempt = 1 then .answered id h pin else .loaded id h attempt pin), g)
    | .cancelled | .busy => some (task.goto .leaving, g)
    | .failed => some (task.goto .next, g)
  | .answered id h pin, .claim =>
    let (won, g') := g.claim
    some (task.goto (if won then .loaded id h 1 pin else .leaving), g')
  | .loaded id h attempt pin, .loaded =>
    some (task.goto (if st.collections[id]? = some h then .salting id h attempt pin else .next), g)
  | .salting id h attempt pin, .params =>
    vaults[h]?.map fun v => (task.goto (.deriving id h attempt pin v.header.salt v.header.kdf), g)
  | .deriving id h attempt pin salt kdf, .derive fault =>
    match fault, deriveKey x.toCiphers pin salt kdf with
    | none, .ok key => some (task.goto (.derived id h attempt key), g)
    | _, _ => some (task.goto .next, g)
  | .derived id h attempt key, .loaded =>
    some (task.goto (if st.collections[id]? = some h then .recording id h attempt key else .next), g)
  | .notifying id, .notify =>
    some ({ task with phase := .next, any := true, mine := task.mine ++ [id] }, g)
  | .leaving, .leave =>
    some (task.goto (if !g.owned then .collecting else if task.any then .answering else .returned true), g)
  | .answering, .report => some (task.goto (.returned false), g)
  | phase, .die => if g.aborted && phase.awaits then some (task.goto .dead, g) else none
  | _, _ => none

/-! ## The prompt -/

/-- A prompt: its task, its flags, and what is kept of it elsewhere. -/
structure UnlockPrompt where
  task : UnlockTask
  gate : Gate
  /-- Its entry in `prompt_unlocked`; none if empty. -/
  record : List String
  /-- What the watcher has yet to lock again. -/
  relocks : List (Option Handle)

def UnlockPrompt.new : UnlockPrompt := { task := .idle, gate := .new, record := [], relocks := [] }

/-- Take the last occurrence of an id away. -/
def dropLast (id : String) (ids : List String) : List String := (ids.reverse.erase id).reverse

/-- The calls that can stop the prompt. A disconnect leaves the record to a task that has won its
gate, and takes it otherwise. Two `Dismiss` calls can both win, when the gate was reset in between,
so one that has finished does not keep another from finishing. -/
def UnlockPrompt.gateStep (collections : Std.ExtTreeMap String Handle) (p : UnlockPrompt) :
    GateAction → Option UnlockPrompt
  | .reclaim =>
    if !p.gate.owned then none
    else if p.gate.handle && (p.gate.shown && p.gate.committed) then
      some { p with gate := p.gate.reclaimPrompt }
    else
      some { p with gate := p.gate.reclaimPrompt, record := []
                    relocks := p.relocks ++ p.record.map fun id => collections[id]? }
  | .dismissFinish =>
    if p.gate.dismissing then some { p with gate := p.gate.finish, record := [] } else none
  | a => (p.gate.step a).map fun gate => { p with gate }

end SecretManager
