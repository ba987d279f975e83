import SecretManager.Dbus.Unlock

/-!
# Everything that opens and locks vaults

Unlock prompts, the control socket's `UnlockWithKey` (`unlock_with_key` of `src/daemon.rs`, with the
pin a PAM login asks for), the D-Bus methods that change or lock a vault, the watcher that locks
again what a departed client had opened, and the idle timer, all beside whatever else the daemon
does.

Time is a number that only grows. `last_activity` is set by `touch`, under the state lock, which
every caller takes after it has released the vault.
-/

namespace SecretManager

/-! ## Methods -/

/-- The requests that change a vault or lock it, with what their environment answers. -/
inductive Method where
  | createItem (env : SaveEnv) (now : UInt64) (uuid label : String) (attributes : Attributes)
      (secret : Bytes) (contentType : String) (replace : Bool)
  | deleteItem (env : SaveEnv) (id : String)
  | deleteItems (env : SaveEnv) (ids : List String)
  | setSecret (env : SaveEnv) (now : UInt64) (id : String) (secret : Bytes) (contentType : String)
  | setAttributes (env : SaveEnv) (now : UInt64) (id : String) (attributes : Attributes)
  | setItemLabel (env : SaveEnv) (now : UInt64) (id label : String)
  | setLabel (env : SaveEnv) (label : String)
  | changeKey (unlockEnv env : SaveEnv) (indexSalt : Except CryptoError Salt) (oldKey : Key)
      (newSalt : Salt) (newKdf : KdfParams) (newKey : Key)
  | lock

def Method.op : Method → VaultOp
  | .createItem env now uuid label attributes secret contentType replace =>
    .insertItem env now uuid label attributes secret contentType replace
  | .deleteItem env id => .deleteItem env id
  | .deleteItems env ids => .deleteItems env ids
  | .setSecret env now id secret contentType =>
    .updateItem env now id fun item => { item with secret, contentType }
  | .setAttributes env now id attributes => .updateItem env now id fun item => { item with attributes }
  | .setItemLabel env now id label => .updateItem env now id fun item => { item with label }
  | .setLabel env label => .setLabel env label
  | .changeKey unlockEnv env indexSalt oldKey newSalt newKdf newKey =>
    .changeKey unlockEnv env indexSalt oldKey newSalt newKdf newKey
  | .lock => .lock

/-- The methods that record the activity once they have succeeded. The property setters and the
rotation do not. -/
def Method.touches : Method → Bool
  | .createItem .. | .deleteItem .. | .deleteItems .. | .setSecret .. => true
  | .setAttributes .. | .setItemLabel .. | .setLabel .. | .changeKey .. | .lock => false

/-! ## The state -/

/-- Where an `UnlockWithKey` request stands. -/
inductive ControlPhase where
  | idle
  /-- The vault is looked up; its lock is next. -/
  | resolved (h : Handle) (key : Key) (pin : Bool)
  /-- The vault took the key; the activity is to be recorded. -/
  | unlocked
  | done

/-- The daemon with all that locks and unlocks vaults: prompts, control requests, the idle timer. -/
structure LockSystem (ι π : Type) where
  daemon : Daemon ι
  prompts : π → UnlockPrompt
  controls : ι → ControlPhase
  /-- The request has changed its vault and has not recorded the activity yet. -/
  owing : ι → Bool
  /-- The vaults the idle timer has yet to look at. -/
  timer : List Handle
  now : Nat
  lastActivity : Nat

def LockSystem.start {ι : Type} (π : Type) (daemon : Daemon ι) : LockSystem ι π :=
  { daemon, prompts := fun _ => .new, controls := fun _ => .idle, owing := fun _ => false
    timer := [], now := 0, lastActivity := 0 }

/-- One step of it. Time passes by steps of its own. -/
inductive LockAction (ι π : Type) where
  /-- The daemon does something else. -/
  | daemon (a : Action ι)
  /-- A request calls a method on the vault it holds, -/
  | request (t : ι) (m : Method)
  /-- and records the activity. -/
  | touch (t : ι)
  /-- A secret is read, which counts as activity. -/
  | read
  /-- An `UnlockWithKey` request looks its collection up, -/
  | resolve (t : ι) (collection : String) (key : Key) (pin : Bool)
  /-- opens the vault and sets the pin under the vault's lock, -/
  | unlockWithKey (t : ι) (env : SaveEnv)
  /-- and records the activity. -/
  | touchControl (t : ι)
  | gate (p : π) (a : GateAction)
  | unlock (p : π) (a : UnlockAction)
  /-- An Unlock prompt's task records what it is about to open, -/
  | record (p : π)
  /-- opens it, -/
  | decrypt (p : π) (env : SaveEnv)
  /-- takes the record back if it could not, -/
  | drop (p : π)
  /-- or records the activity. -/
  | touchUnlock (p : π)
  /-- It looks up what it has opened, -/
  | collect (p : π)
  /-- locks one of it again, -/
  | relock (p : π)
  /-- and finishes the prompt. -/
  | finish (p : π)
  /-- The watcher locks the next vault of a prompt whose owner has left. -/
  | rewatch (p : π)
  | pass (d : Nat)
  /-- The idle timer finds that nothing has happened for long enough, -/
  | wake
  /-- and locks the next vault. -/
  | idleLock

/-! ## The pieces -/

section

variable {ι π : Type}

def Vault.lockOpen (v : Vault) : Vault := if v.isLocked then v else v.lock

def Vault.lockIdle (v : Vault) : Vault := if v.pinned then v else v.lockOpen

def Daemon.modifyVault (s : Daemon ι) (h : Handle) (f : Vault → Vault) : Daemon ι :=
  { s with vaults := s.vaults.modify h f }

/-- The same for a vault that may not have been found. -/
def Daemon.modifyFound (s : Daemon ι) (found : Option Handle) (f : Vault → Vault) : Daemon ι :=
  match found with
  | some h => s.modifyVault h f
  | none => s

def LockSystem.setPrompt [DecidableEq π] (s : LockSystem ι π) (p : π) (prompt : UnlockPrompt) :
    LockSystem ι π :=
  { s with prompts := Function.update s.prompts p prompt }

/-- `unlock_with_key` and `set_pinned` under one guard. -/
def World.unlockPinned (x : Externals) (env : SaveEnv) (key : Key) (pin : Bool) (w : World) :
    Except VaultError Unit × World :=
  match w.unlockWithKey x env key with
  | (.ok (), w') => (.ok (), { w' with vault := { w'.vault with pinned := pin } })
  | (.error e, w') => (.error e, w')

/-- Where the lookup of an `UnlockWithKey` request leads. -/
def ControlPhase.afterLookup (key : Key) (pin : Bool) : Option Handle → ControlPhase
  | some h => .resolved h key pin
  | none => .done

/-- The actions of the daemon that are not spelled out here. -/
def Action.elsewhere : Action ι → Bool
  | .operate .. => false
  | _ => true

def UnlockTask.afterOpen (task : UnlockTask) (id : String) (h : Handle) (attempt : Nat)
    (r : Except VaultError Unit) : UnlockTask :=
  match r with
  | .ok () => task.goto (.touching id)
  | .error e => task.goto (.dropping id h attempt e)

variable [DecidableEq ι] [DecidableEq π]

/-- One step. `idle` is the configured idle time. -/
def LockSystem.step (x : Externals) (toml : Toml) (cfg : Config) (idle : Nat) (s : LockSystem ι π) :
    LockAction ι π → Option (LockSystem ι π)
  | .daemon a =>
    if a.elsewhere then (s.daemon.step x toml cfg a).map fun daemon => { s with daemon } else none
  | .request t m =>
    match s.daemon.tasks t with
    | .request h =>
      (s.daemon.world h).map fun w =>
        let (r, w') := m.op.apply x w
        { s with
          daemon := s.daemon.setWorld h w'
          owing := if m.touches && r.isOk then Function.update s.owing t true else s.owing }
    | _ => none
  | .touch t =>
    if s.owing t then
      some { s with lastActivity := s.now, owing := Function.update s.owing t false }
    else none
  | .read => some { s with lastActivity := s.now }
  | .resolve t collection key pin =>
    match s.controls t with
    | .idle =>
      some { s with
        controls := Function.update s.controls t
          (.afterLookup key pin s.daemon.service.collections[collection]?) }
    | _ => none
  | .unlockWithKey t env =>
    match s.controls t with
    | .resolved h key pin =>
      (s.daemon.world h).map fun w =>
        let (r, w') := w.unlockPinned x env key pin
        { s with
          daemon := s.daemon.setWorld h w'
          controls := Function.update s.controls t (if r.isOk then .unlocked else .done) }
    | _ => none
  | .touchControl t =>
    match s.controls t with
    | .unlocked =>
      some { s with lastActivity := s.now, controls := Function.update s.controls t .done }
    | _ => none
  | .gate p a =>
    ((s.prompts p).gateStep s.daemon.service.collections a).map fun prompt => s.setPrompt p prompt
  | .unlock p a =>
    ((s.prompts p).task.advance x s.daemon.service s.daemon.vaults (s.prompts p).gate a).map
      fun (task, gate) => s.setPrompt p { s.prompts p with task, gate }
  | .record p =>
    match (s.prompts p).task.phase with
    | .recording id h attempt key =>
      some (s.setPrompt p { s.prompts p with
        task := (s.prompts p).task.goto (.opening id h attempt key)
        record := (s.prompts p).record ++ [id] })
    | _ => none
  | .decrypt p env =>
    match (s.prompts p).task.phase with
    | .opening id h attempt key =>
      (s.daemon.world h).map fun w =>
        let (r, w') := w.unlockWithKey x env key
        { s.setPrompt p { s.prompts p with task := (s.prompts p).task.afterOpen id h attempt r } with
          daemon := s.daemon.setWorld h w' }
    | _ => none
  | .drop p =>
    match (s.prompts p).task.phase with
    | .dropping id h attempt e =>
      some (s.setPrompt p { s.prompts p with
        task := (s.prompts p).task.goto (.afterRefusal id h attempt e)
        record := dropLast id (s.prompts p).record })
    | _ => none
  | .touchUnlock p =>
    match (s.prompts p).task.phase with
    | .touching id =>
      some { s.setPrompt p { s.prompts p with task := (s.prompts p).task.goto (.notifying id) } with
        lastActivity := s.now }
    | _ => none
  | .collect p =>
    match (s.prompts p).task.phase with
    | .collecting =>
      some (s.setPrompt p { s.prompts p with
        task := (s.prompts p).task.goto
          (.relocking ((s.prompts p).task.mine.map fun id => s.daemon.service.collections[id]?))
        record := [] })
    | _ => none
  | .relock p =>
    match (s.prompts p).task.phase with
    | .relocking [] =>
      some (s.setPrompt p { s.prompts p with task := (s.prompts p).task.goto (.returned true) })
    | .relocking (found :: todo) =>
      some { s.setPrompt p { s.prompts p with task := (s.prompts p).task.goto (.relocking todo) } with
        daemon := s.daemon.modifyFound found Vault.lock }
    | _ => none
  | .finish p =>
    match (s.prompts p).task.phase with
    | .returned _ =>
      some (s.setPrompt p { s.prompts p with
        task := (s.prompts p).task.goto .finished, gate := (s.prompts p).gate.finish, record := [] })
    | _ => none
  | .rewatch p =>
    match (s.prompts p).relocks with
    | [] => none
    | found :: relocks =>
      some { s.setPrompt p { s.prompts p with relocks } with
        daemon := s.daemon.modifyFound found Vault.lockOpen }
  | .pass d => some { s with now := s.now + d }
  | .wake =>
    if s.timer.isEmpty && decide (idle ≤ s.now - s.lastActivity) then
      some { s with timer := s.daemon.service.collections.values }
    else none
  | .idleLock =>
    match s.timer with
    | [] => none
    | h :: timer => some { s with timer, daemon := s.daemon.modifyVault h Vault.lockIdle }

end

end SecretManager
