import SecretManager.Dbus.LockSystem

/-!
# Clients, calls and prompt objects

What a client of the bus sees: sessions, the prompts it is handed, and the `Prompt` and `Dismiss`
calls it makes on them. A method call is cut wherever it lets go of the state lock, since the
watcher can process a disconnect in each of those gaps. Every client is known by its unique name,
which the bus gives to nobody else, and its disconnect is processed once.

What the daemon does for these calls is left to the lock system: `spawn`, `Dismiss` and the watcher
drive its steps, and everything else it does goes on beside them.
-/

namespace SecretManager

abbrev Client := String

/-- The sessions one client may have open, -/
def maxSessionsPerSender : Nat := 32

/-- and the prompts it may have outstanding. -/
def maxPromptsPerOwner : Nat := 8

/-! ## Prompt objects -/

/-- What a prompt will do. The paths an `Unlock` was asked for matter for its reply only. -/
inductive PromptAction where
  | unlock (collections : List String)
  | createCollection (label : String) (aliasName : Option String)
  | deleteCollection (id : String)
  deriving DecidableEq

inductive PromptKind where
  | unlock
  | createCollection
  | deleteCollection
  deriving DecidableEq

def PromptAction.kind : PromptAction → PromptKind
  | .unlock _ => .unlock
  | .createCollection .. => .createCollection
  | .deleteCollection _ => .deleteCollection

/-- A prompt that was handed out, or is about to be. -/
structure PromptObject where
  /-- The client in its entry of `prompt_owners`. -/
  owner : Client
  kind : PromptKind
  /-- The action, until somebody takes it. -/
  action : Option PromptAction
  /-- The object can be called. -/
  exported : Bool
  /-- It could not be exported, and its owner entry was taken back. -/
  withdrawn : Bool

/-! ## Calls -/

/-- Where a method call stands. -/
inductive BusCall (ι : Type) where
  | idle
  /-- `OpenSession` has read its sender and checked the quota; the entry is next. -/
  | opening (c : Client)
  /-- The entry is there, and the object is not. -/
  | opened (session : Nat)
  /-- `Unlock`, `CreateCollection` or `Delete` has read its sender; the owner entry is next. -/
  | preparing (c : Client) (action : PromptAction)
  /-- The entry is there, and the object is not. -/
  | exporting (i : ι) (action : PromptAction)
  /-- `Prompt` has checked the owner. -/
  | prompting (i : ι)
  /-- It has taken the action. -/
  | holding (i : ι) (action : PromptAction)
  /-- `Dismiss` has checked the owner. -/
  | dismissing (i : ι)
  /-- The action is taken away. -/
  | disarmed (i : ι)
  /-- `cancelled` is set. -/
  | cancelled (i : ι)
  /-- The gate is claimed; `finish` is next. -/
  | won (i : ι)
  | returned

/-- The daemon with its clients: prompt objects, sessions, and the method calls in flight. -/
structure Bus (ι κ : Type) where
  system : LockSystem ι ι
  objects : ι → Option PromptObject
  /-- The prompts, in the order they were made. -/
  issued : List ι
  /-- Each session with its owner. -/
  sessions : List (Nat × Client)
  nextSession : Nat
  calls : κ → BusCall ι
  /-- The client has left the bus. -/
  left : Client → Bool
  /-- Its disconnect has been processed. -/
  processed : Client → Bool

def Bus.start {ι : Type} (κ : Type) (daemon : Daemon ι) : Bus ι κ :=
  { system := .start ι daemon, objects := fun _ => none, issued := [], sessions := []
    nextSession := 0, calls := fun _ => .idle, left := fun _ => false, processed := fun _ => false }

/-- What can happen on the bus. A method is cut where the source awaits or takes a lock. -/
inductive BusAction (ι κ : Type) where
  /-- The daemon does something else. -/
  | inner (a : LockAction ι ι)
  /-- `OpenSession` passes its first check, -/
  | openSession (k : κ) (c : Client)
  /-- makes its entry, -/
  | insertSession (k : κ)
  /-- and exports the object. -/
  | exportSession (k : κ) (ok : Bool)
  /-- A client closes its session. -/
  | close (session : Nat) (c : Client)
  /-- `Unlock`, `CreateCollection` or `Delete` comes as far as its owner entry, -/
  | request (k : κ) (c : Client) (action : PromptAction)
  /-- makes it, -/
  | issue (k : κ) (i : ι)
  /-- and exports the prompt. -/
  | exportPrompt (k : κ) (ok : Bool)
  /-- `Prompt` checks the owner, -/
  | prompt (k : κ) (c : Client) (i : ι)
  /-- takes the action, -/
  | take (k : κ)
  /-- and spawns the task. -/
  | spawn (k : κ)
  /-- `Dismiss` checks the owner, -/
  | dismiss (k : κ) (c : Client) (i : ι)
  /-- takes the action away, -/
  | disarm (k : κ)
  /-- records itself, -/
  | cancel (k : κ)
  /-- tries the gate and takes the handle, -/
  | claim (k : κ)
  /-- and, if it has won, finishes the prompt. -/
  | finish (k : κ)
  | leave (c : Client)
  /-- The watcher processes the disconnect. -/
  | disconnect (c : Client)

/-! ## The pieces -/

section

variable {ι κ : Type}

/-- The flags of a prompt, wherever they are kept. -/
def LockSystem.gateOf (s : LockSystem ι ι) (kind : PromptKind) (i : ι) : Gate :=
  match kind with
  | .unlock => (s.prompts i).gate
  | .createCollection | .deleteCollection => s.daemon.gates i

/-- A call that can stop the prompt. -/
def PromptKind.gate (kind : PromptKind) (i : ι) (a : GateAction) : LockAction ι ι :=
  match kind with
  | .unlock => .gate i a
  | .createCollection | .deleteCollection => .daemon (.gate i a)

/-- `tokio::spawn` with the prompt's action. -/
def PromptAction.begin (i : ι) : PromptAction → LockAction ι ι
  | .unlock collections => .unlock i (.start collections)
  | .createCollection label aliasName => .daemon (.task i (.beginCreate label aliasName))
  | .deleteCollection id => .daemon (.task i (.beginDelete id))

/-- The prompt has an entry in `prompt_owners`. -/
def Bus.hasOwner (b : Bus ι κ) (i : ι) : Bool :=
  (b.objects i).any fun o => !o.withdrawn && (b.system.gateOf o.kind i).owned

/-- The prompt's entry names this client. -/
def Bus.ownedBy (b : Bus ι κ) (c : Client) (i : ι) : Bool :=
  b.hasOwner i && (b.objects i).any fun o => decide (o.owner = c)

/-- `check_owner`, for a call that has found its object. -/
def Bus.checkOwner (b : Bus ι κ) (c : Client) (i : ι) : Bool :=
  b.ownedBy c i && (b.objects i).any (·.exported)

/-- `check_session_quota`. -/
def Bus.sessionQuota (b : Bus ι κ) (c : Client) : Bool :=
  decide ((b.sessions.filter fun e => decide (e.2 = c)).length < maxSessionsPerSender)

/-- `check_prompt_quota`. -/
def Bus.promptQuota (b : Bus ι κ) (c : Client) : Bool :=
  decide ((b.issued.filter (b.ownedBy c)).length < maxPromptsPerOwner)

/-- What the arguments of a call are checked for before it takes the state lock. -/
def PromptAction.acceptable : PromptAction → Bool
  | .unlock collections => !collections.isEmpty
  | .createCollection label aliasName =>
    decide (label.utf8ByteSize ≤ maxLabel) && aliasName.all fun name => (checkAliasName name).isOk
  | .deleteCollection _ => true

/-- What it is checked for under the lock: a create whose alias is taken, or cannot be looked up,
makes no prompt. -/
def PromptAction.admitted (st : ServiceState) : PromptAction → Bool
  | .createCollection _ (some name) =>
    match aliasTarget st.view st.aliases name with
    | .ok none => true
    | _ => false
  | _ => true

/-- The actions that calls and the watcher drive. -/
def LockAction.driven : LockAction ι ι → Bool
  | .gate _ a | .daemon (.gate _ a) => decide (a ≠ .abort)
  | .unlock _ (.start _) => true
  | .daemon (.task _ a) =>
    match a with
    | .beginCreate .. | .beginDelete _ => true
    | _ => false
  | _ => false

/-- The task that a client's request or `SetAlias` call would use. -/
def LockAction.newcomer : LockAction ι ι → Option ι
  | .daemon (.task t a) =>
    match a with
    | .resolve _ | .setAlias .. => some t
    | _ => none
  | _ => none

/-- Nothing has used this name for a prompt or a request. -/
def Bus.unused (b : Bus ι κ) (i : ι) : Bool :=
  (b.objects i).isNone && b.system.daemon.tasks i matches .idle

variable [DecidableEq ι] [DecidableEq κ]

def Bus.setCall (b : Bus ι κ) (k : κ) (call : BusCall ι) : Bus ι κ :=
  { b with calls := Function.update b.calls k call }

def Bus.setObject (b : Bus ι κ) (i : ι) (o : PromptObject) : Bus ι κ :=
  { b with objects := Function.update b.objects i (some o) }

/-- `reclaim_prompt`, for every prompt of a client. -/
def Bus.reclaimAll (x : Externals) (toml : Toml) (cfg : Config) (idle : Nat) (b : Bus ι κ)
    (c : Client) : LockSystem ι ι :=
  (b.issued.filter (b.ownedBy c)).foldl
    (fun s i =>
      match b.objects i with
      | some o => (s.step x toml cfg idle (o.kind.gate i .reclaim)).getD s
      | none => s)
    b.system

def Bus.step (x : Externals) (toml : Toml) (cfg : Config) (idle : Nat) (b : Bus ι κ) :
    BusAction ι κ → Option (Bus ι κ)
  | .inner a =>
    if a.driven || a.newcomer.any fun t => (b.objects t).isSome then none
    else (b.system.step x toml cfg idle a).map fun system => { b with system }
  | .openSession k c =>
    match b.calls k with
    | .idle => some (b.setCall k (if b.sessionQuota c then .opening c else .returned))
    | _ => none
  | .insertSession k =>
    match b.calls k with
    | .opening c =>
      if b.sessionQuota c then
        some { b.setCall k (.opened (b.nextSession + 1)) with
          sessions := b.sessions ++ [(b.nextSession + 1, c)], nextSession := b.nextSession + 1 }
      else some (b.setCall k .returned)
    | _ => none
  | .exportSession k ok =>
    match b.calls k with
    | .opened session =>
      if ok then some (b.setCall k .returned)
      else some { b.setCall k .returned with
        sessions := b.sessions.filter fun e => decide (e.1 ≠ session) }
    | _ => none
  | .close session c =>
    some { b with sessions := b.sessions.filter fun e => decide (e ≠ (session, c)) }
  | .request k c action =>
    match b.calls k with
    | .idle => some (b.setCall k (if action.acceptable then .preparing c action else .returned))
    | _ => none
  | .issue k i =>
    match b.calls k with
    | .preparing c action =>
      if !b.unused i then none
      else if action.admitted b.system.daemon.service && b.promptQuota c then
        some { (b.setCall k (.exporting i action)).setObject i
            { owner := c, kind := action.kind, action := none, exported := false, withdrawn := false }
          with issued := b.issued ++ [i] }
      else some (b.setCall k .returned)
    | _ => none
  | .exportPrompt k ok =>
    match b.calls k with
    | .exporting i action =>
      (b.objects i).map fun o =>
        (b.setCall k .returned).setObject i
          (if ok then { o with action := some action, exported := true } else { o with withdrawn := true })
    | _ => none
  | .prompt k c i =>
    match b.calls k with
    | .idle => some (b.setCall k (if b.checkOwner c i then .prompting i else .returned))
    | _ => none
  | .take k =>
    match b.calls k with
    | .prompting i =>
      (b.objects i).map fun o =>
        match o.action with
        | some action => (b.setCall k (.holding i action)).setObject i { o with action := none }
        | none => b.setCall k .returned
    | _ => none
  | .spawn k =>
    match b.calls k with
    | .holding i action =>
      (b.system.step x toml cfg idle (action.begin i)).map fun system =>
        { b.setCall k .returned with system }
    | _ => none
  | .dismiss k c i =>
    match b.calls k with
    | .idle => some (b.setCall k (if b.checkOwner c i then .dismissing i else .returned))
    | _ => none
  | .disarm k =>
    match b.calls k with
    | .dismissing i =>
      (b.objects i).map fun o => (b.setCall k (.disarmed i)).setObject i { o with action := none }
    | _ => none
  | .cancel k =>
    match b.calls k with
    | .disarmed i =>
      (b.objects i).bind fun o =>
        (b.system.step x toml cfg idle (o.kind.gate i .dismiss)).map fun system =>
          { b.setCall k (.cancelled i) with system }
    | _ => none
  | .claim k =>
    match b.calls k with
    | .cancelled i =>
      (b.objects i).bind fun o =>
        (b.system.step x toml cfg idle (o.kind.gate i .dismissClaim)).map fun system =>
          { b.setCall k (if (b.system.gateOf o.kind i).committed then .returned else .won i) with
            system }
    | _ => none
  | .finish k =>
    match b.calls k with
    | .won i =>
      (b.objects i).bind fun o =>
        (b.system.step x toml cfg idle (o.kind.gate i .dismissFinish)).map fun system =>
          { b.setCall k .returned with system }
    | _ => none
  | .leave c => some { b with left := Function.update b.left c true }
  | .disconnect c =>
    if b.left c && !b.processed c then
      some { b with
        system := b.reclaimAll x toml cfg idle c
        sessions := b.sessions.filter fun e => decide (e.2 ≠ c)
        processed := Function.update b.processed c true }
    else none

end

end SecretManager
