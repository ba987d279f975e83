import SecretManager.Dbus.Bus
import SecretManager.Vault.Search
import SecretManager.Lib.Buckets

/-!
# Lock and Unlock of many objects

`Service::lock` and `Service::unlock` of `src/dbus/service.rs`, with `group_by_collection`. Both
resolve every path under one state guard. Then they take the lock of each collection once, for all
the paths that lead to it, and put the answers back into the order of the request. `unlockOneByOne`
and `lockOneByOne` say what that should be indistinguishable from: one path after the other, each
looked up and answered by itself.

Nothing else runs beside the call. Signals and the path of a new prompt are left out; what the
prompt will do is kept.
-/

namespace SecretManager

/-- The objects that one `Lock` or `Unlock` may name. -/
def maxLockObjects : Nat := 1024

def checkObjectCount (n : Nat) : Except DbusError Unit :=
  if n > maxLockObjects then
    .error (.invalidArgs s!"too many objects; at most {maxLockObjects} per call")
  else .ok ()

/-- An element of the request that leads to a collection. `V` is what is kept of the vault. -/
structure Pending (V : Type) where
  path : String
  cid : String
  vault : V
  item : Option String

/-- The element names something in the vault: the collection itself, or an item that is there. -/
def Pending.names {V : Type} (p : Pending V) (vault : Vault) : Bool := p.item.all vault.hasItem

def groupByCollection {V : Type} (pending : List (Pending V)) : List (String × List Nat) :=
  buckets Pending.cid pending

namespace Service

/-! ## Unlock -/

/-- What one call is answered around its lookups. -/
structure UnlockEnv where
  sender : Option Client
  /-- The prompts the sender has outstanding. -/
  outstanding : Nat
  /-- The export of the prompt. -/
  exported : Except DbusError Unit

def requireSender : Option Client → Except DbusError Client
  | some c => .ok c
  | none => .error .noSession

def checkPromptQuota (outstanding : Nat) : Except DbusError Unit :=
  if outstanding ≥ maxPromptsPerOwner then .error (.failed "too many outstanding prompts")
    else .ok ()

/-- `PromptAction::Unlock`. -/
structure UnlockRequest where
  collections : List String
  requested : List String
  deriving DecidableEq

/-- What the elements of a request come to. -/
structure Unlocking where
  unlocked : List String
  collections : List String
  requested : List String
  deriving DecidableEq

/-- The end of the call: the paths that are unlocked, and the prompt for the others. -/
def answerUnlock (env : UnlockEnv) (objects : List String) (walk : List String → Unlocking) :
    Except DbusError (List String × Option UnlockRequest) :=
  match checkObjectCount objects.length with
  | .error e => .error e
  | .ok () =>
    match requireSender env.sender with
    | .error e => .error e
    | .ok _ =>
      let found := walk objects
      if found.collections.isEmpty then .ok (found.unlocked, none)
      else
        match checkPromptQuota env.outstanding with
        | .error e => .error e
        | .ok () =>
          match env.exported with
          | .error e => .error e
          | .ok () =>
            .ok (found.unlocked, some { collections := found.collections, requested := found.requested })

variable (st : ServiceState) (vaults : List Vault)

/-- An element of an `Unlock`. A broken collection has no vault. -/
def unlockPending (path : String) : Option (Pending (Option Handle)) :=
  match st.resolvePath path with
  | some (.broken id) => some { path, cid := id, vault := none, item := none }
  | some (.collection id vault) => some { path, cid := id, vault := some vault, item := none }
  | some (.item id vault item) => some { path, cid := id, vault := some vault, item := some item }
  | none => none

/-- The verdicts on the elements of one collection: `none` drops an element from the reply. -/
def unlockGroup (pending : List (Pending (Option Handle))) (verdict : List (Option Bool))
    (idxs : List Nat) : List (Option Bool) :=
  match idxs.head?.bind fun i => pending[i]? with
  -- no bucket is empty
  | none => verdict
  | some first =>
    match first.vault with
    | none => idxs.foldl (fun verdict i => verdict.set i (some true)) verdict
    | some h =>
      match vaults[h]? with
      -- a `VaultRef` always points to a vault
      | none => verdict
      | some vault =>
        let isLocked := vault.isLocked
        idxs.foldl (fun verdict i =>
          if pending[i]?.any fun p => p.names vault then verdict.set i (some isLocked) else verdict)
          verdict

/-- The lists as they grow, and the collections that are on one. -/
structure UnlockLoop where
  found : Unlocking
  seen : Std.ExtTreeSet String

/-- One turn of the last loop. -/
def unlockElement (acc : UnlockLoop) (element : Pending (Option Handle) × Option Bool) :
    UnlockLoop :=
  let (p, verdict) := element
  match verdict with
  | none => acc
  | some false =>
    { acc with found := { acc.found with unlocked := acc.found.unlocked ++ [p.path] } }
  | some true =>
    let requested := acc.found.requested ++ [p.path]
    if acc.seen.contains p.cid then { acc with found := { acc.found with requested } }
    else
      { found := { acc.found with requested, collections := acc.found.collections ++ [p.cid] }
        seen := acc.seen.insert p.cid }

def unlockBatch (objects : List String) : Unlocking :=
  let pending := objects.filterMap (unlockPending st)
  let verdict := (groupByCollection pending).foldl
    (fun verdict group => unlockGroup vaults pending verdict group.2)
    (List.replicate pending.length none)
  ((pending.zip verdict).foldl unlockElement { found := ⟨[], [], []⟩, seen := ∅ }).found

def unlock (env : UnlockEnv) (objects : List String) :
    Except DbusError (List String × Option UnlockRequest) :=
  answerUnlock env objects (unlockBatch st vaults)

/-! ## Lock -/

/-- An element of a `Lock`. A broken collection has no vault to lock. -/
def lockPending (path : String) : Option (Pending Handle) :=
  match st.resolvePath path with
  | some (.collection id vault) => some { path, cid := id, vault, item := none }
  | some (.item id vault item) => some { path, cid := id, vault, item := some item }
  | some (.broken _) | none => none

/-- The vaults, the elements that are answered, and the collections that were locked. -/
structure Locking where
  vaults : List Vault
  answered : List Bool
  changed : List String

def lockGroup (pending : List (Pending Handle)) (acc : Locking) (group : String × List Nat) :
    Locking :=
  let (cid, idxs) := group
  match idxs.head?.bind fun i => pending[i]? with
  -- no bucket is empty
  | none => acc
  | some first =>
    match acc.vaults[first.vault]? with
    -- a `VaultRef` always points to a vault
    | none => acc
    | some vault =>
      let (answered, any) := idxs.foldl (fun (answered, any) i =>
        if pending[i]?.any fun p => p.names vault then (answered.set i true, true)
        else (answered, any)) (acc.answered, false)
      if any && !vault.isLocked then
        { vaults := acc.vaults.set first.vault vault.lock, answered, changed := acc.changed ++ [cid] }
      else { acc with answered }

/-- The lookups and the locking of a `Lock`: the paths of the reply, the collections that were
locked, and the vaults. -/
def lockBatch (objects : List String) : List String × List String × List Vault :=
  let pending := objects.filterMap (lockPending st)
  let done := (groupByCollection pending).foldl (lockGroup pending)
    { vaults, answered := List.replicate pending.length false, changed := [] }
  ((pending.zip done.answered).filterMap fun (p, keep) => if keep then some p.path else none,
    done.changed, done.vaults)

/-- `lock`: the paths of the reply and the collections that were locked, with the vaults. -/
def lock (objects : List String) : Except DbusError (List String × List String) × List Vault :=
  match checkObjectCount objects.length with
  | .error e => (.error e, vaults)
  | .ok () =>
    let (locked, changed, vaults) := lockBatch st vaults objects
    (.ok (locked, changed), vaults)

/-! ## One path at a time -/

/-- The collection of the object that a path names, if there is such an object, and the collection's
vault, if it is not broken. -/
def object (path : String) : Option (String × Option Handle) :=
  match st.resolvePath path with
  | none => none
  | some (.broken id) => some (id, none)
  | some (.collection id h) => vaults[h]?.map fun _ => (id, some h)
  | some (.item id h item) =>
    vaults[h]?.bind fun vault => if vault.hasItem item then some (id, some h) else none

/-- A collection is locked when its vault is, or when it has none. -/
def lockedNow (vault : Option Handle) : Bool :=
  vault.all fun h => vaults[h]?.all Vault.isLocked

/-- The collection that has to be unlocked for a path. -/
def needs (path : String) : Option String :=
  (object st vaults path).bind fun (id, vault) => if lockedNow vaults vault then some id else none

def unlockOne (acc : Unlocking) (path : String) : Unlocking :=
  match object st vaults path with
  | none => acc
  | some (id, vault) =>
    if lockedNow vaults vault then
      { acc with
        collections := if id ∈ acc.collections then acc.collections else acc.collections ++ [id]
        requested := acc.requested ++ [path] }
    else { acc with unlocked := acc.unlocked ++ [path] }

def unlockOneByOne (env : UnlockEnv) (objects : List String) :
    Except DbusError (List String × Option UnlockRequest) :=
  answerUnlock env objects fun objects => objects.foldl (unlockOne st vaults) ⟨[], [], []⟩

/-- A `Lock` of one path more: the paths of the reply and the vaults. -/
def lockOne (acc : List String × List Vault) (path : String) : List String × List Vault :=
  match object st acc.2 path with
  | some (_, some h) => (acc.1 ++ [path], acc.2.modify h Vault.lockOpen)
  | _ => acc

def lockOneByOne (objects : List String) : Except DbusError (List String) × List Vault :=
  match checkObjectCount objects.length with
  | .error e => (.error e, vaults)
  | .ok () =>
    let (locked, vaults) := objects.foldl (lockOne st) ([], vaults)
    (.ok locked, vaults)

end Service

end SecretManager
