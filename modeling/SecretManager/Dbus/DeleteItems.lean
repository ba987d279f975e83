import SecretManager.Dbus.Daemon
import SecretManager.Dbus.Items
import SecretManager.Vault.Search

/-!
# Deleting a batch of items

`CollectionAdmin::delete_items` of `src/dbus/collection.rs`. The call holds the state lock while it
resolves all paths, one vault's lock for each run of paths into one collection, the state lock again
to look its own collection up, and that vault's lock for the removal. In between, the daemon does
whatever else it does, and items come and go. The signals are sent after the removal, one for each
item, and the call waits for each.

The activity is recorded in another model of the daemon, and the removal of the exported objects is
left out.
-/

namespace SecretManager

/-- The items that one `DeleteItems` may name. -/
def maxDeleteItems : Nat := 1024

/-- `CollectionRef`: what the object the call was made on stands for. -/
inductive CollectionRef where
  | id (cid : String)
  | aliasName (name : String)
  deriving DecidableEq

/-- `CollectionAdmin::id`. -/
def CollectionRef.resolve (st : ServiceState) : CollectionRef → Except DbusError String
  | .id cid =>
    if st.collections.contains cid || st.broken.contains cid then .ok cid else .error .noSuchObject
  | .aliasName name =>
    match aliasTarget st.view st.aliases name with
    | .ok (some cid) => .ok cid
    | .ok none => .error .noSuchObject
    | .error e => .error (.failed s!"alias table is unreadable: {e.reason}")

/-- A path that names an item, with the vault of its collection. -/
structure ResolvedItem where
  cid : String
  item : String
  vault : Handle
  deriving DecidableEq

/-- The item a path names, as far as the state can tell. -/
def ServiceState.resolveItem (st : ServiceState) (path : String) : Option ResolvedItem :=
  match st.resolvePath path with
  | some (.item id vault item) => some { cid := id, item, vault }
  | _ => none

/-- The inner loop of the check, over the paths into one collection: what is left to check, the
items so far, and the set that keeps them distinct. -/
def checkRun (vault : Vault) (id cid : String) : List ResolvedItem → List String →
    Std.ExtTreeSet String → Except DbusError (List ResolvedItem × List String × Std.ExtTreeSet String)
  | [], itemIds, seen => .ok ([], itemIds, seen)
  | r :: rest, itemIds, seen =>
    if r.cid ≠ cid then .ok (r :: rest, itemIds, seen)
    else if !vault.hasItem r.item then .error .noSuchObject
    else if cid ≠ id then .error (.invalidArgs "every item must belong to this collection")
    else if seen.contains r.item then checkRun vault id cid rest itemIds seen
    else checkRun vault id cid rest (itemIds ++ [r.item]) (seen.insert r.item)

/-- Where the call stands. -/
inductive BatchPhase where
  | called
  /-- The paths are resolved, and some are left to check. -/
  | checking (id : String) (rest : List ResolvedItem) (itemIds : List String)
      (seen : Std.ExtTreeSet String)
  /-- The vault is looked up; its lock is next. -/
  | deleting (id : String) (itemIds : List String) (vault : Handle)
  /-- The items are gone, and these have yet to be announced. -/
  | signalling (itemIds : List String)
  | returned (r : Except DbusError Unit)

def BatchPhase.ofPaths (target : CollectionRef) (items : List String) (st : ServiceState) :
    BatchPhase :=
  if items.length > maxDeleteItems then
    .returned (.error (.invalidArgs s!"too many items; at most {maxDeleteItems} per call"))
  else
    match target.resolve st with
    | .error e => .returned (.error e)
    | .ok id =>
      match items.mapM st.resolveItem with
      | none => .returned (.error .noSuchObject)
      | some resolved => .checking id resolved [] ∅

def BatchPhase.ofRun (id : String) :
    Except DbusError (List ResolvedItem × List String × Std.ExtTreeSet String) → BatchPhase
  | .error e => .returned (.error e)
  | .ok (rest, itemIds, seen) => .checking id rest itemIds seen

/-- One signal was sent, or could not be. -/
def BatchPhase.ofSignal (rest : List String) : Except DbusError Unit → BatchPhase
  | .error e => .returned (.error e)
  | .ok () => if rest.isEmpty then .returned (.ok ()) else .signalling rest

/-- The removal, under the vault's lock. -/
def World.deleteBatch (x : Externals) (env : SaveEnv) (itemIds : List String) (w : World) :
    BatchPhase × World :=
  if w.vault.isLocked then (.returned (.error .isLocked), w)
  else if itemIds.isEmpty then (.returned (.ok ()), w)
  else
    match w.deleteItems x env itemIds with
    | (.error e, w') => (.returned (.error (.ofVault e)), w')
    | (.ok (), w') => (.signalling itemIds, w')

/-! ## The call beside the daemon -/

/-- One `DeleteItems` call, beside a daemon that goes on. -/
structure BatchDelete (ι : Type) where
  daemon : Daemon ι
  phase : BatchPhase

inductive BatchAction (ι : Type) where
  /-- The daemon does something else. -/
  | other (a : Action ι)
  /-- The call resolves its paths, -/
  | resolve
  /-- checks one run of them, -/
  | check
  /-- looks its collection up, -/
  | lookup
  /-- removes the items, -/
  | delete (env : SaveEnv)
  /-- and announces one. -/
  | signal (r : Except DbusError Unit)

/-- One step of the call `DeleteItems(items)` on the object of `target`, or of the rest. -/
def BatchDelete.step {ι : Type} [DecidableEq ι] (x : Externals) (toml : Toml) (cfg : Config)
    (target : CollectionRef) (items : List String) (c : BatchDelete ι) :
    BatchAction ι → Option (BatchDelete ι)
  | .other a => (c.daemon.step x toml cfg a).map fun daemon => { c with daemon }
  | .resolve =>
    match c.phase with
    | .called => some { c with phase := .ofPaths target items c.daemon.service }
    | _ => none
  | .check =>
    match c.phase with
    | .checking id (r :: rest) itemIds seen =>
      c.daemon.vaults[r.vault]?.map fun vault =>
        { c with phase := .ofRun id (checkRun vault id r.cid (r :: rest) itemIds seen) }
    | _ => none
  | .lookup =>
    match c.phase with
    | .checking id [] itemIds _ =>
      match c.daemon.service.collections[id]? with
      -- a broken collection is always locked
      | none => some { c with phase := .returned (.error .isLocked) }
      | some h => some { c with phase := .deleting id itemIds h }
    | _ => none
  | .delete env =>
    match c.phase with
    | .deleting _ itemIds h =>
      (c.daemon.world h).map fun w =>
        let (phase, w') := w.deleteBatch x env itemIds
        { daemon := c.daemon.setWorld h w', phase }
    | _ => none
  | .signal r =>
    match c.phase with
    | .signalling (_ :: rest) => some { c with phase := .ofSignal rest r }
    | _ => none

end SecretManager
