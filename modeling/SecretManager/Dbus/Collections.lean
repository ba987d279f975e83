import SecretManager.Vault.Session
import SecretManager.Dbus.AliasSystem

/-!
# The loaded collections

The part of `ServiceState` in `src/dbus/state.rs` that says which collections exist, with
`resolve_path`, `unique_collection_id_in`, `scan_vault_dir` and `merge_scan`, and
`collection_id_from_label` of `src/vault/mod.rs`.

A `VaultRef` is a shared pointer to a vault behind a lock. Vaults are numbered in the order in which
`Vault::create` and `Vault::open` make them, and a `VaultRef` is such a number, so two vaults opened
from one file are told apart as the two allocations are. The scan is cut into one piece for each
directory entry, because it holds no lock.
-/

namespace SecretManager

/-- `VaultRef`, by the number of the vault it points to. -/
abbrev Handle := Nat

/-- The vault directory, by file name. -/
abbrev Dir := Std.ExtTreeMap String Bytes

/-- Give a file new contents, or take it away. -/
def Dir.put (dir : Dir) (name : String) : Option Bytes → Dir
  | some bytes => dir.insert name bytes
  | none => dir.erase name

/-- The fields of `ServiceState` that do not change. -/
structure Config where
  vaultDir : String
  kdf : KdfParams
  indexAttributes : Bool

/-- `vault_dir.join(format!("{id}.vault"))`. -/
def Config.path (cfg : Config) (id : String) : VaultPath :=
  { parent := cfg.vaultDir, name := id ++ ".vault" }

/-- The fields of `ServiceState` that say which collections there are. -/
structure ServiceState where
  collections : Std.ExtTreeMap String Handle
  /-- Files that failed to open, with the reason. -/
  broken : Std.ExtTreeMap String (VaultPath × String)
  aliases : AliasTable

variable (st : ServiceState)

def ServiceState.loadedIds : List String := st.collections.keys

/-- `broken_error`: why a file is not loaded. -/
def ServiceState.brokenError (id : String) : Option String :=
  st.broken[id]?.map Prod.snd

/-- What an alias edit sees of the state. -/
def ServiceState.view : ServiceView :=
  { collections := st.collections.keys, broken := st.broken.keys }

/-! ## Object paths -/

/-- The loaded collection that the alias resolves to. A table that cannot answer resolves
nothing. -/
def ServiceState.target (a : String) : Option String :=
  match aliasTarget st.view st.aliases a with
  | .ok target => target
  | .error _ => none

/-- `PathTarget`: what a path names, as far as the state alone can tell. -/
inductive PathTarget where
  | broken (id : String)
  | collection (id : String) (vault : Handle)
  | item (id : String) (vault : Handle) (item : String)
  deriving DecidableEq

def ServiceState.resolvePath (path : String) : Option PathTarget :=
  let named : Option (String × Option String) :=
    match Paths.parse path with
    | none => none
    | some (.collection id) => some (id, none)
    | some (.aliasPath name) => (st.target name).map fun id => (id, none)
    | some (.item collection item) => some (collection, some item)
    | some (.aliasItem name item) => (st.target name).map fun id => (id, some item)
  named.bind fun (id, item) =>
    match st.collections[id]?, item with
    | some vault, none => some (.collection id vault)
    | some vault, some item => some (.item id vault item)
    -- a file that failed to open is a locked collection without items
    | none, none => if st.broken.contains id then some (.broken id) else none
    | none, some _ => none

/-! ## Choosing an id -/

def maxIdLen : Nat := 200

/-- One turn of the loop of `collection_id_from_label`: the id so far, backwards, and whether its
last character is a separator. -/
def idChar (acc : List Char × Bool) (ch : Char) : List Char × Bool :=
  let c := ch.toLower
  if c.isAlphanum then (c :: acc.1, false)
  else if !acc.2 && !acc.1.isEmpty then ('_' :: acc.1, true)
  else acc

/-- `collection_id_from_label`: cut to length first, so that the cut leaves no separator at the
end. -/
def collectionIdFromLabel (label : String) : String :=
  let id := (label.toList.foldl idChar ([], false)).1.reverse.take maxIdLen
  let id := id.rdropWhile (· == '_')
  if id.isEmpty then "collection" else String.ofList id

/-- `{base}_{n}`; the counter is an `i32`, which wraps. -/
def candidate (base : String) (n : Nat) : String := base ++ "_" ++ Int.repr (Int.bmod n (2 ^ 32))

/-- The first free one of `{base}_{n}`, `{base}_{n+1}`, ... within the fuel. -/
def firstFree (taken : String → Bool) (base : String) : Nat → Nat → String
  | 0, n => candidate base n
  | fuel + 1, n =>
    if taken (candidate base n) then firstFree taken base fuel (n + 1) else candidate base n

/-- `unique_collection_id_in`. The search of the source has no bound; one candidate more than there
are taken names is enough as long as the counter does not wrap. -/
def uniqueCollectionIdIn (dir : Dir) (loaded : List String) (label : String) : String :=
  let base := collectionIdFromLabel label
  let taken (id : String) : Bool := loaded.contains id || dir.contains (id ++ ".vault")
  if taken base then firstFree taken base (loaded.length + dir.size) 2 else base

/-! ## Scanning the directory -/

/-- The id a file name stands for: its stem, when its extension is `vault`. A name that is nothing
but the extension has none. -/
def vaultStem (name : String) : Option String :=
  if ".vault".toList.isSuffixOf name.toList && name != ".vault" then
    some (String.ofList (name.toList.take (name.toList.length - 6)))
  else none

/-- `VaultScan`, without the aliases. -/
structure VaultScan where
  opened : List (String × Handle)
  broken : List (String × VaultPath × String)
  seen : List String

def VaultScan.empty : VaultScan := { opened := [], broken := [], seen := [] }

/-- One turn of the loop of `scan_vault_dir`, for the entry `name` and what stands there when it is
opened. Gives the scan and the vaults that exist after it. -/
def scanEntry (x : Externals) (cfg : Config) (loaded : List String) (name : String)
    (file : Option Bytes) (scan : VaultScan) (vaults : List Vault) : VaultScan × List Vault :=
  match vaultStem name with
  | none => (scan, vaults)
  | some id =>
    let scan := { scan with seen := id :: scan.seen }
    if !Paths.isSegment id || loaded.contains id then (scan, vaults)
    else
      match Vault.open x (cfg.path id) file with
      | .ok v =>
        ({ scan with opened := scan.opened ++ [(id, vaults.length)] },
          vaults ++ [v.setIndexAttributes cfg.indexAttributes])
      | .error e => ({ scan with broken := scan.broken ++ [(id, cfg.path id, e.message)] }, vaults)

/-- One opened vault of `merge_scan`, with the ids to announce. -/
def mergeOpened (acc : ServiceState × List String) (entry : String × Handle) :
    ServiceState × List String :=
  let (st, newIds) := acc
  let (id, h) := entry
  ({ st with broken := st.broken.erase id, collections := st.collections.insert id h },
    if st.collections.contains id || st.broken.contains id then newIds else newIds ++ [id])

/-- One broken file of `merge_scan`. -/
def mergeBroken (acc : ServiceState × List String) (entry : String × VaultPath × String) :
    ServiceState × List String :=
  let (st, newIds) := acc
  let (id, reason) := entry
  ({ st with broken := st.broken.insert id reason },
    if st.broken.contains id || st.collections.contains id then newIds else newIds ++ [id])

/-- `merge_scan`: the state, and the ids seen for the first time. -/
def mergeScan (scan : VaultScan) (aliases : Except AliasError AliasMap) :
    ServiceState × List String :=
  let (st, newIds) := scan.broken.foldl mergeBroken (scan.opened.foldl mergeOpened (st, []))
  ({ st with
      broken := st.broken.filter fun id _ => scan.seen.contains id
      aliases := st.aliases.merge aliases }, newIds)

end SecretManager
