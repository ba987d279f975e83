import SecretManager.Dbus.Collections
import SecretManager.Vault.Search

/-!
# The object paths the daemon builds

The builders of `src/dbus/paths.rs` and the places that build item paths from a vault's header:
`register_collection` in `src/dbus/registry.rs`, the `Items` property in `src/dbus/collection.rs`
and `search_all` in `src/dbus/state.rs`. A builder that meets a string which is no object path
panics on its `expect`; that is `none` here.
-/

namespace SecretManager

namespace Paths

variable (x : Externals)

/-- `owned`: `none` where the `expect` fires. -/
def owned (s : String) : Option String := if x.objectPath s then some s else none

def collection (id : String) : Option String := owned x (collectionsPrefix ++ id)

def item (collectionId itemId : String) : Option String :=
  owned x (collectionsPrefix ++ collectionId ++ "/" ++ itemId)

/-- `alias`: no path for a name that is no segment. -/
def aliasPath (name : String) : Option (Option String) :=
  if isSegment name then some (owned x (aliasesPrefix ++ name)) else none

end Paths

/-- What the daemon relies on of `zvariant`: `ObjectPath::try_from` accepts what the bus's grammar
does, and nothing else. -/
def Externals.KnowsPaths (x : Externals) : Prop := ∀ s, x.objectPath s = Paths.isObjectPath s

/-- The objects `register_collection` exports: the collection twice, once for each interface, and
one for each item of the header. -/
def registerCollection (x : Externals) (id : String) (vault : Option Vault) :
    Option (List String) :=
  (Paths.collection x id).bind fun path =>
    (Paths.collection x id).bind fun admin =>
      let itemIds := match vault with
        | some v => v.itemIds
        | none => []
      (itemIds.mapM (Paths.item x id)).map fun items => path :: admin :: items

def Collection.items (x : Externals) (id : String) (vault : Option Vault) : Option (List String) :=
  match vault with
  | none => some []
  | some v => v.itemIds.mapM (Paths.item x id)

/-- `search_all`: the paths in unlocked collections, and those in locked ones. -/
def searchAll (x : Externals) (vaults : List (String × Vault)) (query : Attributes) :
    Option (List String × List String) :=
  vaults.foldlM (fun (unlocked, locked) (id, v) =>
    ((searchCollection x v query).mapM (Paths.item x id)).map fun paths =>
      if v.isLocked then (unlocked, locked ++ paths) else (unlocked ++ paths, locked)) ([], [])

/-- The id and the vault that the scan makes of one file. -/
def scannedVault (x : Externals) (cfg : Config) (loaded : List String) (name : String)
    (bytes : Bytes) : Option (String × Vault) :=
  match scanEntry x cfg loaded name (some bytes) .empty [] with
  | ({ opened := [(id, _)], .. }, [v]) => some (id, v)
  | _ => none

end SecretManager
