import SecretManager.Vault.Store

/-!
# Histories of one vault

The calls a holder of a `Vault` can make, as one type, and the worlds that any finite sequence of
them reaches from a vault this code created or from a file this code wrote. Every call carries the
answers of its environment, so a history ranges over every failure of every save.
-/

namespace SecretManager

/-- One call on a vault, with what the random generator, the clock and the file system answer. -/
inductive VaultOp where
  | insertItem (env : SaveEnv) (now : UInt64) (uuid label : String) (attributes : Attributes)
      (secret : Bytes) (contentType : String) (replace : Bool)
  | updateItem (env : SaveEnv) (now : UInt64) (id : String) (f : Item → Item)
  | deleteItem (env : SaveEnv) (id : String)
  | deleteItems (env : SaveEnv) (ids : List String)
  | importItems (env : SaveEnv) (uuid : Nat → String) (batch : List ImportItem)
  | setLabel (env : SaveEnv) (label : String)
  | changeKey (unlockEnv env : SaveEnv) (indexSalt : Except CryptoError Salt) (oldKey : Key)
      (newSalt : Salt) (newKdf : KdfParams) (newKey : Key)
  | lock
  | unlockWithKey (env : SaveEnv) (key : Key)
  | setIndexAttributes (enabled : Bool)
  | setPinned (pinned : Bool)

def discard {α : Type} : Except VaultError α → Except VaultError Unit
  | .error e => .error e
  | .ok _ => .ok ()

def VaultOp.apply (x : Externals) : VaultOp → World → Except VaultError Unit × World
  | .insertItem env now uuid label attributes secret contentType replace, w =>
    let (r, w') := w.insertItem x env now uuid label attributes secret contentType replace
    (discard r, w')
  | .updateItem env now id f, w => w.updateItem x env now id f
  | .deleteItem env id, w => w.deleteItem x env id
  | .deleteItems env ids, w => w.deleteItems x env ids
  | .importItems env uuid batch, w => w.importItems x env uuid batch
  | .setLabel env label, w => w.setLabel x env label
  | .changeKey unlockEnv env indexSalt oldKey newSalt newKdf newKey, w =>
    w.changeKey x unlockEnv env indexSalt oldKey newSalt newKdf newKey
  | .lock, w => (.ok (), { w with vault := w.vault.lock })
  | .unlockWithKey env key, w => w.unlockWithKey x env key
  | .setIndexAttributes enabled, w => (.ok (), { w with vault := w.vault.setIndexAttributes enabled })
  | .setPinned pinned, w => (.ok (), { w with vault := { w.vault with pinned } })

/-- The worlds of vaults this code created, of files this code wrote and someone opened, and of any
sequence of calls from there. No other process writes the file. -/
inductive Reached (x : Externals) : World → Prop
  | created {env : CreateEnv} {path : VaultPath} {label : String} {password : Bytes}
      {kdf : KdfParams} {before after : Option Bytes} {v : Vault} :
      Vault.create x env path label password kdf before = (.ok v, after) → Reached x ⟨v, after⟩
  | opened {w : World} {path : VaultPath} {v : Vault} :
      Reached x w → Vault.open x path w.file = .ok v → Reached x ⟨v, w.file⟩
  | step {w w' : World} {op : VaultOp} {r : Except VaultError Unit} :
      Reached x w → op.apply x w = (r, w') → Reached x w'

/-- The worlds of vaults opened from any file at all, or created, and of any sequence of calls from
there. The file may come from another build or another program. -/
inductive Live (x : Externals) : World → Prop
  | created {env : CreateEnv} {path : VaultPath} {label : String} {password : Bytes}
      {kdf : KdfParams} {before after : Option Bytes} {v : Vault} :
      Vault.create x env path label password kdf before = (.ok v, after) → Live x ⟨v, after⟩
  | opened {path : VaultPath} {file : Option Bytes} {v : Vault} :
      Vault.open x path file = .ok v → Live x ⟨v, file⟩
  | step {w w' : World} {op : VaultOp} {r : Except VaultError Unit} :
      Live x w → op.apply x w = (r, w') → Live x w'

/-! ## A handle and its index policy -/

/-- What happens to a handle: a call, or a restart that reads the file anew under the policy the
configuration then has. -/
inductive HandleAction where
  | call (op : VaultOp)
  | reopen (policy : Bool)

/-- One action. The daemon gives a handle its policy where it makes the handle, by the scan or by a
creation, and never later. -/
def World.handleStep (x : Externals) (w : World) : HandleAction → Option World
  | .call (.setIndexAttributes _) => none
  | .call op => some (op.apply x w).2
  | .reopen policy =>
    match Vault.open x w.vault.path w.file with
    | .error _ => none
    | .ok v => some ⟨v.setIndexAttributes policy, w.file⟩

/-- The first world of a handle: a new vault, or a file that the scan opened and `fit` admits. -/
inductive HandleStart (x : Externals) (fit : World → Prop) : World → Prop
  | created {env : CreateEnv} {path : VaultPath} {label : String} {password : Bytes}
      {kdf : KdfParams} {before after : Option Bytes} {v : Vault} (policy : Bool) :
      Vault.create x env path label password kdf before = (.ok v, after) →
      HandleStart x fit ⟨v.setIndexAttributes policy, after⟩
  | opened {path : VaultPath} {file : Option Bytes} {v : Vault} (policy : Bool) :
      Vault.open x path file = .ok v → fit ⟨v.setIndexAttributes policy, file⟩ →
      HandleStart x fit ⟨v.setIndexAttributes policy, file⟩

end SecretManager
