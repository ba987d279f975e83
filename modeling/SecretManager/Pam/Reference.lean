import SecretManager.Pam.Session
import SecretManager.Dbus.Reference

/-!
# A login on the concrete instance

A user with two vaults, `default` and one more, and a hook for which everything goes well.
-/

namespace SecretManager.Reference

/-- The shipped parameters: 64 MiB, three passes, one lane. -/
def loginKdf : KdfParams := { mCostKib := 64 * 1024, tCost := 3, pCost := 1 }

/-- A vault file that its owner alone can write. -/
def ownEntry : Pam.DirEntry where
  fileType := .regular
  uid := 1000
  mode := 0o100600
  contents := (Vault.create externals createEnv path "Login" [112, 119] loginKdf none).2

def twoVaults (second : String) : Pam.VaultDir :=
  ((∅ : Pam.VaultDir).insert "default.vault" ownEntry).insert (second ++ ".vault") ownEntry

def user : Pam.Target where
  sock := "/run/user/1000/secret-manager/control.sock"
  uid := 1000
  vaultDir := "/vaults"

/-- Everything is there, and the daemon answers. -/
def hookEnv (dir : Pam.VaultDir) : Pam.HookEnv where
  tick _ _ _ := 1
  resolveTarget _ := some user
  socketDir _ _ := true
  dir _ := dir
  listing _ := .ok (dir.toList.map fun entry => .ok (entry.1, .ok entry.2.fileType))
  readable _ := true
  salt _ := .ok (Vector.replicate saltLen 9)
  connects _ := true
  delivers _ := true
  child := .reports

/-- The id that the daemon gives to a collection with this label. -/
def longId : String :=
  collectionIdFromLabel "Recovery codes and passwords of the whole family, for emergencies only"

/-- One password change, as the hook makes it. -/
def passwordChange (dir : Pam.VaultDir) : Pam.ChauthtokOutcome × Pam.HookState :=
  Pam.chauthtokDecision externals (hookEnv dir) 0x2000 (some [112, 119]) (some [110, 119]) []
    { start := 0, total := 8 * 10 ^ 9 } (.start 0)

/-- `HOOK_BUDGET`, from the time 0 on. -/
def hookBudget : Pam.Budget := { start := 0, total := 8 * 10 ^ 9 }

/-- The same, with operations that take their time. -/
def timedEnv (dir : Pam.VaultDir) (tick : Pam.Operation → Nat → Nat → Nat) : Pam.HookEnv :=
    { hookEnv dir with tick }

/-- A password change, -/
def changeIn (dir : Pam.VaultDir) (tick : Pam.Operation → Nat → Nat → Nat) :
    Pam.ChauthtokOutcome × Pam.HookState :=
  Pam.chauthtokDecision externals (timedEnv dir tick) 0x2000 (some [112, 119]) (some [110, 119]) []
    hookBudget (.start 0)

def sessionEnv (dir : Pam.VaultDir) (tick : Pam.Operation → Nat → Nat → Nat) : Pam.SessionEnv where
  toHookEnv := timedEnv dir tick
  connectPath _ := .ok ()
  call _ := .ok ()
  removeSocket _ := .ok ()
  startDaemon _ := true
  waitFor _ := true
  revalidate _ := true

/-- and a login. -/
def login (dir : Pam.VaultDir) (tick : Pam.Operation → Nat → Nat → Nat) :
    Pam.SessionOutcome × Pam.SessionState :=
  Pam.openSessionDecision externals (sessionEnv dir tick) hookBudget (some [112, 119]) [] (.start 0)

/-- The first operation of this kind leaves a nanosecond less than a call budget, and nothing else
takes any time. -/
def only (op : Pam.Operation) : Pam.Operation → Nat → Nat → Nat :=
  fun o _ now => if o = op ∧ now = 0 then 5 * 10 ^ 9 + 1 else 0

/-- A user with the vault `default` alone. -/
def oneVault : Pam.VaultDir := (∅ : Pam.VaultDir).insert "default.vault" ownEntry

/-- A login with one vault, whose first call is cut off. -/
def cutOff (tick : Pam.Operation → Nat → Nat → Nat) : Pam.SessionOutcome × Pam.SessionState :=
  Pam.openSessionDecision externals { sessionEnv oneVault tick with
    call := fun n => if n = 4 then .error (.io .connectionReset) else .ok () } hookBudget (some [112, 119]) []
    (.start 0)

end SecretManager.Reference
