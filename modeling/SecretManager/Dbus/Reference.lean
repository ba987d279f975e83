import SecretManager.Dbus.Bus
import SecretManager.Vault.Reference

/-!
# Concrete runs

Two clients that set an alias each, a TOML instance that is exact on the tables it is given, answers
of the file system, and the pieces of a create and of a delete in which nothing fails, for runs that
can be evaluated.
-/

namespace SecretManager.Reference

/-- The text `toml::to_string` gives a table of plain names and ids. -/
def renderAliases (m : AliasMap) : String :=
  m.toList.foldl (fun text entry => text ++ entry.1 ++ " = \"" ++ entry.2 ++ "\"\n") "[aliases]\n"

def toml (tables : List AliasMap) : Toml where
  toString m := if m ∈ tables then .ok (renderAliases m) else .error "not one of the tables"
  fromStr text :=
    match tables.find? fun m => renderAliases m == text with
    | some m => .ok m
    | none => .error "expected a table"

theorem toml_lawful {tables : List AliasMap}
    (apart : ∀ m ∈ tables, (tables.find? fun m' => renderAliases m' == renderAliases m) = some m) :
    (toml tables).Lawful where
  fromStr_toString := by
    intro m text h
    simp only [toml] at h ⊢
    split at h
    next hmem =>
      cases h
      simp only [apart m hmem]
    · cases h

def aliasA : AliasMap := .ofList [("a", "login")]
def aliasB : AliasMap := .ofList [("b", "login")]
def aliasAB : AliasMap := .ofList [("a", "login"), ("b", "login")]

/-- The tables that two clients setting `a` and `b` can write. -/
def twoToml : Toml := toml [∅, aliasA, aliasB, aliasAB]

theorem twoToml_lawful : twoToml.Lawful := toml_lawful (by decide)

/-- One collection is loaded. -/
def view : ServiceView := { collections := ["login"], broken := [] }

/-- Two `SetAlias` calls. -/
def twoClients : Fin 2 → AliasCall ServiceView DbusError
  | 0 => setAlias "a" "/org/freedesktop/secrets/collection/login"
  | 1 => setAlias "b" "/org/freedesktop/secrets/collection/login"

def aliasWrite : AliasWriteEnv := { ensureDir := .ok (), write := writeEnv }

def aliasWriteFails : AliasWriteEnv :=
  { ensureDir := .ok ()
    write := { writeEnv with rename := .error { kind := .other, message := "no space left" } } }

/-- The two clients' system, and its start over no aliases and no file. -/
abbrev aliasStep : AliasSystem (Fin 2) DbusError → AliasAction (Fin 2) ServiceView →
    Option (AliasSystem (Fin 2) DbusError) := AliasSystem.step twoToml twoClients

abbrev aliasStart : AliasSystem (Fin 2) DbusError := .start (.usable ∅) none

/-! ## The daemon -/

def config : Config := { vaultDir := "/vaults", kdf := .fastForTests, indexAttributes := true }

/-- TOML on the tables with at most the default alias. -/
def daemonToml : Toml := toml [∅, .ofList [("default", "login")]]

abbrev daemonStep {n : Nat} : Daemon (Fin n) → Action (Fin n) → Option (Daemon (Fin n)) :=
  Daemon.step externals daemonToml config

/-- A daemon that starts over an empty directory. -/
abbrev emptyBoot (n : Nat) : Option (Daemon (Fin n)) :=
  Daemon.boot (Fin n) externals daemonToml config ∅ none

section

variable {ι : Type} (t : ι)

/-- A create prompt up to its blocking job. -/
def createSteps (label : String) (aliasName : Option String) : List (Action ι) :=
  [.task t (.beginCreate label aliasName), .task t .check, .task t (.pin (some [112, 119])),
    .task t .check, .task t .claim, .task t .snapshot, .task t .name, .task t .startJob,
    .job t createEnv]

/-- An alias update that succeeds at once. -/
def aliasSteps : List (Action ι) :=
  [.aliases t aliasWrite, .aliases t aliasWrite, .aliases t aliasWrite]

/-- A delete prompt up to its confirmation. -/
def askSteps (id : String) : List (Action ι) :=
  [.task t (.beginDelete id), .task t .check, .task t (.confirm true), .task t .check]

def writeItem (uuid : String) : Action ι :=
  .operate t (.insertItem saveEnv 1 uuid "item" ∅ [1] "text/plain" false)

end

/-! ## The lock system -/

/-- The lock system of a daemon with the idle time 10. -/
abbrev lockStep {n k : Nat} :
    LockSystem (Fin n) (Fin k) → LockAction (Fin n) (Fin k) → Option (LockSystem (Fin n) (Fin k)) :=
  LockSystem.step externals daemonToml config 10

section

variable {ι π : Type}

/-- A collection is created and locked. -/
def lockedSteps (t t' : ι) (label id : String) : List (LockAction ι π) :=
  (createSteps t label none).map LockAction.daemon ++
    [LockAction.daemon (.insert t), .daemon (.task t' (.resolve id)), .request t' .lock]

def startUnlock (p : π) (collections : List String) : LockAction ι π :=
    .unlock p (.start collections)

/-- It raises the dialog for the next collection and is given the password, -/
def askUnlock (p : π) : List (LockAction ι π) :=
  [.unlock p .turn, .unlock p .check, .unlock p .owner, .unlock p .lookup, .unlock p .peek,
    .unlock p (.session .free), .unlock p (.answer (.pin [112, 119]))]

/-- derives the key and records the collection, -/
def deriveUnlock (p : π) : List (LockAction ι π) :=
  [.unlock p .claim, .unlock p .loaded, .unlock p .params, .unlock p (.derive none),
    .unlock p .loaded, .record p]

/-- and opens the vault. -/
def openUnlock (p : π) : List (LockAction ι π) :=
  [.decrypt p saveEnv, .touchUnlock p, .unlock p .notify]

/-- An `UnlockWithKey` request of the control socket. -/
def controlUnlock (t : ι) (pin : Bool) : List (LockAction ι π) :=
  [.resolve t "login" loginKey pin, .unlockWithKey t saveEnv, .touchControl t]

end

/-! ## The bus -/

/-- The bus over a daemon with the idle time 10. -/
abbrev busStep {n k : Nat} : Bus (Fin n) (Fin k) → BusAction (Fin n) (Fin k) →
    Option (Bus (Fin n) (Fin k)) :=
  Bus.step externals daemonToml config 10

section

variable {ι κ : Type}

/-- A call makes a prompt, -/
def issueSteps (k : κ) (c : Client) (i : ι) (action : PromptAction) : List (BusAction ι κ) :=
  [.request k c action, .issue k i, .exportPrompt k true]

/-- a `Prompt` call performs it, -/
def promptSteps (k : κ) (c : Client) (i : ι) : List (BusAction ι κ) :=
  [.prompt k c i, .take k, .spawn k]

/-- a `Dismiss` call comes as far as its owner entry, -/
def dismissSteps (k : κ) (c : Client) (i : ι) : List (BusAction ι κ) :=
  [.dismiss k c i, .disarm k, .cancel k, .claim k]

/-- and the task of a create runs up to its blocking job. -/
def createTask (i : ι) : List (BusAction ι κ) :=
  (createSteps i "" none).tail.map fun a => .inner (.daemon a)

end

end SecretManager.Reference
