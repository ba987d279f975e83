import SecretManager.Import.Host
import SecretManager.Import.Neighbours
import SecretManager.Dbus.Reference

/-!
# A small import

Two entries of a KWallet, the index that counts them and a run in which nothing fails, for runs that
can be evaluated.
-/

namespace SecretManager.Reference

open SecretManager.Import

/-- An entry of the wallet, with one attribute. -/
def walletItem (entry : String) (secret : UInt8) : SourceItem :=
  { label := entry, attributes := Std.ExtTreeMap.ofList [("user", entry)], secret := [secret]
    contentType := "text/plain", created := 1, modified := 2
    provenance := .kwallet "kdewallet" "Passwords" entry, insertedKeys := [] }

def mailEntry : SourceItem := walletItem "mail" 1

def routerEntry : SourceItem := walletItem "router" 2

def plainEntry : SourceItem := { mailEntry with attributes := ∅ }

/-- The index of a wallet whose one folder holds these entries. -/
def walletIndex (entries : List String) : Inventory :=
  .wallet ⟨[⟨md5 (utf8 "Passwords"), entries.map fun entry => md5 (utf8 entry)⟩]⟩

def walletFile (entries : List String) : SourceFile :=
    .located (some "kdewallet") (walletIndex entries)

/-- A walk that hands these items over and leaves nothing out. -/
def fullExtraction (items : List SourceItem) : Extraction :=
  { container := "kdewallet", items, refusals := [], skipped := [], unresolvedSidecarRows := [] }

/-- The vault item that an import makes of a source item. -/
def copied (id : String) (item : SourceItem) : Item :=
  { id, label := item.label, attributes := item.attributes, secret := item.secret
    contentType := item.contentType, created := item.created, modified := item.modified }

/-- The import of an extraction from a wallet with these entries. -/
def importJob (entries : List String) (extraction : Extraction) : ImportJob :=
  { file := walletFile entries, extraction, collection := none, password := [112, 119]
    dryRun := false, setDefault := false, report := none }

/-- The steps of a run up to its Reload request, with nothing failing. -/
def offlineSteps : List ImportAction :=
  [.look false, .create createEnv, .publish false, .publish false,
    .importItems saveEnv fun i => s!"item{i}", .reopen saveEnv]

/-- The Reload and the probes, each of which finds its one item. -/
def onlineSteps : List ImportAction := [.send, .answer true, .probe fun _ => some 1]

/-! ## Neighbours -/

def creator (name : String) (vaultFile : (vaultStem name).isSome = true) : Creator :=
  { path := { parent := "/vaults", name }, call := ⟨[9], publishEnv⟩, vaultFile }

/-- One other process, which creates another vault. -/
def besides : Fin 1 → Creator := fun _ => creator "other.vault" (by decide)

/-- One other process, which creates the vault that the run is about to create. -/
def rival : Fin 1 → Creator := fun _ => creator "kdewallet.vault" (by decide)

/-- The provider renamed the entry, so that the wallet's index does not know it. -/
def mangledJob : ImportJob :=
  importJob ["router"] (fullExtraction [mailEntry])

/-! ## The machine -/

def plainConfig : Config := { config with indexAttributes := false }

def oneJob (item : SourceItem) : Fin 1 → ImportJob :=
  fun _ => importJob ["mail"] (fullExtraction [item])

variable {ι κ : Type} [∀ n, OfNat ι n] [∀ n, OfNat κ n]

/-- The daemon makes a collection and stores an item with these attributes. -/
def storeActions (attributes : Attributes) : List (Action ι) :=
  createSteps 0 "Login" none ++ [Action.insert 0, .task 1 (.resolve "login"),
    .operate 1 (.insertItem saveEnv 1 "a" "item" attributes [1] "text/plain" false)]

/-- Then an import runs up to its Reload request. -/
def storeSteps (attributes : Attributes) : List (HostAction ι κ) :=
  (storeActions attributes).map HostAction.daemon ++ offlineSteps.map (HostAction.run 0)

/-! ## A new default -/

/-- The import of one entry, which is to become the default. -/
def defaultJob : Fin 1 → ImportJob :=
  fun _ => { importJob ["mail"] (fullExtraction [mailEntry]) with setDefault := true }

/-- The tables that the import and a `SetAlias` of `work` can write. -/
def defaultToml : Toml :=
  toml [∅, .ofList [("default", "kdewallet")], .ofList [("work", "kdewallet")],
    .ofList [("default", "kdewallet"), ("work", "kdewallet")]]

theorem defaultToml_lawful : defaultToml.Lawful := toml_lawful (by decide)

/-- The import up to its answered Reload request: the daemon scans the directory and the new vault
in it, and finds no aliases. -/
def reloadSteps : List (HostAction ι κ) :=
  offlineSteps.map (HostAction.run 0) ++
    [HostAction.run 0 .send, .daemon (.reload .start), .daemon (.reload (.entry "kdewallet.vault")),
      .daemon (.reload (.stat none)), .daemon .merge, .run 0 (.answer true)]

/-- Its probe, its write of the alias file and its report. -/
def moveSteps : List (HostAction ι κ) :=
  [.run 0 (.probe fun _ => some 1), .run 0 (.statAliases none), .run 0 (.saveAliases aliasWrite),
    .run 0 (.report none)]

/-- Another Reload, which reads the alias file. -/
def rereadSteps : List (HostAction ι κ) :=
  [.daemon (.reload .start), .daemon (.reload (.stat none)), .daemon (.reload (.read none)),
    .daemon .merge]

/-- A client points `work` at the new collection. -/
def setWork : List (HostAction ι κ) :=
  .daemon (.task 0 (.setAlias "work" "/org/freedesktop/secrets/collection/kdewallet")) ::
    (aliasSteps 0).map .daemon

end SecretManager.Reference
