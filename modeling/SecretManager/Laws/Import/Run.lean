import SecretManager.Import.Host
import SecretManager.Laws.Vault.Coherence

/-!
# What one step of an import run does

The inversion of the run's transition function, one constructor for each thing a step can do, so
that no later proof unfolds it; what the vault that is prepared for publication holds, and what a
successful `import_items` adds to it. The machine the run is beside (`Import.Host`) is inverted in
the same way.
-/

namespace SecretManager.Import

/-- What the run returned, once it has. -/
def ImportPhase.result : ImportPhase → Option (Except ImportError Bool)
  | .ended result => some result
  | _ => none

theorem ImportPhase.result_eq_some {p : ImportPhase} {r : Except ImportError Bool} :
    p.result = some r ↔ p = .ended r := by
  cases p <;> simp [result]

/-! ## The steps -/

/-- Everything a step of a run can do. -/
inductive ImportStep (x : Externals) (toml : Toml) (cfg : Config) (job : ImportJob) (disk : Disk) :
    ImportPhase → ImportAction → ImportPhase → Disk → Prop
  | rehearses {fails : Bool} (dry : job.dryRun = true) :
      ImportStep x toml cfg job disk .checking (.look fails) (job.verified x none) disk
  | refuses {fails : Bool} (real : job.dryRun = false) :
      ImportStep x toml cfg job disk .checking (.look fails) (.ended (.error .usage)) disk
  | begins {fails : Bool} (real : job.dryRun = false)
      (absent : fails = true ∨ disk.dir[(job.path cfg).name]? = none) :
      ImportStep x toml cfg job disk .checking (.look fails) .creating disk
  | unprepared {env : CreateEnv} (e : VaultError) :
      ImportStep x toml cfg job disk .creating (.create env) (job.failed x e) disk
  | prepared {env : CreateEnv} {w : World}
      (ready : prepareCreate x env (job.path cfg) job.label job.password cfg.kdf = .ok w) :
      ImportStep x toml cfg job disk .creating (.create env)
        (.publishing w.vault ⟨w.file.getD [], env.publish⟩ .writing) disk
  | statFails {v : Vault} {call : PublishCall} {phase : PublishPhase} (e : VaultError)
      (asks : phase = .looking ∨ phase = .checking) :
      ImportStep x toml cfg job disk (.publishing v call phase) (.publish true) (job.failed x e) disk
  | publishes {v : Vault} {call : PublishCall} {phase phase' : PublishPhase} {file : Option Bytes}
      (next : phase.next (job.path cfg) call disk.dir[(job.path cfg).name]? = (phase', file)) :
      ImportStep x toml cfg job disk (.publishing v call phase) (.publish false)
        (job.published x v call phase') (disk.put (job.path cfg) file)
  | importFails {v : Vault} {env : SaveEnv} {uuid : Nat → String} {w : World} {e : VaultError}
      (result : (⟨v, disk.dir[(job.path cfg).name]?⟩ : World).importItems x env uuid job.batch = (.error e, w)) :
      ImportStep x toml cfg job disk (.importing v) (.importItems env uuid) (job.failed x e)
        (disk.put (job.path cfg) w.file)
  | imports {v : Vault} {env : SaveEnv} {uuid : Nat → String} {w : World}
      (result : (⟨v, disk.dir[(job.path cfg).name]?⟩ : World).importItems x env uuid job.batch = (.ok (), w)) :
      ImportStep x toml cfg job disk (.importing v) (.importItems env uuid) .reopening
        (disk.put (job.path cfg) w.file)
  | reopens {env : SaveEnv} {answer : Except VaultError (List Item × Bool)} {file : Option Bytes}
      (result : reopen x env (job.path cfg) job.password disk.dir[(job.path cfg).name]? = (answer, file)) :
      ImportStep x toml cfg job disk .reopening (.reopen env) (job.reopened x answer) (disk.put (job.path cfg) file)
  | reports {v : Verification} {next : AfterReport} {written : Option Bytes} :
      ImportStep x toml cfg job disk (.reporting v next) (.report written) (ImportJob.afterReport next) disk
  | writesReport {v : Verification} {next : AfterReport} {name : String} {bytes : Bytes}
      (asked : job.report = some name) :
      ImportStep x toml cfg job disk (.reporting v next) (.report (some bytes))
        (ImportJob.afterReport next) (disk.write name bytes)
  | unlinks {e : ImportError} {fault : Option IoError} {answer : Except IoError Unit}
      {file : Option Bytes}
      (result : removeFile fault disk.dir[(job.path cfg).name]? = (answer, file)) :
      ImportStep x toml cfg job disk (.unlinking e) (.unlink fault) (ImportJob.unlinked e answer)
        (disk.put (job.path cfg) file)
  | sends {v : Verification} {indexed : Bool} :
      ImportStep x toml cfg job disk (.notifying v indexed) .send (.waiting v indexed) disk
  | answered {v : Verification} {indexed reloaded : Bool} :
      ImportStep x toml cfg job disk (.waiting v indexed) (.answer reloaded) (.probing v indexed reloaded) disk
  | probes {v : Verification} {indexed reloaded : Bool} {found : Nat → Option Nat} :
      ImportStep x toml cfg job disk (.probing v indexed reloaded) (.probe found)
        (job.probed (v.probed (job.probeResults indexed reloaded found))) disk
  | stats {v : Verification} {fault : Option Fault} {answer : Except IoError AliasMap}
      (result : statAliases fault disk.aliasFile = some answer) :
      ImportStep x toml cfg job disk (.statingAliases v) (.statAliases fault) (job.aliasesLoaded v answer) disk
  | statted {v : Verification} {fault : Option Fault} :
      ImportStep x toml cfg job disk (.statingAliases v) (.statAliases fault) (.readingAliases v) disk
  | reads {v : Verification} {fault : Option Fault} :
      ImportStep x toml cfg job disk (.readingAliases v) (.readAliases fault)
        (job.aliasesLoaded v (readAliases toml fault disk.aliasFile)) disk
  | saves {v : Verification} {aliases : AliasMap} {env : AliasWriteEnv} {file : Option Bytes}
      (result : saveAliasesTo toml env aliases disk.aliasFile = (.ok (), file)) :
      ImportStep x toml cfg job disk (.savingAliases v aliases) (.saveAliases env)
        (.reporting v (.finish true)) { disk with aliasFile := file }
  | saveFails {v : Verification} {aliases : AliasMap} {env : AliasWriteEnv} {e : IoError}
      {file : Option Bytes}
      (result : saveAliasesTo toml env aliases disk.aliasFile = (.error e, file)) :
      ImportStep x toml cfg job disk (.savingAliases v aliases) (.saveAliases env)
        (.reporting v (.finish false)) { disk with aliasFile := file }

variable {x : Externals}

/-- Each step of an import is one of the listed changes. -/
theorem ImportJob.step_inv {toml : Toml} {cfg : Config} {job : ImportJob} {disk disk' : Disk}
    {phase phase' : ImportPhase} {a : ImportAction}
    (h : job.step x toml cfg disk phase a = some (phase', disk')) :
    ImportStep x toml cfg job disk phase a phase' disk' := by
  unfold ImportJob.step at h
  split at h
  case h_1 fails =>
    split at h
    next dry => cases h; exact .rehearses dry
    next real =>
      rw [Bool.not_eq_true] at real
      dsimp only at h
      split at h
      next => cases h; exact .refuses real
      next absent =>
        cases h
        refine .begins real ?_
        cases fails with
        | true => exact .inl rfl
        | false => exact .inr (by simpa using absent)
  case h_2 env =>
    split at h
    next e _ => cases h; exact .unprepared e
    next w ready => cases h; exact .prepared ready
  case h_3 => cases h; exact .statFails _ (.inl rfl)
  case h_4 => cases h; exact .statFails _ (.inr rfl)
  case h_5 => cases h; exact .publishes rfl
  case h_6 =>
    split at h
    next e w result => cases h; exact .importFails result
    next w result => cases h; exact .imports result
  case h_7 => cases h; exact .reopens rfl
  case h_8 =>
    split at h
    next asked => cases h; exact .writesReport asked
    next => cases h; exact .reports
  case h_9 => cases h; exact .unlinks rfl
  case h_10 => cases h; exact .sends
  case h_11 => cases h; exact .answered
  case h_12 => cases h; exact .probes
  case h_13 =>
    split at h
    next answer result => cases h; exact .stats result
    next => cases h; exact .statted
  case h_14 => cases h; exact .reads
  case h_15 =>
    split at h
    next file result => cases h; exact .saves result
    next e file result => cases h; exact .saveFails result
  case h_16 => cases h

/-! ## Phases -/

/-- The run holds no vault and no alias table in this phase, and has no moved alias to report. -/
def ImportPhase.emptyHanded : ImportPhase → Bool
  | .publishing .. | .importing _ | .savingAliases .. => false
  | .reporting _ (.finish true) | .ended (.ok true) => false
  | _ => true

section

variable {job : ImportJob}

theorem ImportJob.verified_emptyHanded (dest : Option Destination) :
    (job.verified x dest).emptyHanded = true := by
  unfold ImportJob.verified
  dsimp only
  split
  · split
    · rfl
    · rfl
  · split
    · rfl
    · rfl

theorem ImportJob.reopened_emptyHanded (answer : Except VaultError (List Item × Bool)) :
    (job.reopened x answer).emptyHanded = true := by
  unfold ImportJob.reopened
  split
  · rfl
  · split
    · rfl
    · exact ImportJob.verified_emptyHanded _

theorem ImportJob.unlinked_emptyHanded (e : ImportError) (answer : Except IoError Unit) :
    (ImportJob.unlinked e answer).emptyHanded = true := by
  unfold ImportJob.unlinked
  split
  · rfl
  · split
    · rfl
    · rfl

theorem ImportJob.probed_emptyHanded (v : Verification) : (job.probed v).emptyHanded = true := by
  unfold ImportJob.probed
  split
  · rfl
  · split
    · rfl
    · rfl

end

/-! ## What the collection holds -/

variable {w : World}

/-- **A prepared vault**: open and empty at its path, and saved to the bytes that are to be
published. -/
theorem prepareCreate_ok {env : CreateEnv} {path : VaultPath} {label : String} {password : Bytes}
    {kdf : KdfParams} (h : prepareCreate x env path label password kdf = .ok w) :
    ∃ v key, v.path = path ∧ v.state = .unlocked key [] ∧ Saved x v w.vault ∧ w.FileHolds := by
  unfold prepareCreate at h
  split at h
  · cases h
  split at h
  · cases h
  next v built =>
  split at h
  · cases h
  next w' result =>
    cases h
    obtain ⟨-, path, key, -, state⟩ := build_ok built
    have sound : recordBytes.Sound := by
      intro bytes file file' published
      cases published
      rfl
    rcases saveWith_cases sound result with ⟨e, refused, -⟩ | ⟨-, saved, holds⟩
    · cases refused
    · exact ⟨v, key, path, state, saved, holds⟩

theorem prepareCreate_items {env : CreateEnv} {path : VaultPath} {label : String} {password : Bytes}
    {kdf : KdfParams} (h : prepareCreate x env path label password kdf = .ok w) :
    w.vault.items = .ok [] := by
  obtain ⟨v, key, -, state, saved, -⟩ := prepareCreate_ok h
  unfold Vault.items
  rw [saved.state_eq, state]

/-- A successful `import_items` of a batch that is not empty saves the vault with the batch at its
end. -/
theorem importItems_saved {env : SaveEnv} {uuid : Nat → String} {batch : List ImportItem}
    {w' : World} {items : List Item} (held : w.vault.items = .ok items) (filled : batch ≠ [])
    (h : w.importItems x env uuid batch = (.ok (), w')) :
    Saved x (w.vault.setItems (items ++ batch.mapIdx fun i item => World.ofImport (uuid i) item)) w'.vault := by
  unfold World.importItems at h
  rw [if_neg (mt List.isEmpty_iff.mp filled), held] at h
  dsimp only at h
  split at h
  · cases h
  unfold World.saveOrRestore at h
  split at h
  next after saved =>
    cases h
    rcases save_cases saved with ⟨e, refused, -⟩ | ⟨-, saved, -⟩
    · cases refused
    · exact saved
  · cases h

/-- **A successful `import_items` appends the whole batch**, in order and under the ids drawn. -/
theorem importItems_ok {env : SaveEnv} {uuid : Nat → String} {batch : List ImportItem} {w' : World}
    {items : List Item} (held : w.vault.items = .ok items)
    (h : w.importItems x env uuid batch = (.ok (), w')) :
    w'.vault.items = .ok (items ++ batch.mapIdx fun i item => World.ofImport (uuid i) item) := by
  by_cases empty : batch = []
  · subst empty
    cases h
    rw [List.mapIdx_nil, List.append_nil]
    exact held
  · obtain ⟨key, state⟩ := items_ok held
    unfold Vault.items
    rw [(importItems_saved held empty h).state_eq, setItems_unlocked state]

/-! ## Beside the daemon -/

theorem Host.step_cases {ι κ : Type} [DecidableEq ι] [DecidableEq κ] {toml : Toml} {cfg : Config}
    {jobs : κ → ImportJob} {s s' : Host ι κ} {a : HostAction ι κ}
    (h : s.step x toml cfg jobs a = some s') :
    (∃ b daemon, a = .daemon b ∧ (∀ t on, b ≠ .operate t (.setIndexAttributes on)) ∧
        s.daemon.step x toml cfg b = some daemon ∧ s' = { s with daemon }) ∨
      (∃ k b phase disk, a = .run k b ∧ ImportStep x toml cfg (jobs k) s.disk (s.runs k) b phase disk ∧
        s' = { s.setDisk disk with runs := Function.update s.runs k phase }) ∨
      ∃ daemon, a = .restart ∧ Daemon.boot ι x toml cfg s.daemon.dir s.daemon.aliasFile = some daemon ∧
        s' = { s with daemon } := by
  unfold Host.step at h
  split at h
  · cases h
  next b policy =>
    obtain ⟨daemon, moved, rfl⟩ := Option.map_eq_some_iff.mp h
    exact .inl ⟨b, daemon, rfl, policy, moved, rfl⟩
  next k b =>
    obtain ⟨⟨phase, disk⟩, moved, rfl⟩ := Option.map_eq_some_iff.mp h
    exact .inr (.inl ⟨k, b, phase, disk, rfl, ImportJob.step_inv moved, rfl⟩)
  next =>
    obtain ⟨daemon, booted, rfl⟩ := Option.map_eq_some_iff.mp h
    exact .inr (.inr ⟨daemon, rfl, booted, rfl⟩)

end SecretManager.Import
