import SecretManager.Import.Reference
import SecretManager.Laws.Dbus.Daemon
import SecretManager.Laws.Import.Run
import SecretManager.Laws.Vault.Bare

/-!
# Locked search turned off

`[vault] locked_search = false` asks that vault headers carry no attribute hashes. The policy is a
flag of each handle. The daemon sets it on every handle it makes, before the handle can be used, so
that whatever the daemon writes is bare. `sm import` never sets it: its handles hash, and the file
it leaves is bare only where there was nothing to hash.
-/

namespace SecretManager

open Daemon

variable {ι : Type} {x : Externals} {toml : Toml} {cfg : Config}

variable {bytes password : Bytes} {env : SaveEnv} {file : Option Bytes} {h : Handle} {v : Vault}
variable {w w' : World}

/-! ## The daemon -/

section

variable {s s' : Daemon ι}

/-- The vault under this number has its policy off. -/
def Daemon.Off (s : Daemon ι) (h : Handle) : Prop :=
  ∃ v, s.vaults[h]? = some v ∧ v.indexAttributes = false

/-- Every vault that a request can come to hold has its policy off. -/
structure Daemon.Hushed (s : Daemon ι) : Prop where
  collections : ∀ {id : String} {h : Handle}, s.service.collections[id]? = some h → s.Off h
  uses : ∀ {t h}, (s.tasks t).role = .uses h → s.Off h
  opened : ∀ {id h}, (id, h) ∈ s.reload.opened → s.Off h

theorem Daemon.Off.setWorld {h' : Handle} (found : s.world h = some w)
    (off : w.vault.indexAttributes = false → w'.vault.indexAttributes = false) (kept : s.Off h') :
    (s.setWorld h w').Off h' := by
  obtain ⟨hv, -⟩ := world_some found
  obtain ⟨v, hv', hoff⟩ := kept
  by_cases same : h' = h
  · subst same
    obtain rfl : w.vault = v := Option.some.inj (hv.symm.trans hv')
    exact ⟨_, (getElem?_set_eq_some hv).mpr (.inl ⟨rfl, rfl⟩), off hoff⟩
  · exact ⟨v, (getElem?_set_eq_some hv).mpr (.inr ⟨same, hv'⟩), hoff⟩

theorem Daemon.Off.concat {dir : Dir} {tasks : ι → Task} (kept : s.Off h) :
    ({ s with vaults := s.vaults ++ [v], dir, tasks } : Daemon ι).Off h := by
  obtain ⟨v', hv', off⟩ := kept
  exact ⟨v', getElem?_concat_eq_some.mpr (.inl hv'), off⟩

theorem Daemon.Hushed.step_of (hs : s.Hushed) (keeps : ∀ {h}, s.Off h → s'.Off h)
    (collections : ∀ {id : String} {h : Handle}, s'.service.collections[id]? = some h →
      s.service.collections[id]? = some h ∨ s'.Off h)
    (uses : ∀ {t h}, (s'.tasks t).role = .uses h → (s.tasks t).role = .uses h ∨ ∃ id : String,
      s.service.collections[id]? = some h)
    (opened : ∀ {id h}, (id, h) ∈ s'.reload.opened → (id, h) ∈ s.reload.opened ∨ s'.Off h) :
    s'.Hushed := by
  refine ⟨fun found => ?_, fun role => ?_, fun member => ?_⟩
  · rcases collections found with before | off
    · exact keeps (hs.collections before)
    · exact off
  · rcases uses role with before | ⟨id, found⟩
    · exact keeps (hs.uses before)
    · exact keeps (hs.collections found)
  · rcases opened member with before | off
    · exact keeps (hs.opened before)
    · exact off

theorem Role.Moves.of_uses {collections : Std.ExtTreeMap String Handle} {role : Role}
    (moves : Role.Moves collections role (.uses h)) :
    role = .uses h ∨ ∃ id : String, collections[id]? = some h := by
  rcases moves with same | none | ⟨id, h', found, uses | marks⟩
  · exact .inl same.symm
  · cases none
  · cases uses
    exact .inr ⟨id, found⟩
  · cases marks

/-- The file under a name is as it was, or bare. -/
def KeptOrBare (x : Externals) (dir dir' : Dir) (name : String) : Prop :=
  dir'[name]? = dir[name]? ∨ BareFile x dir'[name]?

theorem KeptOrBare.put {dir : Dir} {path : String} (h : file = dir[path]? ∨ BareFile x file)
    (name : String) : KeptOrBare x dir (dir.put path file) name := by
  unfold KeptOrBare
  rw [Dir.getElem?_put]
  split
  next same =>
    subst same
    exact h
  · exact .inl rfl

theorem KeptOrBare.setWorld (w' : World) (found : s.world h = some w)
    (path : w'.vault.path = w.vault.path) (file : w'.file = w.file ∨ BareFile x w'.file)
    (name : String) : KeptOrBare x s.dir (s.setWorld h w').dir name := by
  refine KeptOrBare.put ?_ name
  rw [path, ← (world_some found).2]
  exact file

theorem Booted.hushed (off : cfg.indexAttributes = false) (booted : Booted x cfg s) : s.Hushed := by
  refine ⟨?_, ?_, ?_⟩
  · intro id h found
    obtain ⟨v, hv, -⟩ := booted.collections found
    obtain ⟨id, bytes, v₀, -, -, rfl⟩ := booted.opens hv
    exact ⟨_, hv, off⟩
  · intro t h role
    rw [booted.tasks t] at role
    cases role
  · intro id h member
    rw [booted.reload] at member
    cases member

variable [DecidableEq ι]

theorem Daemon.setTask_uses {t t' : ι} {task : Task} (none : ∀ h, task.role ≠ .uses h)
    (role : ((s.setTask t task).tasks t').role = .uses h) :
    (s.tasks t').role = .uses h ∨ ∃ id : String, s.service.collections[id]? = some h := by
  rcases setTask_role_eq role with ⟨-, role⟩ | ⟨-, role⟩
  · exact absurd role (none h)
  · exact .inl role

/-- **The daemon's handles stay off, and its steps keep every file or leave it bare**, but for the
files that another program writes. -/
theorem DaemonStep.hushed (hx : x.Lawful) (hk : x.toCiphers.KeyBound)
    (off : cfg.indexAttributes = false) {a : Action ι} (step : DaemonStep x toml cfg s a s')
    (policy : ∀ t b, a ≠ .operate t (.setIndexAttributes b)) (hs : s.Hushed) :
    s'.Hushed ∧ ∀ name, KeptOrBare x s.dir s'.dir name ∨ ∃ n file, a = .externalVault n file := by
  cases step with
  | task moved =>
    refine ⟨hs.step_of id .inl ?_ .inl, fun name => .inl (.inl rfl)⟩
    intro t' h role
    have moves := setTask_moves (advance_role moved) t'
    rw [show (_ : Task).role = .uses h from role] at moves
    exact moves.of_uses
  | gate moved | externalAliases aliasFile =>
    exact ⟨hs.step_of id .inl .inl .inl, fun name => .inl (.inl rfl)⟩
  | @operate t op h w task world =>
    have served : s.Off h := hs.uses (t := t) (by rw [task]; rfl)
    obtain ⟨v, hv, hoff⟩ := served
    obtain rfl : w.vault = v := Option.some.inj ((world_some world).1.symm.trans hv)
    have hushed : World.Hushed x w (op.apply x w).2 :=
      apply_hushed hx hk (fun b same => policy t b (by rw [same])) hoff
    have follows : w.Follows (op.apply x w).2 := apply_follows rfl
    refine ⟨hs.step_of ?_ .inl .inl .inl, fun name => .inl ?_⟩
    · exact Daemon.Off.setWorld world fun _ => hushed.off
    · exact KeptOrBare.setWorld _ world follows.path hushed.file name
  | unlinkLocked task world locked =>
    refine ⟨hs.step_of id .inl ?_ .inl, fun name => .inl (.inl rfl)⟩
    exact setTask_uses nofun
  | @unlinkFailed t fault id h w task world unlocked failed =>
    refine ⟨hs.step_of (Daemon.Off.setWorld world fun off => off) .inl ?_ .inl, fun name => .inl ?_⟩
    · exact setTask_uses (s := s.setWorld h _) nofun
    · exact KeptOrBare.setWorld _ world rfl (.inl rfl) name
  | @unlink t id h w bytes task world unlocked present =>
    refine ⟨hs.step_of (Daemon.Off.setWorld world fun off => off) .inl ?_ .inl, fun name => .inl ?_⟩
    · exact setTask_uses (s := s.setWorld h _) nofun
    · exact KeptOrBare.setWorld ⟨w.vault.retire, none⟩ world rfl (.inr (.of_vacant rfl)) name
  | @unmap t gone h task =>
    refine ⟨hs.step_of id ?_ ?_ .inl, fun name => .inl (.inl rfl)⟩
    · intro id' h' found
      rw [Std.ExtTreeMap.getElem?_erase] at found
      split at found
      · cases found
      · exact .inl found
    · exact setTask_uses nofun
  | job task made | orphan task made =>
    refine ⟨hs.step_of Daemon.Off.concat .inl ?_ .inl, fun name => .inl ?_⟩
    · exact setTask_uses nofun
    · exact KeptOrBare.put (create_bare hx hk made) name
  | jobFailed task failed =>
    refine ⟨hs.step_of id .inl ?_ .inl, fun name => .inl ?_⟩
    · exact setTask_uses fun h => by rw [afterError_role]; nofun
    · exact KeptOrBare.put (create_bare hx hk failed) name
  | orphanFailed task failed =>
    refine ⟨hs.step_of id .inl ?_ .inl, fun name => .inl ?_⟩
    · exact setTask_uses nofun
    · exact KeptOrBare.put (create_bare hx hk failed) name
  | @insert t label aliasName made h v task vault =>
    have offNow : ∀ {h'}, s.Off h' ∨ h' = h → Daemon.Off
        { s.setTask t (.afterInsert label aliasName made) with
          vaults := s.vaults.set h (v.setIndexAttributes cfg.indexAttributes)
          service := { s.service with collections := s.service.collections.insert made h } } h' := by
      intro h' before
      by_cases same : h' = h
      · exact ⟨_, (getElem?_set_eq_some vault).mpr (.inl ⟨same, rfl⟩), off⟩
      · obtain ⟨v', hv', hoff⟩ := before.resolve_right same
        exact ⟨v', (getElem?_set_eq_some vault).mpr (.inr ⟨same, hv'⟩), hoff⟩
    refine ⟨hs.step_of (fun before => offNow (.inl before)) ?_ ?_ .inl, fun name => .inl (.inl rfl)⟩
    · intro id' h' found
      rw [Std.ExtTreeMap.getElem?_insert] at found
      split at found
      · exact .inr (offNow (.inr (Option.some.inj found).symm))
      · exact .inl found
    · exact setTask_uses fun h => by rw [afterInsert_role]; nofun
  | @aliases t env call phase phase' aliases aliasFile update piece =>
    refine ⟨hs.step_of id .inl ?_ .inl, fun name => .inl (.inl rfl)⟩
    intro t' h role
    rcases setTask_role_eq (s := s) role with ⟨rfl, role⟩ | ⟨-, role⟩
    · rcases updated_role (s.tasks t') phase' with same | none
      · exact .inl (same.symm.trans role)
      · rw [none] at role
        cases role
    · exact .inl role
  | @entry name loaded scan scanning =>
    have before : s.reload.opened = scan.opened := by rw [scanning]; rfl
    rcases scanEntry_cases x cfg loaded name s.dir[name]? scan s.vaults with
      ⟨opened, vaults⟩ | ⟨id', v, -, -, opened, vaults⟩
    · refine ⟨hs.step_of ?_ .inl .inl ?_, fun name => .inl (.inl rfl)⟩
      · rintro h ⟨v, hv, hoff⟩
        exact ⟨v, by rw [vaults]; exact hv, hoff⟩
      · intro id h member
        exact .inl (by rw [before, ← opened]; exact member)
    · refine ⟨hs.step_of ?_ .inl .inl ?_, fun name => .inl (.inl rfl)⟩
      · rintro h ⟨v', hv', hoff⟩
        exact ⟨v', by rw [vaults]; exact getElem?_concat_eq_some.mpr (.inl hv'), hoff⟩
      · intro id h member
        have member : (id, h) ∈ scan.opened ++ [(id', s.vaults.length)] := by
          rw [← opened]
          exact member
        rcases List.mem_append.mp member with member | new
        · exact .inl (by rw [before]; exact member)
        · obtain ⟨-, rfl⟩ := Prod.mk.inj (List.mem_singleton.mp new)
          exact .inr ⟨_, by rw [vaults]; exact getElem?_concat_eq_some.mpr (.inr ⟨rfl, rfl⟩), off⟩
  | reload kept =>
    refine ⟨hs.step_of id .inl .inl ?_, fun name => .inl (.inl rfl)⟩
    intro id h member
    rcases kept with same | none
    · exact .inl (by rw [← same]; exact member)
    · rw [show (_ : ScanPhase).opened = [] from none] at member
      cases member
  | @merge scan aliases scanned =>
    refine ⟨hs.step_of id ?_ .inl nofun, fun name => .inl (.inl rfl)⟩
    intro id h found
    rcases mergeScan_collections s.service scan aliases id with same | ⟨h', member, found'⟩
    · exact .inl (same.symm.trans found)
    · obtain rfl : h' = h := Option.some.inj (found'.symm.trans found)
      exact .inr (hs.opened (by rw [scanned]; exact member))
  | externalVault name file =>
    exact ⟨hs.step_of id .inl .inl .inl, fun _ => .inr ⟨name, file, rfl⟩⟩

end

namespace Import

/-! ## The runs -/

section

variable {job : ImportJob}
variable {path : VaultPath}

/-- The new vault that a run holds is empty, and was saved so. -/
def ImportPhase.Hushed (x : Externals) : ImportPhase → Prop
  | .publishing v call _ => Bare x call.bytes ∧ v.items = .ok []
  | .importing v => v.items = .ok []
  | _ => True

/-- The vault at a path, with the items that this password decrypts from it. -/
def readBack (x : Externals) (path : VaultPath) (password : Bytes) (file : Option Bytes) :
    Option (Vault × List Item) :=
  match Vault.open x path file with
  | .error _ => none
  | .ok v =>
    match deriveKey x.toCiphers password v.header.salt v.header.kdf with
    | .error _ => none
    | .ok key =>
      match Crypto.open x.toCiphers key v.header.nonce v.aad v.ciphertext with
      | .error _ => none
      | .ok plain => (decodeItems x plain).toOption.map fun items => (v, items)

/-- **The discipline of a run**: the items it writes have no attributes, and the vault it reads back
has none that its header does not index already. -/
def ImportJob.findsNothingToHash (x : Externals) (cfg : Config) (job : ImportJob) (disk : Disk) :
    ImportAction → Bool
  | .importItems _ _ => job.batch.all (·.attributes.isEmpty)
  | .reopen _ =>
    (readBack x (job.path cfg) job.password disk.dir[(job.path cfg).name]?).all fun found =>
      found.1.indexHasAttributes || found.2.all (·.attributes.isEmpty)
  | _ => true

theorem prepareCreate_bare (hx : x.Lawful) (hk : x.toCiphers.KeyBound) {env : CreateEnv}
    {label : String} {kdf : KdfParams} (h : prepareCreate x env path label password kdf = .ok w) :
    Bare x (w.file.getD []) := by
  obtain ⟨v, key, -, state, saved, holds⟩ := prepareCreate_ok h
  rw [show w.file = _ from holds]
  refine saved.bare hx hk ?_
  intro key' items unlocked
  rw [state] at unlocked
  cases unlocked
  simp [hashesNothing]

/-- **A batch without attributes is written bare** into an empty vault. -/
theorem importItems_bare (hx : x.Lawful) (hk : x.toCiphers.KeyBound) {uuid : Nat → String}
    {batch : List ImportItem} {r : Except VaultError Unit}
    (plain : batch.all (·.attributes.isEmpty) = true) (empty : w.vault.items = .ok [])
    (h : w.importItems x env uuid batch = (r, w')) : w'.file = w.file ∨ BareFile x w'.file := by
  have mutates := importItems_mutates x env w uuid batch
  rw [h] at mutates
  cases mutates with
  | refused e => exact .inl rfl
  | kept a => exact .inl rfl
  | saved a edit saved holds =>
    have items := importItems_ok empty h
    refine .inr (saved.bareFile hx hk holds ?_)
    intro key items' state
    have same : w'.vault.items = .ok items' := by
      unfold Vault.items
      rw [saved.state_eq, state]
    rw [items] at same
    cases same
    simp only [hashesNothing, Bool.or_eq_true, List.all_eq_true]
    right
    intro item member
    obtain ⟨i, small, rfl⟩ := List.mem_mapIdx.mp member
    exact List.all_eq_true.mp plain _ (List.getElem_mem small)

theorem opened_wantsAttributes (w : World) (key : Key) (items : List Item) :
    (w.opened key items).vault.wantsAttributes = !hashesNothing w.vault.indexAttributes items := by
  simp only [Vault.wantsAttributes, World.opened, Vault.items, hashesNothing, Bool.not_or, Bool.not_not,
    List.not_all_eq_any_not]

theorem unlockWithKey_bare (hx : x.Lawful) (hk : x.toCiphers.KeyBound) {key : Key}
    {r : Except VaultError Unit}
    (quiet : ∀ items, w.vault.Contents x key items → w.vault.indexHasAttributes = true ∨
      items.all (·.attributes.isEmpty) = true) (h : w.unlockWithKey x env key = (r, w')) :
    w'.file = w.file ∨ BareFile x w'.file := by
  rcases unlockWithKey_cases h with ⟨e, -, rfl⟩ | ⟨-, rfl, -⟩ | ⟨-, -, items, contents, settles⟩
  · exact .inl rfl
  · exact .inl rfl
  cases settles with
  | matching same => exact .inl rfl
  | stale warning differs => exact .inl rfl
  | rewritten differs saved holds =>
    refine .inr (saved.bareFile hx hk holds ?_)
    intro key' items' state
    cases state
    rcases quiet items contents with indexed | plain
    · -- the header differs from the policy, so the policy wants no hashes
      rw [opened_wantsAttributes] at differs
      have unwanted := (Bool.eq_false_or_eq_true (hashesNothing w.vault.indexAttributes items))
      rcases unwanted with nothing | something
      · exact nothing
      · rw [something] at differs
        exact absurd indexed differs
    · exact Bool.or_eq_true_iff.mpr (.inr plain)

theorem readBack_contents {key : Key} {items : List Item} (opened : Vault.open x path file = .ok v)
    (derived : deriveKey x.toCiphers password v.header.salt v.header.kdf = .ok key)
    (contents : v.Contents x key items) : readBack x path password file = some (v, items) := by
  obtain ⟨plain, decrypted, decoded⟩ := contents
  unfold readBack
  rw [opened]
  dsimp only
  rw [derived]
  dsimp only
  rw [decrypted]
  dsimp only
  rw [decoded]
  rfl

/-- **A vault read back is left alone or bare**, if its header indexes the attributes it has. -/
theorem reopen_bare (hx : x.Lawful) (hk : x.toCiphers.KeyBound) {file' : Option Bytes}
    {answer : Except VaultError (List Item × Bool)}
    (quiet : (readBack x path password file).all
      (fun found => found.1.indexHasAttributes || found.2.all (·.attributes.isEmpty)) = true)
    (h : reopen x env path password file = (answer, file')) : file' = file ∨ BareFile x file' := by
  unfold reopen at h
  split at h
  · exact .inl (Prod.mk.inj h).2.symm
  next v opened =>
  split at h
  · exact .inl (Prod.mk.inj h).2.symm
  next key derived =>
  have indexed : ∀ items, v.Contents x key items →
      v.indexHasAttributes = true ∨ items.all (·.attributes.isEmpty) = true := by
    intro items contents
    rw [readBack_contents opened derived contents] at quiet
    exact Bool.or_eq_true_iff.mp quiet
  split at h
  next e w unlocked =>
    rw [← (Prod.mk.inj h).2]
    exact unlockWithKey_bare hx hk indexed unlocked
  next w unlocked =>
    have bare := unlockWithKey_bare hx hk indexed unlocked
    split at h
    · rw [← (Prod.mk.inj h).2]
      exact bare
    · rw [← (Prod.mk.inj h).2]
      exact bare

variable {disk disk' : Disk} {phase phase' : ImportPhase} {a : ImportAction}

theorem ImportJob.published_hushed {call : PublishCall} (bare : Bare x call.bytes)
    (empty : v.items = .ok []) (phase : PublishPhase) :
    (job.published x v call phase).Hushed x := by
  unfold ImportJob.published
  split
  · exact empty
  · exact trivial
  · exact ⟨bare, empty⟩

theorem ImportPhase.Hushed.of_emptyHanded (h : phase.emptyHanded = true) : phase.Hushed x := by
  cases phase with
  | publishing | importing => cases h
  | _ => exact trivial

theorem ImportJob.afterReport_hushed (next : AfterReport) :
    (ImportJob.afterReport next).Hushed x := by
  cases next <;> exact trivial

theorem ImportJob.aliasesLoaded_hushed (v : Verification) (answer : Except IoError AliasMap) :
    (job.aliasesLoaded v answer).Hushed x := by
  cases answer <;> exact trivial

theorem ImportStep.hushed (hx : x.Lawful) (hk : x.toCiphers.KeyBound)
    (step : ImportStep x toml cfg job disk phase a phase' disk') (hushed : phase.Hushed x)
    (quiet : job.findsNothingToHash x cfg disk a = true) :
    phase'.Hushed x ∧ ∀ name, KeptOrBare x disk.dir disk'.dir name ∨ ∃ written, a = .report written := by
  cases step with
  | rehearses dry => exact ⟨.of_emptyHanded (ImportJob.verified_emptyHanded _), fun _ => .inl (.inl rfl)⟩
  | refuses real | begins real absent | unprepared e | statFails e asks | sends | answered
  | statted | saves result | saveFails result => exact ⟨trivial, fun _ => .inl (.inl rfl)⟩
  | prepared ready =>
    exact ⟨⟨prepareCreate_bare hx hk ready, prepareCreate_items ready⟩, fun _ => .inl (.inl rfl)⟩
  | @publishes v call phase phase' file next =>
    obtain ⟨bare, empty⟩ := hushed
    refine ⟨ImportJob.published_hushed bare empty _, fun name => .inl (KeptOrBare.put ?_ name)⟩
    have left := next_file (job.path cfg) call phase disk.dir[(job.path cfg).name]?
    rw [next] at left
    rcases left with same | vacant | rfl
    · exact .inl same
    · exact .inr (.of_vacant vacant)
    · exact .inr (.of_bytes bare)
  | @importFails v env uuid w e result | @imports v env uuid w result =>
    have written := importItems_bare hx hk (w := ⟨v, _⟩) quiet hushed result
    exact ⟨trivial, fun name => .inl (KeptOrBare.put written name)⟩
  | reopens result =>
    have written := reopen_bare hx hk quiet result
    exact ⟨.of_emptyHanded (ImportJob.reopened_emptyHanded _), fun name => .inl (KeptOrBare.put written name)⟩
  | reports => exact ⟨ImportJob.afterReport_hushed _, fun _ => .inl (.inl rfl)⟩
  | writesReport asked => exact ⟨ImportJob.afterReport_hushed _, fun _ => .inr ⟨_, rfl⟩⟩
  | @unlinks e fault answer file result =>
    refine ⟨.of_emptyHanded (ImportJob.unlinked_emptyHanded _ _), fun name => .inl (KeptOrBare.put ?_ name)⟩
    rcases removeFile_cases fault disk.dir[(job.path cfg).name]? with ⟨e, -, kept⟩ | ⟨_, -, -, gone⟩
    · rw [kept] at result
      exact .inl (Prod.mk.inj result).2.symm
    · rw [gone] at result
      exact .inr (.of_vacant (by rw [← (Prod.mk.inj result).2]; rfl))
  | probes => exact ⟨.of_emptyHanded (ImportJob.probed_emptyHanded _), fun _ => .inl (.inl rfl)⟩
  | stats result | reads => exact ⟨ImportJob.aliasesLoaded_hushed _ _, fun _ => .inl (.inl rfl)⟩

end

/-! ## The machine -/

section

variable {κ : Type} [DecidableEq ι] [DecidableEq κ] {jobs : κ → ImportJob}

/-- The step writes files that this code does not make: another program does, or the user's
report. -/
def HostAction.foreign : HostAction ι κ → Bool
  | .daemon (.externalVault _ _) => true
  | .run _ (.report _) => true
  | _ => false

/-- The names whose file the daemon or a run was the last to change. -/
def Host.recordWritten (before : Host ι κ) (a : HostAction ι κ) (after : Host ι κ)
    (written : String → Bool) (name : String) : Bool :=
  if after.daemon.dir[name]? = before.daemon.dir[name]? then written name else !a.foreign

/-- **The discipline**: no run finds attributes to hash. -/
def findNothingToHash (x : Externals) (cfg : Config) (jobs : κ → ImportJob)
    (p : Host ι κ × (String → Bool)) : HostAction ι κ → Prop
  | .run k a => (jobs k).findsNothingToHash x cfg p.1.disk a = true
  | _ => True

instance (p : Host ι κ × (String → Bool)) (a : HostAction ι κ) :
    Decidable (findNothingToHash x cfg jobs p a) :=
  match a with
  | .run _ _ => inferInstanceAs (Decidable (_ = true))
  | .daemon _ => inferInstanceAs (Decidable True)
  | .restart => inferInstanceAs (Decidable True)

/-- Every handle is off or holds an empty vault, and every written file is bare. -/
structure Unhashed (x : Externals) (p : Host ι κ × (String → Bool)) : Prop where
  daemon : p.1.daemon.Hushed
  runs : ∀ k, (p.1.runs k).Hushed x
  files : ∀ {name}, p.2 name = true → BareFile x p.1.daemon.dir[name]?

omit [DecidableEq ι] [DecidableEq κ] in
theorem Unhashed.files_step {p : Host ι κ × (String → Bool)} {a : HostAction ι κ} {s' : Host ι κ}
    (h : Unhashed x p)
    (kept : ∀ name, KeptOrBare x p.1.daemon.dir s'.daemon.dir name ∨ a.foreign = true)
    {name : String} (written : p.1.recordWritten a s' p.2 name = true) :
    BareFile x s'.daemon.dir[name]? := by
  unfold Host.recordWritten at written
  split at written
  next same =>
    rw [same]
    exact h.files written
  next changed =>
    rcases kept name with (same | bare) | foreign
    · exact absurd same changed
    · exact bare
    · rw [foreign] at written
      cases written

theorem Unhashed.step (hx : x.Lawful) (hk : x.toCiphers.KeyBound)
    (off : cfg.indexAttributes = false) {p p' : Host ι κ × (String → Bool)} {a : HostAction ι κ}
    (h : Unhashed x p) (quiet : findNothingToHash x cfg jobs p a)
    (step : logged (Host.step x toml cfg jobs) Host.recordWritten p a = some p') :
    Unhashed x p' := by
  obtain ⟨moved, recorded⟩ := logged_eq_some step
  obtain ⟨s', written⟩ := p'
  dsimp only at moved recorded
  subst recorded
  rcases Host.step_cases moved with ⟨b, daemon, rfl, policy, daemonMoved, rfl⟩ |
    ⟨k, b, phase, disk, rfl, runStep, rfl⟩ | ⟨daemon, rfl, booted, rfl⟩
  · obtain ⟨hushed, kept⟩ := (step_inv daemonMoved).hushed hx hk off policy h.daemon
    refine ⟨hushed, h.runs, h.files_step fun name => ?_⟩
    refine (kept name).imp id ?_
    rintro ⟨n, file, rfl⟩
    rfl
  · obtain ⟨hushed, kept⟩ := runStep.hushed hx hk (h.runs k) quiet
    refine ⟨⟨h.daemon.collections, h.daemon.uses, h.daemon.opened⟩, fun k' => ?_, h.files_step fun name => ?_⟩
    · by_cases same : k' = k
      · subst same
        simpa only [Function.update_self] using hushed
      · simpa only [Function.update_of_ne same] using h.runs k'
    · refine (kept name).imp id ?_
      rintro ⟨written, rfl⟩
      rfl
  · refine ⟨(boot_booted booted).hushed off, h.runs, h.files_step fun name => .inl (.inl ?_)⟩
    obtain ⟨aliases, -, rfl⟩ := Option.map_eq_some_iff.mp booted
    rfl

/-- These bytes stand in the directory after a run of the machine, and the daemon or an import was
the last to change that file. -/
def Writes (x : Externals) (toml : Toml) (cfg : Config) (jobs : κ → ImportJob)
    (ok : Host ι κ × (String → Bool) → HostAction ι κ → Prop) (bytes : Bytes) : Prop :=
  ∃ dir aliasFile daemon p name, boot ι x toml cfg dir aliasFile = some daemon ∧
    Reach (logged (Host.step x toml cfg jobs) Host.recordWritten) ok
      (Host.start κ daemon, fun _ => false) p ∧
    p.2 name = true ∧ p.1.daemon.dir[name]? = some bytes

theorem Writes.bare (hx : x.Lawful) (hk : x.toCiphers.KeyBound) (off : cfg.indexAttributes = false)
    (h : Writes (ι := ι) x toml cfg jobs (findNothingToHash x cfg jobs) bytes) : Bare x bytes := by
  obtain ⟨dir, aliasFile, daemon, p, name, booted, run, written, present⟩ := h
  have start : Unhashed x (Host.start κ daemon, fun _ => false) :=
    ⟨(boot_booted booted).hushed off, fun _ => trivial, nofun⟩
  have inv : Unhashed x p := run.invariant (Unhashed x) start
    fun h quiet step => h.step hx hk off quiet step
  exact inv.files written bytes present

/-- **With locked search off, no written vault file carries a hash**, and the header indexes of two
such files whose items have the same ids are equal, if no import run finds attributes to hash. -/
theorem locked_search_off_writes_no_hash {ι' κ' : Type} [DecidableEq ι'] [DecidableEq κ']
    {toml' : Toml} {cfg' : Config} {jobs' : κ' → ImportJob} (hx : x.Lawful)
    (hk : x.toCiphers.KeyBound) (off : cfg.indexAttributes = false)
    (off' : cfg'.indexAttributes = false) {bytes' : Bytes} {vf vf' : VaultFile}
    (written : Writes (ι := ι) x toml cfg jobs (findNothingToHash x cfg jobs) bytes)
    (written' : Writes (ι := ι') x toml' cfg' jobs' (findNothingToHash x cfg' jobs') bytes')
    (read : VaultFile.decode x bytes = .ok vf) (read' : VaultFile.decode x bytes' = .ok vf') :
    (∀ e ∈ vf.header.index, e.attrHashes = []) ∧ ∀ items items', vf.Holds x items → vf'.Holds x items' →
        items.map (·.id) = items'.map (·.id) → vf.header.index = vf'.header.index := by
  obtain ⟨stored, index, only⟩ := written.bare hx hk off vf read
  obtain ⟨stored', index', only'⟩ := written'.bare hx hk off' vf' read'
  refine ⟨fun e member => bareIndex_hashes (index ▸ member), ?_⟩
  intro items items' holds holds' ids
  rw [index, index', ← only items holds, ← only' items' holds', bareIndex_congr ids]

end

/-! ## Runs that can be evaluated -/

theorem readBack_holds {path : VaultPath} {items : List Item}
    (h : readBack x path password (some bytes) = some (v, items)) :
    ∃ vf, VaultFile.decode x bytes = .ok vf ∧ vf.Holds x items ∧ vf.header = v.header := by
  unfold readBack at h
  split at h
  · cases h
  next v' opened =>
  split at h
  · cases h
  next key derived =>
  split at h
  · cases h
  next plain decrypted =>
  cases decoded : decodeItems x plain with
  | error e =>
    rw [decoded] at h
    cases h
  | ok items' =>
    rw [decoded] at h
    cases h
    obtain ⟨bytes', vf, same, -, decode, rfl⟩ := open_ok_iff.mp opened
    cases same
    exact ⟨vf, decode, ⟨key, plain, decrypted, decoded⟩, rfl⟩

section

open SecretManager.Reference

set_option maxRecDepth 20000

/-- What a run has written to a file, with the vault and the items in it. -/
def writtenItems (name : String) (p : Host (Fin 2) (Fin 1) × (String → Bool)) :
    Option (Bytes × Vault × List Item) :=
  if p.2 name then
    (p.1.daemon.dir[name]?).bind fun bytes =>
      (readBack hashing path [112, 119] (some bytes)).map fun found => (bytes, found)
  else none

theorem exists_writes (item : SourceItem)
    (ok : Host (Fin 2) (Fin 1) × (String → Bool) → HostAction (Fin 2) (Fin 1) → Prop)
    [∀ p a, Decidable (ok p a)] (steps : List (HostAction (Fin 2) (Fin 1))) (name : String)
    (test : Header → List Item → Bool)
    (passes : ((boot (Fin 2) hashing daemonToml plainConfig ∅ none).bind fun daemon => Reach.exec
      (logged (Host.step hashing daemonToml plainConfig (oneJob item)) Host.recordWritten) ok
      (Host.start (Fin 1) daemon, fun _ => false) steps).any (fun p => (writtenItems name p).any fun
      found => test found.2.1.header found.2.2) = true) :
    ∃ bytes vf items, Writes hashing daemonToml plainConfig (oneJob item) ok bytes ∧
      VaultFile.decode hashing bytes = .ok vf ∧ vf.Holds hashing items ∧
      test vf.header items = true := by
  obtain ⟨daemon, p, booted, run, found⟩ := Reach.exists_of_exec_from _ _ _
    (fun daemon => (Host.start (Fin 1) daemon, fun _ => false)) steps _ passes
  obtain ⟨⟨bytes, v, items⟩, here, passed⟩ := (Option.any_eq_true _ _).mp found
  unfold writtenItems at here
  split at here
  next written =>
    obtain ⟨bytes', present, read⟩ := Option.bind_eq_some_iff.mp here
    obtain ⟨⟨v', items'⟩, read, same⟩ := Option.map_eq_some_iff.mp read
    cases same
    obtain ⟨vf, decode, holds, header⟩ := readBack_holds read
    refine ⟨bytes, vf, items, ⟨∅, none, daemon, p, name, booted, run, written, present⟩, decode, holds, ?_⟩
    rw [header]
    exact passed
  · cases here

/-- Two histories of one collection, whose item has an attribute in one of them and none in the
other, each with an import of an entry that has none. -/
theorem locked_search_off_writes_no_hash_pair :
    let jobs := oneJob plainEntry
    let written := Writes (ι := Fin 2) hashing daemonToml plainConfig jobs
      (findNothingToHash hashing plainConfig jobs)
    ∃ bytes bytes' vf vf' items items', written bytes ∧ written bytes' ∧
      VaultFile.decode hashing bytes = .ok vf ∧ VaultFile.decode hashing bytes' = .ok vf' ∧
      vf.Holds hashing items ∧ vf'.Holds hashing items' ∧ items ≠ items' ∧
      vf.header.index = vf'.header.index := by
  intro jobs written
  let test (tagged : Bool) (_ : Header) (items : List Item) : Bool :=
    items.map (·.id) = ["a"] && items.any (!·.attributes.isEmpty) == tagged
  obtain ⟨bytes, vf, items, wrote, read, holds, tagged⟩ := exists_writes plainEntry
    (findNothingToHash hashing plainConfig jobs) (storeSteps (.ofList [("user", "x")])) "login.vault"
    (test true) (by decide)
  obtain ⟨bytes', vf', items', wrote', read', holds', plain⟩ := exists_writes plainEntry
    (findNothingToHash hashing plainConfig jobs) (storeSteps ∅) "login.vault"
    (test false) (by decide)
  simp only [test, Bool.and_eq_true, decide_eq_true_eq, beq_iff_eq] at tagged plain
  refine ⟨bytes, bytes', vf, vf', items, items', wrote, wrote', read, read', holds, holds', ?_, ?_⟩
  · rintro rfl
    exact absurd (tagged.2.symm.trans plain.2) (by decide)
  · exact (locked_search_off_writes_no_hash hashing_lawful ciphers_keyBound rfl rfl
      wrote wrote' read read').2 items items' holds holds' (tagged.1.trans plain.1.symm)

/-- **An import writes hashes with locked search off**: the handle of its new vault hashes, and
nobody tells it not to. -/
theorem import_hashes_with_locked_search_off :
    ∃ bytes vf, Writes (ι := Fin 2) hashing daemonToml plainConfig (oneJob mailEntry) (fun _ _ => True) bytes ∧
      VaultFile.decode hashing bytes = .ok vf ∧ ∃ e ∈ vf.header.index, e.attrHashes ≠ [] := by
  obtain ⟨bytes, vf, items, wrote, read, -, hashed⟩ := exists_writes mailEntry (fun _ _ => True)
    (offlineSteps.map (.run 0)) "kdewallet.vault"
    (fun header _ => header.index.any fun e => !e.attrHashes.isEmpty) (by decide)
  obtain ⟨e, member, nonempty⟩ := List.any_eq_true.mp hashed
  refine ⟨bytes, vf, wrote, read, e, member, fun none => ?_⟩
  rw [none] at nonempty
  cases nonempty

end

end Import

end SecretManager
