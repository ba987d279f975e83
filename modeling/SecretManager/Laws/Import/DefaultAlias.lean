import SecretManager.Import.Reference
import SecretManager.Laws.Dbus.Updates
import SecretManager.Laws.Import.Run

/-!
# The default alias that an import moves

`sm import --set-default` asks the daemon for a Reload, probes it, and only then writes the new
default into `aliases.toml`. The daemon's table is a copy of that file as its last Reload read it,
and every alias update writes the whole copy back. So the Reload that the run asked for has read the
file too early: the daemon goes on without the new default, and its next update of any alias takes
it out of the file again.

What restores the default is one more Reload, one that reads the file after the run has written it,
if no update comes in between.
-/

namespace SecretManager

open Function

variable {id : String} {ι : Type} {x : Externals} {toml : Toml} {cfg : Config}

/-! ## Tables and updates -/

/-- The file parses, and its table maps `default` to this collection. -/
def MapsDefault (toml : Toml) (file : Option Bytes) (id : String) : Prop :=
  ∃ m, readAliases toml none file = .ok m ∧ m["default"]? = some id

/-- What the task does to aliases or collections leaves `default` at this collection. -/
def Task.leavesDefault (id : String) : Task → Bool
  | .setAlias name _ _ => name != "default"
  | .create _ _ (.recording _ name _) => name != "default"
  | .delete gone _ => gone != id
  | _ => true

variable {name : String}

section

variable {view : ServiceView} {base next : AliasMap}

theorem setAlias_keeps {collection : String} (other : name ≠ "default")
    (before : base["default"]? = some id)
    (h : (setAlias name collection).edit view base = .ok next) : next["default"]? = some id := by
  simp only [setAlias] at h
  split at h
  · cases h
    rwa [Std.ExtTreeMap.getElem?_erase, if_neg (by simpa using other)]
  split at h
  · cases h
  split at h
  · cases h
  · cases h
    rwa [Std.ExtTreeMap.getElem?_insert, if_neg (by simpa using other)]

theorem recordAlias_keeps {target : String} (other : name ≠ "default")
    (before : base["default"]? = some id)
    (h : (recordAlias name target).edit view base = .ok next) : next["default"]? = some id := by
  simp only [recordAlias] at h
  split at h
  · cases h
  · cases h
    rwa [Std.ExtTreeMap.getElem?_insert, if_neg (by simpa using other)]

theorem purgeAliases_keeps {gone : String} (other : gone ≠ id) (before : base["default"]? = some id)
    (h : (purgeAliases gone).edit view base = .ok next) : next["default"]? = some id := by
  cases h
  rw [Std.ExtTreeMap.getElem?_filter, before]
  simp [other.symm]

theorem Task.update_keeps {task : Task} {call : AliasCall ServiceView DbusError}
    {phase : CallPhase DbusError} (update : task.update = some (call, phase))
    (leaves : task.leavesDefault id = true) (before : base["default"]? = some id)
    (h : call.edit view base = .ok next) : next["default"]? = some id := by
  unfold Task.update at update
  split at update
  · cases update
    exact setAlias_keeps (by simpa [Task.leavesDefault] using leaves) before h
  · cases update
    exact recordAlias_keeps (by simpa [Task.leavesDefault] using leaves) before h
  · cases update
    exact purgeAliases_keeps (by simpa [Task.leavesDefault] using leaves) before h
  · cases update

end

variable {env : AliasWriteEnv}

theorem updatePiece_keeps {toml : Toml} (ht : toml.Lawful) {call : AliasCall ServiceView DbusError}
    {st : ServiceState} {file file' : Option Bytes} {table : AliasTable}
    {phase phase' : CallPhase DbusError} {id : String}
    (keeps : ∀ {base next}, base["default"]? = some id → call.edit st.view base = .ok next →
      next["default"]? = some id)
    (known : st.aliases.known["default"]? = some id) (maps : MapsDefault toml file id)
    (pending : ∀ next, phase.pending = some next → next["default"]? = some id)
    (piece : updatePiece toml call st env file phase = (table, file', phase')) :
    table.known["default"]? = some id ∧ MapsDefault toml file' id ∧
      ∀ next, phase'.pending = some next → next["default"]? = some id := by
  obtain ⟨known', pending'⟩ :=
    updatePiece_holds (P := fun m => m["default"]? = some id) keeps known pending piece
  refine ⟨known', ?_, pending'⟩
  rcases updatePiece_file piece with rfl | ⟨next, text, writing, printed, rfl⟩
  · exact maps
  · exact ⟨next, readAliases_utf8 ht printed, pending next writing⟩

/-! ## The daemon -/

section

variable {s s' : Daemon ι}

theorem ScanPhase.afterLoad_scanned {scan scan' : VaultScan} {answer : Except IoError AliasMap}
    {m : AliasMap} (h : ScanPhase.afterLoad scan answer = .scanned scan' (.ok m)) :
    answer = .ok m := by
  unfold ScanPhase.afterLoad at h
  split at h
  next aliases loaded =>
    cases h
    exact scanAliases_ok loaded
  · cases h

theorem Daemon.reloadStep_reads {a : ReloadAction} (h : s.reloadStep x toml cfg a = some s')
    {scan : VaultScan} {m : AliasMap} (scanned : s'.reload = .scanned scan (.ok m)) :
    readAliases toml none s.aliasFile = .ok m := by
  cases a with (simp only [Daemon.reloadStep] at h)
  | start | entry name | fail =>
    split at h
    · cases h
      cases scanned
    · cases h
  | stat fault =>
    split at h
    · split at h
      next answer statted =>
        cases h
        have loaded := ScanPhase.afterLoad_scanned scanned
        rw [loaded] at statted
        exact statAliases_ok statted
      · cases h
        cases scanned
    · cases h
  | read fault =>
    split at h
    · cases h
      exact readAliases_ok (ScanPhase.afterLoad_scanned scanned)
    · cases h

end

namespace Import

/-! ## The runs -/

section

variable {job : ImportJob} {disk disk' : Disk} {phase phase' : ImportPhase} {a : ImportAction}

/-- The run has moved the alias, and reports it or has reported it. -/
def ImportPhase.movedDefault : ImportPhase → Bool
  | .reporting _ (.finish true) | .ended (.ok true) => true
  | _ => false

def ImportAction.savesAliases : ImportAction → Bool
  | .saveAliases _ => true
  | _ => false

/-- The table that a run is about to write. -/
def ImportPhase.pending : ImportPhase → Option AliasMap
  | .savingAliases _ aliases => some aliases
  | _ => none

/-- What the steps of a run do to the aliases, apart from its save. -/
structure ImportStep.Aside (job : ImportJob) (disk disk' : Disk) (phase phase' : ImportPhase)
    (a : ImportAction) : Prop where
  file : disk'.aliasFile = disk.aliasFile ∨ ∃ written, a = .report written ∧ job.report = some SecretManager.aliasFile
  pending : ∀ {m}, phase'.pending = some m → m["default"]? = some job.id
  moved : phase'.movedDefault = true → phase.movedDefault = true

theorem ImportStep.Aside.quiet (file : disk'.aliasFile = disk.aliasFile)
    (h : phase'.emptyHanded = true) : ImportStep.Aside job disk disk' phase phase' a := by
  refine ⟨.inl file, ?_, ?_⟩
  · intro m pending
    cases phase' with
    | savingAliases => cases h
    | _ => cases pending
  · intro moved
    unfold ImportPhase.movedDefault at moved
    split at moved
    · cases h
    · cases h
    · cases moved

theorem ImportStep.Aside.published (v : Vault) (call : PublishCall) (next : PublishPhase)
    (file : disk'.aliasFile = disk.aliasFile) :
    ImportStep.Aside job disk disk' phase (job.published x v call next) a := by
  refine ⟨.inl file, ?_, ?_⟩
  · unfold ImportJob.published
    split <;> exact nofun
  · unfold ImportJob.published
    split <;> exact nofun

theorem ImportStep.Aside.loaded (v : Verification) (answer : Except IoError AliasMap) :
    ImportStep.Aside job disk disk phase (job.aliasesLoaded v answer) a := by
  cases answer with
  | error e => exact .quiet rfl rfl
  | ok aliases =>
    refine ⟨.inl rfl, ?_, nofun⟩
    intro m pending
    cases pending
    exact Std.ExtTreeMap.getElem?_insert_self

theorem ImportStep.aside (step : ImportStep x toml cfg job disk phase a phase' disk')
    (other : a.savesAliases = false) : ImportStep.Aside job disk disk' phase phase' a := by
  cases step with
  | rehearses dry => exact .quiet rfl (ImportJob.verified_emptyHanded _)
  | refuses real | begins real absent | unprepared e | statFails e asks | importFails result
  | imports result | sends | answered | statted => exact .quiet rfl rfl
  | prepared ready => exact ⟨.inl rfl, nofun, nofun⟩
  | publishes next => exact .published _ _ _ rfl
  | reopens result => exact .quiet rfl (ImportJob.reopened_emptyHanded _)
  | @reports v next written =>
    refine ⟨.inl rfl, ?_, ?_⟩
    · cases next <;> exact nofun
    · cases next with
      | finish aliasMoved => cases aliasMoved <;> exact id
      | _ => exact nofun
  | @writesReport v next name bytes asked =>
    refine ⟨?_, ?_, ?_⟩
    · unfold Disk.write
      split
      next same => exact .inr ⟨_, rfl, same ▸ asked⟩
      · exact .inl rfl
    · cases next <;> exact nofun
    · cases next with
      | finish aliasMoved => cases aliasMoved <;> exact id
      | _ => exact nofun
  | unlinks result => exact .quiet rfl (ImportJob.unlinked_emptyHanded _ _)
  | probes => exact .quiet rfl (ImportJob.probed_emptyHanded _)
  | stats result | reads => exact .loaded _ _
  | saves result => cases other
  | saveFails result => cases other

/-- The save of a run: the table it held stands in the file, or the file is as it was and nothing is
reported as moved. -/
theorem ImportStep.save
    (step : ImportStep x toml cfg job disk phase (.saveAliases env) phase' disk') :
    phase'.pending = none ∧ ((∃ m text, phase.pending = some m ∧ toml.toString m = .ok text ∧
          disk'.aliasFile = some (utf8 text) ∧ phase'.movedDefault = true) ∨
        (disk'.aliasFile = disk.aliasFile ∧ phase'.movedDefault = false)) := by
  cases step with
  | @saves v aliases _ file result =>
    rcases saveAliasesTo_cases toml env aliases disk.aliasFile with ⟨text, printed, saved⟩ | ⟨e, failed⟩
    · rw [saved] at result
      cases result
      exact ⟨rfl, .inl ⟨aliases, text, rfl, printed, rfl, rfl⟩⟩
    · rw [failed] at result
      cases result
  | @saveFails v aliases _ e file result =>
    rcases saveAliasesTo_cases toml env aliases disk.aliasFile with ⟨text, printed, saved⟩ | ⟨e, failed⟩
    · rw [saved] at result
      cases result
    · rw [failed] at result
      cases result
      exact ⟨rfl, .inr ⟨rfl, rfl⟩⟩

end

/-! ## The machine -/

section

variable {κ : Type} {jobs : κ → ImportJob} {k : κ}

/-- What a run of the machine has done about the default of one import. -/
structure DefaultLog where
  /-- The import has written the alias file. -/
  moved : Bool
  /-- The daemon has read that file since. -/
  reread : Bool
  /-- It has put what it read into force, with the new collection loaded. -/
  refreshed : Bool

/-- The daemon's own table has the default at this collection, which is loaded, and no Reload is
under way. -/
def hasDefault (id : String) (s : Daemon ι) : Bool :=
  match s.reload with
  | .idle => s.service.aliases.known["default"]? == some id && s.service.collections.contains id
  | _ => false

def DefaultLog.record [DecidableEq κ] (k : κ) (id : String) (before : Host ι κ) (a : HostAction ι κ)
    (after : Host ι κ) (log : DefaultLog) : DefaultLog :=
  match a with
  | .run k' (.saveAliases _) =>
    if k' = k ∧ (after.runs k).movedDefault = true then
      { moved := true, reread := hasDefault id before.daemon, refreshed := hasDefault id before.daemon }
    else log
  | .daemon (.reload (.stat _)) | .daemon (.reload (.read _)) => { log with reread := log.moved }
  | .daemon .merge =>
    match before.daemon.reload with
    | .scanned _ (.ok _) =>
      { log with refreshed :=
          log.refreshed || (log.reread && after.daemon.service.collections.contains id) }
    | _ => log
  | _ => log

/-- **The discipline.** When the import writes the alias file, no update of the daemon's is under
way; after it, the daemon updates no alias before it has the new table in force, and then neither
the default nor the new collection; and nobody else writes the file or restarts the daemon. -/
def undisturbed (jobs : κ → ImportJob) (k : κ) (p : Host ι κ × DefaultLog) : HostAction ι κ → Prop
  | .daemon (.aliases t _) => p.2.moved = true →
      p.2.refreshed = true ∧ (p.1.daemon.tasks t).leavesDefault (jobs k).id = true
  | .daemon (.unmap t) => p.2.moved = true → (p.1.daemon.tasks t).leavesDefault (jobs k).id = true
  | .daemon (.externalAliases _) => p.2.moved = false
  | .run k' (.saveAliases _) =>
      p.2.moved = false ∧ (k' = k → ∀ t, (p.1.daemon.tasks t).pending = none)
  | .run k' (.report _) => p.2.moved = true → (jobs k').report ≠ some SecretManager.aliasFile
  | .restart => p.2.moved = false
  | _ => True

/-- What holds of the default once the import has moved it. -/
structure InForce (toml : Toml) (k : κ) (id : String) (p : Host ι κ × DefaultLog) : Prop where
  file : p.2.moved = true → MapsDefault toml p.1.daemon.aliasFile id
  pending : p.2.moved = true → ∀ {t m}, (p.1.daemon.tasks t).pending = some m → m["default"]? = some id
  reread : p.2.reread = true → p.2.moved = true ∧ ∀ {scan m},
    p.1.daemon.reload = .scanned scan (.ok m) → m["default"]? = some id
  refreshed : p.2.refreshed = true → p.2.reread = true ∧ p.1.daemon.service.aliases.known["default"]? = some id ∧
    p.1.daemon.service.collections.contains id = true
  saving : ∀ {m}, (p.1.runs k).pending = some m → m["default"]? = some id
  reported : (p.1.runs k).movedDefault = true → p.2.moved = true

section

variable {p : Host ι κ × DefaultLog}

theorem InForce.of_unmoved {s' : Host ι κ} (h : InForce toml k id p) (unmoved : p.2.moved = false)
    (saving : ∀ {m}, (s'.runs k).pending = some m → m["default"]? = some id)
    (reported : (s'.runs k).movedDefault = true → p.2.moved = true) :
    InForce toml k id (s', p.2) := by
  have contradiction {P : Prop} (moved : p.2.moved = true) : P := by
    rw [unmoved] at moved
    cases moved
  refine ⟨contradiction, contradiction, ?_, ?_, saving, reported⟩
  · exact fun reread => contradiction (h.reread reread).1
  · exact fun refreshed => contradiction (h.reread (h.refreshed refreshed).1).1

theorem hasDefault_eq_true {s : Daemon ι} (h : hasDefault id s = true) :
    s.reload = .idle ∧ s.service.aliases.known["default"]? = some id ∧ s.service.collections.contains id = true := by
  unfold hasDefault at h
  split at h
  next idle =>
    rw [Bool.and_eq_true, beq_iff_eq] at h
    exact ⟨idle, h⟩
  · cases h

section

variable [DecidableEq κ]

theorem InForce.run {k' : κ} {a : ImportAction} {phase : ImportPhase} {disk : Disk}
    (h : InForce toml k (jobs k).id p) (quiet : undisturbed jobs k p (.run k' a))
    (other : a.savesAliases = false)
    (step : ImportStep x toml cfg (jobs k') p.1.disk (p.1.runs k') a phase disk) :
    InForce toml k (jobs k).id
      ({ p.1.setDisk disk with runs := Function.update p.1.runs k' phase }, p.2) := by
  have aside := step.aside other
  refine ⟨?_, h.pending, h.reread, h.refreshed, ?_, ?_⟩
  · intro moved
    rcases aside.file with same | ⟨written, rfl, asked⟩
    · show MapsDefault toml disk.aliasFile (jobs k).id
      rw [same]
      exact h.file moved
    · exact absurd asked (quiet moved)
  · intro m
    by_cases same : k = k'
    · subst same
      simpa only [update_self] using aside.pending
    · simpa only [update_of_ne same] using h.saving
  · by_cases same : k = k'
    · subst same
      simpa only [update_self] using fun moved => h.reported (aside.moved moved)
    · simpa only [update_of_ne same] using h.reported

theorem InForce.save (ht : toml.Lawful) {k' : κ} {phase : ImportPhase} {disk : Disk} {s' : Host ι κ}
    (h : InForce toml k (jobs k).id p) (quiet : undisturbed jobs k p (.run k' (.saveAliases env)))
    (step : ImportStep x toml cfg (jobs k') p.1.disk (p.1.runs k') (.saveAliases env) phase disk)
    (after : s' = { p.1.setDisk disk with runs := Function.update p.1.runs k' phase }) :
    InForce toml k (jobs k).id
      (s', DefaultLog.record k (jobs k).id p.1 (.run k' (.saveAliases env)) s' p.2) := by
  obtain ⟨unmoved, idle⟩ := quiet
  obtain ⟨noTable, outcome⟩ := step.save
  by_cases same : k' = k
  · subst same
    have phase' : s'.runs k' = phase := by rw [after]; exact update_self ..
    rcases outcome with ⟨m, text, held, printed, written, reports⟩ | ⟨-, silent⟩
    · simp only [DefaultLog.record, phase', reports, and_self, if_true]
      refine ⟨fun _ => ?_, fun _ t m pending => ?_, fun has => ⟨rfl, ?_⟩, fun has => ⟨has, ?_⟩, ?_, fun _ => rfl⟩
      · refine ⟨m, ?_, h.saving held⟩
        rw [after]
        show readAliases toml none disk.aliasFile = .ok m
        rw [written]
        exact readAliases_utf8 ht printed
      · have none : (p.1.daemon.tasks t).pending = none := idle rfl t
        rw [after] at pending
        exact absurd (none.symm.trans pending) nofun
      · intro scan m scanned
        rw [after] at scanned
        exact absurd ((hasDefault_eq_true has).1.symm.trans scanned) nofun
      · rw [after]
        exact (hasDefault_eq_true has).2
      · intro m pending
        rw [phase', noTable] at pending
        cases pending
    · simp only [DefaultLog.record, phase', silent, Bool.false_eq_true, and_false, if_false]
      refine h.of_unmoved unmoved ?_ ?_
      · intro m pending
        rw [phase', noTable] at pending
        cases pending
      · rw [phase', silent]
        exact nofun
  · have kept : s'.runs k = p.1.runs k := by
      rw [after]
      exact update_of_ne (Ne.symm same) ..
    simp only [DefaultLog.record, same]
    refine h.of_unmoved unmoved ?_ ?_
    · rw [kept]
      exact h.saving
    · rw [kept]
      exact h.reported

end

variable [DecidableEq ι]

variable {daemon : Daemon ι}

theorem InForce.aliases (ht : toml.Lawful) {t : ι} (h : InForce toml k (jobs k).id p)
    (quiet : undisturbed jobs k p (.daemon (.aliases t env)))
    (moves : p.1.daemon.step x toml cfg (.aliases t env) = some daemon) :
    InForce toml k (jobs k).id ({ p.1 with daemon }, p.2) := by
  cases unmoved : p.2.moved with
  | false => exact h.of_unmoved unmoved h.saving h.reported
  | true =>
    obtain ⟨refreshed, leaves⟩ := quiet unmoved
    obtain ⟨reread, known, loaded⟩ := h.refreshed refreshed
    cases Daemon.step_inv moves with
    | @aliases _ _ call phase phase' aliases aliasFile update piece =>
      have held : ∀ m, phase.pending = some m → m["default"]? = some (jobs k).id := by
        intro m pending
        refine h.pending unmoved (t := t) ?_
        rw [Task.pending, update]
        exact pending
      obtain ⟨known', maps, pending'⟩ := updatePiece_keeps ht
        (Task.update_keeps update leaves) known (h.file unmoved) held piece
      refine ⟨fun _ => maps, ?_, h.reread, fun _ => ⟨reread, known', loaded⟩, h.saving, h.reported⟩
      intro _ t' m pending
      by_cases same : t' = t
      · subst same
        refine pending' m (updated_pending update phase' ?_)
        simpa only [Daemon.setTask, update_self] using pending
      · refine h.pending unmoved (t := t') ?_
        simpa only [Daemon.setTask, update_of_ne same] using pending

theorem InForce.other {b : Action ι} (h : InForce toml k (jobs k).id p)
    (quiet : undisturbed jobs k p (.daemon b)) (noReload : b.reloads = false)
    (noUpdate : b.updatesAliases = false) (moves : p.1.daemon.step x toml cfg b = some daemon) :
    InForce toml k (jobs k).id ({ p.1 with daemon }, p.2) := by
  have aside := (Daemon.step_inv moves).aside noUpdate
  refine ⟨?_, ?_, ?_, ?_, h.saving, h.reported⟩
  · intro moved
    rcases aside.file with same | ⟨file, rfl⟩
    · show MapsDefault toml daemon.aliasFile (jobs k).id
      rw [same]
      exact h.file moved
    · rw [show p.2.moved = false from quiet] at moved
      cases moved
  · exact fun moved t m pending => h.pending moved (aside.pending pending)
  · intro reread
    obtain ⟨moved, scanned⟩ := h.reread reread
    refine ⟨moved, ?_⟩
    have same := aside.reload.resolve_right (by rw [noReload]; exact Bool.false_ne_true)
    show ∀ {scan m}, daemon.reload = .scanned scan (.ok m) → m["default"]? = some (jobs k).id
    rw [same]
    exact scanned
  · intro refreshed
    obtain ⟨reread, known, loaded⟩ := h.refreshed refreshed
    have same := aside.table.resolve_right (by rw [noReload]; exact Bool.false_ne_true)
    refine ⟨reread, ?_, ?_⟩
    · show daemon.service.aliases.known["default"]? = some (jobs k).id
      rw [same]
      exact known
    · rcases aside.loaded loaded with loaded' | ⟨t, handle, rfl, task⟩
      · exact loaded'
      · have leaves : (p.1.daemon.tasks t).leavesDefault (jobs k).id = true :=
          quiet (h.reread reread).1
        rw [task] at leaves
        simp [Task.leavesDefault] at leaves

variable [DecidableEq κ]

theorem InForce.reload {b : ReloadAction} (h : InForce toml k id p)
    (moves : p.1.daemon.step x toml cfg (.reload b) = some daemon) :
    InForce toml k id ({ p.1 with daemon },
      DefaultLog.record k id p.1 (.daemon (.reload b)) { p.1 with daemon } p.2) := by
  have aside := (Daemon.step_inv moves).aside rfl
  have file : p.2.moved = true → MapsDefault toml daemon.aliasFile id := by
    intro moved
    rcases aside.file with same | ⟨file, foreign⟩
    · rw [same]
      exact h.file moved
    · cases foreign
  have service : daemon.service = p.1.daemon.service := by
    cases Daemon.step_inv moves with
    | entry scanning => rfl
    | reload kept => rfl
  have reads : ∀ {scan m}, p.2.moved = true → daemon.reload = .scanned scan (.ok m) → m["default"]? = some id := by
    intro scan m moved scanned
    obtain ⟨m', contents, maps⟩ := h.file moved
    obtain rfl := Except.ok.inj (contents.symm.trans (Daemon.reloadStep_reads moves scanned))
    exact maps
  -- whatever the log says was read was read from the file as it is
  have inv : ∀ reread, (reread = true → p.2.moved = true) → (p.2.refreshed = true → reread = true) →
      InForce toml k id ({ p.1 with daemon }, { p.2 with reread }) := by
    intro reread since kept
    refine ⟨file, fun moved t m pending => h.pending moved (aside.pending pending),
      fun again => ⟨since again, reads (since again)⟩, fun refreshed => ⟨kept refreshed, ?_⟩,
      h.saving, h.reported⟩
    rw [service]
    exact (h.refreshed refreshed).2
  cases b with
  | stat fault | read fault =>
    exact inv p.2.moved (fun moved => moved) fun refreshed => (h.reread (h.refreshed refreshed).1).1
  | start | entry name | fail =>
    exact inv p.2.reread (fun again => (h.reread again).1) fun refreshed => (h.refreshed refreshed).1

/-- **The merge of a Reload** puts the table that was read into force. -/
theorem InForce.merge (h : InForce toml k id p)
    (moves : p.1.daemon.step x toml cfg .merge = some daemon) :
    InForce toml k id ({ p.1 with daemon }, DefaultLog.record k id p.1 (.daemon .merge) { p.1 with daemon } p.2) := by
  have aside := (Daemon.step_inv moves).aside rfl
  have loads : p.1.daemon.service.collections.contains id = true → daemon.service.collections.contains id = true := by
    intro loaded
    rcases aside.loaded loaded with kept | ⟨t, h, unmaps, -⟩
    · exact kept
    · cases unmaps
  cases Daemon.step_inv moves with
  | @merge scan aliases scanned =>
    -- the log changes in one field, which has to be shown
    have inv : ∀ refreshed, (refreshed = true → p.2.reread = true ∧
          (p.1.daemon.service.aliases.merge aliases).known["default"]? = some id ∧
          (mergeScan p.1.daemon.service scan aliases).1.collections.contains id = true) →
        InForce toml k id ({ p.1 with daemon := { p.1.daemon with
          service := (mergeScan p.1.daemon.service scan aliases).1, reload := .idle } },
          { p.2 with refreshed }) := by
      intro refreshed now
      rw [← mergeScan_aliases p.1.daemon.service scan] at now
      exact ⟨h.file, h.pending, fun again => ⟨(h.reread again).1, nofun⟩, now, h.saving, h.reported⟩
    cases aliases with
    | error e =>
      simp only [DefaultLog.record, scanned]
      refine inv p.2.refreshed fun refreshed => ?_
      obtain ⟨reread, known, loaded⟩ := h.refreshed refreshed
      exact ⟨reread, known, loads loaded⟩
    | ok m =>
      simp only [DefaultLog.record, scanned]
      refine inv _ fun now => ?_
      rw [Bool.or_eq_true, Bool.and_eq_true] at now
      rcases now with before | ⟨reread, loaded⟩
      · obtain ⟨reread, -, loaded⟩ := h.refreshed before
        exact ⟨reread, (h.reread reread).2 scanned, loads loaded⟩
      · exact ⟨reread, (h.reread reread).2 scanned, loaded⟩

end

variable [DecidableEq ι] [DecidableEq κ]

theorem InForce.step (ht : toml.Lawful) {p p' : Host ι κ × DefaultLog} {a : HostAction ι κ}
    (h : InForce toml k (jobs k).id p) (quiet : undisturbed jobs k p a)
    (step : logged (Host.step x toml cfg jobs) (DefaultLog.record k (jobs k).id) p a = some p') :
    InForce toml k (jobs k).id p' := by
  obtain ⟨moved, recorded⟩ := logged_eq_some step
  obtain ⟨s', log⟩ := p'
  dsimp only at moved recorded
  subst recorded
  rcases Host.step_cases moved with ⟨b, daemon, rfl, -, moves, rfl⟩ |
    ⟨k', b, phase, disk, rfl, runStep, rfl⟩ | ⟨daemon, rfl, booted, rfl⟩
  · cases b with
    | aliases t env => exact h.aliases ht quiet moves
    | reload b => exact h.reload moves
    | merge => exact h.merge moves
    | _ => exact h.other quiet rfl rfl moves
  · cases b with
    | saveAliases env => exact h.save ht quiet runStep rfl
    | _ => exact h.run quiet rfl runStep
  · exact h.of_unmoved quiet h.saving h.reported

omit [DecidableEq ι] [DecidableEq κ] in
theorem aliasTarget_of_known {st : ServiceState} (known : st.aliases.known[name]? = some id)
    (loaded : st.collections.contains id = true) :
    aliasTarget st.view st.aliases name = .ok (some id) := by
  have resolves : st.aliases.resolve name = .ok (some id) := by
    cases table : st.aliases with
    | usable m =>
      rw [table] at known
      exact congrArg Except.ok known
    | degraded reason last =>
      rw [table] at known
      simp only [AliasTable.resolve, show last[name]? = some id from known]
  have listed : st.view.collections.contains id = true := by
    rw [List.contains_iff_mem, ServiceState.view, Std.ExtTreeMap.mem_keys, ← Std.ExtTreeMap.contains_iff_mem]
    exact loaded
  simp only [aliasTarget, resolves, Option.filter, listed, if_true]

/-- **A reported default is in the file, and in force once the daemon has read that file again.** In
every run in which nobody comes in between, after the import has reported the alias as moved the
file maps `default` to the new collection, through every later update of another alias; and once a
Reload has read it, the daemon resolves `default` to the new collection. -/
theorem reported_default_is_in_force (ht : toml.Lawful) {daemon : Daemon ι}
    {p : Host ι κ × DefaultLog}
    (run : Reach (logged (Host.step x toml cfg jobs) (DefaultLog.record k (jobs k).id))
      (undisturbed jobs k) (Host.start κ daemon, ⟨false, false, false⟩) p)
    (reported : p.1.runs k = .ended (.ok true)) :
    MapsDefault toml p.1.daemon.aliasFile (jobs k).id ∧ (p.2.refreshed = true →
        aliasTarget p.1.daemon.service.view p.1.daemon.service.aliases "default" = .ok (some (jobs k).id)) := by
  have start : InForce toml k (jobs k).id
      ((Host.start κ daemon, ⟨false, false, false⟩) : Host ι κ × DefaultLog) :=
    ⟨nofun, nofun, nofun, nofun, nofun, nofun⟩
  have inv : InForce toml k (jobs k).id p := run.invariant (InForce toml k (jobs k).id) start
    fun h quiet step => h.step ht quiet step
  refine ⟨inv.file (inv.reported (by rw [reported]; rfl)), fun refreshed => ?_⟩
  obtain ⟨-, known, loaded⟩ := inv.refreshed refreshed
  exact aliasTarget_of_known known loaded

end

section

open SecretManager.Reference

instance {ι κ : Type} [Fintype ι] [DecidableEq κ] (jobs : κ → ImportJob) (k : κ)
    (p : Host ι κ × DefaultLog) (a : HostAction ι κ) : Decidable (undisturbed jobs k p a) := by
  unfold undisturbed
  split <;> infer_instance

/-- The daemon reads the file after the import has moved the default, and then a client sets another
alias. -/
theorem reported_default_is_in_force_reread : ∃ daemon p,
      Reach (logged (Host.step hashing defaultToml config defaultJob)
          (DefaultLog.record 0 "kdewallet")) (undisturbed defaultJob 0)
        ((Host.start (Fin 1) daemon, ⟨false, false, false⟩) : Host (Fin 1) (Fin 1) × DefaultLog) p ∧
      p.1.daemon.service.aliases.known["work"]? = some "kdewallet" ∧
      MapsDefault defaultToml p.1.daemon.aliasFile "kdewallet" ∧
      aliasTarget p.1.daemon.service.view p.1.daemon.service.aliases "default" = .ok (some "kdewallet") := by
  obtain ⟨daemon, p, -, run, test⟩ := Reach.exists_of_exec_from
    (logged (Host.step hashing defaultToml config defaultJob) (DefaultLog.record 0 "kdewallet"))
    (undisturbed defaultJob 0) (Daemon.boot (Fin 1) hashing defaultToml config ∅ none)
    (fun daemon => (Host.start (Fin 1) daemon, ⟨false, false, false⟩))
    (reloadSteps ++ moveSteps ++ rereadSteps ++ setWork)
    (fun p => decide ((p.1.runs 0).result = some (.ok true) ∧ p.2.refreshed = true ∧
      p.1.daemon.service.aliases.known["work"]? = some "kdewallet")) (by decide +kernel)
  obtain ⟨reported, refreshed, known⟩ := of_decide_eq_true test
  obtain ⟨maps, resolves⟩ :=
    reported_default_is_in_force defaultToml_lawful run (ImportPhase.result_eq_some.mp reported)
  exact ⟨daemon, p, run, known, maps, resolves refreshed⟩

/-- **The Reload comes too early**: the import reports the default as moved and its Reload was
answered, yet the daemon has no default, and the next `SetAlias` of another name takes it out of the
file. -/
theorem reported_default_is_lost :
    ∃ p, ((Daemon.boot (Fin 1) hashing defaultToml config ∅ none).bind fun daemon =>
        Reach.exec (Host.step hashing defaultToml config defaultJob) (fun _ _ => True)
          (Host.start (Fin 1) daemon) (reloadSteps ++ moveSteps ++ setWork)) = some p ∧
      p.runs 0 = .ended (.ok true) ∧
      aliasTarget p.daemon.service.view p.daemon.service.aliases "default" = .ok none ∧
      ¬ MapsDefault defaultToml p.daemon.aliasFile "kdewallet" := by
  let lost (p : Host (Fin 1) (Fin 1)) : Bool :=
    decide ((p.runs 0).result = some (.ok true) ∧
      aliasTarget p.daemon.service.view p.daemon.service.aliases "default" = .ok none ∧
      (readAliases defaultToml none p.daemon.aliasFile).toOption.any (·["default"]? == none) = true)
  have test : ((Daemon.boot (Fin 1) hashing defaultToml config ∅ none).bind fun daemon =>
      Reach.exec (Host.step hashing defaultToml config defaultJob) (fun _ _ => True)
        (Host.start (Fin 1) daemon) (reloadSteps ++ moveSteps ++ setWork)).any lost = true := by
    decide +kernel
  obtain ⟨p, ran, found⟩ := (Option.any_eq_true _ _).mp test
  obtain ⟨reported, unset, file⟩ := of_decide_eq_true found
  refine ⟨p, ran, ImportPhase.result_eq_some.mp reported, unset, ?_⟩
  rintro ⟨m, contents, maps⟩
  simp [contents, Except.toOption, maps] at file

end

end Import

end SecretManager
