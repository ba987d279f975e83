import SecretManager.Laws.Dbus.Daemon

/-!
# Alias updates in the daemon

`SetAlias`, a create that carries an alias and a confirmed delete all end in `update_aliases`, one
piece at a time. A property of alias tables that the edit keeps is kept by every piece, whatever the
other tasks do in between and however the update ends: a retry starts again from the table that is
there, and a table that is forced through or kept after a failed write was edited from one that was
there.
-/

namespace SecretManager

/-- The table that a task is about to write, or has written and not yet installed. -/
def Task.pending (task : Task) : Option AliasMap := task.update.bind fun u => u.2.pending

variable {task : Task}

theorem Task.update_cases {call : AliasCall ServiceView DbusError} {phase : CallPhase DbusError}
    (h : task.update = some (call, phase)) :
    (∃ name collection, task = .setAlias name collection phase ∧ call = SecretManager.setAlias name collection) ∨
      (∃ label aliasName id name, task = .create label aliasName (.recording id name phase) ∧
        call = recordAlias name id) ∨
      ∃ id h, task = .delete id (.purging h phase) ∧ call = purgeAliases id := by
  unfold Task.update at h
  split at h
  · cases h
    exact .inl ⟨_, _, rfl, rfl⟩
  · cases h
    exact .inr (.inl ⟨_, _, _, _, rfl, rfl⟩)
  · cases h
    exact .inr (.inr ⟨_, _, rfl, rfl⟩)
  · cases h

/-! ## One piece -/

section

variable {toml : Toml} {call : AliasCall ServiceView DbusError} {st : ServiceState}
  {env : AliasWriteEnv} {file file' : Option Bytes} {table : AliasTable}
  {phase phase' : CallPhase DbusError}

theorem updatePiece_holds {P : AliasMap → Prop}
    (keeps : ∀ {base next}, P base → call.edit st.view base = .ok next → P next)
    (known : P st.aliases.known) (pending : ∀ next, phase.pending = some next → P next)
    (piece : updatePiece toml call st env file phase = (table, file', phase')) :
    P table.known ∧ ∀ next, phase'.pending = some next → P next := by
  cases phase with
  | ready attempt =>
    cases piece
    refine ⟨known, ?_⟩
    intro next begun
    cases table : st.aliases with
    | degraded reason last =>
      rw [table] at begun
      cases begun
    | usable base =>
      rw [table] at begun known
      cases edit : call.edit st.view base with
      | error e =>
        rw [beginAttempt_rejected attempt edit] at begun
        cases begun
      | ok next' =>
        rw [beginAttempt_edited attempt edit] at begun
        cases begun
        exact keeps known edit
  | edited attempt base next =>
    simp only [updatePiece] at piece
    cases piece
    exact ⟨known, pending⟩
  | written attempt base next result =>
    have held := pending next rfl
    simp only [updatePiece] at piece
    cases table' : st.aliases with
    | degraded reason table =>
      rw [table'] at piece known
      rw [finishAttempt_degraded] at piece
      cases piece
      exact ⟨known, nofun⟩
    | usable current =>
      rw [table'] at piece known
      by_cases retry : current ≠ base ∧ attempt < aliasUpdateAttempts
      · rw [finishAttempt_retry call next result retry] at piece
        cases piece
        exact ⟨known, nofun⟩
      cases result with
      | ok =>
        rw [finishAttempt_committed call next retry] at piece
        cases piece
        exact ⟨held, nofun⟩
      | error e =>
        rw [finishAttempt_notWritten call next e retry] at piece
        cases piece
        refine ⟨?_, nofun⟩
        split
        · exact held
        · exact known
  | done outcome =>
    cases piece
    exact ⟨known, nofun⟩

theorem updatePiece_file
    (piece : updatePiece toml call st env file phase = (table, file', phase')) :
    file' = file ∨ ∃ next text, phase.pending = some next ∧ toml.toString next = .ok text ∧
      file' = some (utf8 text) := by
  cases phase with
  | ready attempt | done outcome =>
    cases piece
    exact .inl rfl
  | edited attempt base next =>
    simp only [updatePiece] at piece
    rcases saveAliasesTo_cases toml env next file with ⟨text, printed, saved⟩ | ⟨e, failed⟩
    · rw [saved] at piece
      cases piece
      exact .inr ⟨next, text, rfl, printed, rfl⟩
    · rw [failed] at piece
      cases piece
      exact .inl rfl
  | written attempt base next result =>
    cases piece
    exact .inl rfl

end

/-! ## The other steps of the daemon -/

section

variable {ι : Type} {x : Externals} {toml : Toml} {cfg : Config} {s s' : Daemon ι}

/-- The action is a piece of an alias update. -/
def Action.updatesAliases : Action ι → Bool
  | .aliases _ _ => true
  | _ => false

/-- The action is a piece of a Reload. -/
def Action.reloads : Action ι → Bool
  | .reload _ | .merge => true
  | _ => false

theorem updated_pending {call : AliasCall ServiceView DbusError} {phase : CallPhase DbusError}
    (update : task.update = some (call, phase)) (phase' : CallPhase DbusError) {next : AliasMap}
    (h : (task.updated phase').pending = some next) : phase'.pending = some next := by
  unfold Task.update at update
  split at update
  · cases phase' <;> exact h
  · cases phase' <;> exact h
  · cases phase' <;> exact h
  · cases update

theorem killed_pending (task : Task) : task.killed.pending = none := by
  unfold Task.killed
  split
  · rfl
  · rfl

theorem advance_pending {st : ServiceState} {dir : Dir} {g g' : Gate} {task' : Task}
    {a : TaskAction} (h : task.advance st dir g a = some (task', g')) : task'.pending = none := by
  unfold Task.advance at h
  split at h
  case h_1 id =>
    obtain ⟨handle, found, heq⟩ := Option.map_eq_some_iff.mp h
    cases heq
    rfl
  all_goals repeat' split at h
  all_goals cases h
  all_goals first
    | rfl
    | exact killed_pending _

theorem afterError_pending (label : String) (aliasName : Option String) (pin : Bytes)
    (attempt : Nat) (e : VaultError) :
    (Task.afterError label aliasName pin attempt e).pending = none := by
  unfold Task.afterError
  split
  · split
    · rfl
    · rfl
  · rfl

theorem afterInsert_pending (label : String) (aliasName : Option String) (id : String) :
    (Task.afterInsert label aliasName id).pending = none := by
  unfold Task.afterInsert
  split
  · rfl
  · rfl

variable [DecidableEq ι]

theorem Daemon.setTask_pending {t t' : ι} {next : AliasMap} (none : task.pending = none)
    (h : ((s.setTask t task).tasks t').pending = some next) : (s.tasks t').pending = some next := by
  simp only [Daemon.setTask, Function.update_apply] at h
  split at h
  · rw [none] at h
    cases h
  · exact h

/-- What the steps of the daemon do to the aliases, apart from the updates themselves: nothing is
written, the table changes by a merge, and a collection is dropped by its deletion. -/
structure DaemonStep.Aside (s s' : Daemon ι) (a : Action ι) : Prop where
  file : s'.aliasFile = s.aliasFile ∨ ∃ file, a = .externalAliases file
  pending : ∀ {t next}, (s'.tasks t).pending = some next → (s.tasks t).pending = some next
  table : s'.service.aliases = s.service.aliases ∨ a.reloads = true
  loaded : ∀ {id}, s.service.collections.contains id = true → s'.service.collections.contains id = true ∨
      ∃ t h, a = .unmap t ∧ s.tasks t = .delete id (.unlinked h)
  reload : s'.reload = s.reload ∨ a.reloads = true

theorem DaemonStep.aside {a : Action ι} (step : DaemonStep x toml cfg s a s')
    (other : a.updatesAliases = false) : DaemonStep.Aside s s' a := by
  cases step with
  | task moved =>
    exact ⟨.inl rfl, Daemon.setTask_pending (advance_pending moved), .inl rfl, .inl, .inl rfl⟩
  | gate moved | operate task world | externalVault name file =>
    exact ⟨.inl rfl, id, .inl rfl, .inl, .inl rfl⟩
  | unlinkLocked task world locked | job task made | orphan task made | orphanFailed task failed =>
    exact ⟨.inl rfl, Daemon.setTask_pending rfl, .inl rfl, .inl, .inl rfl⟩
  | unlinkFailed task world unlocked failed | unlink task world unlocked present =>
    exact ⟨.inl rfl, Daemon.setTask_pending (s := s.setWorld _ _) rfl, .inl rfl, .inl, .inl rfl⟩
  | @unmap t gone h task =>
    refine ⟨.inl rfl, Daemon.setTask_pending rfl, .inl rfl, ?_, .inl rfl⟩
    intro id loaded
    by_cases same : gone = id
    · subst same
      exact .inr ⟨t, h, rfl, task⟩
    · exact .inl (by simp [Std.ExtTreeMap.contains_erase, same, loaded])
  | jobFailed task failed =>
    exact ⟨.inl rfl, Daemon.setTask_pending (afterError_pending _ _ _ _ _), .inl rfl, .inl, .inl rfl⟩
  | insert task vault =>
    refine ⟨.inl rfl, Daemon.setTask_pending (afterInsert_pending _ _ _), .inl rfl, ?_, .inl rfl⟩
    intro id loaded
    exact .inl (by simp [Std.ExtTreeMap.contains_insert, loaded])
  | aliases update piece => cases other
  | entry scanning | reload kept => exact ⟨.inl rfl, id, .inl rfl, .inl, .inr rfl⟩
  | @merge scan aliases scanned =>
    refine ⟨.inl rfl, id, .inr rfl, ?_, .inr rfl⟩
    intro id loaded
    left
    rw [Std.ExtTreeMap.contains_eq_isSome_getElem?] at loaded ⊢
    rcases mergeScan_collections s.service scan aliases id with same | ⟨h, -, found⟩
    · rw [same]
      exact loaded
    · rw [found]
      rfl
  | externalAliases file => exact ⟨.inr ⟨file, rfl⟩, id, .inl rfl, .inl, .inl rfl⟩

/-! ## Every step -/

/-- **What every edit under way keeps, a step keeps** of the table and of what is being written, as
long as no Reload brings in another. -/
theorem DaemonStep.tables {P : AliasMap → Prop} {a : Action ι} (step : DaemonStep x toml cfg s a s')
    (noReload : a.reloads = false)
    (keeps : ∀ {task : Task} {call phase view base next}, task.update = some (call, phase) →
      P base → call.edit view base = .ok next → P next) (known : P s.service.aliases.known)
    (pending : ∀ t next, (s.tasks t).pending = some next → P next) :
    P s'.service.aliases.known ∧ ∀ t next, (s'.tasks t).pending = some next → P next := by
  cases other : a.updatesAliases with
  | false =>
    have aside := step.aside other
    have same := aside.table.resolve_right (by rw [noReload]; exact Bool.false_ne_true)
    rw [same]
    exact ⟨known, fun t next h => pending t next (aside.pending h)⟩
  | true =>
    cases step with
    | @aliases t env call phase phase' aliases aliasFile update piece =>
      have held : ∀ next, phase.pending = some next → P next := by
        intro next h
        refine pending t next ?_
        rw [Task.pending, update]
        exact h
      obtain ⟨known', pending'⟩ := updatePiece_holds (keeps update) known held piece
      refine ⟨known', ?_⟩
      intro t' next h
      by_cases same : t' = t
      · subst same
        refine pending' next (updated_pending update phase' ?_)
        simpa only [Daemon.setTask, Function.update_self] using h
      · refine pending t' next ?_
        simpa only [Daemon.setTask, Function.update_of_ne same] using h
    | _ => cases other

end

end SecretManager
