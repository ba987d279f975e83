import SecretManager.Dbus.Bus
import SecretManager.Laws.Dbus.Unlock

/-!
# How far a prompt's task has come

For what a prompt promises its client it does not matter which dialog is up or which lock the task
waits for. It matters whether the task has won its gate, whether it has made or unlinked a vault
file, and how it ended: its `TaskStage`. Creates and deletes go through the same stages; an Unlock
has one stage for all it does. `TaskMove` lists how a stage, the flags and the unlock record change
in one step, and `LockStep.moves` says that every step of the system moves every prompt in one of
these ways.
-/

namespace SecretManager

open Function Daemon

variable {dir : Dir} {g g' : Gate} {x : Externals} {cfg : Config} {ι : Type} {toml : Toml}
variable {idle : Nat} {a : LockAction ι ι} {i : ι}

variable {dir' : Dir} {e : Option FileEvent} {kind : PromptKind} {p p' : TaskState}

/-! ## Files -/

/-- What a task does to the vault directory that it cannot take back. -/
inductive FileEvent where
  | created
  | unlinked
  deriving DecidableEq

/-- There is a vault file where there was nothing, or an empty reservation. -/
def Dir.gains (dir dir' : Dir) : Bool :=
  dir'.toList.any fun entry => isVacant dir[entry.1]? && !entry.2.isEmpty

/-- A file is gone. -/
def Dir.loses (dir dir' : Dir) : Bool := dir.toList.any fun entry => dir'[entry.1]?.isNone

theorem Dir.gains_iff : dir.gains dir' = true ↔
      ∃ (name : String) (b : UInt8) (bs : Bytes), dir'[name]? = some (b :: bs) ∧ isVacant dir[name]? = true := by
  rw [Dir.gains, List.any_eq_true]
  constructor
  · rintro ⟨⟨name, bytes⟩, hmem, hgains⟩
    rw [Bool.and_eq_true] at hgains
    have present := Std.ExtTreeMap.mem_toList_iff_getElem?_eq_some.mp hmem
    cases bytes with
    | nil => cases hgains.2
    | cons b bs => exact ⟨name, b, bs, present, hgains.1⟩
  · rintro ⟨name, b, bs, present, vacant⟩
    exact ⟨(name, b :: bs), Std.ExtTreeMap.mem_toList_iff_getElem?_eq_some.mpr present, by simp [vacant]⟩

theorem Dir.loses_iff :
    dir.loses dir' = true ↔ ∃ (name : String) (bytes : Bytes), dir[name]? = some bytes ∧ dir'[name]? = none := by
  rw [Dir.loses, List.any_eq_true]
  constructor
  · rintro ⟨⟨name, bytes⟩, hmem, hgone⟩
    exact ⟨name, bytes, Std.ExtTreeMap.mem_toList_iff_getElem?_eq_some.mp hmem, Option.isNone_iff_eq_none.mp hgone⟩
  · rintro ⟨name, bytes, present, gone⟩
    exact ⟨(name, bytes), Std.ExtTreeMap.mem_toList_iff_getElem?_eq_some.mpr present, by simp [gone]⟩

theorem Dir.loses_of_same (same : ∀ name : String, dir'[name]? = dir[name]?) :
    dir.loses dir' = false := by
  rw [Bool.eq_false_iff]
  intro hloses
  obtain ⟨name, bytes, present, gone⟩ := Dir.loses_iff.mp hloses
  rw [same, present] at gone
  cases gone

section

variable {env : CreateEnv} {id label : String} {pin : Bytes} {file : Option Bytes}

/-- **A creation that succeeds has made a vault file.** -/
theorem gains_of_create {v : Vault}
    (made : Vault.create x env (cfg.path id) label pin cfg.kdf dir[(cfg.path id).name]? =
      (.ok v, file)) : dir.gains (dir.put (cfg.path id).name file) = true := by
  obtain ⟨-, -, b, bs, hfile⟩ := create_identity made
  refine Dir.gains_iff.mpr ⟨(cfg.path id).name, b, bs, by rw [Dir.getElem?_put, if_pos rfl, hfile], ?_⟩
  cases hdir : dir[(cfg.path id).name]? with
  | none => rfl
  | some bytes =>
    cases bytes with
    | nil => rfl
    | cons b' bs' =>
      obtain ⟨e, refused⟩ := create_occupied (x := x) b' bs' env (cfg.path id) label pin cfg.kdf
      rw [hdir, refused] at made
      cases made

theorem gains_of_create_error {e : VaultError}
    (failed : Vault.create x env (cfg.path id) label pin cfg.kdf dir[(cfg.path id).name]? =
      (.error e, file)) : dir.gains (dir.put (cfg.path id).name file) = false := by
  rw [Bool.eq_false_iff]
  intro hgains
  obtain ⟨name, b, bs, present, vacant⟩ := Dir.gains_iff.mp hgains
  rw [Dir.getElem?_put] at present
  split at present
  next hname =>
    rw [hname] at vacant
    have still := create_vacant failed vacant
    rw [present] at still
    cases still
  · rw [present] at vacant
    cases vacant

end

section

variable [DecidableEq ι]

/-- What a step has done to the vault directory for this task. -/
def Daemon.fileEvent (s : Daemon ι) (a : Action ι) (s' : Daemon ι) (t : ι) : Option FileEvent :=
  match a with
  | .job t' _ => if t' = t ∧ s.dir.gains s'.dir = true then some .created else none
  | .unlink t' _ => if t' = t ∧ s.dir.loses s'.dir = true then some .unlinked else none
  | _ => none

end

/-! ## Stages -/

/-- How far the task of a prompt is, which is all that the rules for prompts read of it. -/
inductive TaskStage where
  | idle
  /-- A request or a `SetAlias` call, which belong to no prompt. -/
  | other
  /-- The gate is not won yet. -/
  | asks
  /-- The gate is won, and no file has been made or unlinked. -/
  | past
  /-- The file is made, or gone. -/
  | did
  | failed
  | succeeded
  /-- Whatever an Unlock does. -/
  | unlocks
  /-- The task is gone, and its blocking job is not. -/
  | orphan
  | ended
  deriving DecidableEq

def Task.stage : Task → TaskStage
  | .idle => .idle
  | .request _ | .setAlias .. => .other
  | .create _ _ phase =>
    match phase with
    | .opened | .asking | .answered _ | .checked _ => .asks
    | .naming .. | .named .. | .queued .. | .running .. => .past
    | .created .. | .recording .. => .did
  | .delete _ phase =>
    match phase with
    | .opened _ | .asking _ | .confirmed _ | .checked _ => .asks
    | .committed _ => .past
    | .unlinked _ | .purging .. => .did
  | .returned none => .failed
  | .returned (some _) => .succeeded
  | .finished | .dead => .ended
  | .orphan .. => .orphan

def UnlockStage.task : UnlockStage → TaskStage
  | .idle => .idle
  | .ended => .ended
  | _ => .unlocks

/-- The stages of a prompt's task that is there. -/
def TaskStage.alive : TaskStage → Bool
  | .asks | .past | .did | .failed | .succeeded | .unlocks => true
  | .idle | .other | .orphan | .ended => false

def TaskStage.begun (kind : PromptKind) : TaskStage → Bool
  | .asks | .failed => decide (kind ≠ .unlock)
  | .unlocks => decide (kind = .unlock)
  | _ => false

/-! ## Moves -/

/-- What the daemon keeps of one prompt. -/
structure TaskState where
  stage : TaskStage
  gate : Gate
  /-- Its entry in `prompt_unlocked`. -/
  record : List String

def TaskState.new : TaskState := { stage := .idle, gate := .new, record := [] }

/-- What a step of the daemon is to the prompt of one name. -/
inductive TaskLabel where
  /-- Nothing. -/
  | aside
  | begins
  /-- A request or a `SetAlias` call takes the name. -/
  | serves
  | goes
  /-- A create or a delete tries its gate. -/
  | claims
  | finishes
  | dies
  | gate (a : GateAction)
  deriving DecidableEq

/-- Every way one step can change what is kept of a prompt, with what it does to the directory. -/
inductive TaskMove (kind : PromptKind) :
    TaskLabel → TaskState → Option FileEvent → TaskState → Prop
  | aside (p : TaskState) : TaskMove kind .aside p none p
  | stays (p : TaskState) : TaskMove kind .goes p none p
  | begins {g r stage} (first : stage.begun kind = true) :
      TaskMove kind .begins ⟨.idle, g, r⟩ none ⟨stage, g.register, r⟩
  | serves {g r stage} (after : stage = .other ∨ stage = .ended) :
      TaskMove kind .serves ⟨.idle, g, r⟩ none ⟨stage, g, r⟩
  | released {g r} : TaskMove kind .goes ⟨.other, g, r⟩ none ⟨.ended, g, r⟩
  | refused {g r} : TaskMove kind .goes ⟨.asks, g, r⟩ none ⟨.failed, g, r⟩
  | wins {g r} (unclaimed : g.committed = false) :
      TaskMove kind .claims ⟨.asks, g, r⟩ none ⟨.past, { g with committed := true }, r⟩
  | loses {g r} (claimed : g.committed = true) :
      TaskMove kind .claims ⟨.asks, g, r⟩ none ⟨.failed, g, r⟩
  | fails {g r} : TaskMove kind .goes ⟨.past, g, r⟩ none ⟨.failed, g, r⟩
  | does {g r} (e : FileEvent) : TaskMove kind .goes ⟨.past, g, r⟩ (some e) ⟨.did, g, r⟩
  | succeeds {g r} : TaskMove kind .goes ⟨.did, g, r⟩ none ⟨.succeeded, g, r⟩
  | unlocks {g r} (committed : Bool) (r' : List String) :
      TaskMove kind .goes ⟨.unlocks, g, r⟩ none ⟨.unlocks, { g with committed }, r'⟩
  /-- The job that a dead task has left behind. -/
  | job {g r} (e : Option FileEvent) : TaskMove kind .goes ⟨.orphan, g, r⟩ e ⟨.ended, g, r⟩
  | finishes {stage g r} (done : stage = .failed ∨ stage = .succeeded ∨ stage = .unlocks) :
      TaskMove kind .finishes ⟨stage, g, r⟩ none ⟨.ended, g.finish, []⟩
  | dies {stage stage' g r} (aborted : g.aborted = true) (alive : stage.alive = true)
      (after : stage' = .ended ∨ stage = .past ∧ stage' = .orphan) :
      TaskMove kind .dies ⟨stage, g, r⟩ none ⟨stage', g, r⟩
  /-- The owner has left. The record of a task that has won its gate is left to it. -/
  | reclaimed {stage g r r'} (owned : g.owned = true)
      (kept : r' = [] ∨ r' = r ∧ g.handle = true ∧ g.committed = true) :
      TaskMove kind (.gate .reclaim) ⟨stage, g, r⟩ none ⟨stage, g.reclaimPrompt, r'⟩
  | dismissed {stage g r} :
      TaskMove kind (.gate .dismiss) ⟨stage, g, r⟩ none ⟨stage, { g with cancelled := true }, r⟩
  | claimed {stage g r} (unclaimed : g.committed = false) :
      TaskMove kind (.gate .dismissClaim) ⟨stage, g, r⟩ none
        ⟨stage, { g with committed := true, handle := false, dismissing := true,
                         aborting := g.aborting || g.handle }, r⟩
  | late {stage g r} (claimed : g.committed = true) :
      TaskMove kind (.gate .dismissClaim) ⟨stage, g, r⟩ none ⟨stage, g, r⟩
  | ends {stage g r} (dismissing : Bool) :
      TaskMove kind (.gate .dismissFinish) ⟨stage, g, r⟩ none ⟨stage, { g.finish with dismissing }, []⟩
  | aborted {stage g r} (aborting : g.aborting = true) :
      TaskMove kind (.gate .abort) ⟨stage, g, r⟩ none
        ⟨stage, { g with aborting := false, aborted := true }, r⟩

/-! ## Creates and deletes -/

def TaskAction.label : TaskAction → TaskLabel
  | .beginCreate .. | .beginDelete _ => .begins
  | .resolve _ | .setAlias .. => .serves
  | .claim => .claims
  | .finish => .finishes
  | .die => .dies
  | _ => .goes

theorem Task.awaits_alive {task : Task} (h : task.awaits = true) : task.stage.alive = true := by
  unfold Task.awaits at h
  split at h
  · split at h
    all_goals rfl
  · split at h
    all_goals rfl
  next r =>
    cases r with
    | none => rfl
    | some id => rfl
  · cases h

theorem Task.killed_stage (task : Task) :
    task.killed.stage = .ended ∨ task.stage = .past ∧ task.killed.stage = .orphan := by
  unfold Task.killed
  split
  · exact .inr ⟨rfl, rfl⟩
  · exact .inl rfl

theorem advance_taskMove (daemon : kind ≠ .unlock) {st : ServiceState} {task task' : Task}
    {a : TaskAction} (h : task.advance st dir g a = some (task', g')) :
    TaskMove kind a.label ⟨task.stage, g, []⟩ none ⟨task'.stage, g', []⟩ := by
  have begun : ∀ {stage : TaskStage}, stage = .asks ∨ stage = .failed → stage.begun kind = true := by
    rintro stage (rfl | rfl)
    · exact decide_eq_true daemon
    · exact decide_eq_true daemon
  have answered : ∀ {b : Bool} {next : Task}, next.stage = .asks →
      TaskMove kind .goes ⟨.asks, g, []⟩ none ⟨(if b then .returned none else next).stage, g, []⟩ := by
    intro b next hnext
    cases b with
    | true => exact .refused
    | false =>
      rw [if_neg Bool.false_ne_true, hnext]
      exact .stays _
  have tried : ∀ {next : Task}, next.stage = .past → TaskMove kind .claims ⟨.asks, g, []⟩ none
        ⟨(if g.claim.1 then next else .returned none).stage, g.claim.2, []⟩ := by
    intro next hnext
    cases hcommitted : g.committed with
    | false =>
      simp only [Gate.claim, hcommitted, Bool.not_false, if_true, hnext]
      exact .wins hcommitted
    | true =>
      have same : { g with committed := true } = g := by rw [← hcommitted]
      simp only [Gate.claim, hcommitted, same]
      exact .loses hcommitted
  unfold Task.advance at h
  split at h
  · obtain ⟨handle, -, heq⟩ := Option.map_eq_some_iff.mp h
    cases heq
    exact .serves (.inl rfl)
  · cases h
    exact .released
  · split at h
    · cases h
      exact .serves (.inl rfl)
    · cases h
      exact .serves (.inr rfl)
  · split at h
    · cases h
      exact .begins (begun (.inl rfl))
    · cases h
      exact .begins (begun (.inr rfl))
  · cases h
    exact answered rfl
  next answer =>
    cases h
    cases answer with
    | true => exact .stays _
    | false => exact .refused
  · cases h
    exact answered rfl
  · cases h
    exact tried rfl
  · cases h
    exact .begins (begun (.inl rfl))
  · cases h
    exact answered rfl
  · split at h
    · cases h
      exact .stays _
    · cases h
      exact .refused
  · cases h
    exact answered rfl
  · cases h
    exact tried rfl
  · cases h
    exact .stays _
  · cases h
    exact .stays _
  · cases h
    exact .stays _
  next r =>
    cases h
    refine .finishes ?_
    cases r with
    | none => exact .inl rfl
    | some id => exact .inr (.inl rfl)
  · split at h
    next dies =>
      cases h
      rw [Bool.and_eq_true] at dies
      exact .dies dies.1 (Task.awaits_alive dies.2) (Task.killed_stage task)
    · cases h
  · cases h

theorem updated_taskMove (kind : PromptKind) {task : Task} (g : Gate)
    (update : task.update.isSome = true) (call : CallPhase DbusError) :
    TaskMove kind .goes ⟨task.stage, g, []⟩ none ⟨(task.updated call).stage, g, []⟩ := by
  unfold Task.update at update
  split at update
  · cases call with
    | done outcome => exact .released
    | _ => exact .stays _
  · cases call with
    | done outcome => exact .succeeds
    | _ => exact .stays _
  · cases call with
    | done outcome => exact .succeeds
    | _ => exact .stays _
  · cases update

theorem afterError_taskMove (kind : PromptKind) (g : Gate) (label : String)
    (aliasName : Option String) (pin : Bytes) (attempt : Nat) (e : VaultError) :
    TaskMove kind .goes ⟨.past, g, []⟩ none
      ⟨(Task.afterError label aliasName pin attempt e).stage, g, []⟩ := by
  unfold Task.afterError
  split
  · split
    · exact .stays _
    · exact .fails
  · exact .fails

theorem afterInsert_taskMove (kind : PromptKind) (g : Gate) (label : String)
    (aliasName : Option String) (id : String) :
    TaskMove kind .goes ⟨.did, g, []⟩ none ⟨(Task.afterInsert label aliasName id).stage, g, []⟩ := by
  unfold Task.afterInsert
  split
  · exact .succeeds
  · exact .stays _

/-- What a call that can stop a prompt leaves of its record. -/
def GateAction.keeps (r : List String) : GateAction → List String
  | .reclaim | .dismissFinish => []
  | .dismiss | .dismissClaim | .abort => r

theorem gate_taskMove {stage : TaskStage} {a : GateAction} {r : List String}
    (h : g.step a = some g') :
    TaskMove kind (.gate a) ⟨stage, g, r⟩ none ⟨stage, g', a.keeps r⟩ := by
  cases a with (simp only [Gate.step] at h)
  | reclaim =>
    split at h
    next owned =>
      cases h
      exact .reclaimed owned (.inl rfl)
    · cases h
  | dismiss =>
    cases h
    exact .dismissed
  | dismissClaim =>
    cases hcommitted : g.committed with
    | true =>
      simp only [Gate.claim, hcommitted] at h
      split at h
      · cases h
      · cases h
        exact .late hcommitted
    | false =>
      simp only [Gate.claim, hcommitted] at h
      split at h
      · cases h
      · cases h
        exact .claimed hcommitted
  | dismissFinish =>
    split at h
    · cases h
      exact .ends false
    · cases h
  | abort =>
    split at h
    next aborting =>
      cases h
      exact .aborted aborting
    · cases h

section

variable [DecidableEq ι]
variable {s s' : Daemon ι} {t t₀ : ι}

def Action.label (t : ι) : Action ι → TaskLabel
  | .task t' a => if t' = t then a.label else .aside
  | .gate t' a => if t' = t then .gate a else .aside
  | .operate t' _ | .unlink t' _ | .unmap t' | .job t' _ | .insert t' | .aliases t' _ =>
    if t' = t then .goes else .aside
  | _ => .aside

/-- What is kept of a create or a delete. -/
def Daemon.taskState (s : Daemon ι) (t : ι) : TaskState :=
  { stage := (s.tasks t).stage, gate := s.gates t, record := [] }

theorem Daemon.moves_at {task : Task} {label : TaskLabel} {event : Option FileEvent}
    (move : TaskMove kind label ⟨(s.tasks t₀).stage, s.gates t₀, []⟩ e ⟨task.stage, g, []⟩)
    (tasks : s'.tasks = Function.update s.tasks t₀ task)
    (gates : s'.gates = Function.update s.gates t₀ g) (files : event = if t₀ = t then e else none) :
    TaskMove kind (if t₀ = t then label else .aside) (s.taskState t) event (s'.taskState t) := by
  rw [files]
  by_cases ht : t₀ = t
  · subst ht
    have after : s'.taskState t₀ = ⟨task.stage, g, []⟩ := by
      simp only [taskState, tasks, gates, update_self]
    rw [if_pos rfl, if_pos rfl, after]
    exact move
  · have after : s'.taskState t = s.taskState t := by
      simp only [taskState, tasks, gates, update_of_ne (Ne.symm ht)]
    rw [if_neg ht, if_neg ht, after]
    exact .aside _

theorem Daemon.goes_at {task : Task} {event : Option FileEvent}
    (move : TaskMove kind .goes ⟨(s.tasks t₀).stage, s.gates t₀, []⟩ e ⟨task.stage, s.gates t₀, []⟩)
    (tasks : s'.tasks = Function.update s.tasks t₀ task) (gates : s'.gates = s.gates)
    (files : event = if t₀ = t then e else none) :
    TaskMove kind (if t₀ = t then .goes else .aside) (s.taskState t) event (s'.taskState t) :=
  moves_at move tasks (gates.trans (update_eq_self t₀ s.gates).symm) files

theorem Daemon.fileEvent_job {env : CreateEnv} {gains : Bool} (h : s.dir.gains s'.dir = gains) :
    s.fileEvent (.job t₀ env) s' t = if t₀ = t then (if gains then some .created else none) else none := by
  cases gains <;> simp [fileEvent, h]

theorem Daemon.fileEvent_unlink {fault : Option IoError} {loses : Bool}
    (h : s.dir.loses s'.dir = loses) : s.fileEvent (.unlink t₀ fault) s' t =
      if t₀ = t then (if loses then some .unlinked else none) else none := by
  cases loses <;> simp [fileEvent, h]

theorem DaemonStep.moves (daemon : kind ≠ .unlock) {a : Action ι}
    (step : DaemonStep x toml cfg s a s') (t : ι) :
    TaskMove kind (a.label t) (s.taskState t) (s.fileEvent a s' t) (s'.taskState t) := by
  cases step with
  | task moved => exact moves_at (advance_taskMove daemon moved) rfl rfl (ite_self _).symm
  | @gate t₀ a g moved =>
    refine moves_at ?_ (update_eq_self t₀ s.tasks).symm rfl (ite_self _).symm
    have empty : a.keeps [] = [] := by cases a <;> rfl
    have move : TaskMove kind (.gate a) ⟨(s.tasks t₀).stage, s.gates t₀, []⟩ none
        ⟨(s.tasks t₀).stage, g, a.keeps []⟩ := gate_taskMove moved
    rwa [empty] at move
  | operate task world =>
    exact goes_at (.stays _) (update_eq_self _ s.tasks).symm rfl (ite_self _).symm
  | unlinkLocked task world locked =>
    exact goes_at (by rw [task]; exact .fails) rfl rfl
      (fileEvent_unlink (Dir.loses_of_same fun _ => rfl))
  | @unlinkFailed t₀ fault id h w task world unlocked failed =>
    refine goes_at (by rw [task]; exact .fails) rfl rfl
      (fileEvent_unlink (Dir.loses_of_same fun name => ?_))
    obtain ⟨-, hfile⟩ := world_some world
    exact hfile ▸ Dir.getElem?_put_self s.dir w.vault.path.name name
  | @unlink t₀ id h w bytes task world unlocked present =>
    refine goes_at (by rw [task]; exact .does _) rfl rfl
      (fileEvent_unlink (Dir.loses_iff.mpr ⟨w.vault.path.name, bytes, ?_, ?_⟩))
    · exact (world_some world).2.symm.trans present
    · exact (Dir.getElem?_put ..).trans (if_pos rfl)
  | unmap task => exact goes_at (by rw [task]; exact .stays _) rfl rfl (ite_self _).symm
  | job task made =>
    exact goes_at (by rw [task]; exact .does _) rfl rfl
      (fileEvent_job (gains_of_create made))
  | jobFailed task failed =>
    exact goes_at (by rw [task]; exact afterError_taskMove ..) rfl rfl
      (fileEvent_job (gains_of_create_error failed))
  | orphan task made =>
    exact goes_at (by rw [task]; exact .job _) rfl rfl
      (fileEvent_job (gains_of_create made))
  | orphanFailed task failed =>
    exact goes_at (by rw [task]; exact .job _) rfl rfl
      (fileEvent_job (gains_of_create_error failed))
  | insert task vault =>
    exact goes_at (by rw [task]; exact afterInsert_taskMove ..) rfl rfl (ite_self _).symm
  | aliases update piece =>
    exact goes_at (updated_taskMove kind _ (by rw [update]; rfl) _) rfl rfl (ite_self _).symm
  | _ => exact .aside _

end

/-! ## Unlocks -/

def UnlockAction.label : UnlockAction → TaskLabel
  | .start _ => .begins
  | .die => .dies
  | _ => .goes

def UnlockPrompt.taskState (p : UnlockPrompt) : TaskState :=
  { stage := p.task.phase.stage.task, gate := p.gate, record := p.record }

theorem UnlockPhase.awaits_alive {phase : UnlockPhase} (h : phase.awaits = true) :
    phase.stage.task = .unlocks := by
  cases phase with
  | idle | finished | dead => cases h
  | _ => rfl

theorem UnlockAction.label_cases (a : UnlockAction) :
    (∃ rest, a = .start rest) ∨ a = .die ∨ a.label = .goes := by
  cases a with
  | start rest => exact .inl ⟨rest, rfl⟩
  | die => exact .inr (.inl rfl)
  | _ => exact .inr (.inr rfl)

theorem UnlockStage.task_of_underWay {stage : UnlockStage} (h : stage.underWay = true) :
    stage.task = .unlocks := by
  cases stage with
  | walks | peeks id handle | asks id handle => rfl
  | _ => cases h

section

variable {st : ServiceState} {vaults : List Vault} {task task' : UnlockTask} {r : List String}

theorem advance_start {rest : List String}
    (h : task.advance x st vaults g (.start rest) = some (task', g')) :
    task.phase = .idle ∧ task'.phase = .next ∧ g' = g.register := by
  unfold UnlockTask.advance at h
  split at h
  next hphase action =>
    cases action
    cases h
    exact ⟨hphase, rfl, rfl⟩
  all_goals contradiction

theorem advance_die (h : task.advance x st vaults g .die = some (task', g')) :
    g.aborted = true ∧ task.phase.awaits = true ∧ task'.phase = .dead ∧ g' = g := by
  unfold UnlockTask.advance at h
  split at h
  case h_17 =>
    split at h
    next dies =>
      cases h
      rw [Bool.and_eq_true] at dies
      exact ⟨dies.1, dies.2, rfl, rfl⟩
    · cases h
  all_goals contradiction

theorem advance_unlocks {a : UnlockAction} (h : task.advance x st vaults g a = some (task', g')) :
    TaskMove .unlock a.label ⟨task.phase.stage.task, g, r⟩ none ⟨task'.phase.stage.task, g', r⟩ := by
  have goes : ∀ {before after : TaskStage} (committed : Bool), before = .unlocks → after = .unlocks →
      TaskMove .unlock .goes ⟨before, g, r⟩ none ⟨after, { g with committed }, r⟩ := by
    rintro before after committed rfl rfl
    exact .unlocks committed r
  rcases a.label_cases with ⟨rest, rfl⟩ | rfl | label
  · obtain ⟨before, after, rfl⟩ := advance_start h
    rw [before, after]
    exact .begins rfl
  · obtain ⟨aborted, awaits, after, rfl⟩ := advance_die h
    rw [UnlockPhase.awaits_alive awaits, after]
    exact .dies aborted rfl (.inl rfl)
  · rw [label]
    cases advance_move h with
    | start rest phase => cases label
    | dies aborted awaits => cases label
    | finds phase found | asks phase found locked | notify phase | gone phase left =>
      exact goes g.committed (by rw [phase]; rfl) rfl
    | goes committed before after mine =>
      refine goes committed (UnlockStage.task_of_underWay before) ?_
      rcases after with hsame | hwalks | hleaves
      · rw [hsame]
        exact UnlockStage.task_of_underWay before
      · rw [hwalks]
        rfl
      · rw [hleaves]
        rfl
    | stays owned before after mine =>
      refine goes g.committed ?_ (by rw [after]; rfl)
      rcases before with hleaves | hpast
      · rw [hleaves]
        rfl
      · rw [hpast]
        rfl

end

theorem gateStep_taskMove {collections : Std.ExtTreeMap String Handle} {p p' : UnlockPrompt}
    {a : GateAction} (h : p.gateStep collections a = some p') :
    TaskMove .unlock (.gate a) p.taskState none p'.taskState := by
  cases a with (simp only [UnlockPrompt.gateStep] at h)
  | reclaim =>
    split at h
    · cases h
    next owned =>
      rw [Bool.not_eq_true, Bool.not_eq_false'] at owned
      split at h
      next running =>
        cases h
        simp only [Bool.and_eq_true] at running
        exact .reclaimed owned (.inr ⟨rfl, running.1, running.2.2⟩)
      · cases h
        exact .reclaimed owned (.inl rfl)
  | dismissFinish =>
    split at h
    · cases h
      exact .ends _
    · cases h
  | dismiss | dismissClaim | abort =>
    obtain ⟨gate, moved, rfl⟩ := Option.map_eq_some_iff.mp h
    exact gate_taskMove moved

section

def LockSystem.taskState (s : LockSystem ι ι) (kind : PromptKind) (i : ι) : TaskState :=
  match kind with
  | .unlock => (s.prompts i).taskState
  | .createCollection | .deleteCollection => s.daemon.taskState i

variable [DecidableEq ι]

def LockAction.label (kind : PromptKind) (i : ι) (a : LockAction ι ι) : TaskLabel :=
  match kind with
  | .unlock =>
    match a with
    | .gate p a => if p = i then .gate a else .aside
    | .unlock p a => if p = i then a.label else .aside
    | .record p | .decrypt p _ | .drop p | .touchUnlock p | .collect p | .relock p =>
      if p = i then .goes else .aside
    | .finish p => if p = i then .finishes else .aside
    | _ => .aside
  | .createCollection | .deleteCollection =>
    match a with
    | .daemon a => a.label i
    | _ => .aside

/-- What a step has done to the vault directory for this prompt. Unlocks make and unlink no file. -/
def LockSystem.fileEvent (kind : PromptKind) (s : LockSystem ι ι) (a : LockAction ι ι)
    (s' : LockSystem ι ι) (i : ι) : Option FileEvent :=
  match kind with
  | .unlock => none
  | .createCollection | .deleteCollection =>
    match a with
    | .daemon a => s.daemon.fileEvent a s'.daemon i
    | _ => none

variable {s s' : LockSystem ι ι}

theorem LockSystem.moves_at {p : ι} {prompt : UnlockPrompt} {label : TaskLabel}
    (prompts : s'.prompts = Function.update s.prompts p prompt)
    (move : TaskMove .unlock label (s.prompts p).taskState none prompt.taskState) :
    TaskMove .unlock (if p = i then label else .aside) (s.taskState .unlock i) none
      (s'.taskState .unlock i) := by
  by_cases hp : p = i
  · subst hp
    simp only [LockSystem.taskState, prompts, update_self]
    exact move
  · rw [if_neg hp]
    simp only [LockSystem.taskState, prompts, update_of_ne (Ne.symm hp)]
    exact .aside _

theorem LockSystem.unlocks_at {p : ι} {prompt : UnlockPrompt}
    (prompts : s'.prompts = Function.update s.prompts p prompt)
    (gate : prompt.gate = (s.prompts p).gate)
    (before : (s.prompts p).task.phase.stage.task = .unlocks)
    (after : prompt.task.phase.stage.task = .unlocks) :
    TaskMove .unlock (if p = i then .goes else .aside) (s.taskState .unlock i) none
      (s'.taskState .unlock i) := by
  refine LockSystem.moves_at prompts ?_
  rw [UnlockPrompt.taskState, UnlockPrompt.taskState, before, after, gate]
  exact .unlocks _ _

theorem LockStep.moves_unlock (step : LockStep x toml cfg idle s a s') (i : ι) :
    TaskMove .unlock (a.label .unlock i) (s.taskState .unlock i) none (s'.taskState .unlock i) := by
  cases step with
  | gate moved => exact LockSystem.moves_at rfl (gateStep_taskMove moved)
  | unlock moved => exact LockSystem.moves_at rfl (advance_unlocks moved)
  | record phase | touchUnlock phase | collect phase | relocked phase | relock phase =>
    exact LockSystem.unlocks_at rfl rfl (by rw [phase]; rfl) rfl
  | @decrypt p env id h attempt key w r w' phase world call =>
    refine LockSystem.unlocks_at rfl rfl (by rw [phase]; rfl) ?_
    cases r with
    | ok u => rfl
    | error e => rfl
  | @drop p id h attempt e phase =>
    refine LockSystem.unlocks_at rfl rfl (by rw [phase]; rfl) ?_
    rcases afterRefusal_stage id h attempt e with hwalks | ⟨h', hasks⟩
    · exact congrArg UnlockStage.task hwalks
    · exact congrArg UnlockStage.task hasks
  | finish phase =>
    refine LockSystem.moves_at rfl ?_
    rw [UnlockPrompt.taskState, phase]
    exact .finishes (.inr (.inr rfl))
  | @rewatch p found relocks todo =>
    -- what is left to lock again is no part of what is followed here
    have label : (LockAction.rewatch p : LockAction ι ι).label .unlock i =
        if p = i then .aside else .aside := (ite_self _).symm
    rw [label]
    exact LockSystem.moves_at rfl (.aside _)
  | _ => exact .aside _

theorem LockStep.taskState_of_rest (step : LockStep x toml cfg idle s a s')
    (other : ∀ a', a ≠ .daemon a') (i : ι) : s'.daemon.taskState i = s.daemon.taskState i := by
  have same := congrArg (fun daemon => taskState daemon i) (step.rest other)
  exact same

theorem LockStep.moves_daemon (daemon : kind ≠ .unlock) (step : LockStep x toml cfg idle s a s')
    (i : ι) : TaskMove kind (a.label .createCollection i) (s.daemon.taskState i)
      (s.fileEvent .createCollection a s' i) (s'.daemon.taskState i) := by
  by_cases other : ∀ a', a ≠ .daemon a'
  · have label : a.label .createCollection i = .aside := by
      cases a with
      | daemon a => exact absurd rfl (other a)
      | _ => rfl
    have files : s.fileEvent .createCollection a s' i = none := by
      cases a with
      | daemon a => exact absurd rfl (other a)
      | _ => rfl
    rw [label, files, step.taskState_of_rest other]
    exact .aside _
  · push Not at other
    obtain ⟨a', rfl⟩ := other
    cases step with
    | daemon elsewhere moved => exact (step_inv moved).moves daemon i

theorem LockStep.moves (step : LockStep x toml cfg idle s a s') (kind : PromptKind) (i : ι) :
    TaskMove kind (a.label kind i) (s.taskState kind i) (s.fileEvent kind a s' i) (s'.taskState kind i) := by
  cases kind with
  | unlock => exact step.moves_unlock i
  | createCollection | deleteCollection => exact step.moves_daemon (by decide) i

end

/-! ## What an action is to a prompt -/

/-- What the daemon may do to a prompt while no call drives it. -/
def TaskLabel.inside : TaskLabel → Bool
  | .aside | .goes | .claims | .finishes | .dies | .gate .abort => true
  | _ => false

theorem LockSystem.taskState_gate (s : LockSystem ι ι) (kind : PromptKind) (i : ι) :
    (s.taskState kind i).gate = s.gateOf kind i := by
  cases kind <;> rfl

section

variable [DecidableEq ι]
variable {j : ι}

theorem TaskLabel.inside_ite {label : TaskLabel} (h : i = j → label.inside = true) :
    (if i = j then label else .aside).inside = true := by
  split
  next heq => exact h heq
  · rfl

theorem Action.inside_of_free {a : Action ι} (free : (LockAction.daemon a).driven = false)
    (own : (LockAction.daemon a).newcomer ≠ some i) : (a.label i).inside = true := by
  cases a with
  | task t a =>
    refine TaskLabel.inside_ite fun ht => ?_
    subst ht
    cases a with
    | beginCreate label aliasName | beginDelete id => cases free
    | resolve id | setAlias name collection => exact absurd rfl own
    | _ => rfl
  | gate t a =>
    refine TaskLabel.inside_ite fun _ => ?_
    obtain rfl : a = .abort := by simpa [LockAction.driven] using free
    rfl
  | operate t op | unlink t fault | unmap t | job t env | insert t | aliases t env =>
    exact TaskLabel.inside_ite fun _ => rfl
  | _ => rfl

theorem LockAction.inside_of_free (free : a.driven = false) (own : a.newcomer ≠ some i)
    (kind : PromptKind) : (a.label kind i).inside = true := by
  have daemon : (a.label .createCollection i).inside = true := by
    cases a with
    | daemon a => exact Action.inside_of_free free own
    | _ => rfl
  cases kind with
  | createCollection => exact daemon
  | deleteCollection => exact daemon
  | unlock =>
    cases a with
    | gate p a =>
      refine TaskLabel.inside_ite fun _ => ?_
      obtain rfl : a = .abort := by simpa [LockAction.driven] using free
      rfl
    | unlock p a =>
      refine TaskLabel.inside_ite fun _ => ?_
      rcases a.label_cases with ⟨rest, rfl⟩ | rfl | goes
      · cases free
      · rfl
      · rw [goes]
        rfl
    | record p | decrypt p env | drop p | touchUnlock p | collect p | relock p | finish p =>
      exact TaskLabel.inside_ite fun _ => rfl
    | _ => rfl

theorem LockAction.serves_of_newcomer (own : a.newcomer = some i) :
    a.label .createCollection i = .serves := by
  cases a with
  | daemon a =>
    cases a with
    | task t a =>
      cases a with
      | resolve id | setAlias name collection =>
        cases own
        exact if_pos rfl
      | _ => cases own
    | _ => cases own
  | _ => cases own

theorem LockAction.inside_or_serves (free : a.driven = false) (i : ι) (kind : PromptKind) :
    (a.label kind i).inside = true ∨ a.label kind i = .serves ∧ kind ≠ .unlock := by
  by_cases own : a.newcomer = some i
  · cases kind with
    | unlock =>
      cases a with
      | daemon a => exact .inl rfl
      | _ => cases own
    | createCollection | deleteCollection => exact .inr ⟨LockAction.serves_of_newcomer own, by decide⟩
  · exact .inl (LockAction.inside_of_free free own kind)

attribute [local simp] LockAction.label Action.label

theorem PromptAction.begin_label (action : PromptAction) (i : ι) :
    (action.begin i).label action.kind i = .begins := by
  cases action <;> simp [PromptAction.begin, PromptAction.kind, TaskAction.label, UnlockAction.label]

theorem PromptAction.begin_label_of_ne (action : PromptAction) (ne : i ≠ j) (kind : PromptKind) :
    (action.begin j).label kind i = .aside := by
  cases action <;> cases kind <;> simp [PromptAction.begin, ne.symm]

theorem PromptKind.gate_label (kind : PromptKind) (i : ι) (a : GateAction) :
    (kind.gate i a).label kind i = .gate a := by
  cases kind <;> simp [PromptKind.gate]

theorem PromptKind.gate_label_of_ne (kind kind' : PromptKind) (ne : i ≠ j) (a : GateAction) :
    (kind.gate j a).label kind' i = .aside := by
  cases kind <;> cases kind' <;> simp [PromptKind.gate, ne.symm]

theorem PromptKind.gate_fileEvent (kind : PromptKind) {s s' : LockSystem ι ι} (i : ι)
    (a : GateAction) : s.fileEvent kind (kind.gate i a) s' i = none := by
  cases kind <;> rfl

theorem PromptAction.begin_fileEvent (action : PromptAction) {s s' : LockSystem ι ι} (i : ι) :
    s.fileEvent action.kind (action.begin i) s' i = none := by
  cases action <;> rfl

theorem TaskLabel.ite_eq {label label' : TaskLabel} (h : (if i = j then label else .aside) = label')
    (ne : label' ≠ .aside) : i = j ∧ label = label' := by
  split at h
  next heq => exact ⟨heq, h⟩
  · exact absurd h.symm ne

theorem TaskMove.aside_inv (move : TaskMove kind .aside p e p') : p' = p := by
  cases move
  rfl

theorem TaskMove.reclaim_inv (move : TaskMove kind (.gate .reclaim) p e p') :
    p.gate.owned = true ∧ p'.gate.owned = false := by
  cases move with
  | reclaimed owned kept => exact ⟨owned, rfl⟩

end

/-! ## Names that no prompt has -/

/-- Nothing of a prompt is kept under this name, though a request may have used it. -/
structure TaskState.Free (p : TaskState) : Prop where
  gate : p.gate = .new
  record : p.record = []
  stage : p.stage = .idle ∨ p.stage = .other ∨ p.stage = .ended

theorem TaskMove.free {label : TaskLabel} (move : TaskMove kind label p e p') (free : p.Free)
    (h : label.inside = true ∨ label = .serves) : p'.Free := by
  obtain ⟨gate, record, stage⟩ := free
  cases move with
  | aside | stays => exact ⟨gate, record, stage⟩
  | serves after => exact ⟨gate, record, .inr after⟩
  | released => exact ⟨gate, record, .inr (.inr rfl)⟩
  | begins first | reclaimed owned kept | dismissed | claimed unclaimed | late claimed
  | ends dismissing => simp [TaskLabel.inside] at h
  | aborted aborting =>
    cases gate
    cases aborting
  | dies aborted alive after =>
    cases gate
    cases aborted
  | finishes done => grind
  | refused | wins unclaimed | loses claimed | fails | does e | succeeds | unlocks committed r' | job e => grind

theorem TaskMove.new {label : TaskLabel} (move : TaskMove kind label .new e p')
    (inside : label.inside = true) : p' = .new := by
  generalize hp : TaskState.new = p at move
  cases move with
  | aside | stays => rfl
  | begins first | serves after | reclaimed owned kept | dismissed | claimed unclaimed
  | late claimed | ends dismissing => cases inside
  | dies aborted alive after =>
    cases hp
    cases alive
  | finishes done =>
    cases hp
    simp at done
  | aborted aborting =>
    cases hp
    cases aborting
  | _ => cases hp

/-! ## Outcomes -/

section

/-- How a task that has returned would complete its prompt. -/
def LockSystem.outcome (s : LockSystem ι ι) (kind : PromptKind) (i : ι) : Option Bool :=
  match kind with
  | .unlock =>
    match (s.prompts i).task.phase with
    | .returned dismissed => some dismissed
    | _ => none
  | .createCollection | .deleteCollection =>
    match s.daemon.tasks i with
    | .returned collection => some collection.isNone
    | _ => none

variable [DecidableEq ι] {s s' : LockSystem ι ι}

theorem LockSystem.taskState_of_aside (moved : s.step x toml cfg idle a = some s')
    (aside : a.label kind i = .aside) : s'.taskState kind i = s.taskState kind i := by
  have move := (LockSystem.step_inv moved).moves kind i
  rw [aside] at move
  exact move.aside_inv

theorem advance_finish {st : ServiceState} {task task' : Task}
    (h : task.advance st dir g .finish = some (task', g')) : ∃ r, task = .returned r := by
  unfold Task.advance at h
  split at h
  case h_17 r action => exact ⟨r, rfl⟩
  all_goals contradiction

section

variable (step : LockStep x toml cfg idle s a s')
include step

theorem LockStep.outcome_unlock (finishes : a.label .unlock i = .finishes) :
    ∃ dismissed, s.outcome .unlock i = some dismissed ∧ (s.taskState .unlock i).stage = .unlocks := by
  cases step with
  | @finish p dismissed phase =>
    obtain ⟨rfl, -⟩ := TaskLabel.ite_eq finishes (by decide)
    refine ⟨dismissed, ?_, ?_⟩
    · simp [LockSystem.outcome, phase]
    · simp [LockSystem.taskState, UnlockPrompt.taskState, phase, UnlockPhase.stage, UnlockStage.task]
  | @unlock p a task gate moved =>
    obtain ⟨-, label⟩ := TaskLabel.ite_eq finishes (by decide)
    cases a <;> cases label
  | gate moved | record phase | decrypt phase world call | drop phase | touchUnlock phase
  | collect phase | relocked phase | relock phase =>
    cases (TaskLabel.ite_eq finishes (by decide)).2
  | _ => cases finishes

theorem LockStep.outcome_daemon (finishes : a.label .createCollection i = .finishes) :
    ∃ r, s.daemon.tasks i = .returned r := by
  cases step with
  | @daemon a daemon elsewhere moved =>
    cases step_inv moved with
    | @task t a task g advance =>
      obtain ⟨rfl, label⟩ := TaskLabel.ite_eq finishes (by decide)
      cases a with
      | finish => exact advance_finish advance
      | _ => cases label
    | gate moved | operate task world | unlinkLocked task world locked
    | unlinkFailed task world unlocked failed | unlink task world unlocked present | unmap task
    | job task made | jobFailed task failed | orphan task made | orphanFailed task failed
    | insert task vault | aliases update piece =>
      cases (TaskLabel.ite_eq finishes (by decide)).2
    | _ => cases finishes
  | _ => cases finishes

theorem LockStep.outcome (kind : PromptKind) (i : ι) :
    ∃ dismissed, (a.label kind i = .finishes → s.outcome kind i = some dismissed) ∧
      ((s.taskState kind i).stage = .failed → dismissed = true) ∧
      ((s.taskState kind i).stage = .succeeded → dismissed = false) := by
  have daemon : ∀ r, s.daemon.tasks i = .returned r → ((s.daemon.taskState i).stage = .failed → r.isNone = true) ∧
      ((s.daemon.taskState i).stage = .succeeded → r.isNone = false) := by
    intro r task
    cases r <;> simp [taskState, task, Task.stage]
  by_cases finishes : a.label kind i = .finishes
  · cases kind with
    | unlock =>
      obtain ⟨dismissed, outcome, stage⟩ := step.outcome_unlock finishes
      exact ⟨dismissed, fun _ => outcome, by rw [stage]; nofun, by rw [stage]; nofun⟩
    | createCollection | deleteCollection =>
      obtain ⟨r, task⟩ := step.outcome_daemon finishes
      exact ⟨r.isNone, fun _ => by simp [LockSystem.outcome, task], daemon r task⟩
  · refine ⟨decide ((s.taskState kind i).stage = .failed), (absurd · finishes), decide_eq_true, ?_⟩
    intro succeeded
    rw [succeeded]
    rfl

end

end

end SecretManager
