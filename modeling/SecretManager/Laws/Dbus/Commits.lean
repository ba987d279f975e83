import SecretManager.Laws.Dbus.ViewSteps
import SecretManager.Dbus.Reference

/-!
# The commit protocol of a prompt

Any number of `Prompt` and `Dismiss` calls, the prompt's task and the disconnect of its owner race
for the prompt's action, for its commit gate and for its owner entry, each under a lock of its own.
The action is in one place at a time, the slot or one call, so it runs at most once. The owner entry
is taken away once, so `Completed` is emitted at most once. And whoever wins the gate decides what
it says: a `Dismiss` that wins keeps the task from its irreversible piece for good, and a task that
wins completes the prompt by itself.
-/

namespace SecretManager

variable {label : TaskLabel} {κ ι : Type}

/-! ## What is recorded -/

/-- What has been seen of one prompt. -/
structure PromptLog where
  /-- How often its action was run. -/
  runs : Nat
  /-- The `dismissed` flags of its `Completed` signals. -/
  completed : List Bool
  files : List FileEvent
  deriving DecidableEq

def PromptLog.empty : PromptLog := { runs := 0, completed := [], files := [] }

def PromptLog.note {κ : Type} (e : PromptEvents) (_ : PromptView κ) (l : PromptLog) : PromptLog :=
  { runs := l.runs + e.run.toNat
    completed := l.completed ++ e.completed.toList
    files := l.files ++ e.file.toList }

/-! ## The stages and the gate -/

/-- The task has no file to its name and can only get one by winning its gate. -/
def TaskStage.quiet : TaskStage → Bool
  | .idle | .other | .asks | .failed | .unlocks | .ended => true
  | .past | .did | .succeeded | .orphan => false

/-- The stages from which a task can still win its gate. -/
def TaskStage.early : TaskStage → Bool
  | .idle | .other | .asks | .failed => true
  | _ => false

theorem TaskStage.quiet_cases {stage : TaskStage} (h : stage.quiet = true) :
    stage = .ended ∨ stage = .unlocks ∨ stage.early = true := by
  cases stage with
  | ended => exact .inl rfl
  | unlocks => exact .inr (.inl rfl)
  | idle | other | asks | failed => exact .inr (.inr rfl)
  | _ => cases h

/-- The files of a task that stands here. -/
structure FilesFit (p : TaskState) (files : List FileEvent) : Prop where
  did : p.stage = .did ∨ p.stage = .succeeded → files ≠ []
  unspent : p.stage = .did ∨ p.stage = .succeeded ∨ p.stage = .ended ∨ files = []
  unclaimed : p.gate.committed = false → files = [] ∧ p.stage.quiet = true

/-- No file was made or unlinked, and none will be. -/
def Barred (p : TaskState) (files : List FileEvent) : Prop :=
  files = [] ∧ (p.stage = .ended ∨ p.stage = .unlocks ∨ p.gate.committed = true ∧ p.stage.early = true)

section

variable {kind : PromptKind} {p p' : TaskState} {e : Option FileEvent} {files : List FileEvent}

theorem FilesFit.of_quiet (none : files = []) (quiet : p.stage.quiet = true) :
    FilesFit p files where
  did h := by
    rcases h with h | h
    · rw [h] at quiet
      cases quiet
    · rw [h] at quiet
      cases quiet
  unspent := .inr (.inr (.inr none))
  unclaimed _ := ⟨none, quiet⟩

theorem FilesFit.none (fit : FilesFit p files) (did : p.stage ≠ .did)
    (succeeded : p.stage ≠ .succeeded) (ended : p.stage ≠ .ended) : files = [] :=
  ((fit.unspent.resolve_left did).resolve_left succeeded).resolve_left ended

theorem FilesFit.keep (fit : FilesFit p files) (stage : p'.stage = p.stage)
    (committed : p'.gate.committed = false → p.gate.committed = false) : FilesFit p' files where
  did h := fit.did (stage ▸ h)
  unspent := stage ▸ fit.unspent
  unclaimed h := stage ▸ fit.unclaimed (committed h)

theorem FilesFit.end (fit : FilesFit p files) (stage : p'.stage = .ended)
    (committed : p'.gate.committed = false → p.gate.committed = false) : FilesFit p' files where
  did h := by simp [stage] at h
  unspent := .inr (.inr (.inl stage))
  unclaimed h := ⟨(fit.unclaimed (committed h)).1, by rw [stage]; rfl⟩

theorem TaskMove.filesFit (move : TaskMove kind label p none p') (fit : FilesFit p files) :
    FilesFit p' files := by
  cases move with
  | aside | stays => exact fit
  | begins first =>
    have none : files = [] := fit.none nofun nofun nofun
    rcases TaskStage.begun_cases first with rfl | rfl | ⟨rfl, -⟩
    · exact .of_quiet none rfl
    · exact .of_quiet none rfl
    · exact .of_quiet none rfl
  | serves after =>
    have none : files = [] := fit.none nofun nofun nofun
    rcases after with rfl | rfl
    · exact .of_quiet none rfl
    · exact .of_quiet none rfl
  | released | refused | loses claimed | fails | unlocks committed r' =>
    exact .of_quiet (fit.none nofun nofun nofun) rfl
  | wins unclaimed => exact ⟨by simp, .inr (.inr (.inr (fit.none nofun nofun nofun))), nofun⟩
  | succeeds =>
    refine ⟨fun _ => fit.did (.inl rfl), .inr (.inl rfl), fun h => ?_⟩
    cases (fit.unclaimed h).2
  | job e | finishes done => exact fit.end rfl id
  | dies aborted alive after =>
    rcases after with rfl | ⟨rfl, rfl⟩
    · exact fit.end rfl id
    · refine ⟨by simp, .inr (.inr (.inr (fit.none nofun nofun nofun))), fun h => ?_⟩
      cases (fit.unclaimed h).2
  | claimed unclaimed => exact fit.keep rfl nofun
  | reclaimed owned kept | dismissed | late claimed | ends dismissing | aborted aborting =>
    exact fit.keep rfl id

theorem TaskMove.filesFit_some {e : FileEvent} (move : TaskMove kind label p (some e) p')
    (fit : FilesFit p files) : FilesFit p' (files ++ [e]) := by
  have some : files ++ [e] ≠ [] := List.append_ne_nil_of_right_ne_nil _ (List.cons_ne_nil _ _)
  cases move with
  | does e =>
    refine ⟨fun _ => some, .inl rfl, fun h => ?_⟩
    cases (fit.unclaimed h).2
  | job e =>
    refine ⟨by simp, .inr (.inr (.inl rfl)), fun h => ?_⟩
    cases (fit.unclaimed h).2

theorem Barred.keep (barred : Barred p files) (stage : p'.stage = p.stage)
    (committed : p.gate.committed = true → p'.gate.committed = true) : Barred p' files :=
  ⟨barred.1, stage ▸ barred.2.imp_right fun h => h.imp_right fun h => ⟨committed h.1, h.2⟩⟩

theorem Barred.committed (barred : Barred p files) (early : p.stage.early = true) :
    p.gate.committed = true := by
  rcases barred.2 with h | h | h
  · rw [h] at early
    cases early
  · rw [h] at early
    cases early
  · exact h.1

theorem Barred.quiet (barred : Barred p files) : p.stage.quiet = true := by
  rcases barred.2 with h | h | ⟨-, h⟩
  · rw [h]
    rfl
  · rw [h]
    rfl
  · cases stage : p.stage <;> simp [stage, TaskStage.early, TaskStage.quiet] at h ⊢

theorem TaskMove.barred (move : TaskMove kind label p e p') (barred : Barred p files) :
    e = none ∧ Barred p' files := by
  cases move with
  | aside | stays => exact ⟨rfl, barred⟩
  | begins first =>
    have committed := barred.committed rfl
    rcases TaskStage.begun_cases first with rfl | rfl | ⟨rfl, -⟩
    · exact ⟨rfl, barred.1, .inr (.inr ⟨committed, rfl⟩)⟩
    · exact ⟨rfl, barred.1, .inr (.inr ⟨committed, rfl⟩)⟩
    · exact ⟨rfl, barred.1, .inr (.inl rfl)⟩
  | serves after =>
    rcases after with rfl | rfl
    · exact ⟨rfl, barred.1, .inr (.inr ⟨barred.committed rfl, rfl⟩)⟩
    · exact ⟨rfl, barred.1, .inl rfl⟩
  | released | finishes done => exact ⟨rfl, barred.1, .inl rfl⟩
  | refused => exact ⟨rfl, barred.1, .inr (.inr ⟨barred.committed rfl, rfl⟩)⟩
  | loses claimed => exact ⟨rfl, barred.1, .inr (.inr ⟨claimed, rfl⟩)⟩
  | wins unclaimed =>
    have claimed := barred.committed rfl
    rw [unclaimed] at claimed
    cases claimed
  | fails | succeeds | does e | job e => cases barred.quiet
  | unlocks committed r' => exact ⟨rfl, barred.1, .inr (.inl rfl)⟩
  | dies aborted alive after =>
    rcases after with rfl | ⟨rfl, rfl⟩
    · exact ⟨rfl, barred.1, .inl rfl⟩
    · cases barred.quiet
  | claimed unclaimed => exact ⟨rfl, barred.keep rfl fun _ => rfl⟩
  | reclaimed owned kept | dismissed | late claimed | ends dismissing | aborted aborting =>
    exact ⟨rfl, barred.keep rfl id⟩

theorem TaskMove.barred_of_claim (move : TaskMove kind (.gate .dismissClaim) p e p')
    (fit : FilesFit p files) (unclaimed : p.gate.committed = false) : Barred p' files := by
  cases move with
  | claimed _ =>
    obtain ⟨none, quiet⟩ := fit.unclaimed unclaimed
    exact ⟨none, (TaskStage.quiet_cases quiet).imp_right (.imp_right fun early => ⟨rfl, early⟩)⟩
  | late claimed =>
    rw [unclaimed] at claimed
    cases claimed

end

/-! ## The invariant -/

section

/-- What holds of every prompt and its log. -/
structure ProtocolInv (v : PromptView κ) (l : PromptLog) : Prop where
  fresh : v.object = none → l = .empty
  slot : v.Slot
  runs : l.runs = if v.state.stage = .idle then 0 else 1
  /-- Every `Completed` has cost an owner entry. -/
  completed : l.completed.length + v.hasOwner.toNat ≤ 1
  unlocks : v.state.stage = .unlocks → ∃ o, v.object = some o ∧ o.kind = .unlock
  files : FilesFit v.state l.files
  won : ∀ k, v.calls k = some .won → Barred v.state l.files
  dismissed : true ∈ l.completed → Barred v.state l.files
  performed : false ∈ l.completed → (∃ o, v.object = some o ∧ o.kind = .unlock) ∨ l.files ≠ []

variable {v v' : PromptView κ} {l : PromptLog} {e : PromptEvents}

theorem TaskMove.filesFit_note {kind : PromptKind} {p p' : TaskState}
    (move : TaskMove kind label p e.file p') (fit : FilesFit p l.files) :
    FilesFit p' (l.note e v').files := by
  cases hfile : e.file with
  | none =>
    rw [hfile] at move
    simpa [PromptLog.note, hfile] using move.filesFit fit
  | some event =>
    rw [hfile] at move
    simpa [PromptLog.note, hfile] using move.filesFit_some fit

theorem TaskMove.barred_note {kind : PromptKind} {p p' : TaskState}
    (move : TaskMove kind label p e.file p') (barred : Barred p l.files) :
    Barred p' (l.note e v').files := by
  obtain ⟨none, barred⟩ := move.barred barred
  simpa [PromptLog.note, none] using barred

variable {o o' : PromptObject}

/-- **What a step has to show**: where the action is, what a `Completed` says, and that whoever has
won the gate has barred the task. -/
theorem ProtocolInv.next (inv : ProtocolInv v l) (object : v.object = some o)
    (step : ViewStep v e v' o o' label) (slot : v'.Slot)
    (emits : ∀ {dismissed}, e.completed = some dismissed → (dismissed = true → Barred v'.state
      (l.note e v').files) ∧ (dismissed = false → o.kind = .unlock ∨ (l.note e v').files ≠ []))
    (won : ∀ k, v'.calls k = some .won → Barred v'.state (l.note e v').files) :
    ProtocolInv v' (l.note e v') where
  fresh h := by
    rw [step.object] at h
    cases h
  slot := slot
  runs := by
    have before := inv.runs
    by_cases begins : label = .begins
    · subst begins
      obtain ⟨idle, busy⟩ := step.task.begins_inv
      rw [if_pos idle] at before
      simp [PromptLog.note, step.run, before, busy]
    · simp [PromptLog.note, step.run, begins, before, step.task.idle_iff begins step.serves]
  completed := by
    have before := inv.completed
    cases hcompleted : e.completed with
    | none =>
      have kept : v'.hasOwner.toNat ≤ v.hasOwner.toNat := by
        cases h : v'.hasOwner with
        | false => exact Nat.zero_le _
        | true => simp [(step.owner h).1]
      simp only [PromptLog.note, hcompleted, Option.toList_none, List.append_nil]
      omega
    | some dismissed =>
      have paid : v'.hasOwner = false := by
        rw [Bool.eq_false_iff]
        intro h
        rw [(step.owner h).2] at hcompleted
        cases hcompleted
      have owned := (step.emits dismissed hcompleted).1
      simp only [owned, Bool.toNat_true] at before
      simp only [PromptLog.note, hcompleted, Option.toList_some, List.length_append, paid,
        Bool.toNat_false]
      omega
  unlocks h := by
    refine ⟨o', step.object, step.kind.trans ?_⟩
    rcases step.task.unlocks_inv h with h | h
    · obtain ⟨o₀, hobject, hkind⟩ := inv.unlocks h
      rw [object] at hobject
      cases hobject
      exact hkind
    · exact h
  files := step.task.filesFit_note inv.files
  won := won
  dismissed h := by
    rcases List.mem_append.mp h with h | h
    · exact step.task.barred_note (inv.dismissed h)
    · exact (emits (Option.mem_toList.mp h)).1 rfl
  performed h := by
    rcases List.mem_append.mp h with h | h
    · rcases inv.performed h with ⟨o₀, hobject, hkind⟩ | some
      · rw [object] at hobject
        cases hobject
        exact .inl ⟨o', step.object, step.kind.trans hkind⟩
      · exact .inr (List.append_ne_nil_of_left_ne_nil some _)
    · exact ((emits (Option.mem_toList.mp h)).2 rfl).imp_left
        fun unlock => ⟨o', step.object, step.kind.trans unlock⟩

theorem PromptLog.note_none (l : PromptLog) (v : PromptView κ) : l.note .none v = l := by
  simp [PromptLog.note, PromptEvents.none]

theorem ProtocolInv.emits (inv : ProtocolInv v l) (object : v.object = some o)
    (step : ViewStep v e v' o o' label) {dismissed : Bool} (h : e.completed = some dismissed) :
    (dismissed = true → Barred v'.state (l.note e v').files) ∧
      (dismissed = false → o.kind = .unlock ∨ (l.note e v').files ≠ []) := by
  obtain ⟨-, ⟨rfl, failed, succeeded⟩ | ⟨ends, rfl⟩⟩ := step.emits dismissed h
  · obtain ⟨stage, file, ended, -⟩ := step.task.finishes_inv
    have none : dismissed = true → l.files = [] := by
      intro hdismissed
      rcases stage with stage | stage | stage
      · exact inv.files.none (by rw [stage]; nofun) (by rw [stage]; nofun) (by rw [stage]; nofun)
      · rw [succeeded stage] at hdismissed
        cases hdismissed
      · exact inv.files.none (by rw [stage]; nofun) (by rw [stage]; nofun) (by rw [stage]; nofun)
    refine ⟨fun hdismissed => ⟨?_, .inl ended⟩, fun hperformed => ?_⟩
    · simp [PromptLog.note, file, none hdismissed]
    · rcases stage with stage | stage | stage
      · rw [failed stage] at hperformed
        cases hperformed
      · exact .inr (List.append_ne_nil_of_left_ne_nil (inv.files.did (.inr stage)) _)
      · obtain ⟨o₀, hobject, hkind⟩ := inv.unlocks stage
        rw [object] at hobject
        cases hobject
        exact .inl hkind
  · obtain ⟨k, won⟩ := step.ends ends
    exact ⟨fun _ => step.task.barred_note (inv.won k won), nofun⟩

theorem ProtocolInv.won_note (inv : ProtocolInv v l) (step : ViewStep v e v' o o' label) {k : κ}
    (h : v'.calls k = some .won) : Barred v'.state (l.note e v').files := by
  rcases step.won k h with won | ⟨rfl, unclaimed⟩
  · exact step.task.barred_note (inv.won k won)
  · have file : e.file = none := step.task.gate_file
    have barred := step.task.barred_of_claim inv.files unclaimed
    simpa [PromptLog.note, file] using barred

variable [DecidableEq κ]

theorem ProtocolInv.issued {k : κ} {gone : Bool} {action : PromptAction}
    (calls : ∀ k, v.calls k = none)
    (slot : PromptView.Slot ⟨some o, .new, gone,
      Function.update v.calls k (some (.exporting action))⟩) :
    ProtocolInv ⟨some o, .new, gone, Function.update v.calls k (some (.exporting action))⟩ .empty where
  fresh := nofun
  slot := slot
  runs := rfl
  completed := (Nat.zero_add _).trans_le (Bool.toNat_le _)
  unlocks := nofun
  files := .of_quiet rfl rfl
  won _ h := nomatch (PromptView.call_of_issued calls h).2
  dismissed := nofun
  performed := nofun

/-- Each move of a view keeps the protocol, whichever call or task makes it. -/
theorem ProtocolInv.move (sound : v.Sound) (inv : ProtocolInv v l) (move : ViewMove v e v') :
    ProtocolInv v' (l.note e v') := by
  have slot := inv.slot.move sound move
  cases object : v.object with
  | none =>
    obtain ⟨rfl, rfl | ⟨k, o, gone, action, -, -, rfl⟩⟩ := move.fresh object
    · rw [PromptLog.note_none]
      exact inv
    · rw [PromptLog.note_none, inv.fresh object]
      exact .issued (sound.fresh object) slot
  | some o =>
    obtain ⟨o', label, step⟩ := move.viewStep object
    exact inv.next object step slot (inv.emits object step) fun _ => inv.won_note step

end

/-! ## Enabled calls -/

section

variable [DecidableEq ι] {s : LockSystem ι ι}

theorem Task.idle_of_stage {task : Task} (h : task.stage = .idle) : task = .idle := by
  unfold Task.stage at h
  repeat' split at h
  all_goals first | rfl | cases h

theorem UnlockPhase.idle_of_stage {phase : UnlockPhase} (h : phase.stage.task = .idle) :
    phase = .idle := by
  cases phase <;> first | rfl | cases h

theorem LockSystem.begin_enabled (x : Externals) (toml : Toml) (cfg : Config) (idle : Nat)
    {action : PromptAction} {i : ι} (h : (s.taskState action.kind i).stage = .idle) :
    (s.step x toml cfg idle (action.begin i)).isSome = true := by
  cases action with
  | unlock collections =>
    have phase : (s.prompts i).task.phase = .idle := UnlockPhase.idle_of_stage h
    simp [PromptAction.begin, LockSystem.step, UnlockTask.advance, phase]
  | createCollection label aliasName =>
    have task : s.daemon.tasks i = .idle := Task.idle_of_stage h
    simp [PromptAction.begin, LockSystem.step, Action.elsewhere, Daemon.step, Task.advance, task]
  | deleteCollection id =>
    have task : s.daemon.tasks i = .idle := Task.idle_of_stage h
    cases found : s.daemon.service.collections[id]? <;>
      simp [PromptAction.begin, LockSystem.step, Action.elsewhere, Daemon.step, Task.advance, task, found]

end

/-! ## Every run -/

section

variable [DecidableEq ι] [DecidableEq κ] {x : Externals} {toml : Toml} {cfg : Config} {idle : Nat}
variable {dir : Dir} {aliasFile : Option Bytes} {daemon : Daemon ι}

omit [DecidableEq ι] [DecidableEq κ] in
theorem ProtocolInv.start {v : PromptView κ} (object : v.object = none) (state : v.state = .new)
    (calls : ∀ k, v.calls k = none) : ProtocolInv v .empty := by
  refine ⟨fun _ => rfl, .start object calls, ?_, ?_, ?_, .of_quiet rfl (by rw [state]; rfl), fun k h => ?_, ?_, ?_⟩
  · rw [state]
    rfl
  · simp [PromptLog.empty, PromptView.hasOwner, object]
  · rw [state]
    intro asks
    cases asks
  · rw [calls] at h
    cases h
  · simp [PromptLog.empty]
  · simp [PromptLog.empty]

/-- The protocol holds of every prompt on **every run from boot**. -/
theorem ProtocolInv.reach (boot : Daemon.boot ι x toml cfg dir aliasFile = some daemon)
    {p : Bus ι κ × (ι → PromptLog)}
    (run : Reach (logged (Bus.step x toml cfg idle) (Bus.record PromptLog.note)) (fun _ _ => True)
      (Bus.start κ daemon, fun _ => .empty) p) :
    p.1.Sound ∧ ∀ i, ProtocolInv (p.1.view i) (p.2 i) := by
  refine Bus.views_of_reach ProtocolInv (Bus.start_sound (Daemon.boot_booted boot)) ?_ ?_ run
  · intro i
    exact .start rfl rfl fun _ => rfl
  · intro b log a b' i _ sound _ move inv
    exact inv.move (sound.views i) move

theorem completed_mono {now later : Bus ι κ × (ι → PromptLog)} {i : ι}
    (rest : Reach (logged (Bus.step x toml cfg idle) (Bus.record PromptLog.note)) (fun _ _ => True)
      now later) {dismissed : Bool} (h : dismissed ∈ (now.2 i).completed) :
    dismissed ∈ (later.2 i).completed := by
  refine rest.invariant (fun p => dismissed ∈ (p.2 i).completed) h ?_
  intro p a p' inv _ hstep
  rw [(logged_eq_some hstep).2]
  exact List.mem_append_left _ inv

/-- **The commit protocol.** In every run, whatever calls, disconnects and tasks come in between,
the action of a prompt runs at most once, and a `Prompt` call that has got hold of it can run it;
`Completed` is emitted at most once; a create or delete that was completed as dismissed has made or
unlinked no vault file, neither now nor in any state that comes later; and one that was completed as
performed has. -/
theorem commit_protocol (boot : Daemon.boot ι x toml cfg dir aliasFile = some daemon)
    {now later : Bus ι κ × (ι → PromptLog)}
    (run : Reach (logged (Bus.step x toml cfg idle) (Bus.record PromptLog.note)) (fun _ _ => True)
      (Bus.start κ daemon, fun _ => .empty) now)
    (rest : Reach (logged (Bus.step x toml cfg idle) (Bus.record PromptLog.note)) (fun _ _ => True)
      now later) (i : ι) : (now.2 i).runs ≤ 1 ∧ (∀ k action, now.1.calls k = .holding i action →
        (now.1.step x toml cfg idle (.spawn k)).isSome = true) ∧
      (now.2 i).completed.length ≤ 1 ∧
      ∀ o, now.1.objects i = some o → o.kind ≠ .unlock → (true ∈ (now.2 i).completed → (later.2 i).files = []) ∧
        (false ∈ (now.2 i).completed → (now.2 i).files ≠ []) := by
  obtain ⟨sound, inv⟩ := ProtocolInv.reach boot run
  have inv := inv i
  refine ⟨?_, ?_, ?_, ?_⟩
  · rw [inv.runs]
    split
    · exact Nat.zero_le 1
    · exact Nat.le_refl 1
  · intro k action call
    have held : (now.1.view i).calls k = some (.holding action) := by
      simp only [Bus.view, call]
      exact BusCall.about_self rfl
    obtain ⟨o, object, kind⟩ := (sound.views i).holds k _ action held rfl
    have idle' := inv.slot.idle (some k) ⟨_, action, held, rfl⟩
    rw [Bus.view_state object, ← kind] at idle'
    have enabled := LockSystem.begin_enabled x toml cfg idle idle'
    simp only [Bus.step, call]
    rwa [Option.isSome_map]
  · have := inv.completed
    omega
  · intro o object kind
    refine ⟨fun dismissed => ?_, fun performed => ?_⟩
    · have inv' := (ProtocolInv.reach boot (run.trans rest)).2 i
      exact (inv'.dismissed (completed_mono rest dismissed)).1
    · rcases inv.performed performed with ⟨o', object', unlock⟩ | files
      · obtain rfl : o = o' := Option.some.inj (object.symm.trans object')
        exact absurd unlock kind
      · exact files

open Reference

variable [∀ n, OfNat ι n] [∀ n, OfNat κ n]

/-- A create is asked for; a `Prompt` call takes the action, and a `Dismiss` wins the gate and
completes the prompt before the task is spawned. -/
def dismissFirst : List (BusAction ι κ) :=
  issueSteps 0 ":1.7" 0 (.createCollection "Login" none) ++ [BusAction.prompt 1 ":1.7" 0, .take 1] ++
    dismissSteps 2 ":1.7" 0 ++ [BusAction.finish 2]

/-- The action is run all the same, and its task finds itself dismissed. -/
def runLate : List (BusAction ι κ) :=
  [.spawn 1, .inner (.daemon (.task 0 .check)), .inner (.daemon (.task 0 .finish))]

/-- The prompt is completed once, as dismissed, and its action runs once, afterwards, to no
effect. -/
theorem commit_protocol_dismissed : ∃ d now later, emptyBoot 1 = some d ∧
      Reach (logged busStep (Bus.record PromptLog.note)) (fun _ _ => True) (Bus.start (Fin 3) d, fun _ => .empty) now ∧
      Reach (logged busStep (Bus.record PromptLog.note)) (fun _ _ => True) now later ∧
      (now.2 0).completed = [true] ∧ (now.2 0).runs = 0 ∧
      (later.2 0).completed = [true] ∧ (later.2 0).runs = 1 ∧ (later.2 0).files = [] := by
  obtain ⟨d, now, boot, run, test⟩ := Reach.exists_of_exec_from
    (logged busStep (Bus.record PromptLog.note)) (fun _ _ => True) (emptyBoot 1)
    (fun d => (Bus.start (Fin 3) d, fun _ => .empty)) dismissFirst
    (fun p => decide ((p.2 0).completed = [true] ∧ (p.2 0).runs = 0 ∧
        (p.1.objects 0).map (·.kind) = some .createCollection) &&
      (Reach.exec (logged busStep (Bus.record PromptLog.note)) (fun _ _ => True) p runLate).any
        fun q : Bus (Fin 1) (Fin 3) × (Fin 1 → PromptLog) =>
          decide ((q.2 0).completed = [true] ∧ (q.2 0).runs = 1)) (by decide)
  rw [Bool.and_eq_true] at test
  obtain ⟨completed, runs, kind⟩ := of_decide_eq_true test.1
  obtain ⟨later, rest, test'⟩ := Reach.exists_of_exec _ (fun _ _ => True) now runLate _ test.2
  obtain ⟨completed', runs'⟩ := of_decide_eq_true test'
  obtain ⟨o, object, kind⟩ := Option.map_eq_some_iff.mp kind
  have protocol := (commit_protocol boot run rest 0).2.2.2 o object (by rw [kind]; nofun)
  exact ⟨d, now, later, boot, run, rest, completed, runs, completed', runs',
    protocol.1 (by rw [completed]; exact List.mem_singleton_self true)⟩

end

end SecretManager
