import SecretManager.Laws.Dbus.Daemon
import SecretManager.Dbus.Reference

/-!
# A confirmed create or delete is not left half done

When the owner of a prompt leaves the bus, `reclaim_prompt` aborts the prompt's task unless the task
has won its commit gate. It reads the gate and does not claim it, so the task can win the gate after
that read and still be told to abort; the abort then takes effect at whichever `await` the task next
waits at. A delete stopped there has unlinked its file and left the map and the aliases as they
were; a create leaves a file that is in no map.

A task that does its irreversible piece before anyone has decided to abort it is safe: from then on
neither a disconnect nor a `Dismiss` can reach it, and its own pieces lead to the end. What is said
of a task needs nothing but the task, its flags and what it has done, so one step is one case for
the task that moves.
-/

namespace SecretManager

open Function Daemon

variable {ι : Type} {x : Externals} {toml : Toml} {cfg : Config}

/-! ## What is recorded -/

/-- The parts of a committed action that were carried out. -/
structure Ledger where
  unlinked : Bool
  /-- Its id was not in the map once it had taken it out. -/
  unmapped : Bool
  /-- No alias of its id was left once its update ended, or the table was not writable. -/
  purged : Bool
  published : Bool
  /-- Its id stood for the vault it made once it had put it in. -/
  inserted : Bool
  deriving DecidableEq

def Ledger.empty : Ledger :=
  { unlinked := false, unmapped := false, purged := false, published := false, inserted := false }

/-- A delete that has unlinked its file has also taken away its id and its aliases, and a create
that has published one has put it into the map. -/
structure Ledger.Complete (l : Ledger) : Prop where
  deleted : l.unlinked = true → l.unmapped = true ∧ l.purged = true
  created : l.published = true → l.inserted = true

instance (l : Ledger) : Decidable l.Complete :=
  decidable_of_iff ((l.unlinked = true → l.unmapped = true ∧ l.purged = true) ∧
    (l.published = true → l.inserted = true)) ⟨fun h => ⟨h.1, h.2⟩, fun h => ⟨h.1, h.2⟩⟩

/-- No alias of the id is left that could be taken away. -/
def AliasTable.lacks (id : String) : AliasTable → Bool
  | .degraded .. => true
  | .usable aliases => aliases.toList.all fun entry => entry.2 != id

def Ledger.record [DecidableEq ι] (before : Daemon ι) (a : Action ι) (after : Daemon ι)
    (log : ι → Ledger) : ι → Ledger :=
  match a with
  | .unlink t _ =>
    match after.tasks t with
    | .delete _ (.unlinked _) => Function.update log t { log t with unlinked := true }
    | _ => log
  | .unmap t =>
    match before.tasks t with
    | .delete id _ =>
      Function.update log t
        { log t with unmapped := decide (after.service.collections[id]? = none) }
    | _ => log
  | .aliases t _ =>
    match before.tasks t, after.tasks t with
    | .delete id _, .returned _ =>
      Function.update log t { log t with purged := after.service.aliases.lacks id }
    | _, _ => log
  | .job t _ =>
    if before.vaults.length < after.vaults.length then
      Function.update log t { log t with published := true }
    else log
  | .insert t =>
    match before.tasks t with
    | .create _ _ (.created id h) =>
      Function.update log t
        { log t with inserted := decide (after.service.collections[id]? = some h) }
    | _ => log
  | _ => log

/-! ## The discipline -/

/-- The task's unlink would succeed. -/
def Daemon.unlinks (s : Daemon ι) (t : ι) (fault : Option IoError) : Bool :=
  match s.tasks t with
  | .delete _ (.committed h) =>
    (s.world h).any fun w => !w.vault.isLocked && fault.isNone && w.file.isSome
  | _ => false

/-- The task's job, or the one it has left behind, would publish a vault. -/
def Daemon.publishes (x : Externals) (cfg : Config) (s : Daemon ι) (t : ι) (env : CreateEnv) :
    Bool :=
  match s.tasks t with
  | .create label _ (.running pin _ id) | .orphan label pin id =>
    (Vault.create x env (cfg.path id) label pin cfg.kdf s.dir[(cfg.path id).name]?).1.isOk
  | _ => false

/-- No task unlinks a file or publishes one once someone has decided to abort it. -/
def commitsUntold (x : Externals) (cfg : Config) (p : Daemon ι × (ι → Ledger)) : Action ι → Bool
  | .unlink t fault => !(p.1.unlinks t fault && (p.1.gates t).told)
  | .job t env => !(p.1.publishes x cfg t env && (p.1.gates t).told)
  | _ => true

/-! ## Where a task stands -/

/-- The task has won its gate and is still there. -/
def Task.won : Task → Bool
  | .create _ _ phase =>
    match phase with
    | .naming .. | .named .. | .queued .. | .running .. | .created .. | .recording .. => true
    | .opened | .asking | .answered _ | .checked _ => false
  | .delete _ phase =>
    match phase with
    | .committed _ | .unlinked _ | .purging .. => true
    | .opened _ | .asking _ | .confirmed _ | .checked _ => false
  | _ => false

/-- The pieces an alias update can still take. -/
def CallPhase.left {ε : Type} : CallPhase ε → Nat
  | .ready attempt => 3 * (aliasUpdateAttempts - attempt) + 3
  | .edited attempt .. => 3 * (aliasUpdateAttempts - attempt) + 2
  | .written attempt .. => 3 * (aliasUpdateAttempts - attempt) + 1
  | .done _ => 0

/-- The pieces a task can still take before what it began is ended. -/
def Task.owed : Task → Nat
  | .delete _ (.unlinked _) => (CallPhase.ready 1 : CallPhase DbusError).left + 1
  | .delete _ (.purging _ call) => call.left
  | .create _ _ (.created ..) => 1
  | _ => 0

/-- The task has nothing to end and has left no job behind. -/
def Task.light : Task → Bool
  | .delete _ (.unlinked _) | .delete _ (.purging ..) | .create _ _ (.created ..) => false
  | .orphan .. => false
  | _ => true

/-- The update has its edit, if it has one yet, from a table without aliases of the id. -/
def CallPhase.Drops (id : String) : CallPhase DbusError → Prop
  | .ready _ => True
  | .edited _ _ next | .written _ _ next _ => (AliasTable.usable next).lacks id = true
  | .done _ => False

/-- The ledger of a task that stands here. -/
def Ledger.Fits (l : Ledger) : Task → Prop
  | .delete _ (.unlinked _) => l.published = true → l.inserted = true
  | .delete id (.purging _ call) =>
    l.unmapped = true ∧ call.Drops id ∧ (l.published = true → l.inserted = true)
  | .create _ _ (.created ..) => l.unlinked = true → l.unmapped = true ∧ l.purged = true
  | _ => l.Complete

/-- What holds of every task, its flags and its ledger. -/
structure Sound (task : Task) (g : Gate) (l : Ledger) : Prop where
  /-- Whoever can abort the task can see its gate. -/
  shown : g.handle = true → g.shown = true
  claimed : task.won = true → g.committed = true
  untold : task.owed ≠ 0 → g.told = false
  orphaned : ∀ {label pin id}, task = .orphan label pin id → g.aborted = true
  ledger : l.Fits task

/-! ## The task and its flags -/

variable {task : Task}

theorem Task.owed_cases (h : task.owed ≠ 0) : (∃ id handle, task = .delete id (.unlinked handle)) ∨
      (∃ id handle call, task = .delete id (.purging handle call)) ∨
      ∃ label aliasName id handle, task = .create label aliasName (.created id handle) := by
  unfold Task.owed at h
  split at h
  · exact .inl ⟨_, _, rfl⟩
  · exact .inr (.inl ⟨_, _, _, rfl⟩)
  · exact .inr (.inr ⟨_, _, _, _, rfl⟩)
  · exact absurd rfl h

theorem Task.won_of_owed (h : task.owed ≠ 0) : task.won = true := by
  obtain ⟨_, _, rfl⟩ | ⟨_, _, _, rfl⟩ | ⟨_, _, _, _, rfl⟩ := Task.owed_cases h
  · rfl
  · rfl
  · rfl

variable {l : Ledger}

theorem Ledger.Fits.complete (fits : l.Fits task) (h : task.owed = 0) : l.Complete := by
  unfold Ledger.Fits at fits
  split at fits
  · cases h
  next id handle call =>
    cases call with
    | done outcome => exact fits.2.1.elim
    | ready attempt | edited attempt base next | written attempt base next result => cases h
  · cases h
  · exact fits

theorem Ledger.Complete.fits (complete : l.Complete) (light : task.light = true) : l.Fits task := by
  unfold Ledger.Fits
  split
  · cases light
  · cases light
  · cases light
  · exact complete

variable {st : ServiceState}

section

variable {task' : Task} {g g' : Gate}
variable (sound : Sound task g l)
include sound

/-- **The calls that stop prompts** reach no task that owes something: its gate is won, so a
disconnect sees it won and a `Dismiss` cannot win it. -/
theorem Sound.gate {a : GateAction} (h : g.step a = some g') : Sound task g' l := by
  have owing : task.owed ≠ 0 → g.committed = true ∧ g.aborting = false ∧ g.aborted = false := by
    intro howed
    have hno := sound.untold howed
    rw [Gate.told, Bool.or_eq_false_iff] at hno
    exact ⟨sound.claimed (Task.won_of_owed howed), hno⟩
  have hshown := sound.shown
  cases a with (simp only [Gate.step] at h)
  | reclaim =>
    split at h
    · cases h
      refine ⟨nofun, sound.claimed, ?_, sound.orphaned, sound.ledger⟩
      intro howed
      obtain ⟨hcommitted, haborting, haborted⟩ := owing howed
      simp only [Gate.told, Gate.reclaimPrompt, hcommitted, haborting, haborted]
      cases hhandle : g.handle with
      | false => rfl
      | true => simp [hshown hhandle]
    · cases h
  | dismiss =>
    cases h
    exact ⟨hshown, sound.claimed, sound.untold, sound.orphaned, sound.ledger⟩
  | dismissClaim =>
    simp only [Gate.claim] at h
    split at h
    · cases h
    · cases hcommitted : g.committed with
      | true =>
        simp only [hcommitted, Bool.not_true] at h
        cases h
        exact sound
      | false =>
        simp only [hcommitted, Bool.not_false] at h
        cases h
        refine ⟨nofun, fun _ => rfl, ?_, sound.orphaned, sound.ledger⟩
        intro howed
        rw [(owing howed).1] at hcommitted
        cases hcommitted
  | dismissFinish =>
    split at h
    · cases h
      exact ⟨nofun, sound.claimed, sound.untold, sound.orphaned, sound.ledger⟩
    · cases h
  | abort =>
    split at h
    next haborting =>
      cases h
      refine ⟨hshown, sound.claimed, ?_, fun _ => rfl, sound.ledger⟩
      intro howed
      rw [(owing howed).2.1] at haborting
      cases haborting
    · cases h

theorem Sound.moved (shown : g'.handle = true → g'.shown = true)
    (claimed : task'.won = true → g'.committed = true) (before : task.owed = 0)
    (light : task'.light = true) : Sound task' g' l where
  shown := shown
  claimed := claimed
  untold howed := by
    obtain ⟨_, _, rfl⟩ | ⟨_, _, _, rfl⟩ | ⟨_, _, _, _, rfl⟩ := Task.owed_cases howed
    · cases light
    · cases light
    · cases light
  orphaned horphan := by
    subst horphan
    cases light
  ledger := (sound.ledger.complete before).fits light

theorem Sound.rests (shown : g'.handle = true → g'.shown = true) (before : task.owed = 0)
    (light : task'.light = true) (unwon : task'.won = false) : Sound task' g' l := by
  refine sound.moved shown ?_ before light
  intro hwon
  rw [unwon] at hwon
  cases hwon

theorem Sound.killed (haborted : g.aborted = true) : Sound task.killed g l := by
  have before : task.owed = 0 := by
    by_contra howed
    have hno := sound.untold howed
    simp [Gate.told, haborted] at hno
  have dead : ∀ task', task' = .dead ∨ (∃ label pin id, task' = .orphan label pin id) → Sound task' g l := by
    rintro task' (rfl | ⟨label, pin, id, rfl⟩)
    · exact sound.rests sound.shown before rfl rfl
    · exact ⟨sound.shown, nofun, absurd rfl, fun _ => haborted, sound.ledger.complete before⟩
  unfold Task.killed
  split
  · exact dead _ (.inr ⟨_, _, _, rfl⟩)
  · exact dead _ (.inl rfl)

theorem Sound.advance {dir : Dir} {a : TaskAction}
    (h : task.advance st dir g a = some (task', g')) : Sound task' g' l := by
  have hshown := sound.shown
  have hclaimed := sound.claimed
  unfold Task.advance at h
  split at h
  case h_1 =>
    obtain ⟨handle, -, heq⟩ := Option.map_eq_some_iff.mp h
    cases heq
    exact sound.rests hshown rfl rfl rfl
  case h_18 =>
    split at h
    next haborted =>
      cases h
      rw [Bool.and_eq_true] at haborted
      exact sound.killed haborted.1
    · cases h
  case h_8 =>
    cases h
    refine sound.moved hshown (fun _ => rfl) rfl ?_
    split <;> rfl
  case h_13 =>
    cases h
    refine sound.moved hshown (fun _ => rfl) rfl ?_
    split <;> rfl
  -- every other piece owes nothing before and after, and none wins the gate
  all_goals repeat' split at h
  all_goals cases h
  all_goals first
    | exact sound.moved hshown hclaimed rfl rfl
    | exact sound.rests hshown rfl rfl rfl
    | exact sound.rests (fun _ => rfl) rfl rfl rfl
    | exact sound.rests (fun hhandle => absurd hhandle Bool.false_ne_true) rfl rfl rfl

end

/-! ## The pieces that cannot be taken back -/

theorem lacks_filter (aliases : AliasMap) (id : String) :
    (AliasTable.usable (aliases.filter fun _ target => target != id)).lacks id = true := by
  simp only [AliasTable.lacks, List.all_eq_true]
  rintro ⟨name, target⟩ hmem
  rw [Std.ExtTreeMap.mem_toList_iff_getElem?_eq_some, Std.ExtTreeMap.getElem?_filter] at hmem
  obtain ⟨-, hother⟩ := Option.pfilter_eq_some_iff.mp hmem
  exact hother

variable {call : CallPhase DbusError} {env : AliasWriteEnv}

theorem purge_piece {id : String} {file file' : Option Bytes} {call' : CallPhase DbusError}
    {aliases : AliasTable}
    (h : updatePiece toml (purgeAliases id) st env file call = (aliases, file', call'))
    (drops : call.Drops id) :
    call'.left < call.left ∧ (call'.Drops id ∨ ∃ outcome, call' = .done outcome ∧ aliases.lacks id = true) := by
  cases call with
  | ready attempt =>
    obtain ⟨rfl, -, rfl⟩ : st.aliases = aliases ∧ file = file' ∧ _ = call' := by
      simpa only [updatePiece, Prod.mk.injEq] using h
    cases htable : st.aliases with
    | degraded reason known =>
      rw [beginAttempt_degraded]
      exact ⟨by simp [CallPhase.left], .inr ⟨_, rfl, rfl⟩⟩
    | usable base =>
      rw [beginAttempt_edited attempt rfl]
      exact ⟨by simp [CallPhase.left], .inl (lacks_filter base id)⟩
  | edited attempt base next =>
    obtain ⟨rfl, -, rfl⟩ : st.aliases = aliases ∧ _ = file' ∧ _ = call' := by
      simpa only [updatePiece, Prod.mk.injEq] using h
    exact ⟨by simp [CallPhase.left], .inl drops⟩
  | written attempt base next result =>
    obtain ⟨rfl, -, rfl⟩ : _ = aliases ∧ file = file' ∧ _ = call' := by
      simpa only [updatePiece, Prod.mk.injEq] using h
    cases htable : st.aliases with
    | degraded reason known =>
      rw [finishAttempt_degraded]
      exact ⟨by simp [CallPhase.left], .inr ⟨_, rfl, rfl⟩⟩
    | usable current =>
      by_cases retry : current ≠ base ∧ attempt < aliasUpdateAttempts
      · rw [finishAttempt_retry _ next result retry]
        refine ⟨?_, .inl trivial⟩
        have more := retry.2
        simp only [CallPhase.left]
        omega
      · cases result with
        | ok u =>
          rw [finishAttempt_committed _ next retry]
          exact ⟨by simp [CallPhase.left], .inr ⟨_, rfl, drops⟩⟩
        | error e =>
          rw [finishAttempt_notWritten _ next e retry]
          exact ⟨by simp [CallPhase.left], .inr ⟨_, rfl, drops⟩⟩
  | done outcome => exact drops.elim

section

variable {g : Gate} {id label : String} {h : Handle} {aliasName : Option String}

theorem Sound.unlink (sound : Sound (.delete id (.committed h)) g l) (untold : g.told = false) :
    Sound (.delete id (.unlinked h)) g { l with unlinked := true } where
  shown := sound.shown
  claimed _ := sound.claimed rfl
  untold _ := untold
  orphaned := nofun
  ledger := (sound.ledger.complete rfl).created

theorem Sound.unmap (sound : Sound (.delete id (.unlinked h)) g l) :
    Sound (.delete id (.purging h (.ready 1))) g { l with unmapped := true } where
  shown := sound.shown
  claimed _ := sound.claimed rfl
  untold _ := sound.untold nofun
  orphaned := nofun
  ledger := ⟨rfl, trivial, sound.ledger⟩

theorem Sound.purging {call' : CallPhase DbusError}
    (sound : Sound (.delete id (.purging h call)) g l) (owing : call.left ≠ 0)
    (drops : call'.Drops id) : Sound (.delete id (.purging h call')) g l where
  shown := sound.shown
  claimed _ := sound.claimed rfl
  untold _ := sound.untold owing
  orphaned := nofun
  ledger := ⟨sound.ledger.1, drops, sound.ledger.2.2⟩

theorem Sound.purged (sound : Sound (.delete id (.purging h call)) g l) :
    Sound (.returned (some id)) g { l with purged := true } where
  shown := sound.shown
  claimed := nofun
  untold := nofun
  orphaned := nofun
  ledger := ⟨fun _ => ⟨sound.ledger.1, rfl⟩, sound.ledger.2.2⟩

theorem Sound.publish {pin : Bytes} {attempt : Nat}
    (sound : Sound (.create label aliasName (.running pin attempt id)) g l)
    (untold : g.told = false) :
    Sound (.create label aliasName (.created id h)) g { l with published := true } where
  shown := sound.shown
  claimed _ := sound.claimed rfl
  untold _ := untold
  orphaned := nofun
  ledger := (sound.ledger.complete rfl).deleted

theorem Sound.insert (sound : Sound (.create label aliasName (.created id h)) g l) :
    Sound (.afterInsert label aliasName id) g { l with inserted := true } := by
  have complete : Ledger.Complete { l with inserted := true } := ⟨sound.ledger, fun _ => rfl⟩
  cases aliasName with
  | none => exact ⟨sound.shown, nofun, nofun, nofun, complete⟩
  | some name => exact ⟨sound.shown, fun _ => sound.claimed rfl, nofun, nofun, complete⟩

theorem Sound.updated (sound : Sound task g l)
    (other : ∀ id h call, task ≠ .delete id (.purging h call)) (phase : CallPhase DbusError) :
    Sound (task.updated phase) g l := by
  have hclaimed := sound.claimed
  unfold Task.updated
  split
  · split
    · exact sound.rests sound.shown rfl rfl rfl
    · exact sound.rests sound.shown rfl rfl rfl
  · split
    · exact sound.rests sound.shown rfl rfl rfl
    · exact sound.moved sound.shown (fun _ => hclaimed rfl) rfl rfl
  · exact absurd rfl (other _ _ _)
  · exact sound

theorem Sound.afterError {pin : Bytes} {attempt : Nat} {e : VaultError}
    (sound : Sound (.create label aliasName (.running pin attempt id)) g l) :
    Sound (.afterError label aliasName pin attempt e) g l := by
  have again : Sound (.create label aliasName (.naming pin (attempt + 1))) g l :=
    sound.moved sound.shown (fun _ => sound.claimed rfl) rfl rfl
  have ended : Sound (.returned none) g l := sound.rests sound.shown rfl rfl rfl
  unfold Task.afterError
  split
  · split
    · exact again
    · exact ended
  · exact ended

end

/-! ## Every step -/

section

variable [DecidableEq ι] {s s' : Daemon ι} {log log' : ι → Ledger}

/-- What holds in every state that disciplined runs reach. -/
structure CommitInv (s : Daemon ι) (log : ι → Ledger) : Prop where
  sound : ∀ t, Sound (s.tasks t) (s.gates t) (log t)
  made : ∀ {t id h}, (s.tasks t).role = .brings id h → h < s.vaults.length

variable {t : ι}

theorem CommitInv.move (inv : CommitInv s log) {g : Gate}
    (tasks : s'.tasks = Function.update s.tasks t task)
    (gates : s'.gates = Function.update s.gates t g) (logs : log' = Function.update log t l)
    (vaults : s.vaults.length ≤ s'.vaults.length) (moved : Sound task g l)
    (made : ∀ {id h}, task.role = .brings id h → h < s'.vaults.length) : CommitInv s' log' := by
  subst logs
  refine ⟨?_, ?_⟩
  · intro t'
    rw [tasks, gates]
    by_cases ht : t' = t
    · subst ht
      simpa only [update_self] using moved
    · simpa only [update_of_ne ht] using inv.sound t'
  · intro t' id h hrole
    rw [tasks] at hrole
    by_cases ht : t' = t
    · subst ht
      rw [update_self] at hrole
      exact made hrole
    · rw [update_of_ne ht] at hrole
      exact (inv.made hrole).trans_le vaults

theorem CommitInv.moveTask (inv : CommitInv s log)
    (tasks : s'.tasks = Function.update s.tasks t task) (gates : s'.gates = s.gates)
    (logs : log' = log) (vaults : s.vaults.length ≤ s'.vaults.length)
    (moved : Sound task (s.gates t) (log t)) (role : task.role = .none) : CommitInv s' log' := by
  refine inv.move tasks (gates.trans (update_eq_self t s.gates).symm)
    (logs.trans (update_eq_self t log).symm) vaults moved ?_
  intro id h hrole
  rw [role] at hrole
  cases hrole

omit [DecidableEq ι] in
theorem CommitInv.rest (inv : CommitInv s log) (tasks : s'.tasks = s.tasks)
    (gates : s'.gates = s.gates) (vaults : s.vaults.length ≤ s'.vaults.length) :
    CommitInv s' log := by
  refine ⟨?_, ?_⟩
  · intro t
    rw [tasks, gates]
    exact inv.sound t
  · intro t id h hrole
    rw [tasks] at hrole
    exact (inv.made hrole).trans_le vaults

theorem Ledger.record_aliases (log : ι → Ledger)
    (h : ∀ id phase collection, s.tasks t = .delete id phase → s'.tasks t ≠ .returned collection) :
    Ledger.record s (.aliases t env) s' log = log := by
  simp only [Ledger.record]

theorem CommitInv.aliases (inv : CommitInv s log) {call : AliasCall ServiceView DbusError}
    {phase phase' : CallPhase DbusError} {aliases : AliasTable} {aliasFile : Option Bytes}
    (update : (s.tasks t).update = some (call, phase))
    (piece : updatePiece toml call s.service env s.aliasFile phase = (aliases, aliasFile, phase'))
    (tasks : s'.tasks = Function.update s.tasks t ((s.tasks t).updated phase'))
    (gates : s'.gates = s.gates) (vaults : s'.vaults = s.vaults)
    (table : s'.service.aliases = aliases) :
    CommitInv s' (Ledger.record s (.aliases t env) s' log) := by
  have sound := inv.sound t
  have hgates := gates.trans (update_eq_self t s.gates).symm
  have hvaults : s.vaults.length ≤ s'.vaults.length := by rw [vaults]
  have hself : s'.tasks t = (s.tasks t).updated phase' := by rw [tasks, update_self]
  by_cases hpurge : ∃ id h c, s.tasks t = .delete id (.purging h c)
  · obtain ⟨id, h, c, htask⟩ := hpurge
    rw [htask] at sound update tasks hself
    obtain ⟨rfl, rfl⟩ : purgeAliases id = call ∧ c = phase := by
      simpa only [Task.update, Option.some.injEq, Prod.mk.injEq] using update
    obtain ⟨closer, drops | ⟨outcome, rfl, lacks⟩⟩ := purge_piece piece sound.ledger.2.1
    · have hupdated : (Task.delete id (.purging h c)).updated phase' = .delete id (.purging h phase') := by
        cases phase' with
        | done outcome => exact drops.elim
        | ready attempt | edited attempt base next | written attempt base next result => rfl
      rw [hupdated] at tasks hself
      rw [Ledger.record_aliases log (by rw [hself]; nofun)]
      exact inv.move tasks hgates (update_eq_self t log).symm hvaults
        (sound.purging (by omega) drops) nofun
    · have hrecord : Ledger.record s (.aliases t env) s' log = Function.update log t { log t with purged := true } := by
        simp only [Ledger.record, htask, hself, Task.updated, table, lacks]
      rw [hrecord]
      exact inv.move tasks hgates rfl hvaults sound.purged nofun
  · have other : ∀ id h c, s.tasks t ≠ .delete id (.purging h c) := by
      intro id h c htask
      exact hpurge ⟨id, h, c, htask⟩
    have hdelete : ∀ id phase, s.tasks t ≠ .delete id phase := by
      intro id phase₀ htask
      rw [htask] at update
      cases phase₀ with
      | purging h c => exact other id h c htask
      | _ => cases update
    rw [Ledger.record_aliases log fun id phase₀ _ htask => absurd htask (hdelete id phase₀)]
    refine inv.move tasks hgates (update_eq_self t log).symm hvaults
      (sound.updated other phase') ?_
    intro id h hrole
    rcases updated_role (s.tasks t) phase' with hsame | hnone
    · exact (inv.made (hsame.symm.trans hrole)).trans_le hvaults
    · rw [hnone] at hrole
      cases hrole

variable {a : Action ι}

/-- A step keeps it as long as no task unlinks or publishes a file after it was told to abort. -/
theorem CommitInv.step (inv : CommitInv s log) (ok : commitsUntold x cfg (s, log) a = true)
    (h : DaemonStep x toml cfg s a s') : CommitInv s' (Ledger.record s a s' log) := by
  cases h with
  | task moved =>
    refine inv.move rfl rfl (update_eq_self _ log).symm le_rfl
      ((inv.sound _).advance moved) ?_
    intro id h hrole
    have hsame := (advance_role moved).of_fixed (by rw [hrole]; rfl)
    exact inv.made (hsame.trans hrole)
  | @gate t a g moved =>
    refine inv.move (update_eq_self t s.tasks).symm rfl
      (update_eq_self t log).symm le_rfl ((inv.sound t).gate moved) ?_
    intro id h hrole
    exact inv.made hrole
  | operate task world => exact inv.rest rfl rfl (by simp [setWorld])
  | @unlinkLocked t fault id h w task world locked =>
    have sound := inv.sound t
    rw [task] at sound
    refine inv.moveTask rfl rfl ?_ le_rfl (sound.rests sound.shown rfl rfl rfl) rfl
    simp only [Ledger.record, setTask, update_self]
  | @unlinkFailed t fault id h w task world unlocked failed =>
    have sound := inv.sound t
    rw [task] at sound
    refine inv.moveTask rfl rfl ?_ (by simp [setTask, setWorld]) (sound.rests sound.shown rfl rfl rfl) rfl
    simp only [Ledger.record, setTask, update_self]
  | @unlink t id h w bytes task world unlocked present =>
    have sound := inv.sound t
    rw [task] at sound
    have untold : (s.gates t).told = false := by
      simpa [commitsUntold, unlinks, task, world, unlocked, present] using ok
    refine inv.move rfl (update_eq_self t s.gates).symm ?_
      (by simp [setTask, setWorld]) (sound.unlink untold) (by simp [Task.role])
    simp only [Ledger.record, setTask, update_self]
  | @unmap t id h task =>
    have sound := inv.sound t
    rw [task] at sound
    refine inv.move rfl (update_eq_self t s.gates).symm ?_ le_rfl sound.unmap
      (by simp [Task.role])
    simp only [Ledger.record, task, Std.ExtTreeMap.getElem?_erase_self, decide_true]
  | @job t env label aliasName pin attempt id v file task made =>
    have sound := inv.sound t
    rw [task] at sound
    have untold : (s.gates t).told = false := by
      simpa [commitsUntold, publishes, task, made, Except.toBool] using ok
    refine inv.move rfl (update_eq_self t s.gates).symm (by simp [Ledger.record]) (by simp)
      (sound.publish untold) ?_
    intro id' h hrole
    cases hrole
    simp
  | @jobFailed t env label aliasName pin attempt id e file task failed =>
    have sound := inv.sound t
    rw [task] at sound
    exact inv.moveTask rfl rfl (by simp [Ledger.record, setTask]) le_rfl sound.afterError
      (afterError_role ..)
  | @orphan t env label pin id v file task made =>
    -- an orphan's task was aborted, so the discipline keeps its job from publishing
    have haborted : (s.gates t).aborted = true := (inv.sound t).orphaned task
    have untold : (s.gates t).told = false := by
      simpa [commitsUntold, publishes, task, made, Except.toBool] using ok
    simp [Gate.told, haborted] at untold
  | @orphanFailed t env label pin id e file task failed =>
    have sound := inv.sound t
    rw [task] at sound
    exact inv.moveTask rfl rfl (by simp [Ledger.record, setTask]) le_rfl
      (sound.rests sound.shown rfl rfl rfl) rfl
  | @insert t label aliasName id h v task vault =>
    have sound := inv.sound t
    rw [task] at sound
    refine inv.move rfl (update_eq_self t s.gates).symm ?_ (by simp) sound.insert ?_
    · simp only [Ledger.record, task, Std.ExtTreeMap.getElem?_insert_self, decide_true]
    · intro id' h' hrole
      rw [afterInsert_role] at hrole
      cases hrole
  | aliases update piece => exact inv.aliases update piece rfl rfl rfl rfl
  | @entry name loaded scan scanning =>
    refine inv.rest rfl rfl ?_
    rcases scanEntry_cases x cfg loaded name s.dir[name]? scan s.vaults with
      ⟨-, hvaults⟩ | ⟨id, v, -, -, -, hvaults⟩
    · exact (congrArg List.length hvaults).ge
    · have hlength := congrArg List.length hvaults
      rw [List.length_append] at hlength
      exact hlength ▸ Nat.le_add_right _ _
  | reload kept | merge scanned | externalVault name file | externalAliases aliasFile =>
    exact inv.rest rfl rfl le_rfl

/-! ## Progress -/

/-- The task whose piece an action is. -/
def Action.owner : Action ι → Option ι
  | .task t _ | .operate t _ | .unlink t _ | .unmap t | .job t _ | .insert t | .aliases t _ => some t
  | .gate .. | .reload _ | .merge | .externalVault .. | .externalAliases _ => none

/-- **Frame**: a task is moved by its own pieces only. -/
theorem DaemonStep.tasks_other (h : DaemonStep x toml cfg s a s') (other : a.owner ≠ some t) :
    s'.tasks t = s.tasks t := by
  have moved : ∀ {t' : ι} {task : Task}, some t' ≠ some t → Function.update s.tasks t' task t = s.tasks t := by
    intro t' task hne
    exact update_of_ne (fun heq => hne (by rw [heq])) ..
  cases h with
  | task | unlinkLocked | unlinkFailed | unlink | unmap | job | jobFailed | orphan
  | orphanFailed | insert | aliases => exact moved other
  | _ => rfl

/-- A task that owes something has no piece of its own that touches only itself; it could only be
aborted. -/
theorem advance_of_owed {dir : Dir} {g : Gate} {a : TaskAction} {p : Task × Gate}
    (howed : task.owed ≠ 0) (h : task.advance st dir g a = some p) : g.aborted = true := by
  unfold Task.advance at h
  split at h
  case h_18 =>
    split at h
    next haborted =>
      rw [Bool.and_eq_true] at haborted
      exact haborted.1
    · cases h
  case h_19 => cases h
  all_goals exact absurd rfl howed

/-- **A piece of its own** brings a task that owes something closer to its end. -/
theorem CommitInv.closer (inv : CommitInv s log) (h : DaemonStep x toml cfg s a s')
    (own : a.owner = some t) (howed : (s.tasks t).owed ≠ 0) :
    (s'.tasks t).owed < (s.tasks t).owed := by
  have lands : ∀ {task task' : Task}, s.tasks t = task → s'.tasks t = task' →
      task'.owed < task.owed → (s'.tasks t).owed < (s.tasks t).owed := by
    rintro task task' rfl rfl hlt
    exact hlt
  have owes : ∀ {task : Task}, s.tasks t = task → task.owed ≠ 0 := by
    rintro task rfl
    exact howed
  cases h with
  | task moved =>
    cases own
    have haborted := advance_of_owed howed moved
    have hno := (inv.sound t).untold howed
    simp [Gate.told, haborted] at hno
  | operate task | unlinkLocked task | unlinkFailed task | unlink task | job task
  | jobFailed task | orphan task | orphanFailed task =>
    cases own
    exact absurd rfl (owes task)
  | unmap task =>
    cases own
    exact lands task (update_self ..) (Nat.lt_succ_self _)
  | @insert _ label aliasName id handle v task =>
    cases own
    refine lands task (update_self ..) ?_
    cases aliasName with
    | none | some name => exact Nat.one_pos
  | @aliases _ env call phase phase' aliases aliasFile update piece =>
    cases own
    have sound := inv.sound t
    obtain ⟨id, handle, htask⟩ | ⟨id, handle, c, htask⟩ | ⟨_, _, id, handle, htask⟩ :=
      Task.owed_cases howed
    · rw [htask] at update
      cases update
    · rw [htask] at sound update
      obtain ⟨rfl, rfl⟩ : purgeAliases id = call ∧ c = phase := by
        simpa only [Task.update, Option.some.injEq, Prod.mk.injEq] using update
      have hless := (purge_piece piece sound.ledger.2.1).1
      refine lands htask ((update_self ..).trans (by rw [htask])) ?_
      cases phase' with
      | done outcome | ready attempt | edited attempt base next
      | written attempt base next result => exact hless
    · rw [htask] at update
      cases update
  | gate | entry | reload | merge | externalVault | externalAliases => cases own

theorem CommitInv.enabled (inv : CommitInv s log) (env : AliasWriteEnv)
    (howed : (s.tasks t).owed ≠ 0) :
    ∃ a : Action ι, a.owner = some t ∧ (s.step x toml cfg a).isSome = true := by
  obtain ⟨id, h, htask⟩ | ⟨id, h, call, htask⟩ | ⟨label, aliasName, id, h, htask⟩ :=
    Task.owed_cases howed
  · exact ⟨.unmap t, rfl, by simp [Daemon.step, htask]⟩
  · exact ⟨.aliases t env, rfl, by simp [Daemon.step, htask, Task.update]⟩
  · have hlt : h < s.vaults.length := by
      have hrole : (s.tasks t).role = .brings id h := by rw [htask]; rfl
      exact inv.made hrole
    exact ⟨.insert t, rfl, by simp [Daemon.step, htask, hlt]⟩

/-! ## Whole runs -/

omit [DecidableEq ι] in
theorem CommitInv.start (booted : Booted x cfg s) : CommitInv s fun _ => .empty := by
  refine ⟨?_, ?_⟩
  · intro t
    rw [booted.tasks t, booted.gates t]
    exact ⟨nofun, nofun, nofun, nofun, nofun, nofun⟩
  · intro t id h hrole
    rw [booted.tasks t] at hrole
    cases hrole

/-- **No half-done create or delete**: in every run in which no task unlinks or publishes a file
once someone has decided to abort it, a task that has nothing left to do has completed what it
began. One that has something left can always run its next piece, each of its own pieces brings it
closer to its end, and no one else moves it. -/
theorem commit_is_completed {dir : Dir} {aliasFile : Option Bytes} {s₀ : Daemon ι}
    (boot : Daemon.boot ι x toml cfg dir aliasFile = some s₀)
    (run : Reach (logged (Daemon.step x toml cfg) Ledger.record)
      (fun p a => commitsUntold x cfg p a = true) (s₀, fun _ => .empty) (s, log)) (t : ι) :
    ((s.tasks t).owed = 0 → (log t).Complete) ∧ ((s.tasks t).owed ≠ 0 →
        (∃ a : Action ι, a.owner = some t ∧ (s.step x toml cfg a).isSome = true) ∧
        ∀ a s', s.step x toml cfg a = some s' →
          if a.owner = some t then (s'.tasks t).owed < (s.tasks t).owed
          else s'.tasks t = s.tasks t) := by
  have inv := run.logged_invariant CommitInv (.start (boot_booted boot))
    fun inv ok hstep => inv.step ok (step_inv hstep)
  refine ⟨(inv.sound t).ledger.complete, fun howed => ⟨inv.enabled Reference.aliasWrite howed, ?_⟩⟩
  intro a s' hstep
  split
  next own => exact inv.closer (step_inv hstep) own howed
  next other => exact (step_inv hstep).tasks_other other

/-- A task that waits and is to be aborted can be gone at once. -/
theorem Daemon.can_stop (x : Externals) (toml : Toml) (cfg : Config)
    (told : (s.gates t).told = true) (waits : (s.tasks t).awaits = true)
    (gone : (s.tasks t).killed = .dead) :
    ∃ s', Reach (Daemon.step x toml cfg) (fun _ _ => True) s s' ∧ s'.tasks t = .dead ∧ s'.service = s.service := by
  have dies : ∀ s₁ : Daemon ι, s₁.tasks = s.tasks → (s₁.gates t).aborted = true →
      ∃ s₂, s₁.step x toml cfg (.task t .die) = some s₂ ∧ s₂.tasks t = .dead ∧ s₂.service = s₁.service := by
    intro s₁ tasks haborted
    have hadvance : (s₁.tasks t).advance s₁.service s₁.dir (s₁.gates t) .die = some (.dead, s₁.gates t) := by
      rw [tasks]
      unfold Task.advance
      split
      case h_18 => simp only [haborted, waits, gone, Bool.and_self, if_true]
      all_goals simp_all
    refine ⟨{ s₁.setTask t .dead with gates := Function.update s₁.gates t (s₁.gates t) }, ?_, ?_, rfl⟩
    · simp only [Daemon.step, hadvance, Option.map_some]
    · exact update_self ..
  rw [Gate.told, Bool.or_eq_true] at told
  by_cases haborted : (s.gates t).aborted = true
  · obtain ⟨s₂, hstep, hdead, hservice⟩ := dies s rfl haborted
    exact ⟨s₂, .next _ .init trivial hstep, hdead, hservice⟩
  · -- whoever took the handle has yet to use it
    have haborting : (s.gates t).aborting = true := told.resolve_right haborted
    let g : Gate := { s.gates t with aborting := false, aborted := true }
    have habort : s.step x toml cfg (.gate t .abort) = some { s with gates := Function.update s.gates t g } := by
      simp only [Daemon.step, Gate.step, haborting, if_true, Option.map_some, g]
    have haborted' : (Function.update s.gates t g t).aborted = true := by rw [update_self]
    obtain ⟨s₂, hstep, hdead, hservice⟩ :=
      dies { s with gates := Function.update s.gates t g } rfl haborted'
    exact ⟨s₂, .next _ (.next _ .init trivial habort) trivial hstep, hdead, hservice⟩

/-- **The discipline leaves out nothing else**: after a step that breaks it, the task can be gone at
once, with the map and the aliases as they were before the step. -/
theorem told_commit_can_stop (told : commitsUntold x cfg (s, log) a = false)
    (h : DaemonStep x toml cfg s a s') :
    ∃ t s'', a.owner = some t ∧ Reach (Daemon.step x toml cfg) (fun _ _ => True) s' s'' ∧
      s''.tasks t = .dead ∧ s''.service = s.service := by
  cases h with
  | @unlinkLocked t fault id h w task world locked =>
    simp [commitsUntold, unlinks, task, world, locked] at told
  | @unlinkFailed t fault id h w task world unlocked failed =>
    cases fault with
    | none => simp [commitsUntold, unlinks, task, world, failed rfl] at told
    | some e => simp [commitsUntold, unlinks, task, world] at told
  | @unlink t id h w bytes task world unlocked present =>
    have htold : (s.gates t).told = true := by
      simpa [commitsUntold, unlinks, task, world, unlocked, present] using told
    have hself : ((s.setWorld h ⟨w.vault.retire, none⟩).setTask t
        (.delete id (.unlinked h))).tasks t = .delete id (.unlinked h) := update_self ..
    obtain ⟨s'', run, hdead, hservice⟩ := can_stop x toml cfg
      (s := (s.setWorld h ⟨w.vault.retire, none⟩).setTask t (.delete id (.unlinked h)))
      htold (by rw [hself]; rfl) (by rw [hself]; rfl)
    exact ⟨t, s'', rfl, run, hdead, hservice⟩
  | @job t env label aliasName pin attempt id v file task made =>
    have htold : (s.gates t).told = true := by
      simpa [commitsUntold, publishes, task, made, Except.toBool] using told
    have hself : (s.setTask t (.create label aliasName (.created id s.vaults.length))).tasks t =
        .create label aliasName (.created id s.vaults.length) := update_self ..
    obtain ⟨s'', run, hdead, hservice⟩ := can_stop x toml cfg
      (s := { s.setTask t (.create label aliasName (.created id s.vaults.length)) with
        vaults := s.vaults ++ [v], dir := s.dir.put (cfg.path id).name file })
      htold (by rw [hself]; rfl) (by rw [hself]; rfl)
    exact ⟨t, s'', rfl, run, hdead, hservice⟩
  | @jobFailed t env label aliasName pin attempt id e file task failed
  | @orphanFailed t env label pin id e file task failed =>
    simp [commitsUntold, publishes, task, failed, Except.toBool] at told
  | @orphan t env label pin id v file task made =>
    exact ⟨t, _, rfl, .init, update_self .., rfl⟩
  | _ => cases told

end

section

open Reference

variable [∀ n, OfNat ι n]

/-- The owners of a create and of a delete leave once the gates are won, and a `Dismiss` comes too
late as well. -/
def disconnectLate : List (Action ι) :=
  createSteps 0 "Login" (some "default") ++ [Action.gate 0 .reclaim, .insert 0] ++ aliasSteps 0 ++
    askSteps 1 "login" ++ [Action.task 1 .claim, .gate 1 .dismiss, .gate 1 .dismissClaim,
      .gate 1 .reclaim, .unlink 1 none, .unmap 1] ++ aliasSteps 1

theorem commit_is_completed_after_disconnect : ∃ s₀ s log, emptyBoot 2 = some s₀ ∧
      Reach (logged daemonStep Ledger.record) (fun p a => commitsUntold externals config p a = true)
        (s₀, fun _ => .empty) (s, log) ∧
      ((s.tasks 1).owed = 0 ∧ (log 1).unlinked = true) ∧ (log 1).Complete := by
  refine Reach.exists_run_pair disconnectLate
    (fun s log => (s.tasks 1).owed = 0 ∧ (log 1).unlinked = true) (by decide +kernel)
    fun boot run passed => ?_
  exact ⟨passed, (commit_is_completed boot run 1).1 passed.1⟩

/-- The owner of a delete leaves: the gate is read before the task wins it, the task unlinks the
file, and the abort takes effect where the task waits for the state lock. -/
def deleteStopped : List (Action ι) :=
  createSteps 0 "Login" (some "default") ++ [Action.insert 0] ++ aliasSteps 0 ++ askSteps 1 "login" ++
    [Action.gate 1 .reclaim, .task 1 .claim, .gate 1 .abort, .unlink 1 none, .task 1 .die]

/-- There the task is told before it unlinks the file. -/
theorem told_commit_can_stop_unlinked : ∃ s₀ s : Daemon (Fin 2), emptyBoot 2 = some s₀ ∧
    Reach daemonStep (fun _ _ => True) s₀ s ∧ ∃ s' s'', daemonStep s (.unlink 1 none) = some s' ∧
      Reach daemonStep (fun _ _ => True) s' s'' ∧ s''.tasks 1 = .dead ∧ s''.service = s.service := by
  refine Reach.exists_run_from deleteStopped.dropLast.dropLast
    (fun s => commitsUntold externals config (s, fun _ => .empty) (.unlink 1 none) = false ∧
      (daemonStep s (.unlink 1 none)).isSome = true) (by decide +kernel) fun _ _ passed => ?_
  obtain ⟨s', step⟩ := Option.isSome_iff_exists.mp passed.2
  obtain ⟨t, s'', own, stops⟩ := told_commit_can_stop passed.1 (step_inv step)
  cases own
  exact ⟨s', s'', step, stops⟩

/-- The owner of a create leaves in the same way; the job runs on without its task. -/
def createStopped : List (Action ι) :=
  [.task 0 (.beginCreate "Login" none), .task 0 .check, .task 0 (.pin (some [112, 119])),
    .task 0 .check, .gate 0 .reclaim, .task 0 .claim, .gate 0 .abort, .task 0 .snapshot,
    .task 0 .name, .task 0 .startJob, .task 0 .die, .job 0 createEnv]

/-- **Without the discipline** a delete has unlinked a file whose id stays in the map, with its
alias, and a create has published a file that is in no map; neither task is left to end it. -/
theorem disconnect_leaves_half_done : (∃ s₀ s log, emptyBoot 2 = some s₀ ∧
      Reach (logged daemonStep Ledger.record) (fun _ _ => True) (s₀, fun _ => .empty) (s, log) ∧
      (log 1).unlinked = true ∧ (log 1).unmapped = false ∧ (s.tasks 1).owed = 0 ∧
      s.dir["login.vault"]? = none ∧ s.service.collections["login"]? = some 0 ∧
      s.service.aliases.known["default"]? = some "login") ∧
    ∃ s₀ s log, emptyBoot 2 = some s₀ ∧
      Reach (logged daemonStep Ledger.record) (fun _ _ => True) (s₀, fun _ => .empty) (s, log) ∧
      (log 0).published = true ∧ (log 0).inserted = false ∧ (s.tasks 0).owed = 0 ∧
      s.dir["login.vault"]? ≠ none ∧ s.service.collections["login"]? = none := by
  constructor
  · exact Reach.exists_run_pair deleteStopped _ (by decide +kernel) fun _ _ passed => passed
  · exact Reach.exists_run_pair createStopped _ (by decide +kernel) fun _ _ passed => passed

end

end SecretManager
