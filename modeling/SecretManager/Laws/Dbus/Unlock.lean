import SecretManager.Laws.Dbus.LockSystem

/-!
# What one step of an Unlock prompt can do

Most of the pieces of an Unlock prompt's task only move it along: they read the map or a vault, wait
for the user, or derive a key. So a task is seen through its `UnlockStage`, what it has to do with
which collection, and `UnlockMove` lists how stages change. `PromptMove` does the same for the calls
that can stop the prompt.
-/

namespace SecretManager

open Function

/-! ## Stages -/

/-- What a task has to do with a collection. -/
inductive UnlockStage where
  | idle
  /-- Between two collections, or on the way to one. -/
  | walks
  /-- The collection is looked up. -/
  | peeks (id : String) (h : Handle)
  /-- It was locked; the user is being asked, or the key derived. -/
  | asks (id : String) (h : Handle)
  /-- It is recorded and about to be opened. -/
  | opens (id : String) (h : Handle)
  /-- The vault has refused the key. -/
  | drops (id : String)
  /-- The vault has taken the key. -/
  | opened (id : String)
  /-- The loop is over; the task looks for its owner. -/
  | leaves
  | collects
  | relocks (todo : List (Option Handle))
  /-- The owner was there when the task looked for it. -/
  | past
  | ended
  deriving DecidableEq

def UnlockPhase.stage : UnlockPhase → UnlockStage
  | .idle => .idle
  | .next | .checking _ | .owner _ | .lookup _ => .walks
  | .peek id h => .peeks id h
  | .queued id h | .asking id h _ | .answered id h _ | .loaded id h _ _ | .salting id h _ _
  | .deriving id h _ _ _ _ | .derived id h _ _ | .recording id h _ _ => .asks id h
  | .opening id h _ _ => .opens id h
  | .dropping id _ _ _ => .drops id
  | .touching id | .notifying id => .opened id
  | .leaving => .leaves
  | .collecting => .collects
  | .relocking todo => .relocks todo
  | .answering | .returned _ => .past
  | .finished | .dead => .ended

/-- The stages in which a task goes on by itself: to the next collection, to the end of its loop, or
with the collection it is at. -/
def UnlockStage.underWay : UnlockStage → Bool
  | .walks | .peeks .. | .asks .. => true
  | _ => false

/-! ## Moves of the task -/

/-- Every way a piece that touches only the task and its gate can end. -/
inductive UnlockMove (st : ServiceState) (vaults : List Vault) (g : Gate) (task : UnlockTask) :
    UnlockAction → UnlockTask → Gate → Prop
  | start (rest : List String) (phase : task.phase.stage = .idle) :
      UnlockMove st vaults g task (.start rest)
        { phase := .next, rest, any := false, mine := [] } g.register
  | finds {a id h} (phase : task.phase.stage = .walks) (found : st.collections[id]? = some h) :
      UnlockMove st vaults g task a (task.goto (.peek id h)) g
  | asks {a id h v} (phase : task.phase.stage = .peeks id h) (found : vaults[h]? = some v)
      (locked : v.isLocked = true) : UnlockMove st vaults g task a (task.goto (.queued id h)) g
  /-- The gate may have been reset or claimed. -/
  | goes {a task'} (committed : Bool) (before : task.phase.stage.underWay = true)
      (after : task'.phase.stage = task.phase.stage ∨ task'.phase.stage = .walks ∨ task'.phase.stage = .leaves)
      (mine : task'.mine = task.mine) : UnlockMove st vaults g task a task' { g with committed }
  | notify {a id} (phase : task.phase.stage = .opened id) :
      UnlockMove st vaults g task a
        { task with phase := .next, any := true, mine := task.mine ++ [id] } g
  | gone {a} (phase : task.phase.stage = .leaves) (left : g.owned = false) :
      UnlockMove st vaults g task a (task.goto .collecting) g
  | stays {a task'} (owned : task.phase.stage = .leaves → g.owned = true)
      (before : task.phase.stage = .leaves ∨ task.phase.stage = .past)
      (after : task'.phase.stage = .past) (mine : task'.mine = task.mine) :
      UnlockMove st vaults g task a task' g
  | dies (aborted : g.aborted = true) (awaits : task.phase.awaits = true) :
      UnlockMove st vaults g task .die (task.goto .dead) g

theorem advance_move {x : Externals} {st : ServiceState} {vaults : List Vault} {g g' : Gate}
    {task task' : UnlockTask} {a : UnlockAction}
    (h : task.advance x st vaults g a = some (task', g')) :
    UnlockMove st vaults g task a task' g' := by
  unfold UnlockTask.advance at h
  split at h
  next hphase =>
    cases h
    exact .start _ (by rw [hphase]; rfl)
  next hphase =>
    have before : task.phase.stage.underWay = true := by rw [hphase]; rfl
    split at h
    · cases h
      exact .goes _ before (.inr (.inr rfl)) rfl
    · cases h
      exact .goes false before (.inr (.inl rfl)) rfl
  next hphase =>
    cases h
    refine .goes _ (by rw [hphase]; rfl) ?_ rfl
    split
    · exact .inr (.inr rfl)
    · exact .inr (.inl rfl)
  next hphase =>
    cases h
    refine .goes _ (by rw [hphase]; rfl) ?_ rfl
    split
    · exact .inr (.inl rfl)
    · exact .inr (.inr rfl)
  next id hphase =>
    have phase : task.phase.stage = .walks := by rw [hphase]; rfl
    split at h
    next handle broken found =>
      cases h
      exact .finds phase found
    · cases h
      exact .goes _ (by rw [phase]; rfl) (.inr (.inl rfl)) rfl
  next id handle hphase =>
    have phase : task.phase.stage = .peeks id handle := by rw [hphase]; rfl
    obtain ⟨v, found, hv⟩ := Option.map_eq_some_iff.mp h
    split at hv
    next locked =>
      cases hv
      exact .asks phase found locked
    · cases hv
      exact .goes _ (by rw [phase]; rfl) (.inr (.inl rfl)) rfl
  next hphase =>
    have before : task.phase.stage.underWay = true := by rw [hphase]; rfl
    split at h
    · cases h
      exact .goes _ before (.inl (by rw [hphase]; rfl)) rfl
    · cases h
      exact .goes _ before (.inr (.inr rfl)) rfl
    · cases h
      exact .goes _ before (.inr (.inl rfl)) rfl
  next hphase =>
    have before : task.phase.stage.underWay = true := by rw [hphase]; rfl
    split at h
    · cases h
      refine .goes _ before (.inl ?_) rfl
      rw [hphase]
      split
      · rfl
      · rfl
    · cases h
      exact .goes _ before (.inr (.inr rfl)) rfl
    · cases h
      exact .goes _ before (.inr (.inr rfl)) rfl
    · cases h
      exact .goes _ before (.inr (.inl rfl)) rfl
  next hphase =>
    cases h
    refine .goes true (by rw [hphase]; rfl) ?_ rfl
    rw [hphase]
    split
    · exact .inl rfl
    · exact .inr (.inr rfl)
  next hphase =>
    cases h
    refine .goes _ (by rw [hphase]; rfl) ?_ rfl
    rw [hphase]
    split
    · exact .inl rfl
    · exact .inr (.inl rfl)
  next hphase =>
    obtain ⟨v, found, hv⟩ := Option.map_eq_some_iff.mp h
    cases hv
    exact .goes _ (by rw [hphase]; rfl) (.inl (by rw [hphase]; rfl)) rfl
  next hphase =>
    have before : task.phase.stage.underWay = true := by rw [hphase]; rfl
    split at h
    · cases h
      exact .goes _ before (.inl (by rw [hphase]; rfl)) rfl
    · cases h
      exact .goes _ before (.inr (.inl rfl)) rfl
  next hphase =>
    cases h
    refine .goes _ (by rw [hphase]; rfl) ?_ rfl
    rw [hphase]
    split
    · exact .inl rfl
    · exact .inr (.inl rfl)
  next hphase =>
    cases h
    exact .notify (by rw [hphase]; rfl)
  next hphase =>
    have phase : task.phase.stage = .leaves := by rw [hphase]; rfl
    cases h
    cases owned : g.owned with
    | false => exact .gone phase owned
    | true =>
      refine .stays (fun _ => owned) (.inl phase) ?_ rfl
      cases task.any
      · rfl
      · rfl
  next hphase =>
    have phase : task.phase.stage = .past := by rw [hphase]; rfl
    cases h
    refine .stays (fun leaves => ?_) (.inr phase) rfl rfl
    rw [phase] at leaves
    cases leaves
  · split at h
    next dies =>
      cases h
      rw [Bool.and_eq_true] at dies
      exact .dies dies.1 dies.2
    · cases h
  · cases h

theorem afterRefusal_stage (id : String) (h : Handle) (attempt : Nat) (e : VaultError) :
    (UnlockPhase.afterRefusal id h attempt e).stage = .walks ∨
      ∃ h', (UnlockPhase.afterRefusal id h attempt e).stage = .asks id h' := by
  unfold UnlockPhase.afterRefusal
  split
  · split
    · exact .inr ⟨h, rfl⟩
    · exact .inl rfl
  · exact .inl rfl

/-! ## Moves of the prompt -/

theorem Gate.step_owned {g g' : Gate} {a : GateAction} (reclaim : a ≠ .reclaim)
    (finish : a ≠ .dismissFinish) (h : g.step a = some g') : g'.owned = g.owned := by
  cases a with
  | reclaim => exact absurd rfl reclaim
  | dismissFinish => exact absurd rfl finish
  | dismiss =>
    cases h
    rfl
  | dismissClaim =>
    simp only [Gate.step] at h
    repeat' split at h
    all_goals cases h
    · rfl
    next claim =>
      obtain ⟨-, rfl⟩ := Prod.mk.inj claim
      rfl
  | abort =>
    simp only [Gate.step] at h
    split at h
    · cases h
      rfl
    · cases h

/-- Every way a call that can stop the prompt can end. -/
inductive PromptMove (collections : Std.ExtTreeMap String Handle) (p : UnlockPrompt) :
    GateAction → UnlockPrompt → Prop
  /-- The owner has left, and what was opened is left to the task, -/
  | leaves (owned : p.gate.owned = true)
      (running : (p.gate.handle && (p.gate.shown && p.gate.committed)) = true) :
      PromptMove collections p .reclaim { p with gate := p.gate.reclaimPrompt }
  /-- or taken over by the watcher. -/
  | takes (owned : p.gate.owned = true) :
      PromptMove collections p .reclaim
        { p with gate := p.gate.reclaimPrompt, record := []
                 relocks := p.relocks ++ p.record.map fun id => collections[id]? }
  | finishes (dismissing : p.gate.dismissing = true) :
      PromptMove collections p .dismissFinish { p with gate := p.gate.finish, record := [] }
  | flags {a gate} (other : a ≠ .reclaim) (moved : p.gate.step a = some gate)
      (owned : gate.owned = p.gate.owned) : PromptMove collections p a { p with gate }

theorem gateStep_move {collections : Std.ExtTreeMap String Handle} {p p' : UnlockPrompt}
    {a : GateAction} (h : p.gateStep collections a = some p') : PromptMove collections p a p' := by
  cases a with (simp only [UnlockPrompt.gateStep] at h)
  | reclaim =>
    split at h
    · cases h
    next owned =>
      rw [Bool.not_eq_true, Bool.not_eq_false'] at owned
      split at h
      next running =>
        cases h
        exact .leaves owned running
      · cases h
        exact .takes owned
  | dismissFinish =>
    split at h
    next dismissing =>
      cases h
      exact .finishes dismissing
    · cases h
  | dismiss | dismissClaim | abort =>
    obtain ⟨gate, moved, rfl⟩ := Option.map_eq_some_iff.mp h
    exact .flags (by decide) moved (Gate.step_owned (by decide) (by decide) moved)

/-! ## Steps of the system -/

section

variable {ι π : Type} {x : Externals} {toml : Toml} {cfg : Config} {idle : Nat}

def LockAction.prompt : LockAction ι π → Option π
  | .gate p _ | .unlock p _ | .record p | .decrypt p _ | .drop p | .touchUnlock p | .collect p
  | .relock p | .finish p | .rewatch p => some p
  | _ => none

variable [DecidableEq ι] [DecidableEq π] {s s' : LockSystem ι π} {a : LockAction ι π}

theorem LockStep.prompts_of_ne (step : LockStep x toml cfg idle s a s') {p : π}
    (other : a.prompt ≠ some p) : s'.prompts p = s.prompts p := by
  cases step with
  | gate moved | unlock moved =>
    exact update_of_ne (fun h => other (congrArg some h.symm)) _ _
  | record phase | drop phase | collect phase | relocked phase | finish phase
  | touchUnlock phase | relock phase =>
    exact update_of_ne (fun h => other (congrArg some h.symm)) _ _
  | decrypt phase world call =>
    exact update_of_ne (fun h => other (congrArg some h.symm)) _ _
  | rewatch todo => exact update_of_ne (fun h => other (congrArg some h.symm)) _ _
  | _ => rfl

theorem LockStep.rest (step : LockStep x toml cfg idle s a s') (other : ∀ a', a ≠ .daemon a') :
    s'.daemon = { s.daemon with vaults := s'.daemon.vaults, dir := s'.daemon.dir } := by
  cases step with
  | daemon elsewhere moved => exact absurd rfl (other _)
  | @relock p found todo phase | @rewatch p found relocks todo =>
    cases found with
    | none => rfl
    | some h => rfl
  | _ => rfl

end

end SecretManager
