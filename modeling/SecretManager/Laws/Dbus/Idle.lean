import SecretManager.Laws.Dbus.LockSystem
import SecretManager.Dbus.Reference

/-!
# The idle timer and recent activity

The timer reads `last_activity` under the state lock, copies the list of vaults, and then locks them
one by one under their own locks. A vault can be unlocked or written between the copy and its turn,
and every caller records its activity only after it has released the vault; a property setter does
not record it at all, nor does a prompt that is aborted in between. In each of these ways the timer
locks a vault that was in use a moment ago.
-/

namespace SecretManager

open LockSystem

variable {ι π : Type} {x : Externals} {toml : Toml} {cfg : Config} {idle : Nat}

/-! ## What is recorded -/

/-- The methods that write the vault's file. -/
def Method.writes : Method → Bool
  | .lock => false
  | _ => true

/-- The vault of which this step completes an unlock or a successful write, and whether the vault is
pinned then. -/
def LockSystem.completes (x : Externals) (s : LockSystem ι π) : LockAction ι π →
    Option (Handle × Bool)
  | .request t m =>
    match s.daemon.tasks t with
    | .request h => (s.daemon.world h).bind fun w =>
        if m.writes && (m.op.apply x w).1.isOk then some (h, w.vault.pinned) else none
    | _ => none
  | .unlockWithKey t env =>
    match s.controls t with
    | .resolved h key pin => (s.daemon.world h).bind fun w =>
        if (w.unlockPinned x env key pin).1.isOk then some (h, pin) else none
    | _ => none
  | .decrypt p env =>
    match (s.prompts p).task.phase with
    | .opening _ h _ key => (s.daemon.world h).bind fun w =>
        if (w.unlockWithKey x env key).1.isOk then some (h, w.vault.pinned) else none
    | _ => none
  | _ => none

structure IdleLog where
  /-- When the last unlock or write of a vault was completed. -/
  done : Handle → Option Nat
  /-- The timer has locked a vault too early. -/
  early : Bool

def IdleLog.empty : IdleLog := { done := fun _ => none, early := false }

/-- The timer's next vault is open, is not pinned, and was in use less than the idle time ago. -/
def LockSystem.locksEarly (idle : Nat) (s : LockSystem ι π) (log : IdleLog) : LockAction ι π → Bool
  | .idleLock =>
    s.timer.head?.any fun h =>
      (s.daemon.vaults[h]?.any fun v => !v.isLocked && !v.pinned) &&
        (log.done h).any fun time => decide (s.now < time + idle)
  | _ => false

def IdleLog.record (x : Externals) (idle : Nat) (before : LockSystem ι π) (a : LockAction ι π)
    (_ : LockSystem ι π) (log : IdleLog) : IdleLog where
  done h :=
    match before.completes x a with
    | some (h', _) => if h' = h then some before.now else log.done h
    | none => log.done h
  early := log.early || before.locksEarly idle log a

/-! ## The discipline -/

/-- No unlock or write that leaves a vault without a pin is completed while the timer has yet to
look at the vault; and when the timer starts a round, every unlock or write completed less than the
idle time ago has been recorded. -/
def locksInTime (x : Externals) (idle : Nat) (p : LockSystem ι π × IdleLog) : LockAction ι π → Bool
  | .wake =>
    p.1.daemon.service.collections.values.all fun h =>
      (p.2.done h).all fun time => decide (time ≤ p.1.lastActivity ∨ time + idle ≤ p.1.now)
  | a => (p.1.completes x a).all fun (h, pinned) => pinned || decide (h ∉ p.1.timer)

/-! ## The invariant -/

/-- **The invariant of the idle timer**: of a vault it has yet to look at, the last use is at least
the idle time ago. -/
structure IdleInv (idle : Nat) (s : LockSystem ι π) (log : IdleLog) : Prop where
  recorded : s.lastActivity ≤ s.now
  /-- Nothing was done yet to a vault that is not there. -/
  absent : ∀ {h}, s.daemon.vaults[h]? = none → log.done h = none
  waiting : ∀ {h v time}, h ∈ s.timer → s.daemon.vaults[h]? = some v → v.standing = (false, false) →
    log.done h = some time → time + idle ≤ s.now
  never : log.early = false

variable {h : Handle}
variable {log : IdleLog} {s : LockSystem ι π}

theorem IdleLog.record_done {before after : LockSystem ι π} {a : LockAction ι π}
    (other : ∀ pinned, before.completes x a ≠ some (h, pinned)) :
    (IdleLog.record x idle before a after log).done h = log.done h := by
  simp only [IdleLog.record]
  split
  next h' pinned completes =>
    rw [if_neg]
    rintro rfl
    exact other pinned completes
  · rfl

theorem LockSystem.completes_found {a : LockAction ι π} {pinned : Bool}
    (completes : s.completes x a = some (h, pinned)) : ∃ w, s.daemon.world h = some w := by
  unfold LockSystem.completes at completes
  split at completes
  all_goals try cases completes
  all_goals
    split at completes
    · obtain ⟨w, world, hw⟩ := Option.bind_eq_some_iff.mp completes
      cases (Option.ite_none_right_eq_some.mp hw).2
      exact ⟨w, world⟩
    · cases completes

theorem IdleInv.start (d : Daemon ι) : IdleInv idle (start π d) .empty where
  recorded := Nat.le_refl _
  absent _ := rfl
  waiting hmem := absurd hmem List.not_mem_nil
  never := rfl

theorem IdleInv.inTime (inv : IdleInv idle s log) (a : LockAction ι π) :
    s.locksEarly idle log a = false := by
  cases a with
  | idleLock =>
    simp only [locksEarly]
    cases htimer : s.timer with
    | nil => rfl
    | cons h timer =>
      rw [List.head?_cons, Option.any_some, Bool.and_eq_false_iff]
      by_contra early
      push Not at early
      simp only [Bool.not_eq_false, Option.any_eq_true, Bool.and_eq_true, Bool.not_eq_true',
        decide_eq_true_eq] at early
      obtain ⟨⟨v, found, unlocked, unpinned⟩, time, hdone, hearly⟩ := early
      have := inv.waiting (htimer ▸ List.mem_cons_self) found (Prod.ext unlocked unpinned) hdone
      omega
  | _ => rfl

variable {s' : LockSystem ι π} {a : LockAction ι π}

/-- The vault stays open without a pin, or is new, and the step completes nothing on it. -/
def LockSystem.Unused (x : Externals) (s : LockSystem ι π) (a : LockAction ι π) (h : Handle) :
    Prop :=
  (∀ pinned, s.completes x a ≠ some (h, pinned)) ∧
    (s.daemon.vaults[h]? = none ∨ ∃ v, s.daemon.vaults[h]? = some v ∧ v.standing = (false, false))

theorem LockSystem.unused_of_call {hd : Handle} {w w' : World} {v' : Vault}
    (world : s.daemon.world hd = some w) {done pinned : Bool}
    (completes : s.completes x a = if done then some (hd, pinned) else none)
    (found' : (s.daemon.setWorld hd w').vaults[h]? = some v')
    (standing' : v'.standing = (false, false))
    (called : h = hd → v' = w'.vault → s.completes x a = some (h, false) ∨ s.Unused x a h) :
    s.completes x a = some (h, false) ∨ s.Unused x a h := by
  rw [Daemon.setWorld, getElem?_set_eq_some (Daemon.world_some world).1] at found'
  rcases found' with ⟨hh, hv⟩ | ⟨hne, hold⟩
  · exact called hh hv
  · refine .inr ⟨fun pinned' mine => hne ?_, .inr ⟨v', hold, standing'⟩⟩
    cases (Option.ite_none_right_eq_some.mp (completes.symm.trans mine)).2
    rfl

variable [DecidableEq ι] [DecidableEq π]

section

variable (step : LockStep x toml cfg idle s a s')
include step

theorem LockStep.clock :
    s.now ≤ s'.now ∧ (s'.lastActivity = s.lastActivity ∨ s'.lastActivity = s.now) := by
  cases step with
  | touch | read | touchControl | touchUnlock => exact ⟨Nat.le_refl _, .inr rfl⟩
  | pass d => exact ⟨Nat.le_add_right _ _, .inl rfl⟩
  | _ => exact ⟨Nat.le_refl _, .inl rfl⟩

theorem LockStep.timer (awake : a ≠ .wake) (hmem : h ∈ s'.timer) : h ∈ s.timer := by
  cases step with
  | wake => exact absurd rfl awake
  | idleLock next => exact next ▸ List.mem_cons_of_mem _ hmem
  | _ => exact hmem

/-- **A vault that is open without a pin after a step** was so before, or is new, or the step has
completed an unlock or a write that left it so. -/
theorem LockStep.exposed {v' : Vault} (found' : s'.daemon.vaults[h]? = some v')
    (standing' : v'.standing = (false, false)) :
    s.completes x a = some (h, false) ∨ s.Unused x a h := by
  have change := step.vaults
  cases step with
  | @request t m hd w r w' task world call =>
    have completes : s.completes x (.request t m) =
        if m.writes && r.isOk then some (hd, w.vault.pinned) else none := by
      simp [LockSystem.completes, task, world, call]
    refine unused_of_call world completes found' standing' ?_
    rintro rfl rfl
    rcases m.standing call with hsame | hlocked
    · rw [hsame] at standing'
      have unpinned : w.vault.pinned = false := (Prod.mk.inj standing').2
      rw [completes, unpinned]
      split
      · exact .inl rfl
      · refine .inr ⟨?_, .inr ⟨w.vault, (Daemon.world_some world).1, standing'⟩⟩
        intro pinned hcompletes
        rw [completes] at hcompletes
        split at hcompletes
        next hno hyes => exact hno hyes
        · cases hcompletes
    · rw [hlocked] at standing'
      cases standing'
  | @unlockWithKey t env hd key pin w r w' phase world call =>
    have completes : s.completes x (.unlockWithKey t env) =
        if r.isOk then some (hd, pin) else none := by
      simp [LockSystem.completes, phase, world, call]
    refine unused_of_call world completes found' standing' ?_
    rintro rfl rfl
    rcases unlockPinned_standing call with ⟨hfails, rfl⟩ | ⟨rfl, hopen⟩
    · refine .inr ⟨?_, .inr ⟨_, (Daemon.world_some world).1, standing'⟩⟩
      rw [completes, hfails]
      nofun
    · rw [hopen] at standing'
      obtain rfl : pin = false := (Prod.mk.inj standing').2
      exact .inl completes
  | @decrypt p env id hd attempt key w r w' phase world call =>
    have completes : s.completes x (.decrypt p env) =
        if r.isOk then some (hd, w.vault.pinned) else none := by
      simp [LockSystem.completes, phase, world, call]
    refine unused_of_call world completes found' standing' ?_
    rintro rfl rfl
    rcases unlockWithKey_standing call with ⟨hfails, rfl⟩ | ⟨rfl, hopen⟩
    · refine .inr ⟨?_, .inr ⟨_, (Daemon.world_some world).1, standing'⟩⟩
      rw [completes, hfails]
      nofun
    · rw [hopen] at standing'
      have unpinned : w.vault.pinned = false := (Prod.mk.inj standing').2
      rw [unpinned] at completes
      exact .inl completes
  | _ =>
    refine .inr ⟨nofun, ?_⟩
    rcases change.each h v' found' with ⟨v, found, move⟩ | ⟨absent, -⟩
    · refine .inr ⟨v, found, ?_⟩
      cases move with
      | same standing => exact standing.symm.trans standing'
      | locks standing =>
        rw [standing] at standing'
        cases standing'
      | control action | prompt action => cases action
    · exact .inl absent

end

theorem IdleInv.step (inv : IdleInv idle s log) (ok : locksInTime x idle (s, log) a = true)
    (moved : s.step x toml cfg idle a = some s') :
    IdleInv idle s' (IdleLog.record x idle s a s' log) := by
  have step := step_inv moved
  obtain ⟨hnow, hactivity⟩ := step.clock
  refine ⟨?_, ?_, ?_, ?_⟩
  · have := inv.recorded
    omega
  · intro h absent'
    have absent := step.vaults.absent absent'
    rw [IdleLog.record_done]
    · exact inv.absent absent
    · intro pinned completes
      obtain ⟨w, world⟩ := completes_found completes
      rw [(Daemon.world_some world).1] at absent
      cases absent
  · intro h v' time hmem found' standing' hdone
    by_cases hwake : a = .wake
    · subst hwake
      cases step with
      | wake rest quiet =>
        have hold : log.done h = some time := hdone
        have hrecorded := inv.recorded
        have honce := List.all_eq_true.mp ok h hmem
        simp only [hold, Option.all_some, decide_eq_true_eq] at honce
        omega
    · have hbefore := step.timer hwake hmem
      have unexposed : s.completes x a ≠ some (h, false) := by
        intro completes
        cases a with
        | wake => exact hwake rfl
        | _ => simp [locksInTime, completes, hbefore] at ok
      rcases step.exposed found' standing' with hexposed | ⟨other, before⟩
      · exact absurd hexposed unexposed
      · rw [IdleLog.record_done other] at hdone
        rcases before with absent | ⟨v, found, standing⟩
        · rw [inv.absent absent] at hdone
          cases hdone
        · have := inv.waiting hbefore found standing hdone
          omega
  · simp [IdleLog.record, inv.never, inv.inTime a]

/-- **The idle timer never locks a vault that was in use less than the idle time ago**, in every run
in which no unlock or write is completed on a vault the timer has yet to look at, and every recent
one has been recorded when the timer starts a round. -/
theorem idle_lock_in_time (d : Daemon ι)
    (run : Reach (logged (LockSystem.step x toml cfg idle) (IdleLog.record x idle))
      (fun p a => locksInTime x idle p a = true) (LockSystem.start π d, .empty) (s, log)) :
    log.early = false := by
  exact (run.logged_invariant (IdleInv idle) (.start d) fun inv ok step => inv.step ok step).never

section

open Reference

/-- The timer of a daemon with the idle time 10, with its log. -/
abbrev idleStep : LockSystem (Fin 2) (Fin 1) × IdleLog → LockAction (Fin 2) (Fin 1) →
    Option (LockSystem (Fin 2) (Fin 1) × IdleLog) :=
  logged lockStep (IdleLog.record externals 10)

/-- An unlock is recorded, and the timer locks the vault when it has been idle for long enough. -/
theorem idle_lock_in_time_unlocked : ∃ d s log, emptyBoot 2 = some d ∧
      Reach idleStep (fun p a => locksInTime externals 10 p a = true) (LockSystem.start (Fin 1) d, .empty) (s, log) ∧
      log.done 0 = some 3 ∧ s.now = 20 ∧ (s.daemon.vaults[0]?.any (·.isLocked)) = true ∧
      log.early = false := by
  refine Reach.exists_run_pair (lockedSteps 0 1 "Login" "login" ++ [LockAction.pass 3] ++
      controlUnlock 0 false ++ [LockAction.pass 17, .wake, .idleLock])
    (fun s log => log.done 0 = some 3 ∧ s.now = 20 ∧ (s.daemon.vaults[0]?.any (·.isLocked)) = true)
    (by decide +kernel) fun _ run passed => ?_
  exact ⟨passed.1, passed.2.1, passed.2.2, idle_lock_in_time _ run⟩

/-- **Without the discipline** the timer locks a vault at the moment it was unlocked, when the
unlock comes after the timer has read the clock, and at the moment an item's label was set, which is
not recorded as activity. -/
theorem idle_lock_too_early : ∃ d, emptyBoot 2 = some d ∧
      (∃ s log, Reach idleStep (fun _ _ => True) (LockSystem.start (Fin 1) d, .empty) (s, log) ∧
        (s.controls 0 matches .done) = true ∧ log.done 0 = some s.now ∧ log.early = true) ∧
      ∃ s log, Reach idleStep (fun _ _ => True) (LockSystem.start (Fin 1) d, .empty) (s, log) ∧
        (s.controls 0 matches .idle) = true ∧ log.done 0 = some s.now ∧ log.early = true := by
  obtain ⟨d, ⟨s, log⟩, boot, unlocked, test⟩ := Reach.exists_of_exec_from idleStep (fun _ _ => True)
    (emptyBoot 2) (fun d => (start (Fin 1) d, .empty))
    (lockedSteps 0 1 "Login" "login" ++ [LockAction.pass 20, .wake] ++ controlUnlock 0 false ++ [LockAction.idleLock])
    (fun p => decide ((p.1.controls 0 matches .done) = true ∧ p.2.done 0 = some p.1.now ∧
      p.2.early = true)) (by decide +kernel)
  obtain ⟨d', ⟨s', log'⟩, boot', written, test'⟩ := Reach.exists_of_exec_from idleStep
    (fun _ _ => True) (emptyBoot 2) (fun d => (start (Fin 1) d, .empty))
    ((createSteps 0 "Login" none).map LockAction.daemon ++
      [LockAction.daemon (.insert 0), .daemon (.task 1 (.resolve "login")),
        .request 1 (.createItem saveEnv 1 "a" "item" ∅ [1] "text/plain" false), .touch 1, .pass 20,
        .request 1 (.setItemLabel saveEnv 2 "a" "renamed"), .wake, .idleLock])
    (fun p => decide ((p.1.controls 0 matches .idle) = true ∧ p.2.done 0 = some p.1.now ∧
      p.2.early = true)) (by decide +kernel)
  obtain rfl : d = d' := Option.some.inj (boot.symm.trans boot')
  exact ⟨d, boot, ⟨s, log, unlocked, of_decide_eq_true test⟩, ⟨s', log', written, of_decide_eq_true test'⟩⟩

end

end SecretManager
