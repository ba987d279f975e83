import SecretManager.Dbus.LockSystem
import SecretManager.Laws.Dbus.Daemon

/-!
# What one step of the lock system can do

`LockStep` lists every way a step can end. What most results need of a step is whether a vault is
locked and whether it is pinned before and after: its standing. `step_vault` says that a standing
stays, that the vault is locked, or that one of the two kinds of unlock has opened it.
-/

namespace SecretManager

variable {ι π : Type} {x : Externals} {toml : Toml} {cfg : Config} {idle : Nat}

/-! ## Standings -/

/-- Whether the vault is locked, and whether it is pinned. -/
def Vault.standing (v : Vault) : Bool × Bool := (v.isLocked, v.pinned)

variable {v v' : Vault}

theorem Edit.standing (edit : Edit v v') : v'.standing = v.standing := by
  cases edit with
  | items items' state | rekey newKey salt indexSalt state valid =>
    simp [Vault.standing, Vault.isLocked, state]
  | label label state => rfl

theorem Saved.standing (saved : Saved x v v') : v'.standing = v.standing := by
  cases saved
  rfl

variable {w w' : World}

theorem Mutates.standing {α : Type} {r : Except VaultError α} (h : Mutates x w r w') :
    w'.vault.standing = w.vault.standing := by
  cases h with
  | refused e => rfl
  | kept a => rfl
  | saved a edit saved holds => exact saved.standing.trans edit.standing

theorem Settles.standing (h : Settles x w w') : w'.vault.standing = w.vault.standing := by
  cases h with
  | matching => rfl
  | rewritten differs saved holds => exact saved.standing
  | stale => rfl

variable {r : Except VaultError Unit}

theorem Method.standing (m : Method) (h : m.op.apply x w = (r, w')) :
    w'.vault.standing = w.vault.standing ∨ w'.vault.standing = (true, false) := by
  generalize made : m.op = op at h
  cases apply_effect h with
  | mutated m => exact .inl m.standing
  | rotated | locked => exact .inr rfl
  | unlocked | policy | pinned => cases m <;> cases made

theorem unlockWithKey_standing {env : SaveEnv} {key : Key}
    (h : w.unlockWithKey x env key = (r, w')) :
    (r.isOk = false ∧ w' = w) ∨ (r = .ok () ∧ w'.vault.standing = (false, w.vault.pinned)) := by
  rcases unlockWithKey_cases h with ⟨e, rfl, rfl⟩ | ⟨rfl, rfl, items, state⟩ |
    ⟨rfl, locked, items, contents, settles⟩
  · exact .inl ⟨rfl, rfl⟩
  · exact .inr ⟨rfl, by simp [Vault.standing, Vault.isLocked, state]⟩
  · exact .inr ⟨rfl, settles.standing⟩

theorem unlockPinned_standing {env : SaveEnv} {key : Key} {pin : Bool}
    (h : w.unlockPinned x env key pin = (r, w')) :
    (r.isOk = false ∧ w' = w) ∨ (r = .ok () ∧ w'.vault.standing = (false, pin)) := by
  unfold World.unlockPinned at h
  split at h
  next w₁ hunlock =>
    cases h
    rcases unlockWithKey_standing hunlock with ⟨hfails, -⟩ | ⟨-, hstanding⟩
    · cases hfails
    · exact .inr ⟨rfl, Prod.ext (Prod.mk.inj hstanding).1 rfl⟩
  next e w₁ hunlock =>
    cases h
    rcases unlockWithKey_standing hunlock with ⟨-, rfl⟩ | ⟨hok, -⟩
    · exact .inl ⟨rfl, rfl⟩
    · cases hok

theorem Vault.lock_standing (v : Vault) : v.lock.standing = (true, false) := rfl

theorem Vault.lockOpen_standing (v : Vault) :
    v.lockOpen.standing = v.standing ∨ v.lockOpen.standing = (true, false) := by
  unfold Vault.lockOpen
  split
  · exact .inl rfl
  · exact .inr rfl

theorem Vault.lockOpen_isLocked (v : Vault) : v.lockOpen.isLocked = true := by
  unfold Vault.lockOpen
  split
  next locked => exact locked
  · rfl

theorem Vault.lockIdle_standing (v : Vault) :
    v.lockIdle.standing = v.standing ∨ v.lockIdle.standing = (true, false) := by
  unfold Vault.lockIdle
  split
  · exact .inl rfl
  · exact v.lockOpen_standing

/-! ## Vaults of the daemon -/

/-- No vault is lost; each vault of the second list is one of the first, changed in this way, or a
new one that is not pinned. -/
structure VaultsChange (Changes : Handle → Vault → Vault → Prop) (vaults vaults' : List Vault) :
    Prop where
  length : vaults.length ≤ vaults'.length
  each : ∀ (h : Handle) (v' : Vault), vaults'[h]? = some v' →
    (∃ v, vaults[h]? = some v ∧ Changes h v v') ∨ (vaults[h]? = none ∧ v'.pinned = false)

namespace VaultsChange

variable {Changes Changes' : Handle → Vault → Vault → Prop} {vaults vaults' : List Vault}

theorem mono (change : VaultsChange Changes vaults vaults')
    (weaker : ∀ h v v', Changes h v v' → Changes' h v v') :
    VaultsChange Changes' vaults vaults' := by
  refine ⟨change.length, fun h v' hv' => ?_⟩
  rcases change.each h v' hv' with ⟨v, hv, changes⟩ | hnew
  · exact .inl ⟨v, hv, weaker h v v' changes⟩
  · exact .inr hnew

theorem absent (change : VaultsChange Changes vaults vaults') {h : Handle}
    (none' : vaults'[h]? = none) : vaults[h]? = none := by
  have := change.length
  rw [List.getElem?_eq_none_iff] at none' ⊢
  omega

variable (same : ∀ h v, Changes h v v)
include same

theorem refl : VaultsChange Changes vaults vaults :=
  ⟨Nat.le_refl _, fun h v' hv' => .inl ⟨v', hv', same h v'⟩⟩

theorem concat (unpinned : v.pinned = false) : VaultsChange Changes vaults (vaults ++ [v]) := by
  refine ⟨by simp, fun h v' hv' => ?_⟩
  rcases getElem?_concat_eq_some.mp hv' with hold | ⟨rfl, rfl⟩
  · exact .inl ⟨v', hold, same h v'⟩
  · exact .inr ⟨List.getElem?_eq_none (Nat.le_refl _), unpinned⟩

theorem set {h : Handle} (found : vaults[h]? = some v) (changes : Changes h v v') :
    VaultsChange Changes vaults (vaults.set h v') := by
  refine ⟨by simp, fun h' v'' hv'' => ?_⟩
  rcases (getElem?_set_eq_some found).mp hv'' with ⟨rfl, rfl⟩ | ⟨-, hold⟩
  · exact .inl ⟨v, found, changes⟩
  · exact .inl ⟨v'', hold, same h' v''⟩

theorem modify (h : Handle) (f : Vault → Vault) (changes : ∀ v, Changes h v (f v)) :
    VaultsChange Changes vaults (vaults.modify h f) := by
  refine ⟨by simp, fun h' v' hv' => ?_⟩
  rw [List.getElem?_modify] at hv'
  obtain ⟨v, hv, heq⟩ := Option.map_eq_some_iff.mp hv'
  refine .inl ⟨v, hv, ?_⟩
  by_cases hh : h = h'
  · subst hh
    rw [if_pos rfl] at heq
    subst heq
    exact changes v
  · rw [if_neg hh] at heq
    subst heq
    exact same h' v

theorem modifyFound {s : Daemon ι} (found : Option Handle) (f : Vault → Vault)
    (changes : ∀ h v, Changes h v (f v)) :
    VaultsChange Changes s.vaults (s.modifyFound found f).vaults := by
  cases found with
  | none => exact refl same
  | some h => exact modify same h f (changes h)

end VaultsChange

theorem build_unpinned {env : BuildEnv} {path : VaultPath} {label : String} {password : Bytes}
    {kdf : KdfParams} (h : Vault.build x env path label password kdf = .ok v) :
    v.pinned = false := by
  unfold Vault.build at h
  repeat' split at h
  all_goals cases h
  rfl

theorem create_unpinned {env : CreateEnv} {path : VaultPath} {label : String} {password : Bytes}
    {kdf : KdfParams} {before after : Option Bytes}
    (h : Vault.create x env path label password kdf before = (.ok v, after)) :
    v.pinned = false := by
  unfold Vault.create at h
  split at h
  · cases (Prod.mk.inj h).1
  split at h
  · cases (Prod.mk.inj h).1
  next v₀ hbuild =>
  split at h
  · cases (Prod.mk.inj h).1
  next w hsave =>
  obtain ⟨hv, -⟩ := Prod.mk.inj h
  cases hv
  rcases saveWith_cases (publishNew_sound env.publish path) hsave with
    ⟨e, he, -⟩ | ⟨-, saved, -⟩
  · cases he
  · exact (Prod.mk.inj saved.standing).2.trans (build_unpinned hbuild)

variable [DecidableEq ι]

theorem Daemon.step_vaults {s s' : Daemon ι} {a : Action ι} (elsewhere : a.elsewhere = true)
    (h : s.step x toml cfg a = some s') :
    VaultsChange (fun _ v v' => v'.standing = v.standing) s.vaults s'.vaults := by
  have same : ∀ (h : Handle) (v : Vault), v.standing = v.standing := fun _ _ => rfl
  cases Daemon.step_inv h with
  | operate task world => cases elsewhere
  | unlinkFailed task world unlocked failed | unlink task world unlocked present =>
    exact VaultsChange.set same (Daemon.world_some world).1 rfl
  | job task made | orphan task made => exact VaultsChange.concat same (create_unpinned made)
  | insert task vault => exact VaultsChange.set same vault rfl
  | @entry name loaded scan scanning =>
    rcases scanEntry_cases x cfg loaded name s.dir[name]? scan s.vaults with
      ⟨-, hvaults⟩ | ⟨id, v, -, hopen, -, hvaults⟩
    · dsimp only
      rw [hvaults]
      exact VaultsChange.refl same
    · dsimp only
      rw [hvaults]
      refine VaultsChange.concat same ?_
      obtain ⟨bytes, vf, -, -, -, rfl⟩ := open_ok_iff.mp hopen
      rfl
  | _ => exact VaultsChange.refl same

/-! ## Steps -/

/-- How one step changes one vault's standing. -/
inductive VaultMove {π : Type} (s : LockSystem ι π) (a : LockAction ι π) (h : Handle)
    (v v' : Vault) : Prop
  | same (standing : v'.standing = v.standing)
  | locks (standing : v'.standing = (true, false))
  | control {t : ι} {env : SaveEnv} {key : Key} {pin : Bool} (action : a = .unlockWithKey t env)
      (phase : s.controls t = .resolved h key pin) (standing : v'.standing = (false, pin))
  | prompt {p : π} {env : SaveEnv} {id : String} {attempt : Nat} {key : Key}
      (action : a = .decrypt p env) (phase : (s.prompts p).task.phase = .opening id h attempt key)
      (standing : v'.standing = (false, v.pinned))

section

variable [DecidableEq π]

/-- Every way one step can end. -/
inductive LockStep (x : Externals) (toml : Toml) (cfg : Config) (idle : Nat) (s : LockSystem ι π) :
    LockAction ι π → LockSystem ι π → Prop
  | daemon {a daemon} (elsewhere : a.elsewhere = true)
      (moved : s.daemon.step x toml cfg a = some daemon) :
      LockStep x toml cfg idle s (.daemon a) { s with daemon }
  | request {t m h w r w'} (task : s.daemon.tasks t = .request h) (world : s.daemon.world h = some w)
      (call : m.op.apply x w = (r, w')) :
      LockStep x toml cfg idle s (.request t m)
        { s with
          daemon := s.daemon.setWorld h w'
          owing := if m.touches && r.isOk then Function.update s.owing t true else s.owing }
  | touch {t} (owes : s.owing t = true) :
      LockStep x toml cfg idle s (.touch t)
        { s with lastActivity := s.now, owing := Function.update s.owing t false }
  | read : LockStep x toml cfg idle s .read { s with lastActivity := s.now }
  | resolve {t collection key pin} (phase : s.controls t = .idle) :
      LockStep x toml cfg idle s (.resolve t collection key pin)
        { s with
          controls := Function.update s.controls t
            (.afterLookup key pin s.daemon.service.collections[collection]?) }
  | unlockWithKey {t env h key pin w r w'} (phase : s.controls t = .resolved h key pin)
      (world : s.daemon.world h = some w) (call : w.unlockPinned x env key pin = (r, w')) :
      LockStep x toml cfg idle s (.unlockWithKey t env)
        { s with
          daemon := s.daemon.setWorld h w'
          controls := Function.update s.controls t (if r.isOk then .unlocked else .done) }
  | touchControl {t} (phase : s.controls t = .unlocked) :
      LockStep x toml cfg idle s (.touchControl t)
        { s with lastActivity := s.now, controls := Function.update s.controls t .done }
  | gate {p a prompt}
      (moved : (s.prompts p).gateStep s.daemon.service.collections a = some prompt) :
      LockStep x toml cfg idle s (.gate p a) (s.setPrompt p prompt)
  | unlock {p a task gate}
      (moved : (s.prompts p).task.advance x s.daemon.service s.daemon.vaults (s.prompts p).gate a = some (task, gate)) :
      LockStep x toml cfg idle s (.unlock p a) (s.setPrompt p { s.prompts p with task, gate })
  | record {p id h attempt key} (phase : (s.prompts p).task.phase = .recording id h attempt key) :
      LockStep x toml cfg idle s (.record p) (s.setPrompt p { s.prompts p with
        task := (s.prompts p).task.goto (.opening id h attempt key)
        record := (s.prompts p).record ++ [id] })
  | decrypt {p env id h attempt key w r w'}
      (phase : (s.prompts p).task.phase = .opening id h attempt key)
      (world : s.daemon.world h = some w) (call : w.unlockWithKey x env key = (r, w')) :
      LockStep x toml cfg idle s (.decrypt p env)
        { s.setPrompt p { s.prompts p with task := (s.prompts p).task.afterOpen id h attempt r } with
          daemon := s.daemon.setWorld h w' }
  | drop {p id h attempt e} (phase : (s.prompts p).task.phase = .dropping id h attempt e) :
      LockStep x toml cfg idle s (.drop p) (s.setPrompt p { s.prompts p with
        task := (s.prompts p).task.goto (.afterRefusal id h attempt e)
        record := dropLast id (s.prompts p).record })
  | touchUnlock {p id} (phase : (s.prompts p).task.phase = .touching id) :
      LockStep x toml cfg idle s (.touchUnlock p)
        { s.setPrompt p { s.prompts p with task := (s.prompts p).task.goto (.notifying id) } with
          lastActivity := s.now }
  | collect {p} (phase : (s.prompts p).task.phase = .collecting) :
      LockStep x toml cfg idle s (.collect p) (s.setPrompt p { s.prompts p with
        task := (s.prompts p).task.goto
          (.relocking ((s.prompts p).task.mine.map fun id => s.daemon.service.collections[id]?))
        record := [] })
  | relocked {p} (phase : (s.prompts p).task.phase = .relocking []) :
      LockStep x toml cfg idle s (.relock p)
        (s.setPrompt p { s.prompts p with task := (s.prompts p).task.goto (.returned true) })
  | relock {p found todo} (phase : (s.prompts p).task.phase = .relocking (found :: todo)) :
      LockStep x toml cfg idle s (.relock p)
        { s.setPrompt p { s.prompts p with task := (s.prompts p).task.goto (.relocking todo) } with
          daemon := s.daemon.modifyFound found Vault.lock }
  | finish {p dismissed} (phase : (s.prompts p).task.phase = .returned dismissed) :
      LockStep x toml cfg idle s (.finish p) (s.setPrompt p { s.prompts p with
        task := (s.prompts p).task.goto .finished, gate := (s.prompts p).gate.finish, record := [] })
  | rewatch {p found relocks} (todo : (s.prompts p).relocks = found :: relocks) :
      LockStep x toml cfg idle s (.rewatch p)
        { s.setPrompt p { s.prompts p with relocks } with
          daemon := s.daemon.modifyFound found Vault.lockOpen }
  | pass (d : Nat) : LockStep x toml cfg idle s (.pass d) { s with now := s.now + d }
  | wake (rest : s.timer = []) (quiet : idle ≤ s.now - s.lastActivity) :
      LockStep x toml cfg idle s .wake { s with timer := s.daemon.service.collections.values }
  | idleLock {h timer} (next : s.timer = h :: timer) :
      LockStep x toml cfg idle s .idleLock
        { s with timer, daemon := s.daemon.modifyVault h Vault.lockIdle }

variable {s s' : LockSystem ι π} {a : LockAction ι π}

/-- As for the daemon: each step is one of the listed changes. -/
theorem LockSystem.step_inv (h : s.step x toml cfg idle a = some s') :
    LockStep x toml cfg idle s a s' := by
  cases a with (simp only [LockSystem.step] at h)
  | daemon a =>
    split at h
    next elsewhere =>
      obtain ⟨daemon, moved, rfl⟩ := Option.map_eq_some_iff.mp h
      exact .daemon elsewhere moved
    · cases h
  | request t m =>
    split at h
    next task =>
      obtain ⟨w, world, rfl⟩ := Option.map_eq_some_iff.mp h
      exact .request task world rfl
    · cases h
  | touch t =>
    split at h
    next owes =>
      cases h
      exact .touch owes
    · cases h
  | read =>
    cases h
    exact .read
  | resolve t collection key pin =>
    split at h
    next phase =>
      cases h
      exact .resolve phase
    · cases h
  | unlockWithKey t env =>
    split at h
    next phase =>
      obtain ⟨w, world, rfl⟩ := Option.map_eq_some_iff.mp h
      exact .unlockWithKey phase world rfl
    · cases h
  | touchControl t =>
    split at h
    next phase =>
      cases h
      exact .touchControl phase
    · cases h
  | gate p a =>
    obtain ⟨prompt, moved, rfl⟩ := Option.map_eq_some_iff.mp h
    exact .gate moved
  | unlock p a =>
    obtain ⟨⟨task, gate⟩, moved, rfl⟩ := Option.map_eq_some_iff.mp h
    exact .unlock moved
  | record p =>
    split at h
    next phase =>
      cases h
      exact .record phase
    · cases h
  | decrypt p env =>
    split at h
    next phase =>
      obtain ⟨w, world, rfl⟩ := Option.map_eq_some_iff.mp h
      exact .decrypt phase world rfl
    · cases h
  | drop p =>
    split at h
    next phase =>
      cases h
      exact .drop phase
    · cases h
  | touchUnlock p =>
    split at h
    next phase =>
      cases h
      exact .touchUnlock phase
    · cases h
  | collect p =>
    split at h
    next phase =>
      cases h
      exact .collect phase
    · cases h
  | relock p =>
    split at h
    next phase =>
      cases h
      exact .relocked phase
    next phase =>
      cases h
      exact .relock phase
    · cases h
  | finish p =>
    split at h
    next phase =>
      cases h
      exact .finish phase
    · cases h
  | rewatch p =>
    split at h
    · cases h
    next todo =>
      cases h
      exact .rewatch todo
  | pass d =>
    cases h
    exact .pass d
  | wake =>
    split at h
    next ready =>
      cases h
      rw [Bool.and_eq_true, List.isEmpty_iff, decide_eq_true_iff] at ready
      exact .wake ready.1 ready.2
    · cases h
  | idleLock =>
    split at h
    · cases h
    next next =>
      cases h
      exact .idleLock next

theorem LockStep.vaults (step : LockStep x toml cfg idle s a s') :
    VaultsChange (VaultMove s a) s.daemon.vaults s'.daemon.vaults := by
  have same : ∀ h v, VaultMove s a h v v := fun _ _ => .same rfl
  cases step with
  | daemon elsewhere moved =>
    exact (Daemon.step_vaults elsewhere moved).mono fun _ _ _ standing => .same standing
  | @request t m h w r w' task world call =>
    refine VaultsChange.set same (Daemon.world_some world).1 ?_
    rcases m.standing call with hsame | hlocked
    · exact .same hsame
    · exact .locks hlocked
  | unlockWithKey phase world call =>
    refine VaultsChange.set same (Daemon.world_some world).1 ?_
    rcases unlockPinned_standing call with ⟨-, rfl⟩ | ⟨-, standing⟩
    · exact .same rfl
    · exact .control rfl phase standing
  | decrypt phase world call =>
    refine VaultsChange.set same (Daemon.world_some world).1 ?_
    rcases unlockWithKey_standing call with ⟨-, rfl⟩ | ⟨-, standing⟩
    · exact .same rfl
    · exact .prompt rfl phase standing
  | @relock p found todo phase =>
    exact VaultsChange.modifyFound same found Vault.lock fun _ v => .locks v.lock_standing
  | @rewatch p found relocks todo =>
    refine VaultsChange.modifyFound same found Vault.lockOpen fun _ v => ?_
    rcases v.lockOpen_standing with hsame | hlocked
    · exact .same hsame
    · exact .locks hlocked
  | @idleLock h timer next =>
    refine VaultsChange.modify same h Vault.lockIdle fun v => ?_
    rcases v.lockIdle_standing with hsame | hlocked
    · exact .same hsame
    · exact .locks hlocked
  | _ => exact VaultsChange.refl same

end

end SecretManager
