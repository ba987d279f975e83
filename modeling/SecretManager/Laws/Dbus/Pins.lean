import SecretManager.Laws.Dbus.LockSystem
import SecretManager.Dbus.Reference

/-!
# The pin follows the last unlock

A PAM login unlocks a vault and pins it, so that the idle timer leaves it alone; an unlock by the
user is to take the pin away, and so is a lock. The control socket sets the pin under the guard it
unlocks with. An Unlock prompt does not touch it. That is enough where the prompt finds the vault
locked, for a locked vault has no pin. Where a PAM login has opened and pinned the vault while the
dialog was up, the prompt's key is merely checked, the prompt succeeds, and the pin stays.
-/

namespace SecretManager

open LockSystem

variable {ι π : Type} {h : Handle} {s : LockSystem ι π} {a : LockAction ι π}

variable {x : Externals} {toml : Toml} {cfg : Config} {idle : Nat}

/-! ## What is recorded -/

/-- The vault that a successful unlock request was for, and whether it asked for a pin. -/
def LockSystem.unlockRequest (before : LockSystem ι π) (a : LockAction ι π)
    (after : LockSystem ι π) : Option (Handle × Bool) :=
  match a with
  | .unlockWithKey t _ =>
    match before.controls t, after.controls t with
    | .resolved h _ pin, .unlocked => some (h, pin)
    | _, _ => none
  | .decrypt p _ =>
    match (before.prompts p).task.phase, (after.prompts p).task.phase with
    | .opening _ h _ _, .touching _ => some (h, false)
    | _, _ => none
  | _ => none

/-- For each vault, what the last successful unlock request since its last lock asked for. -/
abbrev PinLog := Handle → Option Bool

def PinLog.record (before : LockSystem ι π) (a : LockAction ι π) (after : LockSystem ι π)
    (log : PinLog) : PinLog := fun h =>
  if after.daemon.vaults[h]?.all (·.isLocked) then none
  else
    match before.unlockRequest a after with
    | some (h', pin) => if h' = h then some pin else log h
    | none => log h

/-! ## The discipline -/

/-- The vault is open under this key. -/
def Vault.holdsKey (v : Vault) (key : Key) : Bool :=
  match v.state with
  | .unlocked current _ => decide (current = key)
  | .locked => false

/-- No prompt gives a pinned vault the key it is open under. -/
def opensUnpinned (p : LockSystem ι π × PinLog) : LockAction ι π → Bool
  | .decrypt t _ =>
    match (p.1.prompts t).task.phase with
    | .opening _ h _ key => !p.1.daemon.vaults[h]?.any fun v => v.pinned && v.holdsKey key
    | _ => true
  | _ => true

/-! ## The invariant -/

/-- **The pin follows the requests**: a vault is pinned exactly while it is open and the last unlock
asked for a pin. -/
structure PinInv (s : LockSystem ι π) (log : PinLog) : Prop where
  pinned : ∀ {h v}, s.daemon.vaults[h]? = some v → (v.pinned = true ↔ v.isLocked = false ∧ log h = some true)
  absent : ∀ {h}, s.daemon.vaults[h]? = none → log h = none

variable {log : PinLog}

theorem PinInv.unpinned (inv : PinInv s log) {v : Vault} (found : s.daemon.vaults[h]? = some v)
    (locked : v.isLocked = true) : v.pinned = false := by
  by_contra pinned
  have := ((inv.pinned found).mp (by simpa using pinned)).1
  rw [locked] at this
  cases this

section

variable {before after : LockSystem ι π} {v : Vault}

theorem PinLog.record_absent (absent : after.daemon.vaults[h]? = none) :
    PinLog.record before a after log h = none := by
  simp [PinLog.record, absent]

theorem PinLog.record_asked {pin : Bool} (found : after.daemon.vaults[h]? = some v)
    (unlocked : v.isLocked = false) (asked : before.unlockRequest a after = some (h, pin)) :
    PinLog.record before a after log h = some pin := by
  simp [PinLog.record, found, unlocked, asked]

theorem PinLog.record_other (found : after.daemon.vaults[h]? = some v)
    (unlocked : v.isLocked = false) (other : ∀ pin, before.unlockRequest a after ≠ some (h, pin)) :
    PinLog.record before a after log h = log h := by
  simp only [PinLog.record, found, Option.all_some, unlocked, Bool.false_eq_true, if_false]
  split
  next h' pin asked =>
    rw [if_neg]
    rintro rfl
    exact other pin asked
  · rfl

end

/-- A vault whose standing stays, or that is locked, keeps the pin and the log together, unless an
unlock request for it succeeded. -/
theorem PinInv.vault {s' : LockSystem ι π} (inv : PinInv s log) {v v' : Vault}
    (found : s.daemon.vaults[h]? = some v) (found' : s'.daemon.vaults[h]? = some v')
    (standing : v'.standing = v.standing ∨ v'.standing = (true, false))
    (other : ∀ pin, s.unlockRequest a s' ≠ some (h, pin)) :
    v'.pinned = true ↔ v'.isLocked = false ∧ PinLog.record s a s' log h = some true := by
  rcases standing with hsame | hlocked
  · obtain ⟨hl, hp⟩ := Prod.mk.inj hsame
    cases hlock : v'.isLocked with
    | true =>
      rw [hp, inv.unpinned found (hl.symm.trans hlock)]
      simp
    | false =>
      rw [PinLog.record_other found' hlock other, hp, inv.pinned found, ← hl, hlock]
  · obtain ⟨hl, hp⟩ := Prod.mk.inj hlocked
    rw [hl, hp]
    simp

theorem PinInv.fresh {s' : LockSystem ι π} (inv : PinInv s log) {v' : Vault}
    (absent : s.daemon.vaults[h]? = none) (found' : s'.daemon.vaults[h]? = some v')
    (unpinned : v'.pinned = false) (other : ∀ pin, s.unlockRequest a s' ≠ some (h, pin)) :
    v'.pinned = true ↔ v'.isLocked = false ∧ PinLog.record s a s' log h = some true := by
  rw [unpinned]
  refine ⟨nofun, ?_⟩
  rintro ⟨unlocked, hlog⟩
  rw [PinLog.record_other found' unlocked other, inv.absent absent] at hlog
  cases hlog

variable {s' : LockSystem ι π}

theorem PinInv.quiet (inv : PinInv s log) (none' : s.unlockRequest a s' = none)
    (change : VaultsChange (fun _ v v' => v'.standing = v.standing ∨ v'.standing = (true, false))
      s.daemon.vaults s'.daemon.vaults) : PinInv s' (PinLog.record s a s' log) := by
  have other : ∀ h pin, s.unlockRequest a s' ≠ some (h, pin) := by
    intro h pin asked
    rw [none'] at asked
    cases asked
  refine ⟨?_, fun absent => PinLog.record_absent absent⟩
  intro h v' found'
  rcases change.each h v' found' with ⟨v, found, standing⟩ | ⟨absent, unpinned⟩
  · exact inv.vault found found' standing (other h)
  · exact inv.fresh absent found' unpinned (other h)

theorem PinInv.asked (inv : PinInv s log) {w w' : World} (pin : Bool)
    (world : s.daemon.world h = some w) (standing : w'.vault.standing = (false, pin))
    (daemon : s'.daemon = s.daemon.setWorld h w') (asked : s.unlockRequest a s' = some (h, pin)) :
    PinInv s' (PinLog.record s a s' log) := by
  obtain ⟨found, -⟩ := Daemon.world_some world
  refine ⟨?_, fun absent => PinLog.record_absent absent⟩
  intro h' v' found'
  have hset := found'
  rw [daemon, Daemon.setWorld, getElem?_set_eq_some found] at hset
  rcases hset with ⟨rfl, rfl⟩ | ⟨hne, hold⟩
  · obtain ⟨hl, hp⟩ := Prod.mk.inj standing
    rw [PinLog.record_asked found' hl asked, hl, hp]
    simp
  · refine inv.vault hold found' (.inl rfl) fun pin' other => ?_
    rw [asked] at other
    exact hne (Prod.mk.inj (Option.some.inj other)).1.symm

theorem setWorld_refused {w : World} (world : s.daemon.world h = some w) :
    VaultsChange (fun _ v v' => v'.standing = v.standing ∨ v'.standing = (true, false))
      s.daemon.vaults (s.daemon.setWorld h w).vaults :=
  VaultsChange.set (fun _ _ => .inl rfl) (Daemon.world_some world).1 (.inl rfl)

theorem PinInv.start {dir : Dir} {aliasFile : Option Bytes} {d : Daemon ι}
    (boot : Daemon.boot ι x toml cfg dir aliasFile = some d) :
    PinInv (start π d) fun _ => none := by
  refine ⟨?_, fun _ => rfl⟩
  intro h v found
  obtain ⟨id, bytes, v₀, -, hopen, rfl⟩ := (Daemon.boot_booted boot).opens found
  obtain ⟨bytes', vf, -, -, -, rfl⟩ := open_ok_iff.mp hopen
  exact ⟨nofun, nofun⟩

variable [DecidableEq ι] [DecidableEq π]

/-- A step keeps the pins, unless a prompt gives a pinned vault the key it is open under. -/
theorem PinInv.step (inv : PinInv s log) (ok : opensUnpinned (s, log) a = true)
    (h : s.step x toml cfg idle a = some s') : PinInv s' (PinLog.record s a s' log) := by
  have step := step_inv h
  have change := step.vaults
  cases step with
  | @unlockWithKey t env h key pin w r w' phase world call =>
    rcases unlockPinned_standing call with ⟨hfails, rfl⟩ | ⟨rfl, standing⟩
    · refine inv.quiet ?_ (setWorld_refused world)
      simp [unlockRequest, hfails]
    · refine inv.asked pin world standing rfl ?_
      simp [unlockRequest, phase, Except.toBool]
  | @decrypt p env id h attempt key w r w' phase world call =>
    obtain ⟨found, -⟩ := Daemon.world_some world
    rcases unlockWithKey_cases call with ⟨e, rfl, rfl⟩ | ⟨rfl, rfl, items, state⟩ |
      ⟨rfl, locked, items, contents, settles⟩
    · refine inv.quiet ?_ (setWorld_refused world)
      simp [unlockRequest, setPrompt, UnlockTask.afterOpen, UnlockTask.goto]
    · -- the key was only checked: the discipline says that there was no pin to take away
      have unpinned : w'.vault.pinned = false := by
        simpa [opensUnpinned, phase, found, Vault.holdsKey, state] using ok
      refine inv.asked false world ?_ rfl ?_
      · simp [Vault.standing, Vault.isLocked, state, unpinned]
      · simp [unlockRequest, phase, setPrompt, UnlockTask.afterOpen, UnlockTask.goto]
    · have unpinned : w.vault.pinned = false :=
        inv.unpinned found (by simp [Vault.isLocked, locked])
      refine inv.asked false world ?_ rfl ?_
      · rw [settles.standing]
        exact Prod.ext rfl unpinned
      · simp [unlockRequest, phase, setPrompt, UnlockTask.afterOpen, UnlockTask.goto]
  | _ =>
    refine inv.quiet rfl (change.mono fun _ _ _ move => ?_)
    cases move with
    | same standing => exact .inl standing
    | locks standing => exact .inr standing
    | control action => cases action
    | prompt action => cases action

/-- **A vault is pinned exactly when it is open and the last unlock request asked for a pin**, in
every run in which no prompt gives a pinned vault the key it is open under. -/
theorem pin_follows_last_unlock {dir : Dir} {aliasFile : Option Bytes} {d : Daemon ι}
    (boot : Daemon.boot ι x toml cfg dir aliasFile = some d)
    (run : Reach (logged (LockSystem.step x toml cfg idle) PinLog.record)
      (fun p a => opensUnpinned p a = true) (LockSystem.start π d, fun _ => none) (s, log))
    {v : Vault} (found : s.daemon.vaults[h]? = some v) :
    v.pinned = true ↔ v.isLocked = false ∧ log h = some true := by
  exact (run.logged_invariant PinInv (.start boot) fun inv ok step => inv.step ok step).pinned found

section

open Reference

variable {κ : Type} [∀ n, OfNat ι n] [∀ n, OfNat κ n]

/-- A login pins the vault; an unlock by the user over the control socket takes the pin away, and so
does a prompt that found the vault locked; another login pins it again. -/
def pinSteps : List (LockAction ι κ) :=
  lockedSteps 0 1 "Login" "login" ++ controlUnlock 0 true ++ controlUnlock 1 false ++
    [LockAction.request 1 .lock, startUnlock 0 ["login"]] ++ askUnlock 0 ++ deriveUnlock 0 ++ openUnlock 0 ++
    controlUnlock 2 true

theorem pin_follows_last_unlock_again : ∃ d s log, emptyBoot 5 = some d ∧
      Reach (logged lockStep PinLog.record) (fun p a => opensUnpinned p a = true)
        (LockSystem.start (Fin 1) d, fun _ => none) (s, log) ∧
      ∃ v, s.daemon.vaults[0]? = some v ∧ v.isLocked = false ∧ log 0 = some true ∧ v.pinned = true := by
  refine Reach.exists_run_pair pinSteps (fun s log =>
      (s.daemon.vaults[0]?.any fun v => v.isLocked = false) = true ∧ log 0 = some true)
    (by decide +kernel) fun boot run passed => ?_
  obtain ⟨v, found, unlocked⟩ := (Option.any_eq_true _ _).mp passed.1
  have unlocked := of_decide_eq_true unlocked
  exact ⟨v, found, unlocked, passed.2, (pin_follows_last_unlock boot run found).mpr ⟨unlocked, passed.2⟩⟩

/-- **Without the discipline** a login opens and pins the vault while a prompt's dialog is up; the
prompt then succeeds, and the vault stays pinned. -/
theorem prompt_keeps_pin :
    ∃ d s log, emptyBoot 5 = some d ∧ Reach (logged lockStep PinLog.record) (fun _ _ => True)
        (LockSystem.start (Fin 1) d, fun _ => none) (s, log) ∧
      ∃ v, s.daemon.vaults[0]? = some v ∧ v.isLocked = false ∧ log 0 = some false ∧ v.pinned = true := by
  refine Reach.exists_run_pair (lockedSteps 0 1 "Login" "login" ++ [startUnlock 0 ["login"]] ++
      askUnlock 0 ++ controlUnlock 0 true ++ deriveUnlock 0 ++ openUnlock 0)
    (fun s log => (s.daemon.vaults[0]?.any fun v => v.isLocked = false ∧ v.pinned = true) = true ∧
      log 0 = some false) (by decide +kernel) fun _ _ passed => ?_
  obtain ⟨v, found, hv⟩ := (Option.any_eq_true _ _).mp passed.1
  obtain ⟨unlocked, pinned⟩ := of_decide_eq_true hv
  exact ⟨v, found, unlocked, passed.2, pinned⟩

end

end SecretManager
