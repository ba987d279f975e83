import SecretManager.Laws.Dbus.Unlock
import SecretManager.Dbus.Reference

/-!
# A prompt locks again only what it has opened

What an Unlock prompt is to lock again it knows by id, from the record it makes before it opens a
vault and from the list of what it has opened. A vault that is open takes the right key as well as a
locked one does, so a prompt whose dialog was up while somebody else opened the collection puts it
on its list; and the id stays on the list when the collection is locked and opened again by somebody
else, or is deleted and made again. When the owner leaves, the prompt locks all of them.
-/

namespace SecretManager

open List UnlockPrompt LockSystem

variable {ι π : Type} {x : Externals} {toml : Toml} {cfg : Config} {idle : Nat}

/-! ## What is recorded -/

structure OpenLog (π : Type) where
  /-- The prompt that made the last change of a vault from locked to unlocked, if it was one. -/
  opener : Handle → Option π
  /-- A prompt has locked an open vault that it had not opened. -/
  stray : Bool

def OpenLog.empty : OpenLog π := { opener := fun _ => none, stray := false }

/-- The vault that this step changes from locked to unlocked. -/
def LockSystem.unlocks (x : Externals) (s : LockSystem ι π) : LockAction ι π → Option Handle
  | .unlockWithKey t env =>
    match s.controls t with
    | .resolved h key pin => (s.daemon.world h).bind fun w =>
        if w.vault.isLocked && (w.unlockPinned x env key pin).1.isOk then some h else none
    | _ => none
  | .decrypt p env =>
    match (s.prompts p).task.phase with
    | .opening _ h _ key => (s.daemon.world h).bind fun w =>
        if w.vault.isLocked && (w.unlockWithKey x env key).1.isOk then some h else none
    | _ => none
  | _ => none

/-- The prompt and the vault that it is about to lock again. -/
def LockSystem.relocks (s : LockSystem ι π) : LockAction ι π → Option (π × Handle)
  | .relock p =>
    match (s.prompts p).task.phase with
    | .relocking (some h :: _) => some (p, h)
    | _ => none
  | .rewatch p =>
    match (s.prompts p).relocks with
    | some h :: _ => some (p, h)
    | _ => none
  | _ => none

/-- The vault with this number, if any, is locked. -/
def lockedAt (vaults : List Vault) (found : Option Handle) : Bool :=
  (found.bind fun h => vaults[h]?).all (·.isLocked)

/-- Nobody but the prompt has opened the vault with this number, if any. -/
def OpenLog.spares [DecidableEq π] (vaults : List Vault) (log : OpenLog π) (p : π)
    (found : Option Handle) : Bool :=
  lockedAt vaults found || decide (found.bind log.opener = some p)

def OpenLog.record [DecidableEq π] (x : Externals) (before : LockSystem ι π) (a : LockAction ι π)
    (_ : LockSystem ι π) (log : OpenLog π) : OpenLog π where
  opener h :=
    if before.unlocks x a = some h then
      match a with
      | .decrypt p _ => some p
      | _ => none
    else log.opener h
  stray := log.stray || (before.relocks a).any fun (p, h) =>
    !log.spares before.daemon.vaults p (some h)

/-! ## What a prompt claims -/

def UnlockStage.todo : UnlockStage → List (Option Handle)
  | .relocks todo => todo
  | _ => []

def UnlockStage.inHand : UnlockStage → List String
  | .opened id => [id]
  | _ => []

/-- The collections a prompt may come to lock again, -/
def UnlockPrompt.named (p : UnlockPrompt) : List String :=
  p.record ++ (p.task.mine ++ p.task.phase.stage.inHand)

/-- and what they and its lists stand for now. -/
def UnlockPrompt.claimed (collections : Std.ExtTreeMap String Handle) (p : UnlockPrompt) :
    List (Option Handle) :=
  p.relocks ++ (p.task.phase.stage.todo ++ p.named.map fun id => collections[id]?)

abbrev LockSystem.claimed (s : LockSystem ι π) (p : π) : List (Option Handle) :=
  (s.prompts p).claimed s.daemon.service.collections

/-- The prompt and the collection that it is about to put on one of its lists. -/
def LockSystem.names (s : LockSystem ι π) : LockAction ι π → Option (π × String)
  | .record p =>
    match (s.prompts p).task.phase with
    | .recording id _ _ _ => some (p, id)
    | _ => none
  | .decrypt p _ =>
    match (s.prompts p).task.phase with
    | .opening id _ _ _ => some (p, id)
    | _ => none
  | _ => none

/-! ## The discipline -/

variable [DecidableEq ι] [DecidableEq π]

/-- The daemon after a step that is not spelled out here. -/
def LockSystem.elsewhere (x : Externals) (toml : Toml) (cfg : Config) (s : LockSystem ι π) :
    LockAction ι π → Option (Daemon ι)
  | .daemon a => s.daemon.step x toml cfg a
  | _ => none

/-- No prompt puts a collection on its list that somebody else has opened; nobody else opens a vault
that a prompt has on its list; and nothing else brings an open vault under an id that is on one. -/
def opensAlone (x : Externals) (toml : Toml) (cfg : Config) (q : LockSystem ι π × OpenLog π)
    (a : LockAction ι π) : Prop :=
  (∀ e ∈ q.1.names a, q.2.spares q.1.daemon.vaults e.1 q.1.daemon.service.collections[e.2]? = true) ∧
    (∀ h ∈ q.1.unlocks x a, ∀ p, a.prompt = some p ∨ some h ∉ q.1.claimed p) ∧
    ∀ d ∈ q.1.elsewhere x toml cfg a, ∀ p, ∀ found ∈ (q.1.prompts p).claimed d.service.collections,
      found ∈ q.1.claimed p ∨ lockedAt d.vaults found = true

instance [Fintype π] (q : LockSystem ι π × OpenLog π) (a : LockAction ι π) :
    Decidable (opensAlone x toml cfg q a) :=
  inferInstanceAs (Decidable (_ ∧ _ ∧ _))

/-! ## Numbers in use -/

/-- The map and the scan name vaults that are there. -/
structure Daemon.Numbered (s : Daemon ι) : Prop where
  mapped : ∀ {id : String} {h : Handle}, s.service.collections[id]? = some h → h < s.vaults.length
  scanned : ∀ {id : String} {h : Handle}, (id, h) ∈ s.reload.opened → h < s.vaults.length

omit [DecidableEq ι] in
theorem Daemon.Numbered.grow {s s' : Daemon ι} (numbered : s.Numbered)
    (vaults : s.vaults.length ≤ s'.vaults.length)
    (collections : ∀ {id : String} {h : Handle}, s'.service.collections[id]? = some h →
      h < s'.vaults.length ∨ s.service.collections[id]? = some h)
    (opened : s'.reload.opened ⊆ s.reload.opened) : s'.Numbered where
  mapped found := by
    rcases collections found with hlt | hold
    · exact hlt
    · exact lt_of_lt_of_le (numbered.mapped hold) vaults
  scanned hmem := lt_of_lt_of_le (numbered.scanned (opened hmem)) vaults

theorem Daemon.Numbered.step {s s' : Daemon ι} {a : Action ι} (numbered : s.Numbered)
    (h : s.step x toml cfg a = some s') : s'.Numbered := by
  cases Daemon.step_inv h with
  | unmap task =>
    refine numbered.grow le_rfl (fun {id h} found => .inr ?_) (List.Subset.refl _)
    dsimp only at found
    rw [Std.ExtTreeMap.getElem?_erase] at found
    split at found
    · cases found
    · exact found
  | @insert t label aliasName id h v task vault =>
    refine numbered.grow (by simp) (fun {id' h'} found => ?_) (List.Subset.refl _)
    rw [Std.ExtTreeMap.getElem?_insert] at found
    split at found
    · cases found
      left
      rw [List.length_set]
      exact (List.getElem?_eq_some_iff.mp vault).1
    · exact .inr found
  | @entry name loaded scan scanning =>
    rcases scanEntry_cases x cfg loaded name s.dir[name]? scan s.vaults with
      ⟨hopened, hvaults⟩ | ⟨id, v, -, -, hopened, hvaults⟩
    · refine numbered.grow (by rw [hvaults]) (fun found => .inr found) ?_
      dsimp only [ScanPhase.opened]
      rw [scanning, hopened]
      exact List.Subset.refl _
    · have grown : s.vaults.length < (scanEntry x cfg loaded name s.dir[name]? scan s.vaults).2.length := by
        rw [hvaults]
        simp
      refine ⟨fun found => (numbered.mapped found).trans grown, fun {id' h'} hmem => ?_⟩
      dsimp only [ScanPhase.opened] at hmem
      rw [hopened] at hmem
      rcases mem_append.mp hmem with hold | hnew
      · have before : (id', h') ∈ s.reload.opened := by
          rw [scanning]
          exact hold
        exact (numbered.scanned before).trans grown
      · obtain ⟨-, rfl⟩ := Prod.mk.inj (mem_singleton.mp hnew)
        exact grown
  | reload kept =>
    refine numbered.grow le_rfl (fun found => .inr found) ?_
    dsimp only
    rcases kept with hsame | hnil
    · rw [hsame]
      exact List.Subset.refl _
    · rw [hnil]
      exact nil_subset _
  | @merge scan aliases scanned =>
    refine numbered.grow le_rfl (fun {id h} found => ?_) (nil_subset _)
    dsimp only at found ⊢
    rcases mergeScan_collections s.service scan aliases id with hsame | ⟨h', hmem, hfound⟩
    · exact .inr (hsame ▸ found)
    · rw [hfound] at found
      cases found
      have before : (id, h) ∈ s.reload.opened := by
        rw [scanned]
        exact hmem
      exact .inl (numbered.scanned before)
  | _ =>
    exact numbered.grow (by simp [Daemon.setTask, Daemon.setWorld]) (fun found => .inr found) (List.Subset.refl _)

/-! ## How claims change -/

variable {found : Option Handle}

section

variable {collections : Std.ExtTreeMap String Handle} {p p' : UnlockPrompt}

omit [DecidableEq ι] [DecidableEq π]

theorem UnlockPrompt.mem_named {id : String} :
    id ∈ p.named ↔ id ∈ p.record ∨ id ∈ p.task.mine ∨ id ∈ p.task.phase.stage.inHand := by
  simp only [named, mem_append]

theorem UnlockPrompt.mem_claimed :
    found ∈ p.claimed collections ↔ found ∈ p.relocks ∨ found ∈ p.task.phase.stage.todo ∨
      ∃ id ∈ p.named, collections[id]? = found := by
  simp only [claimed, mem_append, mem_map]

theorem UnlockPrompt.claimed_mono (hmem : found ∈ p'.claimed collections)
    (relocks : p'.relocks ⊆ p.relocks) (record : p'.record ⊆ p.record)
    (todo : p'.task.phase.stage.todo ⊆ p.task.phase.stage.todo)
    (mine : ∀ {id}, id ∈ p'.task.mine ∨ id ∈ p'.task.phase.stage.inHand → id ∈ p.task.mine ∨ id ∈
      p.task.phase.stage.inHand) : found ∈ p.claimed collections := by
  rw [mem_claimed] at hmem ⊢
  rcases hmem with hrelocks | htodo | ⟨id, hnamed, hfound⟩
  · exact .inl (relocks hrelocks)
  · exact .inr (.inl (todo htodo))
  · refine .inr (.inr ⟨id, ?_, hfound⟩)
    rw [mem_named] at hnamed ⊢
    rcases hnamed with hrecord | hmine
    · exact .inl (record hrecord)
    · exact .inr (mine hmine)

theorem UnlockStage.underWay_lists {stage : UnlockStage} (h : stage.underWay = true) :
    stage.todo = [] ∧ stage.inHand = [] := by
  cases stage with
  | walks | peeks | asks => exact ⟨rfl, rfl⟩
  | _ => cases h

theorem UnlockMove.claimed {st : ServiceState} {vaults : List Vault} {a : UnlockAction}
    {task' : UnlockTask} {g' : Gate} (move : UnlockMove st vaults p.gate p.task a task' g') :
    claimed collections { p with task := task', gate := g' } ⊆ p.claimed collections := by
  intro found hmem
  cases move with
  | start rest phase =>
    refine claimed_mono hmem (List.Subset.refl _) (List.Subset.refl _) (nil_subset _) ?_
    rintro id (hnil | hnil)
    · cases hnil
    · cases hnil
  | finds phase found | asks phase found locked | gone phase left | dies aborted awaits =>
    exact claimed_mono hmem (List.Subset.refl _) (List.Subset.refl _) (nil_subset _)
      fun hmine => hmine.imp_right nofun
  | @goes _ task' committed before after mine =>
    obtain ⟨todo, inHand⟩ := UnlockStage.underWay_lists before
    have lists : task'.phase.stage.todo = [] ∧ task'.phase.stage.inHand = [] := by
      rcases after with h | h | h
      · rw [h]
        exact ⟨todo, inHand⟩
      · rw [h]
        exact ⟨rfl, rfl⟩
      · rw [h]
        exact ⟨rfl, rfl⟩
    refine claimed_mono hmem (List.Subset.refl _) (List.Subset.refl _) ?_ ?_
    · dsimp only
      rw [lists.1]
      exact nil_subset _
    · dsimp only
      rw [lists.2, mine]
      exact fun hmine => hmine.imp_right nofun
  | notify phase =>
    refine claimed_mono hmem (List.Subset.refl _) (List.Subset.refl _) (nil_subset _) ?_
    rintro id (hmine | hnil)
    · rcases mem_append.mp hmine with hold | hnew
      · exact .inl hold
      · rw [phase]
        exact .inr hnew
    · cases hnil
  | stays owned before after mine =>
    refine claimed_mono hmem (List.Subset.refl _) (List.Subset.refl _) ?_ ?_
    · dsimp only
      rw [after]
      exact nil_subset _
    · dsimp only
      rw [after, mine]
      exact fun hmine => hmine.imp_right nofun

theorem PromptMove.claimed {a : GateAction} (move : PromptMove collections p a p') :
    p'.claimed collections ⊆ p.claimed collections := by
  intro found hmem
  cases move with
  | leaves owned running | flags other moved owned => exact hmem
  | takes owned =>
    -- the record goes over to the watcher's list
    rw [mem_claimed] at hmem ⊢
    rcases hmem with hrelocks | htodo | ⟨id, hnamed, hfound⟩
    · rcases mem_append.mp hrelocks with hold | hnew
      · exact .inl hold
      · obtain ⟨id, hrecord, hfound⟩ := mem_map.mp hnew
        exact .inr (.inr ⟨id, mem_named.mpr (.inl hrecord), hfound⟩)
    · exact .inr (.inl htodo)
    · rcases mem_named.mp hnamed with hrecord | hmine
      · cases hrecord
      · exact .inr (.inr ⟨id, mem_named.mpr (.inr hmine), hfound⟩)
  | finishes dismissing =>
    exact claimed_mono hmem (List.Subset.refl _) (nil_subset _) (List.Subset.refl _)
      fun hmine => hmine

theorem UnlockPrompt.claimed_add (hmem : found ∈ p'.claimed collections) (id : String)
    (relocks : p'.relocks = p.relocks) (todo : p'.task.phase.stage.todo = [])
    (named : ∀ {id'}, id' ∈ p'.named → id' ∈ p.named ∨ id' = id) :
    found ∈ p.claimed collections ∨ collections[id]? = found := by
  rcases mem_claimed.mp hmem with hrelocks | htodo | ⟨id', hnamed, hfound⟩
  · exact .inl (mem_claimed.mpr (.inl (relocks ▸ hrelocks)))
  · rw [todo] at htodo
    cases htodo
  · rcases named hnamed with hold | rfl
    · exact .inl (mem_claimed.mpr (.inr (.inr ⟨id', hold, hfound⟩)))
    · exact .inr hfound

end

variable {s s' : LockSystem ι π} {a : LockAction ι π} {log : OpenLog π}

theorem dropLast_subset (id : String) (ids : List String) : dropLast id ids ⊆ ids := by
  intro id' hmem
  rw [dropLast, mem_reverse] at hmem
  exact mem_reverse.mp (mem_of_mem_erase hmem)

variable {p : π}

theorem LockStep.own_claims (step : LockStep x toml cfg idle s a s') (own : a.prompt = some p)
    (hmem : found ∈ (s'.prompts p).claimed s.daemon.service.collections) :
    found ∈ s.claimed p ∨ ∃ id, s.names a = some (p, id) ∧ s.daemon.service.collections[id]? = found := by
  cases step with (cases own <;> simp only [setPrompt, Function.update_self] at hmem)
  | gate moved =>
    exact .inl ((gateStep_move moved).claimed hmem)
  | unlock moved =>
    exact .inl ((advance_move moved).claimed hmem)
  | @record p id h attempt key phase =>
    have claims : found ∈ s.claimed p ∨ s.daemon.service.collections[id]? = found := by
      refine claimed_add hmem id rfl rfl fun {id'} hnamed => ?_
      rcases mem_named.mp hnamed with hrecord | hmine | hnil
      · rcases mem_append.mp hrecord with hold | hnew
        · exact .inl (mem_named.mpr (.inl hold))
        · exact .inr (mem_singleton.mp hnew)
      · exact .inl (mem_named.mpr (.inr (.inl hmine)))
      · cases hnil
    exact claims.imp_right fun hfound => ⟨id, by simp only [LockSystem.names, phase], hfound⟩
  | @decrypt p env id h attempt key w r w' phase world call =>
    have stage : ((s.prompts p).task.afterOpen id h attempt r).phase.stage = .opened id ∨
        ((s.prompts p).task.afterOpen id h attempt r).phase.stage = .drops id := by
      cases r with
      | ok => exact .inl rfl
      | error e => exact .inr rfl
    have mine : ((s.prompts p).task.afterOpen id h attempt r).mine = (s.prompts p).task.mine := by
      cases r with
      | ok => rfl
      | error e => rfl
    have claims : found ∈ s.claimed p ∨ s.daemon.service.collections[id]? = found := by
      refine claimed_add hmem id rfl ?_ fun {id'} hnamed => ?_
      · rcases stage with h | h
        · exact congrArg UnlockStage.todo h
        · exact congrArg UnlockStage.todo h
      · rcases mem_named.mp hnamed with hrecord | hmine | hhand
        · exact .inl (mem_named.mpr (.inl hrecord))
        · exact .inl (mem_named.mpr (.inr (.inl (mine ▸ hmine))))
        · dsimp only at hhand
          rcases stage with h | h
          · rw [h] at hhand
            exact .inr (mem_singleton.mp hhand)
          · rw [h] at hhand
            cases hhand
    exact claims.imp_right fun hfound => ⟨id, by simp only [LockSystem.names, phase], hfound⟩
  | @drop p id h attempt e phase =>
    have lists : (UnlockPhase.afterRefusal id h attempt e).stage.todo = [] ∧
        (UnlockPhase.afterRefusal id h attempt e).stage.inHand = [] := by
      rcases afterRefusal_stage id h attempt e with hs | ⟨h', hs⟩
      · rw [hs]
        exact ⟨rfl, rfl⟩
      · rw [hs]
        exact ⟨rfl, rfl⟩
    refine .inl (claimed_mono hmem (List.Subset.refl _) (dropLast_subset ..) ?_ ?_)
    · dsimp only [UnlockTask.goto]
      rw [lists.1]
      exact nil_subset _
    · dsimp only [UnlockTask.goto]
      rw [lists.2]
      exact fun hmine => hmine.imp_right nofun
  | @touchUnlock p id phase =>
    refine .inl (claimed_mono hmem (List.Subset.refl _) (List.Subset.refl _) ?_ ?_)
    · exact nil_subset _
    · rw [phase]
      exact fun hmine => hmine
  | @collect p phase =>
    left
    rw [mem_claimed]
    rcases mem_claimed.mp hmem with hrelocks | htodo | ⟨id, hnamed, hfound⟩
    · exact .inl hrelocks
    · obtain ⟨id, hmine, hfound⟩ := mem_map.mp htodo
      exact .inr (.inr ⟨id, mem_named.mpr (.inr (.inl hmine)), hfound⟩)
    · rcases mem_named.mp hnamed with hnil | hmine | hnil
      · cases hnil
      · exact .inr (.inr ⟨id, mem_named.mpr (.inr (.inl hmine)), hfound⟩)
      · cases hnil
  | @relocked p phase =>
    exact .inl (claimed_mono hmem (List.Subset.refl _) (List.Subset.refl _)
      (nil_subset _) fun hmine => hmine.imp_right nofun)
  | @relock p found todo phase =>
    refine .inl (claimed_mono hmem (List.Subset.refl _) (List.Subset.refl _) ?_
      fun hmine => hmine.imp_right nofun)
    rw [phase]
    exact subset_cons_self _ _
  | @finish p dismissed phase =>
    exact .inl (claimed_mono hmem (List.Subset.refl _) (nil_subset _)
      (nil_subset _) fun hmine => hmine.imp_right nofun)
  | @rewatch p found relocks todo =>
    refine .inl (claimed_mono hmem ?_ (List.Subset.refl _) (List.Subset.refl _) fun hmine => hmine)
    rw [todo]
    exact subset_cons_self _ _

theorem LockStep.claims (step : LockStep x toml cfg idle s a s') (other : ∀ a', a ≠ .daemon a')
    (hmem : found ∈ s'.claimed p) :
    found ∈ s.claimed p ∨ ∃ id, s.names a = some (p, id) ∧ s.daemon.service.collections[id]? = found := by
  have service : s'.daemon.service = s.daemon.service := by rw [step.rest other]
  rw [LockSystem.claimed, service] at hmem
  by_cases own : a.prompt = some p
  · exact step.own_claims own hmem
  · rw [step.prompts_of_ne own] at hmem
    exact .inl hmem

/-! ## Openers -/

variable {h : Handle}

omit [DecidableEq ι] [DecidableEq π] in
theorem LockSystem.unlocked_of_call {h₀ : Handle} {w w' : World} {r : Except VaultError Unit}
    {opens : Prop} {v v' : Vault} (world : s.daemon.world h₀ = some w)
    (call : (r.isOk = false ∧ w' = w) ∨ r = .ok () ∧ opens)
    (unlocks : r = .ok () → w.vault.isLocked = true → s.unlocks x a = some h₀)
    (found : s.daemon.vaults[h]? = some v) (found' : (s.daemon.setWorld h₀ w').vaults[h]? = some v')
    (open' : v'.isLocked = false) : v.isLocked = false ∨ s.unlocks x a = some h := by
  obtain ⟨found₀, -⟩ := Daemon.world_some world
  rcases (getElem?_set_eq_some found₀).mp found' with ⟨rfl, rfl⟩ | ⟨-, hold⟩
  · obtain rfl : w.vault = v := Option.some.inj (found₀.symm.trans found)
    rcases call with ⟨-, rfl⟩ | ⟨ok, -⟩
    · exact .inl open'
    · cases locked : w.vault.isLocked with
      | false => exact .inl rfl
      | true => exact .inr (unlocks ok locked)
  · exact .inl (Option.some.inj (hold.symm.trans found) ▸ open')

theorem LockStep.unlocked (step : LockStep x toml cfg idle s a s') {v v' : Vault}
    (found : s.daemon.vaults[h]? = some v) (found' : s'.daemon.vaults[h]? = some v')
    (open' : v'.isLocked = false) : v.isLocked = false ∨ s.unlocks x a = some h := by
  have vaults := step.vaults
  cases step with
  | @unlockWithKey t env h₀ key pin w r w' phase world call =>
    refine unlocked_of_call world (unlockPinned_standing call) ?_ found found' open'
    rintro rfl locked
    simp [LockSystem.unlocks, phase, world, locked, call, Except.toBool]
  | @decrypt p env id h₀ attempt key w r w' phase world call =>
    refine unlocked_of_call world (unlockWithKey_standing call) ?_ found found' open'
    rintro rfl locked
    simp [LockSystem.unlocks, phase, world, locked, call, Except.toBool]
  | _ =>
    -- nothing else opens a vault
    rcases vaults.each h v' found' with ⟨v₀, found₀, move⟩ | ⟨absent, -⟩
    · obtain rfl : v₀ = v := Option.some.inj (found₀.symm.trans found)
      cases move with
      | same standing => exact .inl ((Prod.mk.inj standing).1.symm.trans open')
      | locks standing =>
        have := (Prod.mk.inj standing).1
        rw [open'] at this
        cases this
      | control action | prompt action => cases action
    · rw [found] at absent
      cases absent

omit [DecidableEq ι] [DecidableEq π] in
theorem LockSystem.names_prompt {id : String} (names : s.names a = some (p, id)) :
    a.prompt = some p := by
  unfold LockSystem.names at names
  split at names
  · split at names
    · cases names
      rfl
    · cases names
  · split at names
    · cases names
      rfl
    · cases names
  · cases names

omit [DecidableEq ι] [DecidableEq π] in
theorem LockSystem.relocks_claimed (relocks : s.relocks a = some (p, h)) :
    some h ∈ s.claimed p := by
  unfold LockSystem.relocks at relocks
  rw [LockSystem.claimed, mem_claimed]
  split at relocks
  · split at relocks
    next phase =>
      cases relocks
      rw [phase]
      exact .inr (.inl mem_cons_self)
    · cases relocks
  · split at relocks
    next todo =>
      cases relocks
      rw [todo]
      exact .inl mem_cons_self
    · cases relocks
  · cases relocks

omit [DecidableEq ι] [DecidableEq π] in
theorem LockSystem.unlocks_locked {v : Vault} (unlocks : s.unlocks x a = some h)
    (found : s.daemon.vaults[h]? = some v) : v.isLocked = true := by
  unfold LockSystem.unlocks at unlocks
  split at unlocks
  all_goals try cases unlocks
  all_goals
    split at unlocks
    · obtain ⟨w, world, hw⟩ := Option.bind_eq_some_iff.mp unlocks
      split at hw
      next locked =>
        cases hw
        rw [Bool.and_eq_true] at locked
        obtain rfl : w.vault = v := Option.some.inj ((Daemon.world_some world).1.symm.trans found)
        exact locked.1
      · cases hw
    · cases unlocks

omit [DecidableEq ι] in
theorem OpenLog.spares_iff {vaults : List Vault} :
    log.spares vaults p found = true ↔ ∀ h v, found = some h → vaults[h]? = some v →
      v.isLocked = false → log.opener h = some p := by
  cases found with
  | none => simp [OpenLog.spares, lockedAt]
  | some h =>
    cases hv : vaults[h]? with
    | none | some v =>
      simp only [OpenLog.spares, lockedAt, Option.bind_some, hv]
      grind

/-! ## The invariant -/

/-- No prompt has on its list a vault that somebody else has opened. -/
structure StrayInv (s : LockSystem ι π) (log : OpenLog π) : Prop where
  numbered : s.daemon.Numbered
  /-- Every number on a list is that of a vault, -/
  listed : ∀ {p h}, some h ∈ s.claimed p → h < s.daemon.vaults.length
  /-- and nobody else has opened that vault. -/
  spares : ∀ {p found}, found ∈ s.claimed p → log.spares s.daemon.vaults p found = true
  never : log.stray = false

namespace StrayInv

section

variable (inv : StrayInv s log)
include inv

theorem numbered_step (step : LockStep x toml cfg idle s a s') : s'.daemon.Numbered := by
  by_cases other : ∀ a', a ≠ .daemon a'
  · have rest := step.rest other
    refine inv.numbered.grow step.vaults.length (fun found => .inr ?_) ?_
    · rw [rest] at found
      exact found
    · rw [rest]
      exact List.Subset.refl _
  · obtain ⟨a', rfl⟩ := not_forall_not.mp other
    cases step with
    | daemon elsewhere moved => exact inv.numbered.step moved

section

variable (ok : opensAlone x toml cfg (s, log) a) (step : LockStep x toml cfg idle s a s')
  (hmem : found ∈ s'.claimed p)
include ok step hmem

/-- What is on a prompt's list after a disciplined step: a vault that was there before, and that
nobody else had opened; or one that is locked. -/
theorem listed_before :
    (log.spares s.daemon.vaults p found = true ∧ (∀ h, found = some h → h < s.daemon.vaults.length) ∧
        (found ∈ s.claimed p ∨ a.prompt = some p)) ∨ lockedAt s'.daemon.vaults found = true := by
  have old : found ∈ s.claimed p → log.spares s.daemon.vaults p found = true ∧
      (∀ h, found = some h → h < s.daemon.vaults.length) ∧ (found ∈ s.claimed p ∨ a.prompt = some p) := by
    intro hold
    refine ⟨inv.spares hold, ?_, .inl hold⟩
    rintro h rfl
    exact inv.listed hold
  by_cases other : ∀ a', a ≠ .daemon a'
  · left
    rcases step.claims other hmem with hold | ⟨id, names, hfound⟩
    · exact old hold
    · refine ⟨hfound ▸ ok.1 (p, id) names, ?_, .inr ?_⟩
      · rintro h rfl
        exact inv.numbered.mapped hfound
      · exact names_prompt names
  · obtain ⟨a', rfl⟩ := not_forall_not.mp other
    cases step with
    | @daemon _ d elsewhere moved =>
      rcases ok.2.2 d moved p found hmem with hold | locked
      · exact .inl (old hold)
      · exact .inr locked

theorem spares_step : (OpenLog.record x s a s' log).spares s'.daemon.vaults p found = true := by
  rcases inv.listed_before ok step hmem with ⟨spared, listed, hold⟩ | locked
  · rw [OpenLog.spares_iff] at spared ⊢
    rintro h v' rfl found' open'
    obtain ⟨v, hv⟩ : ∃ v, s.daemon.vaults[h]? = some v :=
      ⟨_, getElem?_eq_getElem (listed h rfl)⟩
    rcases step.unlocked hv found' open' with hopen | unlocks
    · have kept : s.unlocks x a ≠ some h := by
        intro unlocks
        rw [unlocks_locked unlocks hv] at hopen
        cases hopen
      simp only [OpenLog.record, if_neg kept]
      exact spared h v rfl hv hopen
    · -- only the prompt itself may have opened it
      have own : a.prompt = some p := by
        rcases ok.2.1 h unlocks p with own | unclaimed
        · exact own
        · exact hold.resolve_left unclaimed
      simp only [OpenLog.record, unlocks]
      cases a with
      | decrypt p' env => exact own
      | unlockWithKey t env => cases own
      | _ => cases unlocks
  · simp [OpenLog.spares, locked]

end

theorem listed_step (step : LockStep x toml cfg idle s a s') (hmem : some h ∈ s'.claimed p) :
    h < s'.daemon.vaults.length := by
  by_cases other : ∀ a', a ≠ .daemon a'
  · refine lt_of_lt_of_le ?_ step.vaults.length
    rcases step.claims other hmem with hold | ⟨id, -, hfound⟩
    · exact inv.listed hold
    · exact inv.numbered.mapped hfound
  · have numbered := inv.numbered_step step
    have grown := step.vaults.length
    obtain ⟨a', rfl⟩ := not_forall_not.mp other
    cases step with
    | daemon elsewhere moved =>
      rcases mem_claimed.mp hmem with hrelocks | htodo | ⟨id, -, hfound⟩
      · exact lt_of_lt_of_le (inv.listed (mem_claimed.mpr (.inl hrelocks))) grown
      · exact lt_of_lt_of_le (inv.listed (mem_claimed.mpr (.inr (.inl htodo)))) grown
      · exact numbered.mapped hfound

theorem step (ok : opensAlone x toml cfg (s, log) a) (moved : s.step x toml cfg idle a = some s') :
    StrayInv s' (OpenLog.record x s a s' log) := by
  have step := step_inv moved
  refine ⟨inv.numbered_step step, inv.listed_step step, inv.spares_step ok step, ?_⟩
  simp only [OpenLog.record, inv.never]
  cases relocks : s.relocks a with
  | none => rfl
  | some e => simp [inv.spares (relocks_claimed relocks)]

end

omit [DecidableEq ι] in
theorem start {dir : Dir} {aliasFile : Option Bytes} {d : Daemon ι}
    (boot : Daemon.boot ι x toml cfg dir aliasFile = some d) :
    StrayInv (LockSystem.start π d) .empty := by
  have booted := Daemon.boot_booted boot
  refine ⟨⟨?_, ?_⟩, ?_, ?_, rfl⟩
  · intro id h found
    obtain ⟨v, hv, -⟩ := booted.collections found
    exact (List.getElem?_eq_some_iff.mp hv).1
  · intro id h hmem
    have idle : (LockSystem.start π d).daemon.reload = .idle := booted.reload
    rw [idle] at hmem
    cases hmem
  · intro p h hmem
    cases hmem
  · intro p found hmem
    cases hmem

end StrayInv

/-! ## Every run -/

/-- **A prompt locks again only what it has opened itself**, in every run in which nobody else opens
what is on a prompt's list. -/
theorem relocks_only_own {dir : Dir} {aliasFile : Option Bytes} {d : Daemon ι}
    (boot : Daemon.boot ι x toml cfg dir aliasFile = some d)
    (run : Reach (logged (LockSystem.step x toml cfg idle) (OpenLog.record x))
      (opensAlone x toml cfg) (LockSystem.start π d, .empty) (s, log)) : log.stray = false := by
  exact (run.logged_invariant StrayInv (.start boot) fun inv ok step => inv.step ok step).never

section

open Reference

variable {κ : Type} [∀ n, OfNat ι n] [∀ n, OfNat κ n]

abbrev openStep : LockSystem (Fin 4) (Fin 1) × OpenLog (Fin 1) → LockAction (Fin 4) (Fin 1) →
    Option (LockSystem (Fin 4) (Fin 1) × OpenLog (Fin 1)) :=
  logged lockStep (OpenLog.record externals)

/-- The owner leaves, and the task locks what it has opened. -/
def leaveAfterOpen : List (LockAction ι κ) :=
  [.gate 0 .reclaim, .unlock 0 .turn, .unlock 0 .leave, .collect 0, .relock 0]

/-- While the dialog for one collection is up, somebody unlocks another, which stays open. -/
theorem relocks_only_own_beside : ∃ d s log, emptyBoot 4 = some d ∧
      Reach openStep (opensAlone externals daemonToml config) (LockSystem.start (Fin 1) d, .empty) (s, log) ∧
      log.opener 0 = some 0 ∧ (s.daemon.vaults[0]?.any (·.isLocked)) = true ∧
      log.opener 1 = none ∧ (s.daemon.vaults[1]?.any fun v => !v.isLocked) = true ∧
      log.stray = false := by
  refine Reach.exists_run_pair (lockedSteps 0 1 "Login" "login" ++ lockedSteps 2 3 "Work" "work" ++
      [startUnlock 0 ["login"]] ++ askUnlock 0 ++ [LockAction.resolve 0 "work" loginKey false,
        .unlockWithKey 0 saveEnv] ++ deriveUnlock 0 ++ openUnlock 0 ++ leaveAfterOpen)
    (fun s log => log.opener 0 = some 0 ∧ (s.daemon.vaults[0]?.any (·.isLocked)) = true ∧
      log.opener 1 = none ∧ (s.daemon.vaults[1]?.any fun v => !v.isLocked) = true)
    (by decide +kernel) ?_
  rintro d s log boot run ⟨opener, locked, other, unlocked⟩
  exact ⟨opener, locked, other, unlocked, relocks_only_own boot run⟩

/-- **Without the discipline** somebody unlocks the collection while the prompt's dialog for it is
up. The prompt's key is merely checked, and when its owner leaves, the prompt locks the
collection. -/
theorem relocks_what_others_opened : ∃ d s log, emptyBoot 4 = some d ∧
      Reach openStep (fun _ _ => True) (LockSystem.start (Fin 1) d, .empty) (s, log) ∧
      (s.controls 0 matches .done) = true ∧ log.opener 0 = none ∧
      (s.daemon.vaults[0]?.any (·.isLocked)) = true ∧ log.stray = true := by
  exact Reach.exists_run_pair (lockedSteps 0 1 "Login" "login" ++ [startUnlock 0 ["login"]] ++
    askUnlock 0 ++ controlUnlock 0 false ++ deriveUnlock 0 ++ openUnlock 0 ++ leaveAfterOpen) _
    (by decide +kernel) fun _ _ passed => passed

end

end SecretManager
