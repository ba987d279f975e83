import SecretManager.Dbus.Daemon
import SecretManager.Laws.Dbus.Aliases
import SecretManager.Laws.Dbus.Collections

/-!
# What one step of the daemon can do

`DaemonStep` lists every way a step can end, and `Daemon.step_inv` says that there is no other. Most
steps touch no vault, no file and no entry of the collection map, so a task is seen through its
`Role`: what it has to do with which vault. `advance_role` and `updated_role` say how roles change
in those steps, once for all of them.
-/

namespace SecretManager

variable {ι : Type} {s : Daemon ι} {cfg : Config} {x : Externals}

/-! ## Files -/

theorem Dir.getElem?_put (dir : Dir) (name : String) (file : Option Bytes) (n : String) :
    (dir.put name file)[n]? = if n = name then file else dir[n]? := by
  cases file with
  | none =>
    simp only [Dir.put]
    grind
  | some bytes =>
    simp only [Dir.put]
    grind

theorem Dir.getElem?_put_self (dir : Dir) (name n : String) :
    (dir.put name dir[name]?)[n]? = dir[n]? := by
  rw [Dir.getElem?_put]
  split
  next h => rw [h]
  · rfl

theorem Dir.names_nodup (dir : Dir) : (dir.toList.map Prod.fst).Nodup := by
  rw [List.nodup_iff_pairwise_ne, List.pairwise_map]
  refine Std.ExtTreeMap.distinct_keys_toList.imp ?_
  intro a b hne heq
  exact hne (by rw [heq]; exact Std.ReflCmp.compare_self)

theorem getElem?_concat_eq_some {α : Type} {l : List α} {a b : α} {n : Nat} :
    (l ++ [a])[n]? = some b ↔ l[n]? = some b ∨ (n = l.length ∧ b = a) := by
  rw [List.getElem?_append]
  by_cases h : n < l.length
  · have hne : n ≠ l.length := by omega
    simp [h, hne]
  · have hnone : l[n]? = none := by simpa using h
    rw [List.getElem?_singleton]
    grind

theorem getElem?_set_eq_some {α : Type} {l : List α} {a b c : α} {m n : Nat}
    (found : l[m]? = some c) :
    (l.set m a)[n]? = some b ↔ (n = m ∧ b = a) ∨ (n ≠ m ∧ l[n]? = some b) := by
  have hlt : m < l.length := (List.getElem?_eq_some_iff.mp found).1
  by_cases h : m = n
  · subst h
    simp [hlt, eq_comm]
  · simp [h, Ne.symm h]

/-! ## Roles -/

/-- What a task has to do with a vault. -/
inductive Role where
  | none
  /-- A request holds it. -/
  | uses (h : Handle)
  /-- A delete prompt has looked it up and not yet unlinked its file. -/
  | marks (id : String) (h : Handle)
  /-- A delete prompt has unlinked its file, and the id may still be in the map. -/
  | unlinked (id : String) (h : Handle)
  /-- A delete prompt has taken the id out of the map and is purging its aliases. -/
  | purges (id : String) (h : Handle)
  /-- A create prompt has made it and not yet put it into the map. -/
  | brings (id : String) (h : Handle)
  deriving DecidableEq

def Task.role : Task → Role
  | .request h => .uses h
  | .delete id phase =>
    match phase with
    | .opened h | .asking h | .confirmed h | .checked h | .committed h => .marks id h
    | .unlinked h => .unlinked id h
    | .purging h _ => .purges id h
  | .create _ _ (.created id h) => .brings id h
  | _ => .none

/-- A task that moves on by itself keeps its role, gives it up, or looks a collection up. -/
def Role.Moves (collections : Std.ExtTreeMap String Handle) (role role' : Role) : Prop :=
  role' = role ∨ role' = .none ∨ ∃ id h, collections[id]? = some h ∧ (role' = .uses h ∨ role' = .marks id h)

/-- The roles that a task comes to only by touching a vault or the map. -/
def Role.fixed : Role → Bool
  | .unlinked .. | .purges .. | .brings .. => true
  | _ => false

variable {collections : Std.ExtTreeMap String Handle} {role : Role}

theorem Role.Moves.of_fixed {role' : Role} (moves : Role.Moves collections role role')
    (h : role'.fixed = true) : role = role' := by
  rcases moves with rfl | rfl | ⟨id, handle, -, rfl | rfl⟩
  · rfl
  · cases h
  · cases h
  · cases h

theorem Role.Moves.of_marks {id : String} {h : Handle}
    (moves : Role.Moves collections role (.marks id h)) :
    role = .marks id h ∨ collections[id]? = some h := by
  rcases moves with hsame | hnone | ⟨id', h', found, huses | hmarks⟩
  · exact .inl hsame.symm
  · cases hnone
  · cases huses
  · cases hmarks
    exact .inr found

theorem killed_role (task : Task) : task.killed.role = .none := by
  unfold Task.killed
  split
  · rfl
  · rfl

variable {dir : Dir} {task : Task}

theorem advance_role {st : ServiceState} {g g' : Gate} {task' : Task} {a : TaskAction}
    (h : task.advance st dir g a = some (task', g')) :
    Role.Moves st.collections task.role task'.role := by
  unfold Task.advance at h
  split at h
  case h_1 id =>
    obtain ⟨handle, found, heq⟩ := Option.map_eq_some_iff.mp h
    cases heq
    exact .inr (.inr ⟨id, handle, found, .inl rfl⟩)
  case h_4 id =>
    split at h
    next handle found =>
      cases h
      exact .inr (.inr ⟨id, handle, found, .inr rfl⟩)
    · cases h
      exact .inl rfl
  -- every other piece ends in the same role or in none
  all_goals repeat' split at h
  all_goals cases h
  all_goals first
    | exact .inl rfl
    | exact .inr (.inl rfl)
    | exact .inr (.inl (killed_role _))

theorem updated_role (task : Task) (call : CallPhase DbusError) :
    (task.updated call).role = task.role ∨ (task.updated call).role = .none := by
  unfold Task.updated
  split
  · split
    · exact .inl rfl
    · exact .inl rfl
  · split
    · exact .inl rfl
    · exact .inl rfl
  · split
    · exact .inr rfl
    · exact .inl rfl
  · exact .inl rfl

theorem afterError_role (label : String) (aliasName : Option String) (pin : Bytes) (attempt : Nat)
    (e : VaultError) : (Task.afterError label aliasName pin attempt e).role = .none := by
  unfold Task.afterError
  split
  · split
    · rfl
    · rfl
  · rfl

theorem afterInsert_role (label : String) (aliasName : Option String) (id : String) :
    (Task.afterInsert label aliasName id).role = .none := by
  unfold Task.afterInsert
  split
  · rfl
  · rfl

/-! ## Steps -/

variable {toml : Toml}

section

variable {t : ι}

theorem Daemon.world_some {h : Handle} {w : World} (found : s.world h = some w) :
    s.vaults[h]? = some w.vault ∧ w.file = s.dir[w.vault.path.name]? := by
  obtain ⟨v, hv, rfl⟩ := Option.map_eq_some_iff.mp found
  exact ⟨hv, rfl⟩

section

variable {h : Handle} {w : World} (w' : World)

theorem setWorld_before (found : s.world h = some w) (path : w'.vault.path = w.vault.path)
    {h' : Handle} {v' : Vault} (hv' : (s.setWorld h w').vaults[h']? = some v') :
    ∃ v, s.vaults[h']? = some v ∧ v'.path = v.path ∧ ((h' = h ∧ v = w.vault ∧ v' = w'.vault) ∨ (h' ≠ h ∧ v' = v)) := by
  obtain ⟨hv, -⟩ := Daemon.world_some found
  rcases (getElem?_set_eq_some hv).mp hv' with ⟨rfl, rfl⟩ | ⟨hne, hold⟩
  · exact ⟨w.vault, hv, path, .inl ⟨rfl, rfl, rfl⟩⟩
  · exact ⟨v', hold, rfl, .inr ⟨hne, rfl⟩⟩

theorem setWorld_after (found : s.world h = some w) (path : w'.vault.path = w.vault.path)
    {h' : Handle} {v : Vault} (hold : s.vaults[h']? = some v) :
    ∃ v', (s.setWorld h w').vaults[h']? = some v' ∧ v'.path = v.path ∧
      ((h' = h ∧ v = w.vault ∧ v' = w'.vault) ∨ (h' ≠ h ∧ v' = v)) := by
  obtain ⟨hv, -⟩ := Daemon.world_some found
  by_cases hh : h' = h
  · subst hh
    obtain rfl : w.vault = v := by rw [hv] at hold; exact Option.some.inj hold
    exact ⟨w'.vault, (getElem?_set_eq_some hv).mpr (.inl ⟨rfl, rfl⟩), path, .inl ⟨rfl, rfl, rfl⟩⟩
  · exact ⟨v, (getElem?_set_eq_some hv).mpr (.inr ⟨hh, hold⟩), rfl, .inr ⟨hh, rfl⟩⟩

end

/-- **A creation leaves every file that holds something as it is**, however it ends. -/
theorem create_keeps {env : CreateEnv} {id label name : String} {pin : Bytes}
    {r : Except VaultError Vault} {file : Option Bytes}
    (made : Vault.create x env (cfg.path id) label pin cfg.kdf dir[(cfg.path id).name]? = (r, file))
    {b : UInt8} {bs : Bytes} (present : dir[name]? = some (b :: bs)) :
    (dir.put (cfg.path id).name file)[name]? = some (b :: bs) := by
  rw [Dir.getElem?_put]
  split
  next hname =>
    obtain ⟨e, refused⟩ := create_occupied (x := x) b bs env (cfg.path id) label pin cfg.kdf
    rw [← hname, present, refused] at made
    exact (Prod.mk.inj made).2.symm
  · exact present

variable [DecidableEq ι]

theorem Daemon.setTask_role (s : Daemon ι) (t : ι) (task : Task) (t' : ι) :
    ((s.setTask t task).tasks t').role = if t' = t then task.role else (s.tasks t').role := by
  simp only [Daemon.setTask, Function.update_apply]
  split
  · rfl
  · rfl

theorem Daemon.setTask_role_eq {t' : ι} (h : ((s.setTask t task).tasks t').role = role) :
    (t' = t ∧ task.role = role) ∨ (t' ≠ t ∧ (s.tasks t').role = role) := by
  rw [Daemon.setTask_role] at h
  split at h
  next ht => exact .inl ⟨ht, h⟩
  next ht => exact .inr ⟨ht, h⟩

theorem Daemon.role_of_setTask {t' : ι} (h : ((s.setTask t task).tasks t').role = role)
    (other : task.role ≠ role) : (s.tasks t').role = role :=
  (Daemon.setTask_role_eq h).elim (fun self => absurd self.2 other) And.right

theorem Daemon.setTask_moves (moves : Role.Moves collections (s.tasks t).role task.role) (t' : ι) :
    Role.Moves collections (s.tasks t').role ((s.setTask t task).tasks t').role := by
  rw [Daemon.setTask_role]
  split
  next h => rwa [h]
  · exact .inl rfl

/-- The vaults a scan has opened and not merged. -/
def ScanPhase.opened : ScanPhase → List (String × Handle)
  | .idle => []
  | .scanning _ scan | .statted scan | .scanned scan _ => scan.opened

/-- Every way one step can end. -/
inductive DaemonStep (x : Externals) (toml : Toml) (cfg : Config) (s : Daemon ι) :
    Action ι → Daemon ι → Prop
  | task {t a task g} (moved : (s.tasks t).advance s.service s.dir (s.gates t) a = some (task, g)) :
      DaemonStep x toml cfg s (.task t a)
        { s.setTask t task with gates := Function.update s.gates t g }
  | gate {t a g} (moved : (s.gates t).step a = some g) :
      DaemonStep x toml cfg s (.gate t a) { s with gates := Function.update s.gates t g }
  | operate {t op h w} (task : s.tasks t = .request h) (world : s.world h = some w) :
      DaemonStep x toml cfg s (.operate t op) (s.setWorld h (op.apply x w).2)
  | unlinkLocked {t fault id h w} (task : s.tasks t = .delete id (.committed h))
      (world : s.world h = some w) (locked : w.vault.isLocked = true) :
      DaemonStep x toml cfg s (.unlink t fault) (s.setTask t (.returned none))
  | unlinkFailed {t fault id h w} (task : s.tasks t = .delete id (.committed h))
      (world : s.world h = some w) (unlocked : w.vault.isLocked = false)
      (failed : fault = none → w.file = none) :
      DaemonStep x toml cfg s (.unlink t fault)
        ((s.setWorld h ⟨w.vault.retire.unretire, w.file⟩).setTask t (.returned none))
  | unlink {t id h w bytes} (task : s.tasks t = .delete id (.committed h))
      (world : s.world h = some w) (unlocked : w.vault.isLocked = false)
      (present : w.file = some bytes) :
      DaemonStep x toml cfg s (.unlink t none)
        ((s.setWorld h ⟨w.vault.retire, none⟩).setTask t (.delete id (.unlinked h)))
  | unmap {t id h} (task : s.tasks t = .delete id (.unlinked h)) :
      DaemonStep x toml cfg s (.unmap t)
        { s.setTask t (.delete id (.purging h (.ready 1))) with
          service := { s.service with collections := s.service.collections.erase id } }
  | job {t env label aliasName pin attempt id v file}
      (task : s.tasks t = .create label aliasName (.running pin attempt id))
      (made : Vault.create x env (cfg.path id) label pin cfg.kdf s.dir[(cfg.path id).name]? = (.ok v, file)) :
      DaemonStep x toml cfg s (.job t env)
        { s.setTask t (.create label aliasName (.created id s.vaults.length)) with
          vaults := s.vaults ++ [v], dir := s.dir.put (cfg.path id).name file }
  | jobFailed {t env label aliasName pin attempt id e file}
      (task : s.tasks t = .create label aliasName (.running pin attempt id))
      (failed : Vault.create x env (cfg.path id) label pin cfg.kdf s.dir[(cfg.path id).name]? = (.error e, file)) :
      DaemonStep x toml cfg s (.job t env)
        { s.setTask t (.afterError label aliasName pin attempt e) with
          dir := s.dir.put (cfg.path id).name file }
  | orphan {t env label pin id v file} (task : s.tasks t = .orphan label pin id)
      (made : Vault.create x env (cfg.path id) label pin cfg.kdf s.dir[(cfg.path id).name]? = (.ok v, file)) :
      DaemonStep x toml cfg s (.job t env)
        { s.setTask t .dead with
          vaults := s.vaults ++ [v], dir := s.dir.put (cfg.path id).name file }
  | orphanFailed {t env label pin id e file} (task : s.tasks t = .orphan label pin id)
      (failed : Vault.create x env (cfg.path id) label pin cfg.kdf s.dir[(cfg.path id).name]? = (.error e, file)) :
      DaemonStep x toml cfg s (.job t env)
        { s.setTask t .dead with dir := s.dir.put (cfg.path id).name file }
  | insert {t label aliasName id h v} (task : s.tasks t = .create label aliasName (.created id h))
      (vault : s.vaults[h]? = some v) :
      DaemonStep x toml cfg s (.insert t)
        { s.setTask t (.afterInsert label aliasName id) with
          vaults := s.vaults.set h (v.setIndexAttributes cfg.indexAttributes)
          service := { s.service with collections := s.service.collections.insert id h } }
  | aliases {t env call phase phase' aliases aliasFile}
      (update : (s.tasks t).update = some (call, phase))
      (piece : updatePiece toml call s.service env s.aliasFile phase = (aliases, aliasFile, phase')) :
      DaemonStep x toml cfg s (.aliases t env)
        { s.setTask t ((s.tasks t).updated phase') with
          service := { s.service with aliases }, aliasFile }
  | entry {name loaded scan} (scanning : s.reload = .scanning loaded scan) :
      DaemonStep x toml cfg s (.reload (.entry name))
        { s with
          vaults := (scanEntry x cfg loaded name s.dir[name]? scan s.vaults).2
          reload := .scanning loaded (scanEntry x cfg loaded name s.dir[name]? scan s.vaults).1 }
  | reload {a phase} (kept : phase.opened = s.reload.opened ∨ phase.opened = []) :
      DaemonStep x toml cfg s (.reload a) { s with reload := phase }
  | merge {scan aliases} (scanned : s.reload = .scanned scan aliases) :
      DaemonStep x toml cfg s .merge
        { s with service := (mergeScan s.service scan aliases).1, reload := .idle }
  | externalVault (name : String) (file : Option Bytes) :
      DaemonStep x toml cfg s (.externalVault name file) { s with dir := s.dir.put name file }
  | externalAliases (aliasFile : Option Bytes) :
      DaemonStep x toml cfg s (.externalAliases aliasFile) { s with aliasFile }

theorem ScanPhase.afterLoad_opened (scan : VaultScan) (answer : Except IoError AliasMap) :
    (ScanPhase.afterLoad scan answer).opened = scan.opened ∨ (ScanPhase.afterLoad scan answer).opened = [] := by
  unfold ScanPhase.afterLoad
  split
  · exact .inl rfl
  · exact .inr rfl

theorem Daemon.reloadStep_inv {s' : Daemon ι} {a : ReloadAction}
    (h : s.reloadStep x toml cfg a = some s') : DaemonStep x toml cfg s (.reload a) s' := by
  cases a with (simp only [Daemon.reloadStep] at h)
  | start | fail =>
    split at h
    · cases h
      exact .reload (.inr rfl)
    · cases h
  | entry name =>
    split at h
    next scanning =>
      cases h
      exact .entry scanning
    · cases h
  | stat fault =>
    split at h
    next scanning =>
      split at h
      · cases h
        exact .reload (by rw [scanning]; exact ScanPhase.afterLoad_opened _ _)
      · cases h
        exact .reload (by rw [scanning]; exact .inl rfl)
    · cases h
  | read fault =>
    split at h
    next statted =>
      cases h
      exact .reload (by rw [statted]; exact ScanPhase.afterLoad_opened _ _)
    · cases h

/-- The rule for steps: **each is one of the listed changes**, so a proof about runs is by cases on
it. -/
theorem Daemon.step_inv {s' : Daemon ι} {a : Action ι} (h : s.step x toml cfg a = some s') :
    DaemonStep x toml cfg s a s' := by
  cases a with (simp only [Daemon.step] at h)
  | task t a =>
    obtain ⟨⟨task, g⟩, moved, rfl⟩ := Option.map_eq_some_iff.mp h
    exact .task moved
  | gate t a =>
    obtain ⟨g, moved, rfl⟩ := Option.map_eq_some_iff.mp h
    exact .gate moved
  | operate t op =>
    split at h
    next task =>
      obtain ⟨w, world, rfl⟩ := Option.map_eq_some_iff.mp h
      exact .operate task world
    · cases h
  | unlink t fault =>
    split at h
    next id handle task =>
      obtain ⟨w, world, rfl⟩ := Option.map_eq_some_iff.mp h
      split
      next locked => exact .unlinkLocked task world locked
      next unlocked =>
        have unlocked : w.vault.isLocked = false := by simpa using unlocked
        rcases removeFile_cases fault w.file with ⟨e, failed, hremove⟩ | ⟨bytes, rfl, present, hremove⟩
        · rw [hremove]
          exact .unlinkFailed task world unlocked failed
        · rw [hremove]
          exact .unlink task world unlocked present
    · cases h
  | unmap t =>
    split at h
    next task =>
      cases h
      exact .unmap task
    · cases h
  | job t env =>
    split at h
    next task =>
      split at h
      next made =>
        cases h
        exact .job task made
      next failed =>
        cases h
        exact .jobFailed task failed
    next task =>
      split at h
      next made =>
        cases h
        exact .orphan task made
      next failed =>
        cases h
        exact .orphanFailed task failed
    · cases h
  | insert t =>
    split at h
    next task =>
      obtain ⟨v, vault, rfl⟩ := Option.map_eq_some_iff.mp h
      exact .insert task vault
    · cases h
  | aliases t env =>
    obtain ⟨⟨call, phase⟩, update, rfl⟩ := Option.map_eq_some_iff.mp h
    exact .aliases update rfl
  | reload a => exact Daemon.reloadStep_inv h
  | merge =>
    split at h
    next scanned =>
      cases h
      exact .merge scanned
    · cases h
  | externalVault name file =>
    cases h
    exact .externalVault name file
  | externalAliases file =>
    cases h
    exact .externalAliases file

end

/-! ## Startup -/

theorem open_path {path : VaultPath} {file : Option Bytes} {v : Vault}
    (h : Vault.open x path file = .ok v) : v.path = path ∧ v.retired = false := by
  obtain ⟨bytes, vf, -, -, -, rfl⟩ := open_ok_iff.mp h
  exact ⟨rfl, rfl⟩

/-- What a scan of these entries has made: each vault was opened from an entry of its own. -/
structure Scanned (x : Externals) (cfg : Config) (entries : List (String × Bytes))
    (p : VaultScan × List Vault) : Prop where
  names : (p.2.map (·.path.name)).Sublist (entries.map Prod.fst)
  opens : ∀ {h : Handle} {v}, p.2[h]? = some v → ∃ id bytes v₀, ((cfg.path id).name, bytes) ∈ entries ∧
    Vault.open x (cfg.path id) (some bytes) = .ok v₀ ∧
    v = v₀.setIndexAttributes cfg.indexAttributes
  opened : ∀ {id : String} {h : Handle}, (id, h) ∈ p.1.opened → ∃ v, p.2[h]? = some v ∧ v.path = cfg.path id

theorem bootScan_scanned (x : Externals) (cfg : Config) (entries : List (String × Bytes)) :
    Scanned x cfg entries (bootScan x cfg entries) := by
  induction entries using List.reverseRecOn with
  | nil =>
    refine ⟨.slnil, ?_, ?_⟩
    · intro h v hv
      cases hv
    · intro id h hmem
      cases hmem
  | append_singleton entries entry ih =>
    have unfolded : bootScan x cfg (entries ++ [entry]) =
        scanEntry x cfg [] entry.1 (some entry.2) (bootScan x cfg entries).1
          (bootScan x cfg entries).2 := by
      simp only [bootScan, List.foldl_append, List.foldl_cons, List.foldl_nil]
    rw [unfolded]
    rcases scanEntry_cases x cfg [] entry.1 (some entry.2) (bootScan x cfg entries).1 (bootScan x cfg entries).2 with
      ⟨hopened, hvaults⟩ | ⟨id, v, hname, hopen, hopened, hvaults⟩
    · refine ⟨?_, ?_, ?_⟩
      · rw [hvaults, List.map_append]
        exact ih.names.trans (List.sublist_append_left _ _)
      · intro h v hv
        rw [hvaults] at hv
        obtain ⟨id, bytes, v₀, hmem, rest⟩ := ih.opens hv
        exact ⟨id, bytes, v₀, List.mem_append_left _ hmem, rest⟩
      · intro id h hmem
        rw [hopened] at hmem
        rw [hvaults]
        exact ih.opened hmem
    · have hpath : v.path = cfg.path id := (open_path hopen).1
      refine ⟨?_, ?_, ?_⟩
      · rw [hvaults, List.map_append, List.map_append]
        refine ih.names.append ?_
        simp [Vault.setIndexAttributes, hpath, hname]
      · intro h v' hv
        rw [hvaults] at hv
        rcases getElem?_concat_eq_some.mp hv with hv | ⟨-, rfl⟩
        · obtain ⟨id', bytes, v₀, hmem, rest⟩ := ih.opens hv
          exact ⟨id', bytes, v₀, List.mem_append_left _ hmem, rest⟩
        · exact ⟨id, entry.2, v, List.mem_append_right _ (by simp [← hname]), hopen, rfl⟩
      · intro id' h hmem
        rw [hvaults]
        rw [hopened] at hmem
        rcases List.mem_append.mp hmem with hmem | hmem
        · obtain ⟨v', hv', hpath'⟩ := ih.opened hmem
          exact ⟨v', getElem?_concat_eq_some.mpr (.inl hv'), hpath'⟩
        · obtain ⟨rfl, rfl⟩ := Prod.mk.inj (List.mem_singleton.mp hmem)
          exact ⟨_, getElem?_concat_eq_some.mpr (.inr ⟨rfl, rfl⟩), hpath⟩

/-- The daemon as `boot` leaves it: each vault is open at its own path, from the file that is there.
-/
structure Booted (x : Externals) (cfg : Config) {ι : Type} (s : Daemon ι) : Prop where
  names : (s.vaults.map (·.path.name)).Nodup
  opens : ∀ {h : Handle} {v}, s.vaults[h]? = some v → ∃ id bytes v₀,
    s.dir[(cfg.path id).name]? = some bytes ∧ Vault.open x (cfg.path id) (some bytes) = .ok v₀ ∧
    v = v₀.setIndexAttributes cfg.indexAttributes
  collections : ∀ {id : String} {h : Handle}, s.service.collections[id]? = some h →
    ∃ v, s.vaults[h]? = some v ∧ v.path = cfg.path id
  tasks : ∀ t, s.tasks t = .idle
  gates : ∀ t, s.gates t = .new
  reload : s.reload = .idle

theorem Daemon.boot_booted {aliasFile : Option Bytes}
    (h : Daemon.boot ι x toml cfg dir aliasFile = some s) : Booted x cfg s := by
  obtain ⟨aliases, -, rfl⟩ := Option.map_eq_some_iff.mp h
  have scanned := bootScan_scanned x cfg dir.toList
  refine ⟨(Dir.names_nodup dir).sublist scanned.names, ?_, ?_, fun _ => rfl, fun _ => rfl, rfl⟩
  · intro h v hv
    obtain ⟨id, bytes, v₀, hmem, rest⟩ := scanned.opens hv
    exact ⟨id, bytes, v₀, Std.ExtTreeMap.mem_toList_iff_getElem?_eq_some.mp hmem, rest⟩
  · intro id h hfound
    rcases mergeScan_collections { collections := ∅, broken := ∅, aliases := .usable ∅ }
      (bootScan x cfg dir.toList).1 aliases id with hsame | ⟨h', hmem, hh'⟩
    · rw [hsame] at hfound
      simp at hfound
    · rw [hh'] at hfound
      cases hfound
      exact scanned.opened hmem

end SecretManager
