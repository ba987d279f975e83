import SecretManager.Laws.Dbus.Daemon
import SecretManager.Dbus.Reference

/-!
# Deletes are final and hit their own vault

A delete prompt looks its vault up once, waits for the user, and then unlinks the vault's file under
the vault's own lock; the map entry and the aliases are removed afterwards, by id. Two prompts can
hold one vault. The second finds it retired: if its unlink fails, as it does when the file is gone,
it takes the retirement back and the vault can write again; if the unlink succeeds, the file was
another vault's. And an id that was created anew while the first prompt was between its unlink and
the end of its purge loses its entry or its aliases. Where neither happens, deletes are final.
-/

namespace SecretManager

open Function Daemon

variable {ι : Type} {h : Handle} {s : Daemon ι} {id : String}

variable {x : Externals} {toml : Toml} {cfg : Config}

/-! ## What is recorded -/

/-- What a run has done to the vault files. -/
structure DeleteLog where
  /-- The vault a file belongs to: the one opened from it, or the one whose creation made it. -/
  owner : String → Option Handle
  /-- The vault that was put into the map last under an id. -/
  last : String → Option Handle
  /-- The vaults whose file a confirmed delete has unlinked. -/
  deleted : Handle → Bool
  /-- A call through such a vault has written the file at its path. -/
  revived : Bool
  /-- A delete has unlinked a file that is not its own vault's, -/
  strayUnlink : Bool
  /-- has taken another vault out of the collection map, -/
  strayUnmap : Bool
  /-- or has dropped an alias of an id that had come to stand for another vault. -/
  strayPurge : Bool

def DeleteLog.start (s : Daemon ι) : DeleteLog where
  owner name := s.vaults.findIdx? fun v => v.path.name == name
  last id := s.service.collections[id]?
  deleted _ := false
  revived := false
  strayUnlink := false
  strayUnmap := false
  strayPurge := false

/-- The id stands for a vault other than this one. -/
def ServiceState.standsForOther (st : ServiceState) (id : String) (h : Handle) : Bool :=
  st.collections[id]?.any fun h' => h' != h

def dropsAlias (id : String) (before after : AliasTable) : Bool :=
  before.known.toList.any fun entry => entry.2 == id && after.known[entry.1]? != some id

/-- The log once a delete has unlinked the file of `h`. -/
def DeleteLog.unlink (log : DeleteLog) (h : Handle) (w : World) : DeleteLog :=
  { log with
    owner := Function.update log.owner w.vault.path.name none
    deleted := Function.update log.deleted h true
    strayUnlink := log.strayUnlink || decide (log.owner w.vault.path.name ≠ some h) }

/-- The log once the vault that gets the number `h` was created. -/
def DeleteLog.create (log : DeleteLog) (h : Handle) (v : Vault) : DeleteLog :=
  { log with owner := Function.update log.owner v.path.name (some h) }

/-- The log once an id has come to stand for the vault `h`. -/
def DeleteLog.insert (log : DeleteLog) (id : String) (h : Handle) : DeleteLog :=
  { log with last := Function.update log.last id (some h) }

def DeleteLog.record (before : Daemon ι) (a : Action ι) (after : Daemon ι) (log : DeleteLog) :
    DeleteLog :=
  match a with
  | .operate t _ =>
    match before.tasks t with
    | .request h =>
      match before.world h with
      | some w =>
        { log with revived := log.revived ||
            (log.deleted h && decide (after.dir[w.vault.path.name]? ≠ w.file)) }
      | none => log
    | _ => log
  | .unlink t _ =>
    match before.tasks t, after.tasks t with
    | .delete _ (.committed h), .delete _ (.unlinked _) =>
      match before.world h with
      | some w => log.unlink h w
      | none => log
    | _, _ => log
  | .unmap t =>
    match before.tasks t with
    | .delete id (.unlinked h) =>
      { log with strayUnmap := log.strayUnmap || before.service.standsForOther id h }
    | _ => log
  | .aliases t _ =>
    match before.tasks t with
    | .delete id (.purging h _) =>
      { log with strayPurge := log.strayPurge || (decide (log.last id ≠ some h) &&
          dropsAlias id before.service.aliases after.service.aliases) }
    | _ => log
  | .insert t =>
    match before.tasks t with
    | .create _ _ (.created id h) => log.insert id h
    | _ => log
  | .job _ _ =>
    match after.vaults[before.vaults.length]? with
    | some v => log.create before.vaults.length v
    | none => log
  | _ => log

/-! ## The discipline -/

/-- The vault whose file a task unlinks next. -/
def Task.unlinks : Task → Option Handle
  | .delete _ (.committed h) => some h
  | _ => none

/-- The id a create puts into the map next. -/
def Role.brought : Role → Option String
  | .brings id _ => some id
  | _ => .none

/-- The task has unlinked the file of `id` and not finished with its aliases. -/
def Role.deletes (id : String) : Role → Bool
  | .unlinked id' _ | .purges id' _ => id' == id
  | _ => false

/-- No delete retires an unlocked vault that is retired already, and no create brings an id back
while a delete of that id is between its unlink and the end of its purge. Neither a Reload nor
another program takes part. -/
def deletesInTurn (p : Daemon ι × DeleteLog) : Action ι → Prop
  | .unlink t _ => ∀ h ∈ (p.1.tasks t).unlinks, ∀ v ∈ p.1.vaults[h]?,
      v.isLocked = true ∨ v.retired = false
  | .insert t => ∀ id ∈ (p.1.tasks t).role.brought, ∀ t', (p.1.tasks t').role.deletes id = false
  | .reload _ | .merge | .externalVault _ _ => False
  | _ => True

/-- The same runs without the discipline. -/
def noReload (_ : Daemon ι × DeleteLog) : Action ι → Bool
  | .reload _ | .merge | .externalVault _ _ => false
  | _ => true

instance [Fintype ι] (p : Daemon ι × DeleteLog) : (a : Action ι) → Decidable (deletesInTurn p a)
  | .unlink t _ => inferInstanceAs (Decidable (∀ h ∈ (p.1.tasks t).unlinks,
      ∀ v ∈ p.1.vaults[h]?, v.isLocked = true ∨ v.retired = false))
  | .insert t => inferInstanceAs (Decidable (∀ id ∈ (p.1.tasks t).role.brought,
      ∀ t', (p.1.tasks t').role.deletes id = false))
  | .reload _ | .merge | .externalVault _ _ => inferInstanceAs (Decidable False)
  | .task _ _ | .gate _ _ | .operate _ _ | .unmap _ | .job _ _ | .aliases _ _
  | .externalAliases _ => inferInstanceAs (Decidable True)

/-! ## Vaults and their files -/

/-- A vault is retired exactly when its file was deleted. One that is not owns the file at its path,
so no two that are not share a path. -/
structure FilesOwned (cfg : Config) (s : Daemon ι) (log : DeleteLog) : Prop where
  deleted : ∀ {h : Handle}, log.deleted h = true → ∃ v, s.vaults[h]? = some v
  retired : ∀ {h : Handle} {v}, s.vaults[h]? = some v → v.retired = log.deleted h
  live : ∀ {h : Handle} {v}, s.vaults[h]? = some v → v.retired = false →
    log.owner v.path.name = some h ∧ ∃ b bs, s.dir[v.path.name]? = some (b :: bs)
  mapped : ∀ {id : String} {h : Handle}, s.service.collections[id]? = some h →
    ∃ v, s.vaults[h]? = some v ∧ v.path = cfg.path id
  last : ∀ {id : String} {h : Handle}, s.service.collections[id]? = some h → log.last id = some h

variable {log : DeleteLog} {v : Vault}

theorem FilesOwned.unique (owned : FilesOwned cfg s log) {h' : Handle} {v' : Vault}
    (hv : s.vaults[h]? = some v) (hv' : s.vaults[h']? = some v') (live : v.retired = false)
    (live' : v'.retired = false) (same : v.path.name = v'.path.name) : h = h' := by
  have howner := (owned.live hv live).1
  rw [same, (owned.live hv' live').1] at howner
  exact (Option.some.inj howner).symm

theorem FilesOwned.quiet {s' : Daemon ι} (owned : FilesOwned cfg s log)
    (vaults : ∀ h : Handle, s'.vaults[h]? = s.vaults[h]?)
    (files : ∀ {h : Handle} {v}, s.vaults[h]? = some v → v.retired = false → s'.dir[v.path.name]? =
      s.dir[v.path.name]?) (collections : s'.service.collections = s.service.collections) :
    FilesOwned cfg s' log := by
  refine ⟨?_, ?_, ?_, ?_, ?_⟩
  · intro h hdeleted
    rw [vaults]
    exact owned.deleted hdeleted
  · intro h v hv
    rw [vaults] at hv
    exact owned.retired hv
  · intro h v hv live
    rw [vaults] at hv
    rw [files hv live]
    exact owned.live hv live
  · intro id h found
    rw [collections] at found
    rw [vaults]
    exact owned.mapped found
  · intro id h found
    rw [collections] at found
    exact owned.last found

section

variable {w w' : World}
variable (owned : FilesOwned cfg s log) (found : s.world h = some w)
include owned found

theorem FilesOwned.operate (follows : w.Follows w') : FilesOwned cfg (s.setWorld h w') log := by
  obtain ⟨hv, hfile⟩ := world_some found
  refine ⟨?_, ?_, ?_, ?_, owned.last⟩
  · intro h' hdeleted
    obtain ⟨v, hold⟩ := owned.deleted hdeleted
    obtain ⟨v', hv', -⟩ := setWorld_after _ found follows.path hold
    exact ⟨v', hv'⟩
  · intro h' v' hv'
    obtain ⟨v, hold, -, ⟨rfl, rfl, rfl⟩ | ⟨-, rfl⟩⟩ := setWorld_before _ found follows.path hv'
    · exact follows.retired.trans (owned.retired hv)
    · exact owned.retired hold
  · intro h' v' hv' live'
    obtain ⟨v, hold, hpath, hcase⟩ := setWorld_before _ found follows.path hv'
    have live : v.retired = false := by
      rcases hcase with ⟨-, rfl, rfl⟩ | ⟨-, rfl⟩
      · exact follows.retired.symm.trans live'
      · exact live'
    obtain ⟨howner, b, bs, hbytes⟩ := owned.live hold live
    rw [hpath]
    refine ⟨howner, ?_⟩
    change ∃ b bs, (s.dir.put w'.vault.path.name w'.file)[v.path.name]? = some (b :: bs)
    rw [Dir.getElem?_put, follows.path]
    split
    next hname =>
      rcases follows.file with hsame | ⟨-, hnew⟩
      · exact ⟨b, bs, by rw [hsame, hfile, ← hname]; exact hbytes⟩
      · exact hnew
    · exact ⟨b, bs, hbytes⟩
  · intro id h' hfound
    obtain ⟨v, hold, hpath⟩ := owned.mapped hfound
    obtain ⟨v', hv', hpath', -⟩ := setWorld_after _ found follows.path hold
    exact ⟨v', hv', hpath'.trans hpath⟩

theorem FilesOwned.not_revived (follows : w.Follows w') (hdeleted : log.deleted h = true) :
    w'.file = w.file := by
  obtain ⟨hv, -⟩ := world_some found
  rcases follows.file with hsame | ⟨live, -⟩
  · exact hsame
  · rw [owned.retired hv, hdeleted] at live
    cases live

theorem FilesOwned.unlink (live : w.vault.retired = false) :
    FilesOwned cfg (s.setWorld h ⟨w.vault.retire, none⟩) (log.unlink h w) := by
  obtain ⟨hv, -⟩ := world_some found
  refine ⟨?_, ?_, ?_, ?_, owned.last⟩
  · intro h' hdeleted
    have hold : ∃ v, s.vaults[h']? = some v := by
      by_cases hh : h' = h
      · exact ⟨w.vault, hh ▸ hv⟩
      · simp only [DeleteLog.unlink, update_of_ne hh] at hdeleted
        exact owned.deleted hdeleted
    obtain ⟨v, hold⟩ := hold
    obtain ⟨v', hv', -⟩ := setWorld_after ⟨w.vault.retire, none⟩ found rfl hold
    exact ⟨v', hv'⟩
  · intro h' v' hv'
    obtain ⟨v, hold, -, ⟨rfl, rfl, rfl⟩ | ⟨hne, rfl⟩⟩ :=
      setWorld_before ⟨w.vault.retire, none⟩ found rfl hv'
    · exact (update_self h' true log.deleted).symm
    · simp only [DeleteLog.unlink, update_of_ne hne]
      exact owned.retired hold
  · intro h' v' hv' live'
    obtain ⟨v, hold, -, ⟨rfl, rfl, rfl⟩ | ⟨hne, rfl⟩⟩ :=
      setWorld_before ⟨w.vault.retire, none⟩ found rfl hv'
    · cases live'
    · -- neither vault is retired, so they stand for different files
      have hname : v'.path.name ≠ w.vault.path.name :=
        fun hname => hne (owned.unique hold hv live' live hname)
      obtain ⟨howner, b, bs, hbytes⟩ := owned.live hold live'
      refine ⟨?_, b, bs, ?_⟩
      · simp only [DeleteLog.unlink, update_of_ne hname]
        exact howner
      · change (s.dir.put w.vault.path.name none)[v'.path.name]? = _
        rw [Dir.getElem?_put, if_neg hname]
        exact hbytes
  · intro id h' hfound
    obtain ⟨v, hold, hpath⟩ := owned.mapped hfound
    obtain ⟨v', hv', hpath', -⟩ :=
      setWorld_after ⟨w.vault.retire, none⟩ found rfl hold
    exact ⟨v', hv', hpath'.trans hpath⟩

end

variable {env : CreateEnv} {file : Option Bytes} {label : String} {pin : Bytes}

theorem FilesOwned.create (owned : FilesOwned cfg s log)
    (made : Vault.create x env (cfg.path id) label pin cfg.kdf s.dir[(cfg.path id).name]? =
      (.ok v, file)) : FilesOwned cfg
      { s with vaults := s.vaults ++ [v], dir := s.dir.put (cfg.path id).name file }
      (log.create s.vaults.length v) := by
  obtain ⟨hpath, live, b, bs, rfl⟩ := create_identity made
  have fresh : ∀ h : Handle, log.deleted h = true → h ≠ s.vaults.length := by
    rintro h hdeleted rfl
    obtain ⟨v', hv'⟩ := owned.deleted hdeleted
    simp at hv'
  -- a vault in use has bytes at its path, and there the creation would have been refused
  have apart : ∀ {h : Handle} {v'}, s.vaults[h]? = some v' → v'.retired = false →
      v'.path.name ≠ (cfg.path id).name := by
    intro h v' hv' live' hname
    obtain ⟨-, b', bs', hbytes⟩ := owned.live hv' live'
    rw [hname] at hbytes
    obtain ⟨e, refused⟩ := create_occupied (x := x) b' bs' env (cfg.path id) label pin cfg.kdf
    rw [hbytes, refused] at made
    cases (Prod.mk.inj made).1
  refine ⟨?_, ?_, ?_, ?_, owned.last⟩
  · intro h hdeleted
    obtain ⟨v', hv'⟩ := owned.deleted hdeleted
    exact ⟨v', getElem?_concat_eq_some.mpr (.inl hv')⟩
  · intro h v' hv'
    rcases getElem?_concat_eq_some.mp hv' with hold | ⟨rfl, rfl⟩
    · exact owned.retired hold
    · have := fresh s.vaults.length
      simp only [ne_eq, not_true_eq_false, imp_false, Bool.not_eq_true] at this
      exact live.trans this.symm
  · intro h v' hv' live'
    rcases getElem?_concat_eq_some.mp hv' with hold | ⟨rfl, rfl⟩
    · have hname := apart hold live'
      obtain ⟨howner, hbytes⟩ := owned.live hold live'
      refine ⟨?_, ?_⟩
      · simp only [DeleteLog.create, hpath, update_of_ne hname]
        exact howner
      · simp only [Dir.getElem?_put, if_neg hname]
        exact hbytes
    · refine ⟨update_self _ _ _, b, bs, ?_⟩
      simp only [Dir.getElem?_put, hpath, if_true]
  · intro id' h hfound
    obtain ⟨v', hv', hpath'⟩ := owned.mapped hfound
    exact ⟨v', getElem?_concat_eq_some.mpr (.inl hv'), hpath'⟩

theorem FilesOwned.create_failed (owned : FilesOwned cfg s log) {e : VaultError}
    (failed : Vault.create x env (cfg.path id) label pin cfg.kdf s.dir[(cfg.path id).name]? =
      (.error e, file)) (hv : s.vaults[h]? = some v) (live : v.retired = false) :
    (s.dir.put (cfg.path id).name file)[v.path.name]? = s.dir[v.path.name]? := by
  obtain ⟨-, b, bs, hbytes⟩ := owned.live hv live
  rw [hbytes]
  exact create_keeps failed hbytes

theorem FilesOwned.insert (owned : FilesOwned cfg s log) (hv : s.vaults[h]? = some v)
    (hpath : v.path = cfg.path id) (enabled : Bool) : FilesOwned cfg
      { s with
        vaults := s.vaults.set h (v.setIndexAttributes enabled)
        service := { s.service with collections := s.service.collections.insert id h } }
      (log.insert id h) := by
  have found : s.world h = some ⟨v, s.dir[v.path.name]?⟩ := by
    simp only [world, hv, Option.map_some]
  have follows : World.Follows ⟨v, s.dir[v.path.name]?⟩
      ⟨v.setIndexAttributes enabled, s.dir[v.path.name]?⟩ := ⟨rfl, rfl, .inl rfl⟩
  have replaced := owned.operate found follows
  refine ⟨replaced.deleted, replaced.retired, ?_, ?_, ?_⟩
  · intro h' v' hv' live'
    obtain ⟨howner, b, bs, hbytes⟩ := replaced.live hv' live'
    exact ⟨howner, b, bs, (Dir.getElem?_put_self _ _ _).symm.trans hbytes⟩
  · intro id' h' hfound
    simp only [Std.ExtTreeMap.getElem?_insert, Std.LawfulEqCmp.compare_eq_iff_eq] at hfound
    split at hfound
    next hid =>
      subst hid
      cases hfound
      exact ⟨_, (getElem?_set_eq_some hv).mpr (.inl ⟨rfl, rfl⟩), hpath⟩
    · exact replaced.mapped hfound
  · intro id' h' hfound
    simp only [Std.ExtTreeMap.getElem?_insert, Std.LawfulEqCmp.compare_eq_iff_eq] at hfound
    simp only [DeleteLog.insert, update_apply]
    split at hfound
    next hid => rw [if_pos hid.symm, hfound]
    next hid =>
      rw [if_neg (Ne.symm hid)]
      exact replaced.last hfound

/-! ## Prompts -/

/-- No delete has marked the vault, and no create but this one brings it. -/
def Daemon.KnownOnlyTo (s : Daemon ι) (t : ι) (h : Handle) : Prop :=
  ∀ t' id, (s.tasks t').role ≠ .marks id h ∧ ((s.tasks t').role = .brings id h → t' = t)

/-- A prompt that has marked a vault in use finds it in the map; once it has unlinked the file, the
map holds under its id the deleted vault or nothing, and no other vault has come to stand for the id
until the prompt is done. A vault that a create brings is known to no one else. -/
structure PromptsPlaced (cfg : Config) (s : Daemon ι) (log : DeleteLog) : Prop where
  marks : ∀ {t id h}, (s.tasks t).role = .marks id h → ∃ v, s.vaults[h]? = some v ∧
    v.path = cfg.path id ∧ (v.retired = false → s.service.collections[id]? = some h)
  unlinked : ∀ {t id h}, (s.tasks t).role = .unlinked id h → log.deleted h = true ∧
    log.last id = some h ∧ ∀ h', s.service.collections[id]? = some h' → h' = h
  purges : ∀ {t id h}, (s.tasks t).role = .purges id h → log.last id = some h
  brings : ∀ {t id h}, (s.tasks t).role = .brings id h →
    (∃ v, s.vaults[h]? = some v ∧ v.path = cfg.path id ∧ v.retired = false) ∧
    (∀ id' : String, s.service.collections[id']? ≠ some h) ∧ s.KnownOnlyTo t h

theorem PromptsPlaced.quiet {s' : Daemon ι} (placed : PromptsPlaced cfg s log)
    (owned : FilesOwned cfg s log)
    (vaults : ∀ {h : Handle} {v}, s.vaults[h]? = some v → ∃ v', s'.vaults[h]? = some v' ∧
      v'.path = v.path ∧ v'.retired = v.retired)
    (collections : s'.service.collections = s.service.collections)
    (roles : ∀ t, Role.Moves s.service.collections (s.tasks t).role (s'.tasks t).role) :
    PromptsPlaced cfg s' log := by
  have moved : ∀ {t role}, (s'.tasks t).role = role → Role.Moves s.service.collections (s.tasks t).role role := by
    rintro t role rfl
    exact roles t
  refine ⟨?_, ?_, ?_, ?_⟩
  · intro t id h hrole
    rw [collections]
    rcases (moved hrole).of_marks with hold | hfound
    · obtain ⟨v, hv, hpath, hmap⟩ := placed.marks hold
      obtain ⟨v', hv', hpath', hretired⟩ := vaults hv
      exact ⟨v', hv', hpath'.trans hpath, fun live => hmap (hretired.symm.trans live)⟩
    · obtain ⟨v, hv, hpath⟩ := owned.mapped hfound
      obtain ⟨v', hv', hpath', -⟩ := vaults hv
      exact ⟨v', hv', hpath'.trans hpath, fun _ => hfound⟩
  · intro t id h hrole
    rw [collections]
    exact placed.unlinked ((moved hrole).of_fixed rfl)
  · intro t id h hrole
    exact placed.purges ((moved hrole).of_fixed rfl)
  · intro t id h hrole
    obtain ⟨⟨v, hv, hpath, live⟩, unmapped, alone⟩ := placed.brings ((moved hrole).of_fixed rfl)
    obtain ⟨v', hv', hpath', hretired⟩ := vaults hv
    rw [collections]
    refine ⟨⟨v', hv', hpath'.trans hpath, hretired.trans live⟩, unmapped, fun t' id' => ⟨?_, ?_⟩⟩
    · intro hmarked
      rcases (moved hmarked).of_marks with hold | hfound
      · exact (alone t' id').1 hold
      · exact unmapped id' hfound
    · exact fun hbrings => (alone t' id').2 ((moved hbrings).of_fixed rfl)

variable {task : Task}

section

variable [DecidableEq ι] {t : ι}

omit [DecidableEq ι] in
theorem of_erase {collections : Std.ExtTreeMap String Handle} {id' : String} {h' : Handle}
    (found : (collections.erase id)[id']? = some h') : collections[id']? = some h' := by
  rw [Std.ExtTreeMap.getElem?_erase] at found
  split at found
  · cases found
  · exact found

theorem KnownOnlyTo.setTask {t' : ι} (alone : s.KnownOnlyTo t' h)
    (unmarked : ∀ id, task.role ≠ .marks id h) (unbrought : ∀ id, task.role ≠ .brings id h) :
    (s.setTask t task).KnownOnlyTo t' h := by
  intro t'' id
  constructor
  · exact fun marked => (alone t'' id).1 (role_of_setTask marked (unmarked id))
  · exact fun brings => (alone t'' id).2 (role_of_setTask brings (unbrought id))

theorem PromptsPlaced.unlink (placed : PromptsPlaced cfg s log) (owned : FilesOwned cfg s log)
    {w : World} (task : s.tasks t = .delete id (.committed h)) (found : s.world h = some w)
    (live : w.vault.retired = false) :
    PromptsPlaced cfg ((s.setWorld h ⟨w.vault.retire, none⟩).setTask t (.delete id (.unlinked h)))
      (log.unlink h w) := by
  obtain ⟨hv, -⟩ := world_some found
  have marked : (s.tasks t).role = .marks id h := by rw [task]; rfl
  refine ⟨?_, ?_, ?_, ?_⟩
  · intro t' id' h' hrole
    obtain ⟨v, hv, hpath, hmap⟩ := placed.marks (role_of_setTask hrole nofun)
    obtain ⟨v', hv', hpath', ⟨-, -, rfl⟩ | ⟨-, rfl⟩⟩ :=
      setWorld_after ⟨w.vault.retire, none⟩ found rfl hv
    · exact ⟨_, hv', hpath'.trans hpath, fun live' => by cases live'⟩
    · exact ⟨v', hv', hpath, hmap⟩
  · intro t' id' h' hrole
    rcases setTask_role_eq hrole with ⟨-, heq⟩ | ⟨-, hold⟩
    · cases heq
      obtain ⟨v, hv', -, hmap⟩ := placed.marks marked
      obtain rfl : w.vault = v := by rw [hv] at hv'; exact Option.some.inj hv'
      refine ⟨by simp only [DeleteLog.unlink, update_self], owned.last (hmap live), ?_⟩
      intro h' hfound
      have hfound' : s.service.collections[id]? = some h' := hfound
      rw [hmap live] at hfound'
      exact (Option.some.inj hfound').symm
    · obtain ⟨hdeleted, rest⟩ := placed.unlinked hold
      refine ⟨?_, rest⟩
      simp only [DeleteLog.unlink, update_apply]
      split
      · rfl
      · exact hdeleted
  · exact fun hrole => placed.purges (role_of_setTask hrole nofun)
  · intro t' id' h' hrole
    obtain ⟨⟨v, hv, hpath, live'⟩, unmapped, alone⟩ :=
      placed.brings (role_of_setTask hrole nofun)
    obtain ⟨v', hv', hpath', ⟨rfl, -, -⟩ | ⟨-, rfl⟩⟩ :=
      setWorld_after ⟨w.vault.retire, none⟩ found rfl hv
    · exact absurd marked (alone t id).1
    · exact ⟨⟨v', hv', hpath, live'⟩, unmapped, KnownOnlyTo.setTask alone nofun nofun⟩

theorem PromptsPlaced.unmap (placed : PromptsPlaced cfg s log) (owned : FilesOwned cfg s log)
    (task : s.tasks t = .delete id (.unlinked h)) : PromptsPlaced cfg
      { s.setTask t (.delete id (.purging h (.ready 1))) with
        service := { s.service with collections := s.service.collections.erase id } } log := by
  obtain ⟨hdeleted, hlast, hmap⟩ := placed.unlinked (show (s.tasks t).role = .unlinked id h by rw [task]; rfl)
  refine ⟨?_, ?_, ?_, ?_⟩
  · intro t' id' h' hrole
    obtain ⟨v, hv, hpath, hmarked⟩ := placed.marks (role_of_setTask hrole nofun)
    refine ⟨v, hv, hpath, fun live => ?_⟩
    have hfound := hmarked live
    -- under the id of the delete stands its own vault, which is retired
    have hne : id' ≠ id := by
      rintro rfl
      obtain rfl := hmap h' hfound
      rw [owned.retired hv, hdeleted] at live
      cases live
    rw [Std.ExtTreeMap.getElem?_erase, if_neg (by simpa using hne.symm)]
    exact hfound
  · intro t' id' h' hrole
    obtain ⟨hdeleted', hlast', hmap'⟩ := placed.unlinked (role_of_setTask hrole nofun)
    exact ⟨hdeleted', hlast', fun h'' hfound => hmap' h'' (of_erase hfound)⟩
  · intro t' id' h' hrole
    rcases setTask_role_eq hrole with ⟨-, heq⟩ | ⟨-, hold⟩
    · cases heq
      exact hlast
    · exact placed.purges hold
  · intro t' id' h' hrole
    obtain ⟨hvault, unmapped, alone⟩ := placed.brings (role_of_setTask hrole nofun)
    exact ⟨hvault, fun id'' hfound => unmapped id'' (of_erase hfound), KnownOnlyTo.setTask alone nofun nofun⟩

theorem PromptsPlaced.bring (placed : PromptsPlaced cfg s log) (hv : s.vaults[h]? = some v)
    (hpath : v.path = cfg.path id) (live : v.retired = false)
    (unmapped : ∀ id' : String, s.service.collections[id']? ≠ some h)
    (unknown : ∀ t' id', (s.tasks t').role ≠ .marks id' h ∧ (s.tasks t').role ≠ .brings id' h)
    (role : task.role = .brings id h) : PromptsPlaced cfg (s.setTask t task) log := by
  have before : ∀ {t' role'}, ((s.setTask t task).tasks t').role = role' → role' ≠ .brings id h →
      (s.tasks t').role = role' :=
    fun hrole other => role_of_setTask hrole fun self => other (self.symm.trans role)
  refine ⟨fun hrole => placed.marks (before hrole nofun), fun hrole =>
    placed.unlinked (before hrole nofun), fun hrole => placed.purges (before hrole nofun), ?_⟩
  intro t' id' h' hrole
  rcases setTask_role_eq hrole with ⟨rfl, self⟩ | ⟨-, hold⟩
  · cases role.symm.trans self
    refine ⟨⟨v, hv, hpath, live⟩, unmapped, fun t'' id'' => ⟨?_, ?_⟩⟩
    · exact fun marked => (unknown t'' id'').1 (before marked nofun)
    · intro brings
      rcases setTask_role_eq brings with ⟨same, -⟩ | ⟨-, hold⟩
      · exact same
      · exact absurd hold (unknown t'' id'').2
  · obtain ⟨hvault, unmapped', alone⟩ := placed.brings hold
    refine ⟨hvault, unmapped', KnownOnlyTo.setTask alone (by simp [role]) fun id'' self => ?_⟩
    cases role.symm.trans self
    exact (unknown t' id').2 hold

omit [DecidableEq ι] in
theorem PromptsPlaced.map (placed : PromptsPlaced cfg s log)
    (alone : ∀ t' h', (s.tasks t').role ≠ .unlinked id h' ∧ (s.tasks t').role ≠ .purges id h')
    (marked : ∀ {t' h' v'}, (s.tasks t').role = .marks id h' → s.vaults[h']? = some v' →
      v'.retired = false → h' = h) (unbrought : ∀ t' id', (s.tasks t').role ≠ .brings id' h) :
    PromptsPlaced cfg
      { s with service := { s.service with collections := s.service.collections.insert id h } }
      (log.insert id h) := by
  have other : ∀ {id' : String}, id' ≠ id →
      (s.service.collections.insert id h)[id']? = s.service.collections[id']? := by
    intro id' hne
    rw [Std.ExtTreeMap.getElem?_insert, if_neg (by simpa using hne.symm)]
  have self : (s.service.collections.insert id h)[id]? = some h :=
    Std.ExtTreeMap.getElem?_insert_self
  refine ⟨?_, ?_, ?_, ?_⟩
  · intro t' id' h' hrole
    obtain ⟨v', hv', hpath, hmap⟩ := placed.marks hrole
    refine ⟨v', hv', hpath, fun live => ?_⟩
    change (s.service.collections.insert id h)[id']? = some h'
    by_cases hid : id' = id
    · subst hid
      rw [self, marked hrole hv' live]
    · rw [other hid]
      exact hmap live
  · intro t' id' h' hrole
    obtain ⟨hdeleted, hlast, hmap⟩ := placed.unlinked hrole
    have hid : id' ≠ id := by
      rintro rfl
      exact (alone t' h').1 hrole
    refine ⟨hdeleted, ?_, fun h'' hfound => hmap h'' ((other hid).symm.trans hfound)⟩
    simp only [DeleteLog.insert, update_of_ne hid]
    exact hlast
  · intro t' id' h' hrole
    have hid : id' ≠ id := by
      rintro rfl
      exact (alone t' h').2 hrole
    simp only [DeleteLog.insert, update_of_ne hid]
    exact placed.purges hrole
  · intro t' id' h' hrole
    obtain ⟨hvault, unmapped, known⟩ := placed.brings hrole
    refine ⟨hvault, fun id'' hfound => ?_, known⟩
    by_cases hid : id'' = id
    · subst hid
      obtain rfl : h = h' := Option.some.inj (self.symm.trans hfound)
      exact unbrought t' id' hrole
    · exact unmapped id'' ((other hid).symm.trans hfound)

end

/-! ## Every step -/

/-- What holds in every state that disciplined runs reach. -/
structure DeleteInv (cfg : Config) (s : Daemon ι) (log : DeleteLog) : Prop where
  owned : FilesOwned cfg s log
  placed : PromptsPlaced cfg s log
  clean : log.revived = false ∧ log.strayUnlink = false ∧ log.strayUnmap = false ∧ log.strayPurge = false

section

variable {s' : Daemon ι}

theorem DeleteInv.quiet (inv : DeleteInv cfg s log)
    (vaults : ∀ h : Handle, s'.vaults[h]? = s.vaults[h]?)
    (files : ∀ {h : Handle} {v}, s.vaults[h]? = some v → v.retired = false → s'.dir[v.path.name]? =
      s.dir[v.path.name]?) (collections : s'.service.collections = s.service.collections)
    (roles : ∀ t, Role.Moves s.service.collections (s.tasks t).role (s'.tasks t).role) :
    DeleteInv cfg s' log := by
  refine ⟨inv.owned.quiet vaults files collections, inv.placed.quiet inv.owned ?_ collections roles, inv.clean⟩
  intro h v hv
  exact ⟨v, (vaults h).trans hv, rfl, rfl⟩

theorem standsForOther_eq_false {st : ServiceState}
    (only : ∀ h', st.collections[id]? = some h' → h' = h) : st.standsForOther id h = false := by
  unfold ServiceState.standsForOther
  cases hfound : st.collections[id]? with
  | none => rfl
  | some h' => simp [only h' hfound]

theorem retire_unretire (live : v.retired = false) : v.retire.unretire = v := by
  cases v
  subst live
  rfl

theorem DeleteInv.operate (inv : DeleteInv cfg s log) {w w' : World} (world : s.world h = some w)
    (follows : w.Follows w') : DeleteInv cfg (s.setWorld h w') log := by
  refine ⟨inv.owned.operate world follows, inv.placed.quiet inv.owned ?_ rfl fun _ => .inl rfl, inv.clean⟩
  intro h' v hv
  obtain ⟨v', hv', hpath, hcase⟩ := setWorld_after _ world follows.path hv
  refine ⟨v', hv', hpath, ?_⟩
  rcases hcase with ⟨-, rfl, rfl⟩ | ⟨-, rfl⟩
  · exact follows.retired
  · rfl

variable [DecidableEq ι]

/-- A creation. Its vault is one that no task and no id knows; the task brings it, or was aborted
and drops it. -/
theorem DeleteInv.create (inv : DeleteInv cfg s log) {t : ι}
    (made : Vault.create x env (cfg.path id) label pin cfg.kdf s.dir[(cfg.path id).name]? =
      (.ok v, file)) (role : task.role = .brings id s.vaults.length ∨ task.role = .none) :
    DeleteInv cfg
      { s.setTask t task with
        vaults := s.vaults ++ [v], dir := s.dir.put (cfg.path id).name file }
      (log.create s.vaults.length v) := by
  obtain ⟨hpath, live, -⟩ := create_identity made
  have fresh : ¬∃ v', s.vaults[s.vaults.length]? = some v' := by simp
  have owned := inv.owned.create made
  have kept : ∀ {h' : Handle} {v'}, s.vaults[h']? = some v' → ∃ v'',
      (s.vaults ++ [v])[h']? = some v'' ∧ v''.path = v'.path ∧ v''.retired = v'.retired :=
    fun hv' => ⟨_, getElem?_concat_eq_some.mpr (.inl hv'), rfl, rfl⟩
  have placed : PromptsPlaced cfg { s.setTask t task with
      vaults := s.vaults ++ [v], dir := s.dir.put (cfg.path id).name file } log := by
    rcases role with brings | gone
    · have grown : PromptsPlaced cfg { s with
          vaults := s.vaults ++ [v], dir := s.dir.put (cfg.path id).name file } log :=
        inv.placed.quiet inv.owned kept rfl fun _ => .inl rfl
      refine grown.bring (t := t) (getElem?_concat_eq_some.mpr (.inr ⟨rfl, rfl⟩)) hpath live ?_ ?_
        brings
      · intro id' found
        obtain ⟨v', hv', -⟩ := inv.owned.mapped found
        exact fresh ⟨v', hv'⟩
      · intro t' id'
        constructor
        · intro hrole
          obtain ⟨v', hv', -⟩ := inv.placed.marks hrole
          exact fresh ⟨v', hv'⟩
        · intro hrole
          obtain ⟨⟨v', hv', -⟩, -⟩ := inv.placed.brings hrole
          exact fresh ⟨v', hv'⟩
    · exact inv.placed.quiet inv.owned kept rfl (setTask_moves (.inr (.inl gone)))
  exact ⟨⟨owned.deleted, owned.retired, owned.live, owned.mapped, owned.last⟩,
    ⟨placed.marks, placed.unlinked, placed.purges, placed.brings⟩, inv.clean⟩

theorem DeleteInv.insert (inv : DeleteInv cfg s log) {t : ι}
    (bringing : (s.tasks t).role = .brings id h) (hv : s.vaults[h]? = some v) (enabled : Bool)
    (alone : ∀ t', (s.tasks t').role.deletes id = false) (role : task.role = .none) : DeleteInv cfg
      { s.setTask t task with
        vaults := s.vaults.set h (v.setIndexAttributes enabled)
        service := { s.service with collections := s.service.collections.insert id h } }
      (log.insert id h) := by
  obtain ⟨⟨u, hu, hpath, live⟩, -, known⟩ := inv.placed.brings bringing
  obtain rfl : v = u := by rw [hv] at hu; exact Option.some.inj hu
  have owned := inv.owned.insert hv hpath enabled
  have world : s.world h = some ⟨v, s.dir[v.path.name]?⟩ := by
    simp only [world, hv, Option.map_some]
  -- first the task lets the vault go, then the id comes to stand for it
  have released : PromptsPlaced cfg { s.setTask t task with
      vaults := s.vaults.set h (v.setIndexAttributes enabled) } log := by
    refine inv.placed.quiet inv.owned ?_ rfl (setTask_moves (.inr (.inl role)))
    intro h' v' hv'
    obtain ⟨v'', hv'', hpath', hcase⟩ := setWorld_after
      ⟨v.setIndexAttributes enabled, none⟩ world rfl hv'
    refine ⟨v'', hv'', hpath', ?_⟩
    rcases hcase with ⟨-, rfl, rfl⟩ | ⟨-, rfl⟩
    · rfl
    · rfl
  have others : ∀ {t' role'}, ((s.setTask t task).tasks t').role = role' → role' ≠ .none →
      t' ≠ t ∧ (s.tasks t').role = role' := fun hrole hsome =>
    (setTask_role_eq hrole).resolve_left fun self => hsome (self.2.symm.trans role)
  have undeleted : ∀ t' h', ((s.setTask t task).tasks t').role ≠ .unlinked id h' ∧
      ((s.setTask t task).tasks t').role ≠ .purges id h' := by
    intro t' h'
    constructor <;>
    · intro hrole
      have hdeletes := alone t'
      rw [(others hrole nofun).2] at hdeletes
      simp [Role.deletes] at hdeletes
  have marked : ∀ {t' h' v'}, ((s.setTask t task).tasks t').role = .marks id h' →
      (s.vaults.set h (v.setIndexAttributes enabled))[h']? = some v' → v'.retired = false → h' = h := by
    intro t' h' v' hrole hv' live'
    obtain ⟨u, hu, hupath, -⟩ := inv.placed.marks (others hrole nofun).2
    rcases (getElem?_set_eq_some hv).mp hv' with ⟨hself, -⟩ | ⟨-, hold⟩
    · exact hself
    · obtain rfl : v' = u := by rw [hold] at hu; exact Option.some.inj hu
      exact inv.owned.unique hold hv live' live (by rw [hupath, hpath])
  have unbrought : ∀ t' id', ((s.setTask t task).tasks t').role ≠ .brings id' h := by
    intro t' id' hrole
    obtain ⟨hne, hold⟩ := others hrole nofun
    exact hne ((known t' id').2 hold)
  have placed := released.map undeleted marked unbrought
  exact ⟨⟨owned.deleted, owned.retired, owned.live, owned.mapped, owned.last⟩,
    ⟨placed.marks, placed.unlinked, placed.purges, placed.brings⟩, inv.clean⟩

omit [DecidableEq ι] in
theorem DeleteLog.record_made {t : ι} (made : s'.vaults = s.vaults ++ [v]) :
    log.record s (.job t env) s' = log.create s.vaults.length v := by
  simp only [DeleteLog.record, made, List.getElem?_concat_length]

omit [DecidableEq ι] in
theorem DeleteLog.record_unmade {t : ι} (same : s'.vaults = s.vaults) :
    log.record s (.job t env) s' = log := by
  simp only [DeleteLog.record, same, List.getElem?_length]

/-- A step within the discipline keeps it; it is needed for the unlink and the insert. -/
theorem DeleteInv.step {a : Action ι} (inv : DeleteInv cfg s log) (ok : deletesInTurn (s, log) a)
    (h : DaemonStep x toml cfg s a s') : DeleteInv cfg s' (log.record s a s') := by
  cases h with
  | task moved =>
    exact inv.quiet (fun _ => rfl) (fun _ _ => rfl) rfl (setTask_moves (advance_role moved))
  | gate moved | externalAliases aliasFile =>
    exact inv.quiet (fun _ => rfl) (fun _ _ => rfl) rfl (fun _ => .inl rfl)
  | @operate t op h w task world =>
    have follows : w.Follows (op.apply x w).2 := apply_follows rfl
    have unwritten : log.deleted h = true → (s.setWorld h (op.apply x w).2).dir[w.vault.path.name]? =
        w.file := by
      intro hdeleted
      rw [← inv.owned.not_revived world follows hdeleted]
      simp only [setWorld, Dir.getElem?_put, follows.path, if_true]
    have hrecord : log.record s (.operate t op) (s.setWorld h (op.apply x w).2) = log := by
      simp only [DeleteLog.record, task, world]
      cases hdeleted : log.deleted h with
      | false => simp
      | true => simp [unwritten hdeleted]
    rw [hrecord]
    exact inv.operate world follows
  | @unlinkLocked t fault id h w task world locked =>
    have hrecord : log.record s (.unlink t fault) (s.setTask t (.returned none)) = log := by
      simp only [DeleteLog.record, task, setTask, update_self]
    rw [hrecord]
    exact inv.quiet (fun _ => rfl) (fun _ _ => rfl) rfl (setTask_moves (.inr (.inl rfl)))
  | @unlinkFailed t fault id h w task world unlocked failed =>
    obtain ⟨hv, hfile⟩ := world_some world
    have live := (ok h (by rw [task]; rfl) w.vault hv).resolve_left (by simp [unlocked])
    have hrecord : log.record s (.unlink t fault)
        ((s.setWorld h ⟨w.vault.retire.unretire, w.file⟩).setTask t (.returned none)) = log := by
      simp only [DeleteLog.record, task, setTask, update_self]
    rw [hrecord, retire_unretire live]
    refine inv.quiet ?_ ?_ rfl (setTask_moves (.inr (.inl rfl)))
    · intro h'
      change (s.vaults.set h w.vault)[h']? = s.vaults[h']?
      obtain ⟨hlt, heq⟩ := List.getElem?_eq_some_iff.mp hv
      rw [← heq, List.set_getElem_self]
    · intro h' v' hv' live'
      change (s.dir.put w.vault.path.name w.file)[v'.path.name]? = s.dir[v'.path.name]?
      rw [hfile, Dir.getElem?_put_self]
  | @unlink t id h w bytes task world unlocked present =>
    obtain ⟨hv, -⟩ := world_some world
    have live := (ok h (by rw [task]; rfl) w.vault hv).resolve_left (by simp [unlocked])
    have hrecord : log.record s (.unlink t none)
        ((s.setWorld h ⟨w.vault.retire, none⟩).setTask t (.delete id (.unlinked h))) = log.unlink h w := by
      simp only [DeleteLog.record, task, world, setTask, update_self]
    rw [hrecord]
    have owned := inv.owned.unlink world live
    refine ⟨⟨owned.deleted, owned.retired, owned.live, owned.mapped, owned.last⟩,
      inv.placed.unlink inv.owned task world live, ?_⟩
    obtain ⟨hrevived, hunlink, hunmap, hpurge⟩ := inv.clean
    have howner : log.owner w.vault.path.name = some h := (inv.owned.live hv live).1
    exact ⟨hrevived, by simp [DeleteLog.unlink, hunlink, howner], hunmap, hpurge⟩
  | @unmap t id h task =>
    have hrole : (s.tasks t).role = .unlinked id h := by rw [task]; rfl
    have hrecord : ∀ s'', log.record s (.unmap t) s'' = log := by
      intro s''
      simp only [DeleteLog.record, task, standsForOther_eq_false (inv.placed.unlinked hrole).2.2, Bool.or_false]
    rw [hrecord]
    exact ⟨⟨inv.owned.deleted, inv.owned.retired, inv.owned.live,
      fun found => inv.owned.mapped (of_erase found), fun found => inv.owned.last (of_erase found)⟩,
      inv.placed.unmap inv.owned task, inv.clean⟩
  | @job t env label aliasName pin attempt id v file task made =>
    rw [DeleteLog.record_made rfl]
    exact inv.create made (.inl rfl)
  | @jobFailed t env label aliasName pin attempt id e file task failed =>
    rw [DeleteLog.record_unmade (by exact rfl)]
    refine inv.quiet (fun _ => rfl) (inv.owned.create_failed failed) rfl (setTask_moves (.inr (.inl ?_)))
    exact afterError_role ..
  | @orphan t env label pin id v file task made =>
    rw [DeleteLog.record_made rfl]
    exact inv.create made (.inr rfl)
  | @orphanFailed t env label pin id e file task failed =>
    rw [DeleteLog.record_unmade (by exact rfl)]
    exact inv.quiet (fun _ => rfl) (inv.owned.create_failed failed) rfl
      (setTask_moves (.inr (.inl rfl)))
  | @insert t label aliasName id h v task vault =>
    have bringing : (s.tasks t).role = .brings id h := by rw [task]; rfl
    have alone : ∀ t', (s.tasks t').role.deletes id = false := ok id (by rw [bringing]; rfl)
    have hrecord : ∀ s'', log.record s (.insert t) s'' = log.insert id h := by
      intro s''
      simp only [DeleteLog.record, task]
    rw [hrecord]
    exact inv.insert bringing vault cfg.indexAttributes alone (afterInsert_role ..)
  | @aliases t env call phase phase' aliases aliasFile update piece =>
    have hrecord : ∀ s'', log.record s (.aliases t env) s'' = log := by
      intro s''
      simp only [DeleteLog.record]
      split
      next id h call' task =>
        have hrole : (s.tasks t).role = .purges id h := by rw [task]; rfl
        simp [inv.placed.purges hrole]
      · rfl
    rw [hrecord]
    refine inv.quiet (fun _ => rfl) (fun _ _ => rfl) rfl (setTask_moves ?_)
    exact (updated_role (s.tasks t) phase').imp_right .inl
  | entry scanning | reload kept | merge scanned | externalVault name file => exact ok.elim

end

/-! ## Whole runs -/

theorem open_ne_nil {path : VaultPath} {bytes : Bytes}
    (h : Vault.open x path (some bytes) = .ok v) : ∃ b bs, bytes = b :: bs := by
  cases bytes with
  | nil => cases h
  | cons b bs => exact ⟨b, bs, rfl⟩

theorem findIdx?_name {vaults : List Vault} (distinct : (vaults.map (·.path.name)).Nodup)
    (hv : vaults[h]? = some v) :
    (vaults.findIdx? fun u => u.path.name == v.path.name) = some h := by
  obtain ⟨hlt, rfl⟩ := List.getElem?_eq_some_iff.mp hv
  rw [List.findIdx?_eq_some_iff_getElem]
  refine ⟨hlt, by simp, ?_⟩
  intro j hj hsame
  have hnames := List.pairwise_iff_getElem.mp distinct j h (by simp; omega) (by simpa using hlt) hj
  exact hnames (by simpa using hsame)

theorem DeleteInv.start (booted : Booted x cfg s) : DeleteInv cfg s (.start s) := by
  have roleless : ∀ t, (s.tasks t).role = .none := by
    intro t
    rw [booted.tasks t]
    rfl
  have opened : ∀ {h : Handle} {v}, s.vaults[h]? = some v → v.retired = false ∧
      ∃ b bs, s.dir[v.path.name]? = some (b :: bs) := by
    intro h v hv
    obtain ⟨id, bytes, v₀, hbytes, hopen, rfl⟩ := booted.opens hv
    obtain ⟨hpath, live⟩ := open_path hopen
    obtain ⟨b, bs, rfl⟩ := open_ne_nil hopen
    exact ⟨live, b, bs, by rw [Vault.setIndexAttributes, hpath]; exact hbytes⟩
  refine ⟨⟨?_, ?_, ?_, booted.collections, id⟩, ⟨?_, ?_, ?_, ?_⟩, rfl, rfl, rfl, rfl⟩
  · intro h seen
    cases seen
  · exact fun hv => (opened hv).1
  · exact fun hv _ => ⟨findIdx?_name booted.names hv, (opened hv).2⟩
  all_goals
    intro t id h hrole
    rw [roleless] at hrole
    cases hrole

variable [DecidableEq ι]

/-- **Deletes are final and hit their own vault**: in every run in which deletes take turns, no call
through a deleted vault has written its file, and no delete has unlinked the file of another vault,
taken another vault out of the map, or dropped an alias of an id that stood for another vault. -/
theorem delete_hits_only_its_vault {dir : Dir} {aliasFile : Option Bytes} {s₀ : Daemon ι}
    (boot : Daemon.boot ι x toml cfg dir aliasFile = some s₀)
    (run : Reach (logged (Daemon.step x toml cfg) DeleteLog.record) deletesInTurn
      (s₀, .start s₀) (s, log)) :
    log.revived = false ∧ log.strayUnlink = false ∧ log.strayUnmap = false ∧ log.strayPurge = false := by
  have inv := run.logged_invariant (DeleteInv cfg) (.start (boot_booted boot))
    fun inv ok hstep => inv.step ok (step_inv hstep)
  exact inv.clean

section

open Reference

variable [∀ n, OfNat ι n]

/-- The default collection is deleted while a request holds it and another prompt waits, and is then
created anew. -/
def deleteAndCreate : List (Action ι) :=
  createSteps 0 "Login" (some "default") ++ [Action.insert 0] ++ aliasSteps 0 ++
    [Action.task 1 (.resolve "login")] ++ askSteps 2 "login" ++ askSteps 3 "login" ++
    [Action.task 2 .claim, .unlink 2 none, writeItem 1 "a", .unmap 2] ++ aliasSteps 2 ++
    createSteps 4 "Login" (some "default") ++ [Action.insert 4] ++ aliasSteps 4

/-- The discipline admits that run: the id stands for a new vault, and nothing has gone astray. -/
theorem delete_hits_only_its_vault_then_create : ∃ s₀ s log, emptyBoot 5 = some s₀ ∧
      Reach (logged daemonStep DeleteLog.record) deletesInTurn (s₀, .start s₀) (s, log) ∧
      (log.deleted 0 = true ∧ s.service.collections["login"]? = some 1) ∧
      log.revived = false ∧ log.strayUnlink = false ∧ log.strayUnmap = false ∧
      log.strayPurge = false := by
  refine Reach.exists_run_pair deleteAndCreate
    (fun s log => log.deleted 0 = true ∧ s.service.collections["login"]? = some 1)
    (by decide +kernel) fun boot run passed => ?_
  exact ⟨passed, delete_hits_only_its_vault boot run⟩

/-- Two prompts for one vault. The second finds the file gone and takes the retirement back. -/
def deleteTwice : List (Action ι) :=
  createSteps 0 "Login" none ++ [Action.insert 0] ++ [Action.task 1 (.resolve "login")] ++
    askSteps 2 "login" ++ askSteps 3 "login" ++
    [Action.task 2 .claim, .unlink 2 none, .task 3 .claim, .unlink 3 none, writeItem 1 "a"]

/-- The second prompt is confirmed only after the id was created anew. -/
def deleteLate : List (Action ι) :=
  deleteAndCreate ++ [Action.task 3 .claim, .unlink 3 none, .unmap 3] ++ aliasSteps 3

/-- **Without the discipline** a request writes the file of a deleted vault again; and a delete
unlinks, unmaps and purges the aliases of a vault that was created later under the same id. -/
theorem second_delete_hits_another_vault : (∃ s₀ p, emptyBoot 5 = some s₀ ∧
      Reach (logged daemonStep DeleteLog.record) (fun p a => noReload p a = true)
        (s₀, .start s₀) p ∧ p.2.revived = true) ∧
    ∃ s₀ p, emptyBoot 5 = some s₀ ∧ Reach (logged daemonStep DeleteLog.record) (fun p a => noReload p a = true)
        (s₀, .start s₀) p ∧
      (p.2.strayUnlink && p.2.strayUnmap && p.2.strayPurge) = true := by
  constructor
  · exact Reach.exists_run_from deleteTwice _ (by decide +kernel) fun _ _ passed => passed
  · exact Reach.exists_run_from deleteLate _ (by decide +kernel) fun _ _ passed => passed

end

end SecretManager
