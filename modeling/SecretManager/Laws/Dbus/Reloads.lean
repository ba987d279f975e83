import SecretManager.Laws.Vault.Writes
import SecretManager.Laws.Dbus.Daemon
import SecretManager.Dbus.Reference

/-!
# One handle for each file, and no write lost to a Reload

A Reload copies the loaded ids, scans with no lock held, and merges whatever it has opened. A create
publishes its file first and puts its vault into the map later. A scan that falls between the two
opens the new file a second time, and the merge then replaces the create's vault, or the create
replaces the scan's, while requests may already hold and have written through the one that is
replaced. What they wrote is in the file and not in the vault that later requests resolve to, and
the first write through that vault takes it out of the file.

Where an entry is replaced only while no request holds it, and by a vault whose bytes the file still
has, nothing is lost.
-/

namespace SecretManager

open Function Daemon

variable {ι : Type} {x : Externals} {toml : Toml} {cfg : Config} {s s' : Daemon ι}
  {log : String → Promises}

/-! ## What is recorded -/

/-- What was promised of each file, by the calls that requests have made. -/
def recordWrites (x : Externals) (before : Daemon ι) (a : Action ι) (_ : Daemon ι)
    (log : String → Promises) : String → Promises :=
  match a with
  | .operate t op =>
    match before.tasks t with
    | .request h =>
      match before.world h with
      | some w =>
        Function.update log w.vault.path.name
          ((log w.vault.path.name).after op (op.apply x w).1 w.vault (op.apply x w).2.vault)
      | none => log
    | _ => log
  | _ => log

/-! ## The discipline -/

/-- The id may come to stand for the vault `h`: no request holds the one it stands for now, and the
file has the bytes of `h`, unless no write to it has been promised yet. -/
def Daemon.Replaceable (cfg : Config) (s : Daemon ι) (log : String → Promises) (id : String)
    (h : Handle) : Prop :=
  ∀ h₀, s.service.collections[id]? = some h₀ → (∀ t, s.tasks t ≠ .request h₀) ∧
    ((∀ item, log (cfg.path id).name item = none) ∨
      ∃ v, s.vaults[h]? = some v ∧ s.dir[(cfg.path id).name]? = some (v.aad ++ v.ciphertext))

/-- A create and a Reload put a vault in place of another only where it is replaceable. Neither
deletes nor other programs take part. -/
def replacesInTurn (cfg : Config) (p : Daemon ι × (String → Promises)) : Action ι → Prop
  | .insert t => ∀ id h, (p.1.tasks t).role = .brings id h → p.1.Replaceable cfg p.2 id h
  | .merge => ∀ entry ∈ p.1.reload.opened, p.1.Replaceable cfg p.2 entry.1 entry.2
  | .unlink _ _ | .unmap _ | .externalVault _ _ => False
  | _ => True

/-! ## Vaults, their files and what was promised -/

/-- The vault can be read back from its own bytes. -/
def Vault.Legible (x : Externals) (v : Vault) : Prop := Readable x ⟨v, some (v.aad ++ v.ciphertext)⟩

/-- A vault that an id of the map may stand for. -/
structure Loaded (x : Externals) (cfg : Config) (dir : Dir) (log : String → Promises) (id : String)
    (v : Vault) : Prop where
  path : v.path = cfg.path id
  live : v.retired = false
  legible : v.Legible x
  present : ∃ b bs, dir[(cfg.path id).name]? = some (b :: bs)
  keeps : (∀ item, log (cfg.path id).name item = none) ∨
    World.Keeps x ⟨v, dir[(cfg.path id).name]?⟩ (log (cfg.path id).name)

/-- A vault that a create brings or a scan has opened. As long as its id stands for nothing, the
file is as the vault left or found it. -/
structure Brought (x : Externals) (cfg : Config) (s : Daemon ι) (id : String) (v : Vault) :
    Prop where
  path : v.path = cfg.path id
  live : v.retired = false
  legible : v.Legible x
  present : ∃ b bs, s.dir[(cfg.path id).name]? = some (b :: bs)
  fresh : s.service.collections[id]? = none → s.dir[(cfg.path id).name]? = some (v.aad ++ v.ciphertext)

/-- A create or a scan is about to put the vault into the map. -/
def Daemon.Pending (s : Daemon ι) (id : String) (h : Handle) : Prop :=
  (∃ t, (s.tasks t).role = .brings id h) ∨ (id, h) ∈ s.reload.opened

/-- What holds in every state that disciplined runs reach. -/
structure ReloadInv (x : Externals) (cfg : Config) (s : Daemon ι) (log : String → Promises) :
    Prop where
  entries : ∀ {id : String} {h : Handle}, s.service.collections[id]? = some h →
    ∃ v, s.vaults[h]? = some v ∧ Loaded x cfg s.dir log id v
  users : ∀ {t h}, s.tasks t = .request h → ∃ id : String, s.service.collections[id]? = some h
  promises : ∀ {name item found}, log name item = some found →
    ∃ (id : String) (h : Handle), name = (cfg.path id).name ∧ s.service.collections[id]? = some h
  pending : ∀ {id h}, s.Pending id h → ∃ v, s.vaults[h]? = some v ∧ Brought x cfg s id v

/-! ## Calls -/

variable {w w' : World}

theorem Micro.legible (hx : x.Lawful) (step : Micro x w w') (h : w.vault.Legible x) :
    w'.vault.Legible x := by
  cases step with
  | lock => exact Micro.readable hx .lock h
  | flags indexAttributes indexWarning pinned =>
    exact Micro.readable hx (.flags indexAttributes indexWarning pinned) h
  | decrypt contents =>
    exact Micro.readable (w := ⟨w.vault, some (w.vault.aad ++ w.vault.ciphertext)⟩) hx
      (.decrypt contents) h
  | save edit saved holds =>
    have readable := saved.readable hx (edit.writable h.writable) holds
    unfold Vault.Legible
    rw [← holds]
    exact readable

theorem apply_legible (hx : x.Lawful) {op : VaultOp} {r : Except VaultError Unit}
    (happly : op.apply x w = (r, w')) (h : w.vault.Legible x) : w'.vault.Legible x :=
  Micros.invariant (P := fun w => w.vault.Legible x) (fun step hw => step.legible hx hw) (apply_micros happly) h

variable {path : VaultPath} {v : Vault}

theorem open_legible {file : Option Bytes} (h : Vault.open x path file = .ok v) :
    v.Legible x ∧ file = some (v.aad ++ v.ciphertext) := by
  obtain ⟨bytes, vf, rfl, hsize, hdecode, rfl⟩ := open_ok_iff.mp h
  obtain ⟨hchecked, hbytes⟩ := decode_ok hdecode
  refine ⟨⟨⟨hchecked, rfl⟩, ⟨bytes, ?_, hsize, hdecode⟩, nofun⟩, ?_⟩
  · exact congrArg some hbytes.symm
  · exact congrArg some hbytes

theorem open_present {file : Option Bytes} (h : Vault.open x path file = .ok v) :
    ∃ b bs, file = some (b :: bs) := by
  obtain ⟨bytes, vf, rfl, -, hdecode, -⟩ := open_ok_iff.mp h
  cases bytes with
  | nil => cases hdecode
  | cons b bs => exact ⟨b, bs, rfl⟩

theorem setIndexAttributes_legible (h : v.Legible x) (enabled : Bool) :
    (v.setIndexAttributes enabled).Legible x :=
  ⟨⟨h.writable.checked, h.writable.limit⟩, h.decodes, h.current⟩

/-! ## Steps -/

theorem ReloadInv.quiet (inv : ReloadInv x cfg s log)
    (vaults : ∀ {h : Handle} {v}, s.vaults[h]? = some v → s'.vaults[h]? = some v)
    (files : ∀ {name : String} {b bs}, s.dir[name]? = some (b :: bs) →
      s'.dir[name]? = some (b :: bs)) (collections : s'.service.collections = s.service.collections)
    (users : ∀ {t h}, s'.tasks t = .request h → s.tasks t = .request h ∨ ∃ id : String,
      s.service.collections[id]? = some h)
    (pending : ∀ {id h}, s'.Pending id h → s.Pending id h ∨ ∃ v, s'.vaults[h]? = some v ∧ Brought x
      cfg s' id v) : ReloadInv x cfg s' log := by
  have same : ∀ {name : String} {b bs}, s.dir[name]? = some (b :: bs) →
      s'.dir[name]? = s.dir[name]? := fun hfile => (files hfile).trans hfile.symm
  refine ⟨?_, ?_, ?_, ?_⟩
  · intro id h found
    rw [collections] at found
    obtain ⟨v, hv, loaded⟩ := inv.entries found
    obtain ⟨b, bs, hfile⟩ := loaded.present
    refine ⟨v, vaults hv, loaded.path, loaded.live, loaded.legible, ⟨b, bs, files hfile⟩, ?_⟩
    rw [same hfile]
    exact loaded.keeps
  · intro t h htask
    rw [collections]
    rcases users htask with hold | found
    · exact inv.users hold
    · exact found
  · intro name item found hfound
    rw [collections]
    exact inv.promises hfound
  · intro id h hpending
    rcases pending hpending with hold | hnew
    · obtain ⟨v, hv, brought⟩ := inv.pending hold
      obtain ⟨b, bs, hfile⟩ := brought.present
      refine ⟨v, vaults hv, brought.path, brought.live, brought.legible, ⟨b, bs, files hfile⟩, ?_⟩
      rw [collections, same hfile]
      exact brought.fresh
    · exact hnew

variable {h : Handle}

theorem ReloadInv.bring (hx : x.Lawful) (hk : x.toCiphers.KeyBound) (inv : ReloadInv x cfg s log)
    {id : String} (pending : s.Pending id h) (ok : s.Replaceable cfg log id h) :
    ∃ v, s.vaults[h]? = some v ∧ Loaded x cfg s.dir log id v := by
  obtain ⟨v, hv, brought⟩ := inv.pending pending
  refine ⟨v, hv, brought.path, brought.live, brought.legible, brought.present, ?_⟩
  cases hfound : s.service.collections[id]? with
  | none =>
    -- nothing was promised of a file whose id stands for nothing
    refine .inl fun item => ?_
    cases hitem : log (cfg.path id).name item with
    | none => rfl
    | some found =>
      obtain ⟨id', h', hname, hentry⟩ := inv.promises hitem
      obtain rfl := Config.path_name_inj hname
      rw [hfound] at hentry
      cases hentry
  | some h₀ =>
    rcases (ok h₀ hfound).2 with unpromised | ⟨v', hv', hfile⟩
    · exact .inl unpromised
    · obtain rfl : v = v' := Option.some.inj (hv.symm.trans hv')
      obtain ⟨v₀, hv₀, loaded⟩ := inv.entries hfound
      rcases loaded.keeps with unpromised | keeps
      · exact .inl unpromised
      · refine .inr (keeps.transfer hx hk ?_ brought.live)
        rw [hfile]
        exact brought.legible

section

variable {v' : Vault} {id : String}

/-- The vault, or the vault with its attribute policy set. -/
def Vault.Flagged (v v' : Vault) : Prop := v' = v ∨ ∃ enabled, v' = v.setIndexAttributes enabled

theorem Loaded.flagged (hx : x.Lawful) (hk : x.toCiphers.KeyBound) {dir : Dir}
    (loaded : Loaded x cfg dir log id v) (flagged : v.Flagged v') : Loaded x cfg dir log id v' := by
  rcases flagged with rfl | ⟨enabled, rfl⟩
  · exact loaded
  refine ⟨loaded.path, loaded.live, setIndexAttributes_legible loaded.legible enabled, loaded.present, ?_⟩
  rcases loaded.keeps with unpromised | keeps
  · exact .inl unpromised
  · refine .inr ⟨?_, fun contents => keeps.kept contents⟩
    exact (Micro.flags enabled v.indexWarning v.pinned).coherent hx hk keeps.coherent

theorem Brought.flagged (brought : Brought x cfg s id v) (flagged : v.Flagged v') :
    Brought x cfg s id v' := by
  rcases flagged with rfl | ⟨enabled, rfl⟩
  · exact brought
  · exact ⟨brought.path, brought.live, setIndexAttributes_legible brought.legible enabled,
      brought.present, brought.fresh⟩

end

theorem ReloadInv.remap (hx : x.Lawful) (hk : x.toCiphers.KeyBound) (inv : ReloadInv x cfg s log)
    (vaults : ∀ {h : Handle} {v}, s.vaults[h]? = some v → ∃ v', s'.vaults[h]? = some v' ∧
      v.Flagged v') (dir : s'.dir = s.dir)
    (collections : ∀ id : String, s'.service.collections[id]? = s.service.collections[id]? ∨ ∃ h,
      s.Pending id h ∧ s.Replaceable cfg log id h ∧ s'.service.collections[id]? = some h)
    (users : ∀ {t h}, s'.tasks t = .request h → s.tasks t = .request h)
    (pending : ∀ {id h}, s'.Pending id h → s.Pending id h) : ReloadInv x cfg s' log := by
  refine ⟨?_, ?_, ?_, ?_⟩
  · intro id h found
    have loads : ∃ v, s.vaults[h]? = some v ∧ Loaded x cfg s.dir log id v := by
      rcases collections id with hsame | ⟨h', hpending, ok, hnew⟩
      · exact inv.entries (hsame.symm.trans found)
      · obtain rfl : h' = h := Option.some.inj (hnew.symm.trans found)
        exact inv.bring hx hk hpending ok
    obtain ⟨v, hv, loaded⟩ := loads
    obtain ⟨v', hv', flagged⟩ := vaults hv
    rw [dir]
    exact ⟨v', hv', loaded.flagged hx hk flagged⟩
  · intro t h htask
    have hold := users htask
    obtain ⟨id, found⟩ := inv.users hold
    rcases collections id with hsame | ⟨h', -, ok, -⟩
    · exact ⟨id, hsame.trans found⟩
    · exact absurd hold ((ok h found).1 t)
  · intro name item found hfound
    obtain ⟨id, h, hname, hentry⟩ := inv.promises hfound
    rcases collections id with hsame | ⟨h', -, -, hnew⟩
    · exact ⟨id, h, hname, hsame.trans hentry⟩
    · exact ⟨id, h', hname, hnew⟩
  · intro id h hpending
    obtain ⟨v, hv, brought⟩ := inv.pending (pending hpending)
    obtain ⟨v', hv', flagged⟩ := vaults hv
    have brought' := brought.flagged flagged
    refine ⟨v', hv', brought'.path, brought'.live, brought'.legible, dir ▸ brought'.present, ?_⟩
    intro unmapped
    rw [dir]
    refine brought'.fresh ?_
    rcases collections id with hsame | ⟨h', -, -, hnew⟩
    · exact hsame.symm.trans unmapped
    · rw [hnew] at unmapped
      cases unmapped

/-- **A request's call.** The vault it holds is the one its id stands for, so no other vault in use
has the file. -/
theorem ReloadInv.operate (hx : x.Lawful) (hk : x.toCiphers.KeyBound) (inv : ReloadInv x cfg s log)
    {t : ι} (task : s.tasks t = .request h) (world : s.world h = some w) {op : VaultOp}
    {r : Except VaultError Unit} (happly : op.apply x w = (r, w')) :
    ReloadInv x cfg (s.setWorld h w') (Function.update log w.vault.path.name
        ((log w.vault.path.name).after op r w.vault w'.vault)) := by
  obtain ⟨hv, hfile⟩ := world_some world
  obtain ⟨id, found⟩ := inv.users task
  obtain ⟨v₀, hv₀, loaded⟩ := inv.entries found
  obtain rfl : w.vault = v₀ := Option.some.inj (hv.symm.trans hv₀)
  have follows : w.Follows w' := apply_follows happly
  have legible : w'.vault.Legible x := apply_legible hx happly loaded.legible
  have hpath : w'.vault.path = cfg.path id := follows.path.trans loaded.path
  rw [loaded.path] at hfile ⊢
  -- the file afterwards: the call's at its own path, the old one everywhere else
  have hself : (s.setWorld h w').dir[(cfg.path id).name]? = w'.file := by
    simp only [setWorld, Dir.getElem?_put, hpath, if_true]
  have hother : ∀ {id'}, id' ≠ id → (s.setWorld h w').dir[(cfg.path id').name]? = s.dir[(cfg.path id').name]? := by
    intro id' hne
    simp only [setWorld, Dir.getElem?_put, hpath]
    exact if_neg fun heq => hne (Config.path_name_inj heq)
  have hsame : ∀ {id' : String} {v : Vault} {h' : Handle}, v.path = cfg.path id' →
      s.vaults[h']? = some v → h' = h → id' = id := by
    rintro id' v h' hpath' hv' rfl
    obtain rfl : w.vault = v := Option.some.inj (hv.symm.trans hv')
    exact Config.path_name_inj (by rw [← hpath', loaded.path])
  have present : ∃ b bs, w'.file = some (b :: bs) := by
    rcases follows.file with hold | ⟨-, hnew⟩
    · rw [hold, hfile]
      exact loaded.present
    · exact hnew
  refine ⟨?_, inv.users, ?_, ?_⟩
  · intro id' h' found'
    obtain ⟨v, hv', loaded'⟩ := inv.entries found'
    by_cases hid : id' = id
    · subst hid
      obtain rfl : h' = h := Option.some.inj (found'.symm.trans found)
      refine ⟨w'.vault, (getElem?_set_eq_some hv).mpr (.inl ⟨rfl, rfl⟩), hpath,
        follows.retired.trans loaded.live, legible, hself ▸ present, ?_⟩
      rw [hself, update_self]
      rcases loaded.keeps with unpromised | keeps
      · have writable : Writable w.vault := loaded.legible.writable
        exact Promises.after_none hx hk writable unpromised happly
      · rw [← hfile] at keeps
        exact .inr (keeps.apply hx hk happly)
    · have hne : h' ≠ h := fun heq => hid (hsame loaded'.path hv' heq)
      have hlog : (cfg.path id').name ≠ (cfg.path id).name :=
        fun heq => hid (Config.path_name_inj heq)
      refine ⟨v, (getElem?_set_eq_some hv).mpr (.inr ⟨hne, hv'⟩), loaded'.path, loaded'.live, loaded'.legible, ?_, ?_⟩
      · rw [hother hid]
        exact loaded'.present
      · rw [hother hid, update_of_ne hlog]
        exact loaded'.keeps
  · intro name item promise hpromise
    by_cases hname : name = (cfg.path id).name
    · exact ⟨id, h, hname, found⟩
    · rw [update_of_ne hname] at hpromise
      exact inv.promises hpromise
  · intro id' h' hpending
    obtain ⟨v, hv', brought⟩ := inv.pending hpending
    by_cases hh : h' = h
    · obtain rfl := hsame brought.path hv' hh
      subst hh
      refine ⟨w'.vault, (getElem?_set_eq_some hv).mpr (.inl ⟨rfl, rfl⟩), hpath,
        follows.retired.trans loaded.live, legible, hself ▸ present, ?_⟩
      intro unmapped
      exact absurd (found.symm.trans unmapped) nofun
    · refine ⟨v, (getElem?_set_eq_some hv).mpr (.inr ⟨hh, hv'⟩), brought.path, brought.live, brought.legible, ?_, ?_⟩
      · by_cases hid : id' = id
        · subst hid
          exact hself ▸ present
        · rw [hother hid]
          exact brought.present
      · intro unmapped
        have hid : id' ≠ id := by
          rintro rfl
          exact absurd (found.symm.trans unmapped) nofun
        rw [hother hid]
        exact brought.fresh unmapped

theorem Task.role_uses {task : Task} : task.role = .uses h ↔ task = .request h := by
  constructor
  · intro hrole
    unfold Task.role at hrole
    split at hrole
    · cases hrole
      rfl
    · split at hrole <;> cases hrole
    · cases hrole
    · cases hrole
  · rintro rfl
    rfl

theorem Role.Moves.users {collections : Std.ExtTreeMap String Handle} {task task' : Task}
    (moves : Role.Moves collections task.role task'.role) (holds : task' = .request h) :
    task = .request h ∨ ∃ id : String, collections[id]? = some h := by
  rw [Task.role_uses.mpr holds] at moves
  rcases moves with hsame | hnone | ⟨id, h', found, huses | hmarks⟩
  · exact .inl (Task.role_uses.mp hsame.symm)
  · cases hnone
  · cases huses
    exact .inr ⟨id, found⟩
  · cases hmarks

theorem ReloadInv.move (inv : ReloadInv x cfg s log)
    (vaults : ∀ {h : Handle} {v}, s.vaults[h]? = some v → s'.vaults[h]? = some v)
    (files : ∀ {name : String} {b bs}, s.dir[name]? = some (b :: bs) →
      s'.dir[name]? = some (b :: bs)) (collections : s'.service.collections = s.service.collections)
    (roles : ∀ t, Role.Moves s.service.collections (s.tasks t).role (s'.tasks t).role)
    (reload : s'.reload.opened ⊆ s.reload.opened) : ReloadInv x cfg s' log := by
  refine inv.quiet vaults files collections (fun holds => (roles _).users holds) ?_
  rintro id h (⟨t, brings⟩ | opened)
  · have hsame := (roles t).of_fixed (by rw [brings]; rfl)
    exact .inl (.inl ⟨t, hsame.trans brings⟩)
  · exact .inl (.inr (reload opened))

theorem create_brought (hx : x.Lawful) {env : CreateEnv} {label : String} {pin : Bytes}
    {kdf : KdfParams} {before after : Option Bytes}
    (made : Vault.create x env path label pin kdf before = (.ok v, after)) :
    v.Legible x ∧ after = some (v.aad ++ v.ciphertext) := by
  obtain ⟨v₀, key, writable, -, -, -, saved, holds⟩ := create_ok made
  have readable := saved.readable (w := ⟨v, after⟩) hx writable holds
  have hafter : after = some (v.aad ++ v.ciphertext) := holds
  refine ⟨?_, hafter⟩
  unfold Vault.Legible
  rw [← hafter]
  exact readable

variable [DecidableEq ι]

/-- A step keeps it as long as a vault is put in place of another only where it is replaceable. -/
theorem ReloadInv.step (hx : x.Lawful) (hk : x.toCiphers.KeyBound) {a : Action ι}
    (inv : ReloadInv x cfg s log) (ok : replacesInTurn cfg (s, log) a)
    (h : DaemonStep x toml cfg s a s') : ReloadInv x cfg s' (recordWrites x s a s' log) := by
  cases h with
  | task moved =>
    exact inv.move id id rfl (setTask_moves (advance_role moved)) (List.Subset.refl _)
  | gate moved | externalAliases aliasFile =>
    exact inv.move id id rfl (fun _ => .inl rfl) (List.Subset.refl _)
  | @operate t op h w task world =>
    have hrecord : ∀ s'', recordWrites x s (.operate t op) s'' log = Function.update log w.vault.path.name
          ((log w.vault.path.name).after op (op.apply x w).1 w.vault (op.apply x w).2.vault) := by
      intro s''
      simp only [recordWrites, task, world]
    rw [hrecord]
    exact inv.operate hx hk task world rfl
  | unlinkLocked | unlinkFailed | unlink | unmap | externalVault => exact ok.elim
  | @job t env label aliasName pin attempt id v file task made =>
    obtain ⟨hpath, live, b, bs, hfile⟩ := create_identity made
    obtain ⟨legible, hbytes⟩ := create_brought hx made
    have hself : (s.dir.put (cfg.path id).name file)[(cfg.path id).name]? = file := by
      rw [Dir.getElem?_put, if_pos rfl]
    refine inv.quiet (fun hv => getElem?_concat_eq_some.mpr (.inl hv))
      (fun present => create_keeps made present) rfl ?_ ?_
    · intro t' h' holds
      rcases setTask_role_eq (Task.role_uses.mpr holds) with ⟨-, hno⟩ | ⟨-, hold⟩
      · cases hno
      · exact .inl (Task.role_uses.mp hold)
    · rintro id' h' (⟨t', brings⟩ | opened)
      · rcases setTask_role_eq brings with ⟨-, hself'⟩ | ⟨-, hold⟩
        · cases hself'
          exact .inr ⟨v, getElem?_concat_eq_some.mpr (.inr ⟨rfl, rfl⟩), hpath, live, legible,
            ⟨b, bs, hself.trans hfile⟩, fun _ => hself.trans hbytes⟩
        · exact .inl (.inl ⟨t', hold⟩)
      · exact .inl (.inr opened)
  | @jobFailed t env label aliasName pin attempt id e file task failed =>
    refine inv.move (fun hv => hv) (fun present => create_keeps failed present) rfl
      (setTask_moves (.inr (.inl ?_))) (List.Subset.refl _)
    exact afterError_role ..
  | @orphan t env label pin id v file task made =>
    exact inv.move (fun hv => getElem?_concat_eq_some.mpr (.inl hv))
      (fun present => create_keeps made present) rfl (setTask_moves (.inr (.inl rfl)))
      (List.Subset.refl _)
  | @orphanFailed t env label pin id e file task failed =>
    exact inv.move (fun hv => hv) (fun present => create_keeps failed present) rfl
      (setTask_moves (.inr (.inl rfl))) (List.Subset.refl _)
  | @insert t label aliasName id h v task vault =>
    have brings : (s.tasks t).role = .brings id h := by rw [task]; rfl
    refine inv.remap hx hk ?_ rfl ?_ ?_ ?_
    · intro h' v' hv'
      by_cases hh : h' = h
      · subst hh
        obtain rfl : v = v' := Option.some.inj (vault.symm.trans hv')
        exact ⟨_, (getElem?_set_eq_some vault).mpr (.inl ⟨rfl, rfl⟩), .inr ⟨_, rfl⟩⟩
      · exact ⟨v', (getElem?_set_eq_some vault).mpr (.inr ⟨hh, hv'⟩), .inl rfl⟩
    · intro id'
      change (s.service.collections.insert id h)[id']? = _ ∨ _
      rw [Std.ExtTreeMap.getElem?_insert]
      split
      next hid =>
        obtain rfl : id = id' := by simpa using hid
        exact .inr ⟨h, .inl ⟨t, brings⟩, ok id h brings, rfl⟩
      · exact .inl rfl
    · intro t' h' holds
      rcases setTask_role_eq (Task.role_uses.mpr holds) with ⟨-, hno⟩ | ⟨-, hold⟩
      · rw [afterInsert_role] at hno
        cases hno
      · exact Task.role_uses.mp hold
    · rintro id' h' (⟨t', brings'⟩ | opened)
      · rcases setTask_role_eq brings' with ⟨-, hno⟩ | ⟨-, hold⟩
        · rw [afterInsert_role] at hno
          cases hno
        · exact .inl ⟨t', hold⟩
      · exact .inr opened
  | @aliases t env call phase phase' aliases aliasFile update piece =>
    refine inv.move id id rfl (setTask_moves ?_) (List.Subset.refl _)
    rcases updated_role (s.tasks t) phase' with hsame | hnone
    · exact .inl hsame
    · exact .inr (.inl hnone)
  | @entry name loaded scan scanning =>
    rcases scanEntry_cases x cfg loaded name s.dir[name]? scan s.vaults with
      ⟨hopened, hvaults⟩ | ⟨id, v, hname, hopen, hopened, hvaults⟩
    · refine inv.move (fun hv => (congrArg (·[_]?) hvaults).trans hv) (fun hfile => hfile) rfl
        (fun _ => .inl rfl) ?_
      intro entry hmem
      change entry ∈ (scanEntry x cfg loaded name s.dir[name]? scan s.vaults).1.opened at hmem
      rw [hopened] at hmem
      rw [scanning]
      exact hmem
    · obtain ⟨hpath, live⟩ := open_path hopen
      obtain ⟨legible, hfile⟩ := open_legible hopen
      obtain ⟨b, bs, hbytes⟩ := open_present hopen
      rw [hname] at hfile hbytes
      refine inv.quiet (fun hv => ?_) (fun hfile => hfile) rfl (fun holds => .inl holds) ?_
      · exact (congrArg (·[_]?) hvaults).trans (getElem?_concat_eq_some.mpr (.inl hv))
      · rintro id' h' (brings | hmem)
        · exact .inl (.inl brings)
        · change (id', h') ∈ (scanEntry x cfg loaded name s.dir[name]? scan s.vaults).1.opened at hmem
          rw [hopened] at hmem
          rcases List.mem_append.mp hmem with hold | hnew
          · exact .inl (.inr (by rw [scanning]; exact hold))
          · obtain ⟨rfl, rfl⟩ := Prod.mk.inj (List.mem_singleton.mp hnew)
            refine .inr ⟨v.setIndexAttributes cfg.indexAttributes, ?_, hpath, live,
              setIndexAttributes_legible legible _, ⟨b, bs, hbytes⟩, fun _ => hfile⟩
            exact (congrArg (·[_]?) hvaults).trans (getElem?_concat_eq_some.mpr (.inr ⟨rfl, rfl⟩))
  | @reload a phase kept =>
    refine inv.move id id rfl (fun _ => .inl rfl) ?_
    rcases kept with hsame | hnil
    · exact hsame ▸ List.Subset.refl _
    · rw [show (reload _).opened = [] from hnil]
      exact List.nil_subset _
  | @merge scan aliases scanned =>
    have opened : s.reload.opened = scan.opened := by rw [scanned]; rfl
    refine inv.remap hx hk (fun hv => ⟨_, hv, .inl rfl⟩) rfl ?_ id ?_
    · intro id'
      rcases mergeScan_collections s.service scan aliases id' with hsame | ⟨h', hmem, hnew⟩
      · exact .inl hsame
      · have hmem' : (id', h') ∈ s.reload.opened := by rw [opened]; exact hmem
        exact .inr ⟨h', .inr hmem', ok (id', h') hmem', hnew⟩
    · rintro id' h' (brings | hmem)
      · exact .inl brings
      · cases hmem

/-! ## Whole runs -/

omit [DecidableEq ι] in
theorem ReloadInv.start (booted : Booted x cfg s) : ReloadInv x cfg s fun _ _ => none := by
  refine ⟨?_, ?_, nofun, ?_⟩
  · intro id h found
    obtain ⟨v, hv, hpath⟩ := booted.collections found
    obtain ⟨id', bytes, v₀, hbytes, hopen, rfl⟩ := booted.opens hv
    obtain ⟨hpath₀, live⟩ := open_path hopen
    obtain rfl : id' = id := Config.path_name_inj (by rw [← hpath₀, ← hpath]; rfl)
    obtain ⟨b, bs, hfile⟩ := open_present hopen
    exact ⟨_, hv, hpath, live, setIndexAttributes_legible (open_legible hopen).1 _,
      ⟨b, bs, hbytes.trans hfile⟩, .inl fun _ => rfl⟩
  · intro t h holds
    rw [booted.tasks t] at holds
    cases holds
  · rintro id h (⟨t, brings⟩ | opened)
    · rw [booted.tasks t] at brings
      cases brings
    · rw [booted.reload] at opened
      cases opened

/-- The handles that requests use or will get. -/
def Daemon.InUse (s : Daemon ι) (h : Handle) : Prop :=
  (∃ id : String, s.service.collections[id]? = some h) ∨ ∃ t, s.tasks t = .request h

/-- A promised item is in the vault that requests get, in memory if it is unlocked, and in the
file. -/
structure Daemon.Has (x : Externals) (cfg : Config) (s : Daemon ι) (name item : String)
    (found : List Item) (id : String) (h : Handle) (v : Vault) (key : Key) (items : List Item) :
    Prop where
  named : name = (cfg.path id).name
  entry : s.service.collections[id]? = some h
  vault : s.vaults[h]? = some v
  contents : v.Contents x key items
  memory : ∀ {k its}, v.state = .unlocked k its → its = items
  file : ∃ v', Vault.open x (cfg.path id) s.dir[name]? = .ok v' ∧ v'.Contents x key items
  under : underId item items = found

/-- **One handle for each file, and no write is lost**: in every run in which entries are replaced
in turn, two handles in use that stand for one file are one, and whatever a call that reported
success left under an item id is in the vault that the file's collection stands for and in the file,
until a later call changes it. -/
theorem one_handle_and_no_lost_write (hx : x.Lawful) (hk : x.toCiphers.KeyBound) {dir : Dir}
    {aliasFile : Option Bytes} {s₀ : Daemon ι}
    (boot : Daemon.boot ι x toml cfg dir aliasFile = some s₀)
    (run : Reach (logged (Daemon.step x toml cfg) (recordWrites x)) (replacesInTurn cfg)
      (s₀, fun _ _ => none) (s, log)) :
    (∀ {h h' : Handle} {v v'}, s.InUse h → s.InUse h' → s.vaults[h]? = some v →
      s.vaults[h']? = some v' → v.path = v'.path → h = h') ∧
    ∀ {name item found}, log name item = some found →
      ∃ id h v key items, s.Has x cfg name item found id h v key items := by
  have inv := run.logged_invariant (ReloadInv x cfg) (.start (boot_booted boot))
    fun inv ok hstep => inv.step hx hk ok (step_inv hstep)
  have mapped : ∀ {h : Handle}, s.InUse h → ∃ id : String, s.service.collections[id]? = some h := by
    rintro h (found | ⟨t, holds⟩)
    · exact found
    · exact inv.users holds
  refine ⟨?_, ?_⟩
  · intro h h' v v' use use' hv hv' hpath
    obtain ⟨id, found⟩ := mapped use
    obtain ⟨id', found'⟩ := mapped use'
    obtain ⟨u, hu, loaded⟩ := inv.entries found
    obtain ⟨u', hu', loaded'⟩ := inv.entries found'
    obtain rfl : v = u := Option.some.inj (hv.symm.trans hu)
    obtain rfl : v' = u' := Option.some.inj (hv'.symm.trans hu')
    obtain rfl : id = id' := Config.path_name_inj (by rw [← loaded.path, ← loaded'.path, hpath])
    exact Option.some.inj (found.symm.trans found')
  · intro name item found hfound
    obtain ⟨id, h, rfl, entry⟩ := inv.promises hfound
    obtain ⟨v, hv, loaded⟩ := inv.entries entry
    rcases loaded.keeps with unpromised | keeps
    · rw [unpromised] at hfound
      cases hfound
    · obtain ⟨key, items, sealed, agrees⟩ := keeps.coherent.contents
      have contents : v.Contents x key items := sealed.contents hx
      have holds : s.dir[(cfg.path id).name]? = some (v.aad ++ v.ciphertext) := keeps.coherent.holds
      refine ⟨id, h, v, key, items, rfl, entry, hv, contents, fun state => (agrees _ _ state).2, ?_,
        keeps.kept contents hfound⟩
      refine ⟨_, open_ok_iff.mpr ⟨_, _, holds, keeps.coherent.fits,
        decode_written hx.header keeps.coherent.header keeps.coherent.writable.checked _, rfl⟩, ?_⟩
      exact contents

section

open Reference

variable [∀ n, OfNat ι n]

set_option maxRecDepth 20000

/-- The same condition, to be evaluated: where an entry is replaced, the bytes are the file's. -/
def Daemon.replaceableNow {n : Nat} (cfg : Config) (s : Daemon (Fin n)) (id : String) (h : Handle) :
    Bool :=
  match s.service.collections[id]? with
  | none => true
  | some h₀ =>
    decide (∀ t, (s.tasks t).role ≠ .uses h₀) &&
      s.vaults[h]?.any fun v => s.dir[(cfg.path id).name]? == some (v.aad ++ v.ciphertext)

theorem Daemon.replaceable_of_now {n : Nat} {s : Daemon (Fin n)} {id : String}
    (log : String → Promises) (now : s.replaceableNow cfg id h = true) :
    s.Replaceable cfg log id h := by
  intro h₀ found
  simp only [replaceableNow, found, Bool.and_eq_true, decide_eq_true_eq, Option.any_eq_true, beq_iff_eq] at now
  exact ⟨fun t holds => now.1 t (Task.role_uses.mpr holds), .inr now.2⟩

def replacesNow {n : Nat} (cfg : Config) (p : Daemon (Fin n) × (String → Promises)) :
    Action (Fin n) → Bool
  | .insert t =>
    match (p.1.tasks t).role with
    | .brings id h => p.1.replaceableNow cfg id h
    | _ => true
  | .merge => p.1.reload.opened.all fun entry => p.1.replaceableNow cfg entry.1 entry.2
  | .unlink _ _ | .unmap _ | .externalVault _ _ => false
  | _ => true

theorem replacesInTurn_of_now {n : Nat} {p : Daemon (Fin n) × (String → Promises)}
    {a : Action (Fin n)} (now : replacesNow cfg p a = true) : replacesInTurn cfg p a := by
  cases a with
  | insert t =>
    intro id h brings
    simp only [replacesNow, brings] at now
    exact replaceable_of_now p.2 now
  | merge =>
    intro entry hmem
    exact replaceable_of_now p.2 (List.all_eq_true.mp now entry hmem)
  | unlink t fault | unmap t | externalVault name file => cases now
  | _ => trivial

/-- A scan opens the file of a create before the create has inserted it; the merge replaces the
create's vault before anyone uses it. -/
def reloadInTurn : List (Action ι) :=
  createSteps 0 "Login" none ++
    [Action.reload .start, .reload (.entry "login.vault"), .insert 0, .reload (.stat none), .merge,
      .task 1 (.resolve "login"), .operate 1 (.unlockWithKey saveEnv loginKey), writeItem 1 "a",
      .reload .start, .reload (.entry "login.vault"), .reload (.stat none), .merge,
      .task 2 (.resolve "login"), writeItem 2 "b"]

/-- In that run both writes are promised, and the theorem says where they are. -/
theorem one_handle_and_no_lost_write_reload : ∃ s₀ s log, emptyBoot 3 = some s₀ ∧
      Reach (logged daemonStep (recordWrites externals)) (replacesInTurn config) (s₀, fun _ _ => none) (s, log) ∧
      s.service.collections["login"]? = some 1 ∧
      ∃ found, log "login.vault" "a" = some found ∧ found ≠ [] ∧
        ∃ id h v key items, s.Has externals config "login.vault" "a" found id h v key items := by
  obtain ⟨s₀, ⟨s, log⟩, boot, run, test⟩ := Reach.exists_of_exec_from
    (logged daemonStep (recordWrites externals)) (fun p a => replacesNow config p a = true)
    (emptyBoot 3) (fun s₀ => (s₀, fun _ _ => none)) reloadInTurn
    (fun p => decide (p.1.service.collections["login"]? = some 1) &&
      (p.2 "login.vault" "a").any fun found => !found.isEmpty) (by decide)
  rw [Bool.and_eq_true, decide_eq_true_iff, Option.any_eq_true] at test
  obtain ⟨hentry, found, hfound, hne⟩ := test
  have run' := run.mono fun now => replacesInTurn_of_now now
  refine ⟨s₀, s, log, boot, run', hentry, found, hfound, by simpa using hne, ?_⟩
  exact (one_handle_and_no_lost_write externals_lawful ciphers_keyBound boot run').2 hfound

/-- The ids of the items a vault holds in memory. -/
def Vault.heldIds (v : Vault) : List String :=
  match v.state with
  | .unlocked _ items => items.map (·.id)
  | .locked => []

/-- The ids of the items a file opens to under a key. -/
def openedIds (key : Key) (file : Option Bytes) : Option (List String) :=
  match Vault.open externals Reference.path file with
  | .ok v => some (World.unlockWithKey externals saveEnv key ⟨v, file⟩).2.vault.heldIds
  | .error _ => none

/-- The merge comes after a request has got the create's vault and has written through it. -/
def reloadTooLate : List (Action ι) :=
  createSteps 0 "Login" none ++
    [Action.reload .start, .reload (.entry "login.vault"), .insert 0, .task 1 (.resolve "login"),
      writeItem 1 "a", .reload (.stat none), .merge, .task 2 (.resolve "login"),
      .operate 2 (.unlockWithKey saveEnv loginKey), writeItem 2 "b"]

/-- **Without the discipline** two requests hold two vaults for one file, and a write that was
reported successful is neither in the vault that requests get nor in the file. -/
theorem reload_loses_write : ∃ s₀ s log, emptyBoot 3 = some s₀ ∧
      Reach (logged daemonStep (recordWrites externals)) (fun _ _ => True) (s₀, fun _ _ => none) (s, log) ∧
      ((s.tasks 1).role = .uses 0 ∧ s.service.collections["login"]? = some 1 ∧
        s.vaults.map (·.path.name) = ["login.vault", "login.vault"]) ∧
      ((log "login.vault" "a").map (·.map (·.id)) = some ["a"] ∧ s.vaults[1]?.map Vault.heldIds = some ["b"] ∧
        openedIds loginKey s.dir["login.vault"]? = some ["b"]) := by
  exact Reach.exists_run_pair reloadTooLate _ (by decide) fun _ _ passed => passed

end

end SecretManager
