import SecretManager.Laws.Vault.Reopen
import SecretManager.Laws.Vault.Search
import SecretManager.Lib.Run

/-!
# The index warning

An unlock compares the header index with the policy and rewrites it where they differ; when that
write fails it leaves a warning. The comparison asks only whether the index has hashes at all, which
is enough for an index that a save built: under one policy or the other, for the items the file
holds.

The warning is cleared by an unlock only. Every other successful save rebuilds the index as well,
and a warning that stood before it still stands after it, over an index that is now right. So the
warning tells the truth as long as no save gets through while it stands (`quietWhileWarned`): the
calls that are made then have nothing to save, or the random generator or the kernel stops their
saves.
-/

namespace SecretManager

open Reference

variable {x : Externals}

/-! ## Built indexes -/

/-- The header index is that of the items the file holds, under one of the two policies. -/
def World.IndexBuilt (x : Externals) (w : World) : Prop :=
  ∀ {key items}, w.vault.Contents x key items →
    ∃ policy, w.vault.header.index = buildIndex x w.vault.header.indexSalt items policy

/-- Whether a built index has hashes: the policy asks for them and an item has attributes. -/
theorem any_buildIndex (salt : Salt) (items : List Item) (policy : Bool) :
    ((buildIndex x salt items policy).any fun e => !e.attrHashes.isEmpty) =
      (policy && items.any fun i => !i.attributes.isEmpty) := by
  cases policy with
  | false => simp [buildIndex_false]
  | true =>
    rw [buildIndex_true, List.any_map]
    refine congrArg (items.any ·) (funext fun i => ?_)
    have sorted : (sortDigests (i.hashes x salt)).isEmpty = (i.hashes x salt).isEmpty :=
      (List.perm_insertionSort _ _).isEmpty_eq
    rw [Function.comp_apply, sorted, Item.hashes, List.isEmpty_map, Std.ExtTreeMap.isEmpty_toList]

variable {items : List Item}

theorem buildIndex_congr {salt : Salt} {policy policy' : Bool}
    (same : (policy && items.any fun i => !i.attributes.isEmpty) =
      (policy' && items.any fun i => !i.attributes.isEmpty)) :
    buildIndex x salt items policy = buildIndex x salt items policy' := by
  have plain : (items.any fun i => !i.attributes.isEmpty) = false →
      buildIndex x salt items true = buildIndex x salt items false := by
    intro none
    rw [buildIndex_true]
    refine List.map_congr_left fun i mem => ?_
    have empty : i.attributes.isEmpty = true := by simpa using List.any_eq_false.mp none i mem
    have noHashes : i.hashes x salt = [] := by
      rw [Item.hashes, List.map_eq_nil_iff, ← List.isEmpty_iff, Std.ExtTreeMap.isEmpty_toList]
      exact empty
    rw [noHashes]
    rfl
  cases policy <;> cases policy'
  · rfl
  · exact (plain (by simpa using same.symm)).symm
  · exact plain (by simpa using same)
  · rfl

variable {key : Key} {v : Vault}

/-- **The comparison an unlock makes decides whether the index is right**, for a built index. -/
theorem hasAttributes_eq_wants_iff (state : v.state = .unlocked key items)
    (built : ∃ policy, v.header.index = buildIndex x v.header.indexSalt items policy) :
    v.indexHasAttributes = v.wantsAttributes ↔
      v.header.index = buildIndex x v.header.indexSalt items v.indexAttributes := by
  obtain ⟨policy, index⟩ := built
  have wants : v.wantsAttributes = (v.indexAttributes && items.any fun i => !i.attributes.isEmpty) := by
    simp only [Vault.wantsAttributes, Vault.items, state]
  constructor
  · intro same
    rw [index]
    refine buildIndex_congr ?_
    rw [← wants, ← same, Vault.indexHasAttributes, index, any_buildIndex]
  · intro right
    rw [Vault.indexHasAttributes, right, any_buildIndex, wants]

/-! ## What one call does to a handle -/

/-- The index is built, and the file is what the vault holds. -/
structure Indexed (x : Externals) (w : World) : Prop where
  readable : Readable x w
  built : w.IndexBuilt x

variable {w : World}

theorem Saved.indexed (hx : x.Lawful) (hk : x.toCiphers.KeyBound) (saved : Saved x v w.vault)
    (h : Writable v) (holds : w.FileHolds) : Indexed x w := by
  refine ⟨saved.readable hx h holds, ?_⟩
  intro key items contents
  obtain ⟨key', items', sealed, agrees⟩ := (saved.coherent h holds).contents
  obtain ⟨k, its, state, -, index⟩ := saved.index
  obtain ⟨rfl, rfl⟩ := sealed.contents_unique hx hk contents
  obtain ⟨rfl, rfl⟩ := agrees k its state
  exact ⟨_, index⟩

variable {w' : World}

theorem Micro.indexed (hx : x.Lawful) (hk : x.toCiphers.KeyBound) (step : Micro x w w')
    (h : Indexed x w) : Indexed x w' := by
  have readable : Readable x w' := step.readable hx h.readable
  cases step with
  | lock | flags indexAttributes indexWarning pinned | decrypt contents => exact ⟨readable, h.built⟩
  | save edit saved holds => exact saved.indexed hx hk (edit.writable h.readable.writable) holds

/-! ## The warning -/

/-- The warning of an unlocked vault stands exactly when the index differs from what the policy
would build. -/
def World.Truthful (x : Externals) (w : World) : Prop :=
  ∀ {key items}, w.vault.state = .unlocked key items → (w.vault.indexWarning.isSome = true ↔
      w.vault.header.index ≠ buildIndex x w.vault.header.indexSalt items w.vault.indexAttributes)

/-! ## Calls that save nothing -/

/-- The random generator and the kernel let the save come to its end. -/
def SaveEnv.writes (env : SaveEnv) : Bool :=
  env.nonce.isOk && env.ensureDir.isOk && env.write.suffix.isOk && env.write.openTemp.isOk &&
    env.write.writeAll.isOk && env.write.syncAll.isOk && env.write.rename.isOk

/-- What the save is answered that a call makes on an unlocked vault with these items; `none` for a
call that has nothing to save there. -/
def VaultOp.toSave (items : List Item) : VaultOp → Option SaveEnv
  | .insertItem env .. | .setLabel env _ | .changeKey _ env .. => some env
  | .updateItem env _ id _ | .deleteItem env id => if items.any (·.id = id) then some env else none
  | .deleteItems env ids =>
    if ids.isEmpty || ids.any fun id => !(items.any fun i => i.id = id) then none else some env
  | .importItems env _ batch => if batch.isEmpty then none else some env
  | .lock | .unlockWithKey .. | .setIndexAttributes _ | .setPinned _ => none

/-- While the warning stands on an unlocked vault, what a call has to save is not saved: the vault
is retired, or the random generator or the kernel stops the save. -/
def quietWhileWarned (w : World) (a : HandleAction) : Prop :=
  match w.vault.indexWarning, w.vault.state, a with
  | some _, .unlocked _ items, .call op =>
    (op.toSave items).all (fun env => w.vault.retired || !env.writes) = true
  | _, _, _ => True

instance (w : World) (a : HandleAction) : Decidable (quietWhileWarned w a) := by
  unfold quietWhileWarned
  split
  · infer_instance
  · infer_instance

section

variable {env : SaveEnv}

theorem Store.writeAtomic_ok {path : VaultPath} {bytes : Bytes} {file file' : Option Bytes}
    (ok : Store.writeAtomic env path bytes file = (.ok (), file')) : env.ensureDir.isOk = true ∧
      env.write.suffix.isOk = true ∧ env.write.openTemp.isOk = true ∧ env.write.writeAll.isOk = true ∧
      env.write.syncAll.isOk = true ∧ env.write.rename.isOk = true := by
  obtain ⟨nonce, now, ensureDir, suffix, openTemp, writeAll, syncAll, rename⟩ := env
  unfold Store.writeAtomic SecretManager.writeAtomic writeTempAndRename at ok
  cases ensureDir <;> cases suffix <;> cases openTemp <;> cases writeAll <;> cases syncAll <;>
    cases rename <;> simp_all [Except.isOk, Except.toBool]

/-- What a successful save was answered. -/
theorem saveWith_answers {publish : Publish} (ok : w.saveWith x env publish = (.ok (), w')) :
    w.vault.retired = false ∧ env.nonce.isOk = true ∧
      ∃ bytes file, publish bytes w.file = (.ok (), file) := by
  unfold World.saveWith at ok
  dsimp only at ok
  split at ok
  · cases ok
  next live =>
    split at ok
    · cases ok
    · split at ok
      · cases ok
      next nonce drawn =>
        split at ok
        · cases ok
        · split at ok
          · cases ok
          · split at ok
            · cases ok
            · split at ok
              · cases ok
              · split at ok
                · cases ok
                next file published =>
                  exact ⟨Bool.eq_false_iff.mpr live, by rw [drawn]; rfl, _, _, published⟩

theorem save_answers (ok : w.save x env = (.ok (), w')) :
    (w.vault.retired || !env.writes) = false := by
  obtain ⟨live, nonce, bytes, file, written⟩ := saveWith_answers ok
  obtain ⟨ensureDir, suffix, openTemp, writeAll, syncAll, rename⟩ := Store.writeAtomic_ok written
  simp [SaveEnv.writes, live, nonce, ensureDir, suffix, openTemp, writeAll, syncAll, rename]

/-- **A save that is stopped** changes nothing. -/
theorem save_stopped (stopped : (w.vault.retired || !env.writes) = true) :
    ∃ e, w.save x env = (.error e, w) := by
  rcases result : w.save x env with ⟨r, w'⟩
  rcases save_cases result with ⟨e, rfl, rfl⟩ | ⟨rfl, -⟩
  · exact ⟨e, rfl⟩
  · rw [save_answers result] at stopped
    cases stopped

theorem saveOrRestore_file {restore : Vault → Vault}
    (stopped : (w.vault.retired || !env.writes) = true) :
    (World.saveOrRestore x env restore { w with vault := w.vault.setItems items }).2.file = w.file := by
  have retired : (w.vault.setItems items).retired = w.vault.retired := by
    unfold Vault.setItems
    split
    · rfl
    · rfl
  rw [← retired] at stopped
  obtain ⟨e, refused⟩ := save_stopped (x := x) (w := { w with vault := w.vault.setItems items }) stopped
  rw [World.saveOrRestore, refused]

theorem rekey_file {oldKey newKey : Key} {newSalt newIndexSalt : Salt} {newKdf : KdfParams}
    (state : w.vault.state = .unlocked key items)
    (stopped : (w.vault.retired || !env.writes) = true) :
    (w.rekey x env oldKey newSalt newKdf newKey newIndexSalt).2.file = w.file := by
  unfold World.rekey
  simp only [Vault.setKey, state]
  split
  next ok =>
    have answered := save_answers ok
    rw [stopped] at answered
    cases answered
  next refused =>
    rcases save_cases refused with ⟨_, -, rfl⟩ | ⟨ok, -⟩
    · rfl
    · cases ok

theorem thenReturn_file {α : Type} (a : α) (p : Except VaultError Unit × World) :
    (World.thenReturn a p).2.file = p.2.file := by
  rcases p with ⟨_ | _, w⟩
  · rfl
  · rfl

theorem find_item {id : String} (known : ¬items.any (·.id = id) = true) :
    ((items.findIdx? fun i => i.id = id).bind fun p => (items[p]?).map fun i => (p, i)) = none := by
  have absent : (items.findIdx? fun i => i.id = id) = none := by
    rw [List.findIdx?_eq_none_iff]
    intro i mem
    exact Bool.eq_false_iff.mpr fun same => known (List.any_eq_true.mpr ⟨i, mem, same⟩)
  rw [absent]
  rfl

/-- **A call whose save is stopped**, or that has nothing to save, leaves the file as it is. -/
theorem apply_file {op : VaultOp} (state : w.vault.state = .unlocked key items)
    (quiet : (op.toSave items).all (fun env => w.vault.retired || !env.writes) = true) :
    (op.apply x w).2.file = w.file := by
  have held : w.vault.items = .ok items := by rw [Vault.items, state]
  have unlocked : w.vault.isLocked = false := by rw [Vault.isLocked, state]
  cases op with
  | insertItem env now uuid label attributes secret contentType replace =>
    change (w.insertItem x env now uuid label attributes secret contentType replace).2.file = w.file
    simp only [World.insertItem, World.insertItemUnchecked, held]
    split
    · rfl
    · rw [thenReturn_file]
      exact saveOrRestore_file quiet
  | updateItem env now id f =>
    simp only [VaultOp.apply, World.updateItem, held]
    by_cases known : items.any (·.id = id) = true
    · rw [VaultOp.toSave, if_pos known] at quiet
      split
      · rfl
      · split
        · rfl
        · exact saveOrRestore_file quiet
    · rw [find_item known]
  | deleteItem env id =>
    simp only [VaultOp.apply, World.deleteItem, held]
    by_cases known : items.any (·.id = id) = true
    · rw [VaultOp.toSave, if_pos known] at quiet
      split
      · rfl
      · exact saveOrRestore_file quiet
    · rw [find_item known]
  | deleteItems env ids =>
    simp only [VaultOp.apply, World.deleteItems, held]
    split
    · rfl
    next some_ids =>
      split
      · rfl
      next all =>
        have idle : ¬(ids.isEmpty || ids.any fun id => !(items.any fun i => i.id = id)) = true := by
          rw [Bool.or_eq_true, not_or]
          refine ⟨some_ids, fun missing => ?_⟩
          obtain ⟨id, mem, absent⟩ := List.any_eq_true.mp missing
          exact absurd absent (by simpa using List.find?_eq_none.mp all id mem)
        rw [VaultOp.toSave, if_neg idle] at quiet
        exact saveOrRestore_file quiet
  | importItems env uuid batch =>
    simp only [VaultOp.apply, World.importItems, held]
    split
    · rfl
    next filled =>
      rw [VaultOp.toSave, if_neg filled] at quiet
      split
      · rfl
      · exact saveOrRestore_file quiet
  | setLabel env label =>
    simp only [VaultOp.apply, World.setLabel, held]
    split
    · rfl
    · obtain ⟨e, refused⟩ := save_stopped (x := x)
        (w := { w with vault := { w.vault with header := { w.vault.header with label } } }) quiet
      rw [World.saveOrRestore, refused]
  | changeKey unlockEnv env indexSalt oldKey newSalt newKdf newKey =>
    simp only [VaultOp.apply, World.changeKey, unlocked, Bool.false_eq_true, if_false]
    split
    · rfl
    · split
      · rfl
      · split
        · rfl
        next newIndexSalt _ =>
          split
          · exact rekey_file state quiet
          · rfl
  | lock | setIndexAttributes enabled | setPinned pinned => rfl
  | unlockWithKey env key =>
    simp only [VaultOp.apply, World.unlockWithKey, unlocked, Bool.not_false, if_true]
    split
    · rfl
    · split
      · rfl
      · rfl

end

theorem Edit.warning {v' : Vault} (edit : Edit v v') :
    v'.indexWarning = v.indexWarning ∧ v'.indexAttributes = v.indexAttributes ∧
      ∃ key items, v.state = .unlocked key items := by
  cases edit with
  | items items' state | label label state | rekey newKey salt indexSalt state valid =>
    exact ⟨rfl, rfl, _, _, state⟩

theorem Readable.same_of_file (h : Readable x w) (h' : Readable x w') (file : w'.file = w.file) :
    w'.vault.header = w.vault.header ∧ w'.vault.aad = w.vault.aad ∧ w'.vault.ciphertext = w.vault.ciphertext := by
  obtain ⟨bytes, hfile, -, decode⟩ := h.decodes
  obtain ⟨bytes', hfile', -, decode'⟩ := h'.decodes
  rw [file, hfile] at hfile'
  cases hfile'
  rw [decode] at decode'
  have same := VaultFile.mk.inj (Except.ok.inj decode')
  exact ⟨same.1.symm, same.2.1.symm, same.2.2.symm⟩

/-- **A save keeps the warning honest**, if it left no warned file changed: a save that did write
would have built the right index under a warning that says otherwise. -/
theorem Saved.truthful (hx : x.Lawful) (hk : x.toCiphers.KeyBound) (edit : Edit w.vault v)
    (saved : Saved x v w'.vault) (holds : w'.FileHolds) (h : Indexed x w) (truth : w.Truthful x)
    (quiet : w.vault.indexWarning.isSome = true → w'.file = w.file) : w'.Truthful x := by
  intro key items state
  obtain ⟨k, its, state', -, index⟩ := saved.index
  rw [state] at state'
  cases state'
  have right : w'.vault.header.index = buildIndex x w'.vault.header.indexSalt items w'.vault.indexAttributes := index
  refine iff_of_false ?_ (not_not.mpr right)
  intro warned
  obtain ⟨sameWarning, samePolicy, key₀, items₀, state₀⟩ := edit.warning
  rw [saved.warning.1, sameWarning] at warned
  -- the file did not change, so neither did what it holds
  have writable := edit.writable h.readable.writable
  obtain ⟨header, aad, ciphertext⟩ :=
    h.readable.same_of_file (saved.readable hx writable holds) (quiet warned)
  obtain ⟨key', items', sealed, agrees⟩ := (saved.coherent writable holds).contents
  obtain ⟨rfl, rfl⟩ := agrees key items state
  have before : w'.vault.Contents x key₀ items₀ := by
    obtain ⟨plain, opened, decoded⟩ := h.readable.current state₀
    refine ⟨plain, ?_, decoded⟩
    rw [header, aad, ciphertext]
    exact opened
  obtain ⟨-, rfl⟩ := sealed.contents_unique hx hk before
  refine (truth state₀).mp warned ?_
  rw [← header, right, saved.warning.2, samePolicy]

theorem Settles.truthful (built : w.IndexBuilt x) (contents : w.vault.Contents x key items)
    (settles : Settles x (w.opened key items) w') : w'.Truthful x := by
  intro k its state
  rw [settles.state_eq] at state
  cases state
  have decides := hasAttributes_eq_wants_iff (x := x) (v := (w.opened key items).vault) rfl
    (built contents)
  cases settles with
  | matching same => exact iff_of_false (by simp) (not_not.mpr (decides.mp same))
  | rewritten differs saved holds =>
    obtain ⟨k, its, state', state'', index⟩ := saved.index
    cases state''
    exact iff_of_false (by simp) (not_not.mpr index)
  | stale warning differs => exact iff_of_true rfl fun right => differs (decides.mpr right)

/-- What a handle keeps from action to action. -/
structure HandleInv (x : Externals) (w : World) : Prop where
  indexed : Indexed x w
  truth : w.Truthful x

theorem handleInv_opened {path : VaultPath} {file : Option Bytes} (policy : Bool)
    (ok : Vault.open x path file = .ok v)
    (built : World.IndexBuilt x ⟨v.setIndexAttributes policy, file⟩) :
    HandleInv x ⟨v.setIndexAttributes policy, file⟩ := by
  obtain ⟨bytes, vf, rfl, hsize, hdecode, rfl⟩ := open_ok_iff.mp ok
  refine ⟨⟨⟨⟨(decode_ok hdecode).1, rfl⟩, ⟨bytes, rfl, hsize, hdecode⟩, ?_⟩, built⟩, ?_⟩
  · intro key items state
    cases state
  · intro key items state
    cases state

theorem create_warning {env : CreateEnv} {path : VaultPath} {label : String} {password : Bytes}
    {kdf : KdfParams} {before after : Option Bytes}
    (h : Vault.create x env path label password kdf before = (.ok v, after)) :
    v.indexWarning = none := by
  unfold Vault.create at h
  split at h
  · cases (Prod.mk.inj h).1
  split at h
  · cases (Prod.mk.inj h).1
  next v₀ hbuild =>
  split at h
  · cases (Prod.mk.inj h).1
  next w hsave =>
  cases (Prod.mk.inj h).1
  rcases saveWith_outcome hsave with ⟨e, he, -⟩ | ⟨-, saved, -⟩
  · cases he
  · rw [saved.warning.1]
    unfold Vault.build at hbuild
    repeat' split at hbuild
    all_goals cases hbuild
    rfl

theorem HandleStart.inv (hx : x.Lawful) (hk : x.toCiphers.KeyBound)
    (start : HandleStart x (World.IndexBuilt x) w) : HandleInv x w := by
  cases start with
  | created policy ok =>
    obtain ⟨v₀, key, writable, -, state, -, saved, holds⟩ := create_ok ok
    refine ⟨(Micro.flags policy _ _).indexed hx hk (saved.indexed hx hk writable holds), ?_⟩
    intro k its unlocked
    obtain ⟨key', items', state', state'', index⟩ := saved.index
    rw [state] at state''
    cases state''
    cases state'.symm.trans unlocked
    -- a new vault has no items, and their index is empty under either policy
    refine iff_of_false ?_ (not_not.mpr index)
    rw [Vault.setIndexAttributes, create_warning ok]
    nofun
  | opened policy ok built => exact handleInv_opened policy ok built

/-- A step of the handle keeps it, if nothing is saved while the warning stands on an open vault. -/
theorem HandleInv.step (hx : x.Lawful) (hk : x.toCiphers.KeyBound) {a : HandleAction}
    (h : HandleInv x w) (quiet : quietWhileWarned w a) (step : w.handleStep x a = some w') :
    HandleInv x w' := by
  cases a with
  | reopen policy =>
    unfold World.handleStep at step
    cases hopen : Vault.open x w.vault.path w.file with
    | error e => simp only [hopen, reduceCtorEq] at step
    | ok v =>
      simp only [hopen, Option.some.injEq] at step
      subst step
      refine handleInv_opened policy hopen ?_
      cases h.indexed.readable.open_eq hopen
      exact h.indexed.built
  | call op =>
    have policy : ∀ b, op ≠ .setIndexAttributes b := by
      rintro b rfl
      cases step
    have applied : w' = (op.apply x w).2 := by
      cases op <;> first | exact absurd rfl (policy _) | exact (Option.some.inj step).symm
    have indexed : Indexed x w' := by
      rw [applied]
      exact Micros.invariant (fun step hw => step.indexed hx hk hw) (apply_micros rfl) h.indexed
    refine ⟨indexed, ?_⟩
    rcases call : op.apply x w with ⟨r, w₁⟩
    obtain rfl : w' = w₁ := applied.trans (congrArg Prod.snd call)
    cases apply_effect call with
    | locked | rotated => exact nofun
    | pinned => exact h.truth
    | policy enabled => exact absurd rfl (policy enabled)
    | unlocked locked contents settles => exact settles.truthful h.indexed.built contents
    | mutated m =>
      cases m with
      | refused | kept => exact h.truth
      | saved _ edit saved holds =>
        refine saved.truthful hx hk edit holds h.indexed h.truth fun warned => ?_
        obtain ⟨-, -, key, items, state⟩ := edit.warning
        obtain ⟨warning, hwarning⟩ := Option.isSome_iff_exists.mp warned
        simp only [quietWhileWarned, hwarning, state] at quiet
        rw [applied]
        exact apply_file state quiet

/-- **The index warning tells the truth.** In every world of a handle whose index was built by a
save, if no save gets through while the warning stands on an unlocked vault, an unlocked vault has
the warning exactly when the header index in the file differs from the one the policy would build
for its items. -/
theorem index_warning_is_true (hx : x.Lawful) (hk : x.toCiphers.KeyBound) {w₀ : World}
    (start : HandleStart x (World.IndexBuilt x) w₀)
    (run : Reach (World.handleStep x) quietWhileWarned w₀ w)
    (state : w.vault.state = .unlocked key items) :
    ∃ bytes vf, w.file = some bytes ∧ VaultFile.decode x bytes = .ok vf ∧ (w.vault.indexWarning.isSome = true ↔
        vf.header.index ≠ buildIndex x vf.header.indexSalt items w.vault.indexAttributes) := by
  have inv : HandleInv x w := run.invariant (HandleInv x) (start.inv hx hk) fun h quiet step => h.step hx hk quiet step
  obtain ⟨bytes, hfile, -, decode⟩ := inv.indexed.readable.decodes
  exact ⟨bytes, _, hfile, decode, inv.truth state⟩

namespace Reference

/-- The vault that `created` makes, with the index instance that hashes. -/
def hashedVault (policy : Bool) : Option World :=
  match Vault.create hashing createEnv path "Login" [112, 119] .fastForTests none with
  | (.ok v, file) => some ⟨v.setIndexAttributes policy, file⟩
  | (.error _, _) => none

theorem hashedVault_start {policy : Bool} (h : hashedVault policy = some w) :
    HandleStart hashing (World.IndexBuilt hashing) w := by
  unfold hashedVault at h
  split at h
  next v file ok =>
    cases h
    exact .created policy ok
  · cases h

/-- An item with an attribute is written while hashes are wanted; the vault is opened again with the
policy off, and the rewrite of its index fails. -/
def warnedSteps : List HandleAction :=
  [.call (.insertItem saveEnv 1 "a" "mail" ((∅ : Attributes).insert "app" "mail") [1] "text/plain"
      false),
    .reopen false, .call (.unlockWithKey renameFails loginKey)]

/-- Whether the warning stands, and whether the index is the one the policy would build. -/
def warningAndIndex (w : World) : Option (Bool × Bool) :=
  match w.vault.state, w.file.map (VaultFile.decode hashing) with
  | .unlocked _ items, some (.ok vf) =>
    some (w.vault.indexWarning.isSome,
      decide (vf.header.index = buildIndex hashing vf.header.indexSalt items w.vault.indexAttributes))
  | _, _ => none

/-- A file with one item that carries an attribute, and a hash of something else in its index. -/
def forgedFile : Option Bytes :=
  let header : Header :=
    { version := version, label := "Login", created := 1, modified := 1, kdf := .fastForTests,
      salt := Vector.replicate saltLen 1, indexSalt := Vector.replicate saltLen 2,
      nonce := Vector.replicate nonceLen 7, index := [⟨"a", [Vector.replicate 32 9]⟩] }
  match VaultFile.headerBytes hashing header, encodeItems hashing [itemTagged "a" "app" "mail"] with
  | .ok aad, .ok plain =>
    (hashing.encrypt loginKey header.nonce aad plain).map fun ciphertext => aad ++ ciphertext
  | _, _ => none

def forgedVault : Option World :=
  match Vault.open hashing path forgedFile with
  | .ok v => some ⟨v.setIndexAttributes true, forgedFile⟩
  | .error _ => none

end Reference

/-- The rewrite of the index fails at the unlock, and so does a later write: the warning stands, and
the index in the file is not the one the policy would build. -/
theorem index_warning_is_true_warned :
    ∃ w₀ w : World, HandleStart hashing (World.IndexBuilt hashing) w₀ ∧
      Reach (World.handleStep hashing) quietWhileWarned w₀ w ∧
      w.vault.indexWarning.isSome = true ∧
      ∃ key items bytes vf, w.vault.state = .unlocked key items ∧ w.file = some bytes ∧
        VaultFile.decode hashing bytes = .ok vf ∧
        vf.header.index ≠
          buildIndex hashing vf.header.indexSalt items w.vault.indexAttributes := by
  obtain ⟨w₀, w, start, run, test⟩ := Reach.exists_of_exec_from
    (World.handleStep hashing) quietWhileWarned
    (hashedVault true) id
    (warnedSteps ++
      [HandleAction.call (.insertItem renameFails 1 "b" "note" ∅ [1] "text/plain" false)])
    (fun w => w.vault.indexWarning.isSome && !w.vault.isLocked) (by decide +kernel)
  rw [Bool.and_eq_true] at test
  have begun := hashedVault_start start
  cases state : w.vault.state with
  | locked =>
    rw [isLocked_iff.mpr state] at test
    cases test.2
  | unlocked key items =>
    obtain ⟨bytes, vf, file, decode, truth⟩ := index_warning_is_true hashing_lawful
      ciphers_keyBound begun run state
    exact ⟨w₀, w, begun, run, test.1, key, items, bytes, vf, state, file, decode, truth.mp test.1⟩

/-- A warning that stands over an index that is right, and an index that is wrong under no
warning. -/
theorem index_warning_misleads : (∃ w₀ w, HandleStart hashing (World.IndexBuilt hashing) w₀ ∧
      Reach (World.handleStep hashing) (fun _ _ => True) w₀ w ∧
      warningAndIndex w = some (true, true)) ∧
    (∃ w₀ w, HandleStart hashing (fun _ => True) w₀ ∧
      Reach (World.handleStep hashing) (fun _ _ => True) w₀ w ∧
      warningAndIndex w = some (false, false)) := by
  constructor
  · obtain ⟨w₀, w, start, run, test⟩ := Reach.exists_of_exec_from
      (World.handleStep hashing) (fun _ _ => True) (hashedVault true) id
      (warnedSteps ++
        [HandleAction.call (.insertItem saveEnv 1 "b" "note" ∅ [1] "text/plain" false)])
      (fun w => decide (warningAndIndex w = some (true, true))) (by decide +kernel)
    exact ⟨w₀, w, hashedVault_start start, run, of_decide_eq_true test⟩
  · obtain ⟨w₀, w, start, run, test⟩ := Reach.exists_of_exec_from
      (World.handleStep hashing) (fun _ _ => True) forgedVault id
      [.call (.unlockWithKey saveEnv loginKey)]
      (fun w => decide (warningAndIndex w = some (false, false))) (by decide +kernel)
    refine ⟨w₀, w, ?_, run, of_decide_eq_true test⟩
    unfold forgedVault at start
    split at start
    next v ok =>
      cases start
      exact .opened true ok trivial
    · cases start

end SecretManager
