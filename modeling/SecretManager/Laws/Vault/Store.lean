import SecretManager.Vault.Session
import SecretManager.Laws.Vault.Format

/-!
# What each call on a vault can do

One spec for the save (`save_cases`) and one for each mutator, all in the same words: a mutator
either refuses and leaves the world exactly as it was, or succeeds having changed nothing, or
succeeds by an `Edit` of the unlocked vault followed by a save of the edited vault. The rollback
deltas are accounted for here and nowhere else; every later result reads these specs.
-/

namespace SecretManager

variable {v : Vault} {items : List Item} {key : Key}

/-! ## The save -/

/-- The header a save writes: the old one with its time, nonce and index renewed. -/
def Vault.resealedHeader (x : Externals) (v : Vault) (now : UInt64) (nonce : Nonce)
    (items : List Item) : Header :=
  { v.header with
    modified := now
    nonce := nonce
    index := buildIndex x v.header.indexSalt items v.indexAttributes }

/-- The second vault is the first after a save that reported success. -/
inductive Saved (x : Externals) (v : Vault) : Vault → Prop
  | mk {key : Key} {items : List Item} {now : UInt64} {nonce : Nonce} {aad plain ciphertext : Bytes}
      (live : v.retired = false) (state : v.state = .unlocked key items)
      (header : VaultFile.headerBytes x (v.resealedHeader x now nonce items) = .ok aad)
      (encoded : encodeItems x items = .ok plain)
      (sealed : Crypto.seal x.toCiphers key nonce aad plain = .ok ciphertext)
      (fits : (aad ++ ciphertext).length ≤ v.sizeLimit) :
      Saved x v { v with header := v.resealedHeader x now nonce items, aad, ciphertext }

variable {v' : Vault} {x : Externals}

theorem Saved.state_eq (h : Saved x v v') : v'.state = v.state := by
  cases h
  rfl

theorem Saved.retired_eq (h : Saved x v v') : v'.retired = v.retired := by
  cases h
  rfl

theorem Saved.warning (h : Saved x v v') :
    v'.indexWarning = v.indexWarning ∧ v'.indexAttributes = v.indexAttributes := by
  cases h
  exact ⟨rfl, rfl⟩

/-- Only an unlocked vault is saved. -/
theorem Saved.unlocked (h : Saved x v v') : ∃ key items, v.state = .unlocked key items := by
  cases h with
  | mk live state => exact ⟨_, _, state⟩

/-- The file is the header bytes followed by the ciphertext. -/
def World.FileHolds (w : World) : Prop := w.file = some (w.vault.aad ++ w.vault.ciphertext)

/-- A publishing step that reports success only with the bytes in place. -/
def Publish.Sound (publish : Publish) : Prop :=
  ∀ {bytes file file'}, publish bytes file = (.ok (), file') → file' = some bytes

theorem checkVaultSizeAgainst_ok {len limit : Nat} (ok : checkVaultSizeAgainst len limit = .ok ()) :
    len ≤ limit := by
  unfold checkVaultSizeAgainst at ok
  by_cases h : len > limit
  · rw [if_pos h] at ok
    cases ok
  · omega

variable {env : SaveEnv} {r : Except VaultError Unit} {w w' : World}

/-- **One save**: refused with the vault untouched, or recorded after its bytes were published. -/
theorem saveWith_outcome {publish : Publish} (h : w.saveWith x env publish = (r, w')) :
    (∃ e, r = .error e ∧ w'.vault = w.vault ∧
        (w'.file = w.file ∨ ∃ bytes e', publish bytes w.file = (.error e', w'.file))) ∨
      (r = .ok () ∧ Saved x w.vault w'.vault ∧
        publish (w'.vault.aad ++ w'.vault.ciphertext) w.file = (.ok (), w'.file)) := by
  unfold World.saveWith at h
  simp only at h
  split at h
  · cases h
    exact .inl ⟨_, rfl, rfl, .inl rfl⟩
  next hlive =>
  split at h
  · cases h
    exact .inl ⟨_, rfl, rfl, .inl rfl⟩
  next key items hstate =>
  split at h
  · cases h
    exact .inl ⟨_, rfl, rfl, .inl rfl⟩
  next nonce hnonce =>
  split at h
  · cases h
    exact .inl ⟨_, rfl, rfl, .inl rfl⟩
  next aad haad =>
  split at h
  · cases h
    exact .inl ⟨_, rfl, rfl, .inl rfl⟩
  next plain hplain =>
  split at h
  · cases h
    exact .inl ⟨_, rfl, rfl, .inl rfl⟩
  next ciphertext hseal =>
  split at h
  · cases h
    exact .inl ⟨_, rfl, rfl, .inl rfl⟩
  next hsize =>
  split at h
  next e file hpub =>
    cases h
    exact .inl ⟨_, rfl, rfl, .inr ⟨_, _, hpub⟩⟩
  next file hpub =>
    cases h
    exact .inr ⟨rfl, .mk (Bool.not_eq_true _ ▸ hlive) hstate haad hplain hseal
      (checkVaultSizeAgainst_ok hsize), hpub⟩

/-- A save is refused and the vault stays, or it succeeds and the file holds the vault. -/
theorem saveWith_cases {publish : Publish} (sound : publish.Sound)
    (h : w.saveWith x env publish = (r, w')) : (∃ e, r = .error e ∧ w'.vault = w.vault ∧
        (w'.file = w.file ∨ ∃ bytes e', publish bytes w.file = (.error e', w'.file))) ∨
      (r = .ok () ∧ Saved x w.vault w'.vault ∧ w'.FileHolds) := by
  rcases saveWith_outcome h with refused | ⟨ok, saved, published⟩
  · exact .inl refused
  · exact .inr ⟨ok, saved, sound published⟩

theorem Store.writeAtomic_cases (env : SaveEnv) (path : VaultPath) (bytes : Bytes)
    (file : Option Bytes) : Store.writeAtomic env path bytes file = (.ok (), some bytes) ∨
      ∃ e, Store.writeAtomic env path bytes file = (.error e, file) := by
  unfold Store.writeAtomic
  cases env.ensureDir with
  | error e => exact .inr ⟨_, rfl⟩
  | ok u =>
    rcases SecretManager.writeAtomic_cases env.write bytes file with h | ⟨e, h⟩
    · exact .inl (by simp only [h])
    · exact .inr ⟨.io path.display e, by simp only [h]⟩

theorem Store.writeAtomic_sound (env : SaveEnv) (path : VaultPath) :
    Publish.Sound (Store.writeAtomic env path) := by
  intro bytes file file' h
  rcases Store.writeAtomic_cases env path bytes file with h' | ⟨e, h'⟩
  · rw [h'] at h
    exact (Prod.mk.inj h).2.symm
  · rw [h'] at h
    cases (Prod.mk.inj h).1

/-- **One save of an existing vault**: refused with the world untouched, or published. -/
theorem save_cases (h : w.save x env = (r, w')) :
    (∃ e, r = .error e ∧ w' = w) ∨ (r = .ok () ∧ Saved x w.vault w'.vault ∧ w'.FileHolds) := by
  rcases saveWith_cases (Store.writeAtomic_sound env w.vault.path) h with
    ⟨e, rfl, hvault, hfile⟩ | hok
  · left
    refine ⟨e, rfl, ?_⟩
    obtain ⟨v', file'⟩ := w'
    obtain ⟨v, file⟩ := w
    subst hvault
    rcases hfile with rfl | ⟨bytes, e', hpub⟩
    · rfl
    · rcases Store.writeAtomic_cases env v'.path bytes file with h' | ⟨e'', h'⟩
      · rw [h'] at hpub
        cases (Prod.mk.inj hpub).1
      · rw [h'] at hpub
        rw [(Prod.mk.inj hpub).2]
  · exact .inr hok

/-! ## The mutators -/

/-- What a mutator may change of an unlocked vault before it saves. -/
inductive Edit (v : Vault) : Vault → Prop
  | items {key : Key} {items : List Item} (items' : List Item)
      (state : v.state = .unlocked key items) : Edit v { v with state := .unlocked key items' }
  | label {key : Key} {items : List Item} (label : String)
      (state : v.state = .unlocked key items) :
      Edit v { v with header := { v.header with label } }
  | rekey {key : Key} {items : List Item} (newKey : Key) (salt indexSalt : Salt) {kdf : KdfParams}
      (state : v.state = .unlocked key items) (valid : kdf.validate = .ok ()) :
      Edit v { v with header := { v.header with salt, kdf, indexSalt },
                      state := .unlocked newKey items }

/-- The result and the world a mutator leaves. -/
inductive Mutates (x : Externals) {α : Type} (w : World) : Except VaultError α → World → Prop
  | refused (e : VaultError) : Mutates x w (.error e) w
  | kept (a : α) : Mutates x w (.ok a) w
  | saved (a : α) {v : Vault} {w' : World} (edit : Edit w.vault v) (saved : Saved x v w'.vault)
      (holds : w'.FileHolds) : Mutates x w (.ok a) w'

theorem Mutates.discard {α : Type} {r : Except VaultError α} (h : Mutates x w r w') :
    Mutates x w (discard r) w' := by
  cases h with
  | refused e => exact .refused e
  | kept a => exact .kept ()
  | saved a edit saved holds => exact .saved () edit saved holds

theorem Mutates.thenReturn {α : Type} {p : Except VaultError Unit × World} (a : α)
    (h : Mutates x w p.1 p.2) : Mutates x w (World.thenReturn a p).1 (World.thenReturn a p).2 := by
  obtain ⟨r, w'⟩ := p
  cases h with
  | refused e => exact .refused e
  | kept u => exact .kept a
  | saved u edit saved holds => exact .saved a edit saved holds

theorem items_ok (h : v.items = .ok items) : ∃ key, v.state = .unlocked key items := by
  unfold Vault.items at h
  cases hs : v.state with
  | locked => simp only [hs, reduceCtorEq] at h
  | unlocked key items' =>
    simp only [hs, Except.ok.injEq] at h
    exact ⟨key, by rw [h]⟩

theorem setItems_unlocked (h : v.state = .unlocked key items) (items' : List Item) :
    v.setItems items' = { v with state := .unlocked key items' } := by
  unfold Vault.setItems
  rw [h]

theorem setItems_setItems (h : v.state = .unlocked key items) (items' : List Item) :
    (v.setItems items').setItems items = v := by
  cases v
  subst h
  rfl

/-- **A save that puts back what it cannot keep.** Any edit whose undo gives the vault back mutates
all or nothing. -/
theorem saveOrRestore_mutates {restore : Vault → Vault} (edit : Edit w.vault v)
    (undo : restore v = w.vault) :
    Mutates x w (World.saveOrRestore x env restore { w with vault := v }).1
      (World.saveOrRestore x env restore { w with vault := v }).2 := by
  unfold World.saveOrRestore
  cases hsave : World.save x env { w with vault := v } with
  | mk r w' =>
    rcases save_cases hsave with ⟨e, rfl, rfl⟩ | ⟨rfl, hsaved, hholds⟩
    · simp only [undo]
      exact .refused e
    · exact .saved () edit hsaved hholds

theorem saveOrRestore_items {items' : List Item} {restore : Vault → Vault}
    (state : w.vault.state = .unlocked key items)
    (undo : restore (w.vault.setItems items') = (w.vault.setItems items').setItems items) :
    Mutates x w
      (World.saveOrRestore x env restore { w with vault := w.vault.setItems items' }).1
      (World.saveOrRestore x env restore { w with vault := w.vault.setItems items' }).2 := by
  refine saveOrRestore_mutates ?_ (undo.trans (setItems_setItems state items'))
  rw [setItems_unlocked state]
  exact .items items' state

variable {p : Nat} {prior : Item}

theorem found_getElem? {pos : Option Nat}
    (h : (pos.bind fun p => (items[p]?).map fun i => (p, i)) = some (p, prior)) :
    items[p]? = some prior := by
  obtain ⟨q, -, hq⟩ := Option.bind_eq_some_iff.mp h
  obtain ⟨i, hi, heq⟩ := Option.map_eq_some_iff.mp hq
  cases heq
  exact hi

/-! ### Each delta undoes its own mutation -/

theorem restoreDelta_setItems (state : v.state = .unlocked key items) (delta : ItemDelta)
    (items' : List Item) :
    Vault.restoreDelta delta (v.setItems items') = (v.setItems items').setItems (delta.undo items') := by
  rw [setItems_unlocked state]
  rfl

theorem truncateItems_setItems (state : v.state = .unlocked key items) (len : Nat)
    (items' : List Item) :
    Vault.truncateItems len (v.setItems items') = (v.setItems items').setItems (items'.take len) := by
  rw [setItems_unlocked state]
  rfl

theorem set_set_of_getElem? (item : Item) (h : items[p]? = some prior) :
    (items.set p item).set p prior = items := by
  obtain ⟨hlt, rfl⟩ := List.getElem?_eq_some_iff.mp h
  rw [List.set_set, List.set_getElem_self]

theorem insertIdx_eraseIdx_of_getElem? (h : items[p]? = some prior) :
    (if p ≤ (items.eraseIdx p).length then (items.eraseIdx p).insertIdx p prior
      else items.eraseIdx p) = items := by
  obtain ⟨hlt, rfl⟩ := List.getElem?_eq_some_iff.mp h
  have hlen : p ≤ (items.eraseIdx p).length := by
    rw [List.length_eraseIdx_of_lt hlt]
    omega
  rw [if_pos hlen, List.insertIdx_eraseIdx_getElem hlt]

theorem placeItem_undo (now : UInt64) (uuid label : String) (attributes : Attributes)
    (secret : Bytes) (contentType : String) (replace : Bool) (items : List Item) :
    let placed := World.placeItem now uuid label attributes secret contentType replace items
    placed.delta.undo placed.items = items := by
  unfold World.placeItem
  dsimp only
  split
  next p prior hfound => exact set_set_of_getElem? _ (found_getElem? hfound)
  next => exact List.dropLast_concat

/-! ### The mutators, one by one -/

section

variable (x : Externals) (env : SaveEnv) (w : World)

theorem insertItem_mutates (now : UInt64) (uuid label : String) (attributes : Attributes)
    (secret : Bytes) (contentType : String) (replace : Bool) :
    Mutates x w (w.insertItem x env now uuid label attributes secret contentType replace).1
      (w.insertItem x env now uuid label attributes secret contentType replace).2 := by
  unfold World.insertItem
  cases hitems : w.vault.items with
  | error e => exact .refused e
  | ok items =>
    obtain ⟨key, state⟩ := items_ok hitems
    dsimp only
    split
    · exact .refused _
    unfold World.insertItemUnchecked
    simp only [hitems]
    refine Mutates.thenReturn _ (saveOrRestore_items state ?_)
    rw [restoreDelta_setItems state]
    exact congrArg _ (placeItem_undo ..)

theorem updateItem_mutates (now : UInt64) (id : String) (f : Item → Item) :
    Mutates x w (w.updateItem x env now id f).1 (w.updateItem x env now id f).2 := by
  unfold World.updateItem
  cases hitems : w.vault.items with
  | error e => exact .refused e
  | ok items =>
    obtain ⟨key, state⟩ := items_ok hitems
    dsimp only
    split
    · exact .refused _
    next index prior hfound =>
      have hback := set_set_of_getElem? { f prior with modified := now } (found_getElem? hfound)
      split
      · -- over a cap: the item is put back before anything is saved
        rw [hback, setItems_setItems state]
        exact .refused _
      · refine saveOrRestore_items state ?_
        rw [restoreDelta_setItems state]
        exact congrArg _ hback

theorem deleteItem_mutates (id : String) :
    Mutates x w (w.deleteItem x env id).1 (w.deleteItem x env id).2 := by
  unfold World.deleteItem
  cases hitems : w.vault.items with
  | error e => exact .refused e
  | ok items =>
    obtain ⟨key, state⟩ := items_ok hitems
    dsimp only
    split
    · exact .refused _
    next index prior hfound =>
      refine saveOrRestore_items state ?_
      rw [restoreDelta_setItems state]
      exact congrArg _ (insertIdx_eraseIdx_of_getElem? (found_getElem? hfound))

theorem deleteItems_mutates (ids : List String) :
    Mutates x w (w.deleteItems x env ids).1 (w.deleteItems x env ids).2 := by
  unfold World.deleteItems
  split
  · exact .kept ()
  cases hitems : w.vault.items with
  | error e => exact .refused e
  | ok items =>
    obtain ⟨key, state⟩ := items_ok hitems
    dsimp only
    split
    · exact .refused _
    · refine saveOrRestore_items state ?_
      rw [restoreDelta_setItems state]
      exact congrArg _ (Delta.putBack_pullOut _ items)

theorem importItems_mutates (uuid : Nat → String) (batch : List ImportItem) :
    Mutates x w (w.importItems x env uuid batch).1 (w.importItems x env uuid batch).2 := by
  unfold World.importItems
  split
  · exact .kept ()
  cases hitems : w.vault.items with
  | error e => exact .refused e
  | ok items =>
    obtain ⟨key, state⟩ := items_ok hitems
    dsimp only
    split
    · exact .refused _
    · refine saveOrRestore_items state ?_
      -- the batch is a suffix, so cutting at the old length leaves the old list
      rw [truncateItems_setItems state, List.take_left]

theorem setLabel_mutates (label : String) :
    Mutates x w (w.setLabel x env label).1 (w.setLabel x env label).2 := by
  unfold World.setLabel
  split
  · exact .refused _
  cases hitems : w.vault.items with
  | error e => exact .refused e
  | ok items =>
    obtain ⟨key, state⟩ := items_ok hitems
    exact saveOrRestore_mutates (.label label state) rfl

theorem rekey_mutates {oldKey : Key} (newKey : Key) (newSalt newIndexSalt : Salt)
    {newKdf : KdfParams} (state : w.vault.state = .unlocked oldKey items)
    (valid : newKdf.validate = .ok ()) :
    Mutates x w (w.rekey x env oldKey newSalt newKdf newKey newIndexSalt).1
      (w.rekey x env oldKey newSalt newKdf newKey newIndexSalt).2 := by
  have hedit := Edit.rekey newKey newSalt newIndexSalt state valid
  unfold World.rekey
  simp only [state]
  split
  next w' hsave =>
    rcases save_cases hsave with ⟨e, h, -⟩ | ⟨-, hsaved, hholds⟩
    · cases h
    · exact .saved () hedit hsaved hholds
  next e w' hsave =>
    rcases save_cases hsave with ⟨e', -, rfl⟩ | ⟨h, -⟩
    · -- salt, parameters, index salt and key are all put back
      obtain ⟨v, file⟩ := w
      obtain ⟨path, header, aad, ciphertext, st, ia, iw, sl, ret, pin⟩ := v
      subst state
      exact .refused e
    · cases h

end

/-! ## Unlocking and the key change -/

/-- What a key opens a vault to, judged by what the vault holds in memory. -/
def Vault.Contents (x : Externals) (v : Vault) (key : Key) (items : List Item) : Prop :=
  ∃ plain, Crypto.open x.toCiphers key v.header.nonce v.aad v.ciphertext = .ok plain ∧ decodeItems x plain = .ok items

theorem isLocked_iff : v.isLocked = true ↔ v.state = .locked := by
  unfold Vault.isLocked
  cases v.state <;> simp

/-- The world right after the items were decrypted, before the index policy is looked at. -/
def World.opened (w : World) (key : Key) (items : List Item) : World :=
  { w with vault := { w.vault with state := .unlocked key items } }

/-- How an unlock of a locked vault ends, from the world with its items decrypted: the index
matches the policy, or a save has rewritten it, or that save failed and only the warning says so. -/
inductive Settles (x : Externals) (w : World) : World → Prop
  | matching (same : w.vault.indexHasAttributes = w.vault.wantsAttributes) :
      Settles x w { w with vault := { w.vault with indexWarning := none } }
  | rewritten {w' : World} (differs : w.vault.indexHasAttributes ≠ w.vault.wantsAttributes)
      (saved : Saved x w.vault w'.vault) (holds : w'.FileHolds) :
      Settles x w { w' with vault := { w'.vault with indexWarning := none } }
  | stale (warning : String) (differs : w.vault.indexHasAttributes ≠ w.vault.wantsAttributes) :
      Settles x w { w with vault := { w.vault with indexWarning := some warning } }

/-- **One unlock**: refused with nothing changed, or already unlocked under this key, or decrypted
and settled. -/
theorem unlockWithKey_cases (h : w.unlockWithKey x env key = (r, w')) :
    (∃ e, r = .error e ∧ w' = w) ∨
      (r = .ok () ∧ w' = w ∧ ∃ items, w.vault.state = .unlocked key items) ∨
      (r = .ok () ∧ w.vault.state = .locked ∧
        ∃ items, w.vault.Contents x key items ∧ Settles x (w.opened key items) w') := by
  unfold World.unlockWithKey at h
  simp only at h
  split at h
  · cases h
    exact .inl ⟨_, rfl, rfl⟩
  split at h
  next hunlocked =>
    split at h
    next hverify =>
      cases h
      refine .inr (.inl ⟨rfl, rfl, ?_⟩)
      unfold Vault.isLocked at hunlocked
      unfold Vault.verifyKey at hverify
      cases hs : w.vault.state with
      | locked => simp only [hs, Bool.not_true, Bool.false_eq_true] at hunlocked
      | unlocked current items =>
        simp only [hs, decide_eq_true_eq] at hverify
        exact ⟨items, by rw [hverify]⟩
    · cases h
      exact .inl ⟨_, rfl, rfl⟩
  next hlocked =>
  have state : w.vault.state = .locked := isLocked_iff.mp (by simpa using hlocked)
  split at h
  · cases h
    exact .inl ⟨_, rfl, rfl⟩
  next plain hopen =>
  split at h
  · cases h
    exact .inl ⟨_, rfl, rfl⟩
  next items hdecode =>
  have contents : w.vault.Contents x key items := ⟨plain, hopen, hdecode⟩
  right; right
  split at h
  next hdiff =>
    have differs := bne_iff_ne.mp hdiff
    split at h
    next w₁ hsave =>
      cases h
      rcases save_cases hsave with ⟨e, he, -⟩ | ⟨-, hsaved, hholds⟩
      · cases he
      · exact ⟨rfl, state, items, contents, .rewritten differs hsaved hholds⟩
    next e w₁ hsave =>
      cases h
      rcases save_cases hsave with ⟨e', -, rfl⟩ | ⟨he, -⟩
      · exact ⟨rfl, state, items, contents, .stale _ differs⟩
      · cases he
  next hsame =>
    cases h
    simp only [bne_iff_ne, ne_eq, not_not] at hsame
    exact ⟨rfl, state, items, contents, .matching hsame⟩

theorem unlockWithKey_live (h : w.unlockWithKey x env key = (.ok (), w')) :
    w.vault.retired = false := by
  unfold World.unlockWithKey at h
  simp only at h
  split at h
  · cases (Prod.mk.inj h).1
  next live => exact Bool.not_eq_true _ ▸ live

/-- **One key change**: refused with nothing changed; or, with the index salt that was drawn, the
edit and save of an unlocked vault; or, from locked, an unlock that settles, the edit and save, and
a lock. -/
theorem changeKey_cases {unlockEnv : SaveEnv} {indexSalt : Except CryptoError Salt}
    {oldKey newKey : Key} {newSalt : Salt} {newKdf : KdfParams}
    (h : w.changeKey x unlockEnv env indexSalt oldKey newSalt newKdf newKey = (r, w')) :
    (∃ e, r = .error e ∧ w' = w) ∨ newKdf.validate = .ok () ∧ ∃ newIndexSalt, indexSalt = .ok newIndexSalt ∧
        (((∃ items, w.vault.state = .unlocked oldKey items) ∧
          w.rekey x env oldKey newSalt newKdf newKey newIndexSalt = (r, w')) ∨
        (w.vault.state = .locked ∧ w.vault.retired = false ∧
          ∃ items w₁ w₂, w.vault.Contents x oldKey items ∧ Settles x (w.opened oldKey items) w₁ ∧
          w₁.rekey x env oldKey newSalt newKdf newKey newIndexSalt = (r, w₂) ∧
          w' = { w₂ with vault := w₂.vault.lock })) := by
  unfold World.changeKey at h
  split at h
  · cases h
    exact .inl ⟨_, rfl, rfl⟩
  next hvalid =>
  split at h
  · cases h
    exact .inl ⟨_, rfl, rfl⟩
  split at h
  · cases h
    exact .inl ⟨_, rfl, rfl⟩
  next newIndexSalt =>
  split at h
  next hlocked =>
    have state := isLocked_iff.mp hlocked
    split at h
    next e w₁ hunlock =>
      cases h
      rcases unlockWithKey_cases hunlock with ⟨e', -, rfl⟩ | ⟨he, -⟩ | ⟨he, -⟩
      · exact .inl ⟨e, rfl, rfl⟩
      · cases he
      · cases he
    next w₁ hunlock =>
      cases h
      rcases unlockWithKey_cases hunlock with ⟨e', he, -⟩ | ⟨-, -, items, hs⟩ |
        ⟨-, -, items, hcontents, hsettles⟩
      · cases he
      · rw [state] at hs
        cases hs
      · exact .inr ⟨hvalid, newIndexSalt, rfl, .inr ⟨state, unlockWithKey_live hunlock, items, w₁, _,
          hcontents, hsettles, rfl, rfl⟩⟩
  next hunlocked =>
    split at h
    next hverify =>
      refine .inr ⟨hvalid, newIndexSalt, rfl, .inl ⟨?_, h⟩⟩
      unfold Vault.verifyKey at hverify
      cases hs : w.vault.state with
      | locked => exact absurd (isLocked_iff.mpr hs) hunlocked
      | unlocked current items =>
        simp only [hs, decide_eq_true_eq] at hverify
        exact ⟨items, by rw [hverify]⟩
    · cases h
      exact .inl ⟨_, rfl, rfl⟩

theorem Settles.state_eq (h : Settles x (w.opened key items) w') :
    w'.vault.state = .unlocked key items := by
  cases h with
  | matching => rfl
  | rewritten _ saved _ => exact saved.state_eq
  | stale => rfl

/-! ## Any call -/

/-- What a call came down to. A key change of a locked vault opens, rotates and locks it again. -/
inductive Effect (x : Externals) (w : World) : VaultOp → Except VaultError Unit → World → Prop
  | mutated {op : VaultOp} {r : Except VaultError Unit} {w' : World} (m : Mutates x w r w') : Effect x w op r w'
  | rotated {unlockEnv env : SaveEnv} {indexSalt : Except CryptoError Salt} {oldKey newKey : Key}
      {newSalt newIndexSalt : Salt} {newKdf : KdfParams} {items : List Item} {r : Except VaultError Unit}
      {w₁ w₂ : World} (locked : w.vault.state = .locked) (contents : w.vault.Contents x oldKey items)
      (settles : Settles x (w.opened oldKey items) w₁) (m : Mutates x w₁ r w₂)
      (rekeyed : w₁.rekey x env oldKey newSalt newKdf newKey newIndexSalt = (r, w₂)) :
      Effect x w (.changeKey unlockEnv env indexSalt oldKey newSalt newKdf newKey) r
        { w₂ with vault := w₂.vault.lock }
  | unlocked {env : SaveEnv} {key : Key} {items : List Item} {w' : World} (locked : w.vault.state = .locked)
      (contents : w.vault.Contents x key items) (settles : Settles x (w.opened key items) w') :
      Effect x w (.unlockWithKey env key) (.ok ()) w'
  | locked : Effect x w .lock (.ok ()) { w with vault := w.vault.lock }
  | policy (enabled : Bool) :
      Effect x w (.setIndexAttributes enabled) (.ok ()) { w with vault := w.vault.setIndexAttributes enabled }
  | pinned (pinned : Bool) : Effect x w (.setPinned pinned) (.ok ()) { w with vault := { w.vault with pinned } }

/-- **Every call** mutates the vault or leaves it, settles it, or sets a flag. -/
theorem apply_effect {op : VaultOp} (h : op.apply x w = (r, w')) : Effect x w op r w' := by
  have fromMutates : ∀ {p : Except VaultError Unit × World}, Mutates x w p.1 p.2 → p = (r, w') →
      Effect x w op r w' := by
    rintro p m rfl
    exact .mutated m
  cases op with
  | insertItem env => exact fromMutates (insertItem_mutates x env w ..).discard h
  | updateItem env now id f => exact fromMutates (updateItem_mutates x env w now id f) h
  | deleteItem env id => exact fromMutates (deleteItem_mutates x env w id) h
  | deleteItems env ids => exact fromMutates (deleteItems_mutates x env w ids) h
  | importItems env uuid batch => exact fromMutates (importItems_mutates x env w uuid batch) h
  | setLabel env label => exact fromMutates (setLabel_mutates x env w label) h
  | changeKey unlockEnv env indexSalt oldKey newSalt newKdf newKey =>
    rcases changeKey_cases h with ⟨e, rfl, rfl⟩ | ⟨valid, newIndexSalt, -,
      ⟨⟨items, state⟩, rekeyed⟩ | ⟨locked, -, items, w₁, w₂, contents, settles, rekeyed, rfl⟩⟩
    · exact .mutated (.refused e)
    · exact fromMutates (rekey_mutates x env w newKey newSalt newIndexSalt state valid) rekeyed
    · have m := rekey_mutates x env w₁ newKey newSalt newIndexSalt settles.state_eq valid
      rw [rekeyed] at m
      exact .rotated locked contents settles m rekeyed
  | unlockWithKey env key =>
    rcases unlockWithKey_cases h with ⟨e, rfl, rfl⟩ | ⟨rfl, rfl, -⟩ | ⟨rfl, locked, items, contents, settles⟩
    · exact .mutated (.refused e)
    · exact .mutated (.kept ())
    · exact .unlocked locked contents settles
  | lock =>
    cases h
    exact .locked
  | setIndexAttributes enabled =>
    cases h
    exact .policy enabled
  | setPinned pinned =>
    cases h
    exact .pinned pinned

end SecretManager
