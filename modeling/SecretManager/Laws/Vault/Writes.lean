import SecretManager.Laws.Vault.Reopen
import SecretManager.Laws.Vault.Identity

/-!
# Item writes that were reported successful

A call that reports success on an unlocked vault promises what it left under the ids it wrote.
`World.Keeps` says that a vault and its file still have everything that was promised; every call
carries a promise on to the next world, whatever fails in it, because items change in one way only:
by a successful call from an unlocked vault to an unlocked vault, and that call records what it
changed.
-/

namespace SecretManager

variable {w w' : World}

variable {x : Externals}

/-! ## What a call promises -/

/-- The items a list has under one id. -/
def underId (id : String) (items : List Item) : List Item := items.filter fun i => i.id = id

/-- The ids a call writes or deletes, on an unlocked vault with these items. -/
def VaultOp.writes (items : List Item) : VaultOp → List String
  | .insertItem _ now uuid label attributes secret contentType replace =>
    [(World.placeItem now uuid label attributes secret contentType replace items).result.1]
  | .updateItem _ _ id _ => [id]
  | .deleteItem _ id => [id]
  | .deleteItems _ ids => ids
  | .importItems _ uuid batch => (List.range batch.length).map uuid
  | _ => []

/-- What has been promised of one file: the items under an id. -/
abbrev Promises := String → Option (List Item)

/-- What is promised after a call that reported success: under an id that it wrote or changed, what
it left there. -/
def Promises.record (promised : Promises) (op : VaultOp) (before after : List Item) : Promises :=
  fun id =>
    if id ∈ op.writes before ∨ underId id before ≠ underId id after then some (underId id after)
    else promised id

/-- What is promised after a call with this answer. -/
def Promises.after (promised : Promises) (op : VaultOp) (r : Except VaultError Unit)
    (v v' : Vault) : Promises :=
  match r, v.state, v'.state with
  | .ok (), .unlocked _ before, .unlocked _ after => promised.record op before after
  | _, _, _ => promised

/-- The vault and its file agree, and hold everything that was promised. -/
structure World.Keeps (x : Externals) (w : World) (promised : Promises) : Prop where
  coherent : Coherent x w
  kept : ∀ {key items}, w.vault.Contents x key items → ∀ {id found}, promised id = some found → underId id items = found

/-! ## A successful write was saved -/

theorem saveOrRestore_ok {env : SaveEnv} {restore : Vault → Vault}
    (h : World.saveOrRestore x env restore w = (.ok (), w')) :
    Saved x w.vault w'.vault ∧ w'.FileHolds := by
  unfold World.saveOrRestore at h
  split at h
  next w₁ hsave =>
    obtain ⟨-, rfl⟩ := Prod.mk.inj h
    rcases save_cases hsave with ⟨e, he, -⟩ | ⟨-, saved, holds⟩
    · cases he
    · exact ⟨saved, holds⟩
  · cases (Prod.mk.inj h).1

variable {items items' : List Item} {key : Key}

theorem saveOrRestore_items_ok {env : SaveEnv} {restore : Vault → Vault}
    (state : w.vault.state = .unlocked key items)
    (h : World.saveOrRestore x env restore { w with vault := w.vault.setItems items' } =
      (.ok (), w')) : ∃ v, Edit w.vault v ∧ Saved x v w'.vault ∧ w'.FileHolds := by
  obtain ⟨saved, holds⟩ := saveOrRestore_ok h
  refine ⟨_, ?_, saved, holds⟩
  rw [setItems_unlocked state]
  exact .items items' state

variable {op : VaultOp}

/-- **A call that reports success and writes something has saved it.** -/
theorem apply_writes {id : String} (h : op.apply x w = (.ok (), w'))
    (state : w.vault.state = .unlocked key items) (hmem : id ∈ op.writes items) :
    ∃ v, Edit w.vault v ∧ Saved x v w'.vault ∧ w'.FileHolds := by
  have hitems : w.vault.items = .ok items := by simp only [Vault.items, state]
  cases op with
  | insertItem env now uuid label attributes secret contentType replace =>
    simp only [VaultOp.apply, World.insertItem, hitems] at h
    split at h
    · cases (Prod.mk.inj h).1
    · simp only [World.insertItemUnchecked, hitems, World.thenReturn] at h
      split at h
      next hsave => cases (Prod.mk.inj h).1
      next w₁ hsave =>
        obtain ⟨-, rfl⟩ := Prod.mk.inj h
        exact saveOrRestore_items_ok state hsave
  | updateItem env now id f =>
    simp only [VaultOp.apply, World.updateItem, hitems] at h
    split at h
    · cases (Prod.mk.inj h).1
    · split at h
      · cases (Prod.mk.inj h).1
      · exact saveOrRestore_items_ok state h
  | deleteItem env id =>
    simp only [VaultOp.apply, World.deleteItem, hitems] at h
    split at h
    · cases (Prod.mk.inj h).1
    · exact saveOrRestore_items_ok state h
  | deleteItems env ids =>
    simp only [VaultOp.apply, World.deleteItems, hitems] at h
    split at h
    next hempty =>
      rw [List.isEmpty_iff] at hempty
      subst hempty
      cases hmem
    · split at h
      · cases (Prod.mk.inj h).1
      · exact saveOrRestore_items_ok state h
  | importItems env uuid batch =>
    simp only [VaultOp.apply, World.importItems, hitems] at h
    split at h
    next hempty =>
      rw [List.isEmpty_iff] at hempty
      subst hempty
      cases hmem
    · split at h
      · cases (Prod.mk.inj h).1
      · exact saveOrRestore_items_ok state h
  | setLabel env label | changeKey unlockEnv env indexSalt oldKey newSalt newKdf newKey | lock
  | unlockWithKey env key | setIndexAttributes enabled | setPinned pinned => cases hmem

/-! ## How the contents of a vault change -/

variable {r : Except VaultError Unit}

theorem Coherent.contents_of_state (hx : x.Lawful) (hk : x.toCiphers.KeyBound) (h : Coherent x w)
    {k : Key} {its : List Item} (state : w.vault.state = .unlocked k its)
    (contents : w.vault.Contents x key items) : its = items := by
  obtain ⟨key₀, items₀, sealed, agrees⟩ := h.contents
  obtain ⟨-, rfl⟩ := sealed.contents_unique hx hk contents
  exact (agrees k its state).2

theorem Coherent.contents_unique (hx : x.Lawful) (hk : x.toCiphers.KeyBound) (h : Coherent x w)
    {key' : Key} (contents : w.vault.Contents x key items)
    (contents' : w.vault.Contents x key' items') : items' = items := by
  obtain ⟨key₀, items₀, sealed, -⟩ := h.contents
  obtain ⟨-, rfl⟩ := sealed.contents_unique hx hk contents
  exact (sealed.contents_unique hx hk contents').2

theorem Edit.unlocked {v v' : Vault} (edit : Edit v v') :
    (∃ key items, v.state = .unlocked key items) ∧ ∃ key items, v'.state = .unlocked key items := by
  cases edit with
  | items items' state | rekey newKey salt indexSalt state valid => exact ⟨⟨_, _, state⟩, _, _, rfl⟩
  | label label state => exact ⟨⟨_, _, state⟩, _, _, state⟩

theorem Settles.contents_unique (hx : x.Lawful) (hk : x.toCiphers.KeyBound) (h : Coherent x w)
    (opened : w.vault.Contents x key items) (settles : Settles x (w.opened key items) w') :
    Coherent x w' ∧ ∀ {key' items'}, w'.vault.Contents x key' items' → items' = items := by
  have coherent : Coherent x w' := Micros.invariant (fun step hw => step.coherent hx hk hw)
    (.head (.decrypt opened) settles.micros) h
  exact ⟨coherent, fun contents' =>
    (coherent.contents_of_state hx hk settles.state_eq contents').symm⟩

/-- **Items change in one way only**: by a successful call from an unlocked vault to an unlocked
one. -/
theorem Effect.contents (hx : x.Lawful) (hk : x.toCiphers.KeyBound) (h : Coherent x w)
    (effect : Effect x w op r w') {key' : Key} (contents : w.vault.Contents x key items)
    (contents' : w'.vault.Contents x key' items') :
    items' = items ∨ (r = .ok () ∧ (∃ k, w.vault.state = .unlocked k items) ∧
      ∃ k', w'.vault.state = .unlocked k' items') := by
  cases effect with
  | mutated m =>
    cases m with
    | refused e | kept a => exact .inl (h.contents_unique hx hk contents contents')
    | saved a edit saved holds =>
      have coherent := saved.coherent (edit.writable h.writable) holds
      obtain ⟨⟨k, its, state⟩, k', its', state'⟩ := edit.unlocked
      have hstate' := saved.state_eq.trans state'
      obtain rfl := h.contents_of_state hx hk state contents
      obtain rfl := coherent.contents_of_state hx hk hstate' contents'
      exact .inr ⟨rfl, ⟨k, state⟩, k', hstate'⟩
  | locked | policy | pinned => exact .inl (h.contents_unique hx hk contents contents')
  | unlocked locked opened settles =>
    obtain ⟨-, same⟩ := settles.contents_unique hx hk h opened
    exact .inl ((same contents').trans (h.contents_unique hx hk contents opened))
  | @rotated _ _ _ _ _ _ _ _ its _ w₁ w₂ locked opened settles hm rekeyed =>
    -- the vault was opened, rotated and locked again; none of the three changes the items
    obtain ⟨coherent, same⟩ := settles.contents_unique hx hk h opened
    have hits : its = items := h.contents_unique hx hk contents opened
    have contents₂ : w₂.vault.Contents x key' items' := contents'
    cases hm with
    | refused e | kept a => exact .inl ((same contents₂).trans hits)
    | saved a edit saved holds =>
      have moved := rekey_contents hx settles.state_eq rekeyed
      have coherent₂ := saved.coherent (edit.writable coherent.writable) holds
      exact .inl ((coherent₂.contents_unique hx hk moved contents₂).trans hits)

theorem Effect.changed (effect : Effect x w op r w') {k k' : Key} {its its' : List Item}
    (state : w.vault.state = .unlocked k its) (state' : w'.vault.state = .unlocked k' its')
    (changed : its' ≠ its) : ∃ v, Edit w.vault v ∧ Saved x v w'.vault ∧ w'.FileHolds := by
  have hstate : w'.vault.state ≠ w.vault.state := by
    rw [state, state']
    intro heq
    cases heq
    exact changed rfl
  cases effect with
  | mutated m =>
    cases m with
    | refused e | kept a => exact absurd rfl hstate
    | saved a edit saved holds => exact ⟨_, edit, saved, holds⟩
  | locked => cases state'
  | policy | pinned => exact absurd rfl hstate
  | unlocked locked | rotated locked =>
    rw [state] at locked
    cases locked

/-! ## Promises are kept -/

section

variable {promised : Promises}

theorem Promises.after_cases (promised : Promises) (op : VaultOp) (r : Except VaultError Unit)
    (v v' : Vault) : (promised.after op r v v' = promised ∧
        ∀ k k' its its', r = .ok () → v.state = .unlocked k its → v'.state ≠ .unlocked k' its') ∨
      ∃ k k' its its', r = .ok () ∧ v.state = .unlocked k its ∧ v'.state = .unlocked k' its' ∧
        promised.after op r v v' = promised.record op its its' := by
  unfold Promises.after
  cases r with
  | error e => exact .inl ⟨rfl, nofun⟩
  | ok u =>
    cases hstate : v.state with
    | locked => exact .inl ⟨rfl, nofun⟩
    | unlocked k its =>
      cases hstate' : v'.state with
      | locked => exact .inl ⟨rfl, nofun⟩
      | unlocked k' its' => exact .inr ⟨k, k', its, its', rfl, rfl, rfl, rfl⟩

theorem Promises.after_saved (h : op.apply x w = (r, w')) {id : String}
    (fresh : promised.after op r w.vault w'.vault id ≠ promised id) :
    ∃ v, Edit w.vault v ∧ Saved x v w'.vault ∧ w'.FileHolds := by
  rcases promised.after_cases op r w.vault w'.vault with
    ⟨hsame, -⟩ | ⟨k, k', its, its', rfl, state, state', hrecord⟩
  · exact absurd (congrFun hsame id) fresh
  · rw [hrecord, Promises.record] at fresh
    split at fresh
    next hwritten =>
      rcases hwritten with hmem | hchanged
      · exact apply_writes h state hmem
      · refine (apply_effect h).changed state state' ?_
        rintro rfl
        exact hchanged rfl
    · exact absurd rfl fresh

section

variable (hx : x.Lawful) (hk : x.toCiphers.KeyBound)
include hx hk

theorem World.Keeps.of_after (coherent : Coherent x w')
    (old : ∀ {key items}, w'.vault.Contents x key items → ∀ {id found}, promised.after op r w.vault
      w'.vault id = promised id → promised id = some found → underId id items = found) :
    World.Keeps x w' (promised.after op r w.vault w'.vault) := by
  refine ⟨coherent, ?_⟩
  intro key items contents id found hfound
  by_cases hsame : promised.after op r w.vault w'.vault id = promised id
  · exact old contents hsame (hsame.symm.trans hfound)
  · rcases promised.after_cases op r w.vault w'.vault with
      ⟨hafter, -⟩ | ⟨k, k', its, its', rfl, state, state', hrecord⟩
    · exact absurd (congrFun hafter id) hsame
    · obtain rfl := coherent.contents_of_state hx hk state' contents
      rw [hrecord, Promises.record] at hfound hsame
      split at hfound
      · exact Option.some.inj hfound
      next hnot =>
        rw [if_neg hnot] at hsame
        exact absurd rfl hsame

/-- **Every call keeps what was promised**, and what it promises itself. -/
theorem World.Keeps.apply (h : World.Keeps x w promised) (happly : op.apply x w = (r, w')) :
    World.Keeps x w' (promised.after op r w.vault w'.vault) := by
  have coherent : Coherent x w' := Micros.invariant (fun step hw => step.coherent hx hk hw)
    (apply_micros happly) h.coherent
  refine World.Keeps.of_after hx hk coherent ?_
  intro key' items' contents' id found hsame hfound
  obtain ⟨key, items, sealed, -⟩ := h.coherent.contents
  have contents := sealed.contents hx
  have hkept : underId id items = found := h.kept contents hfound
  rcases (apply_effect happly).contents hx hk h.coherent contents contents' with
    rfl | ⟨rfl, ⟨k, state⟩, k', state'⟩
  · exact hkept
  · -- the call recorded what it changed, so what it did not record it did not change
    rcases promised.after_cases op (.ok ()) w.vault w'.vault with
      ⟨-, hnot⟩ | ⟨k₀, k₀', its, its', -, hs, hs', hrecord⟩
    · exact absurd state' (hnot k k' items items' rfl state)
    · rw [state] at hs
      rw [state'] at hs'
      cases hs
      cases hs'
      rw [hrecord, Promises.record, hfound] at hsame
      split at hsame
      · exact Option.some.inj hsame
      next hnot =>
        rw [not_or, not_not] at hnot
        exact hnot.2.symm.trans hkept

/-- A call on a vault of which nothing was promised: either it promises nothing, or vault and file
agree on what it promises. -/
theorem Promises.after_none (writable : Writable w.vault) (unpromised : ∀ id, promised id = none)
    (happly : op.apply x w = (r, w')) : (∀ id, promised.after op r w.vault w'.vault id = none) ∨
      World.Keeps x w' (promised.after op r w.vault w'.vault) := by
  by_cases fresh : ∃ id, promised.after op r w.vault w'.vault id ≠ promised id
  · obtain ⟨id, hfresh⟩ := fresh
    obtain ⟨v, edit, saved, holds⟩ := Promises.after_saved happly hfresh
    refine .inr (World.Keeps.of_after hx hk (saved.coherent (edit.writable writable) holds) ?_)
    intro key items contents id found hsame hfound
    rw [unpromised] at hfound
    cases hfound
  · refine .inl fun id => ?_
    have hsame : promised.after op r w.vault w'.vault id = promised id :=
      not_not.mp fun hne => fresh ⟨id, hne⟩
    rw [hsame, unpromised]

/-- **Another vault with the file's bytes** holds what the first one held. -/
theorem World.Keeps.transfer {v v' : Vault} {file : Option Bytes}
    (h : World.Keeps x ⟨v, file⟩ promised) (readable : Readable x ⟨v', file⟩)
    (live : v'.retired = false) : World.Keeps x ⟨v', file⟩ promised := by
  have holds : file = some (v.aad ++ v.ciphertext) := h.coherent.holds
  obtain ⟨bytes, hfile, hsize, hdecode⟩ := readable.decodes
  have hbytes : bytes = v.aad ++ v.ciphertext := Option.some.inj (hfile.symm.trans holds)
  subst hbytes
  rw [decode_written hx.header h.coherent.header h.coherent.writable.checked] at hdecode
  have hparts := Except.ok.inj hdecode
  simp only [VaultFile.mk.injEq] at hparts
  obtain ⟨hheader, haad, hciphertext⟩ := hparts
  have same : ∀ {key items}, v'.Contents x key items → v.Contents x key items := by
    intro key items contents
    unfold Vault.Contents at contents ⊢
    rwa [hheader, haad, hciphertext]
  obtain ⟨key, items, sealed, -⟩ := h.coherent.contents
  have sealed' : v'.Sealed x key items := by
    refine ⟨?_, ?_⟩
    · rw [← hheader, ← haad, ← hciphertext]
      exact sealed.sealed
    · unfold Vault.itemIds
      rw [← hheader]
      exact sealed.ids
  refine ⟨⟨readable.writable, live, ?_, ?_, ?_, key, items, sealed', ?_⟩, ?_⟩
  · change file = some (v'.aad ++ v'.ciphertext)
    rw [holds, haad, hciphertext]
  · rw [← hheader, ← haad]
    exact h.coherent.header
  · change (v'.aad ++ v'.ciphertext).length ≤ maxVaultBytes
    rw [← haad, ← hciphertext]
    exact h.coherent.fits
  · intro k its state
    exact sealed'.contents_unique hx hk (readable.current state)
  · intro key' items' contents id found hfound
    exact h.kept (same contents) hfound

end

end

end SecretManager
