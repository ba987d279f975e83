import SecretManager.Vault.Box
import SecretManager.Laws.Dbus.DeleteItems
import SecretManager.Laws.Vault.Atomicity
import SecretManager.Laws.Vault.Rotation
import SecretManager.Lib.Simulation

/-!
# A vault is a box

Whatever is called on a vault and whatever fails on the way, the calls that reported success are a
run of the box, and the file is what the box holds at its end: whoever finds nothing but the file
opens it with the key of the box, and with no other, to the items of the box.

The assumptions are those of coherence. Nobody else writes the file, and no key opens a text that it
did not seal.
-/

namespace SecretManager

/-! ## Items that are looked up -/

section

variable {p : Item → Bool} {items : List Item}

/-- The item that the source finds by its position, with the position. -/
def located (p : Item → Bool) (items : List Item) : Option (Nat × Item) :=
  (items.findIdx? p).bind fun n => (items[n]?).map fun i => (n, i)

theorem located_some {n : Nat} {prior : Item} (found : located p items = some (n, prior)) :
    items.any p = true ∧ items.eraseIdx n = items.eraseP p ∧ ∀ f, items.set n (f prior) = changeFirst p f items := by
  obtain ⟨m, position, here⟩ := Option.bind_eq_some_iff.mp found
  obtain ⟨i, get, pair⟩ := Option.map_eq_some_iff.mp here
  cases pair
  refine ⟨by rw [← List.findIdx?_isSome, position]; rfl, by rw [List.eraseP_eq_eraseIdx, position], fun f => ?_⟩
  rw [changeFirst, (List.findIdx?_eq_some_iff_findIdx_eq.mp position).2, List.modify_eq_set_getElem?, get]
  rfl

theorem located_none (missing : located p items = none) : items.any p = false := by
  cases position : items.findIdx? p with
  | none => rw [← List.findIdx?_isSome, position]; rfl
  | some n => simp [located, position, (List.findIdx?_eq_some_iff_findIdx_eq.mp position).1] at missing

theorem placeItem_items (now : UInt64) (uuid label : String) (attributes : Attributes)
    (secret : Bytes) (contentType : String) (replace : Bool) :
    (World.placeItem now uuid label attributes secret contentType replace items).items =
      if replace && items.any (·.attributes = attributes) then
        changeFirst (·.attributes = attributes) (fun i => { i with label, secret, contentType, modified := now }) items
      else items ++ [⟨uuid, label, attributes, secret, contentType, now, now⟩] := by
  unfold World.placeItem
  cases replace with
  | false => rfl
  | true =>
    dsimp only [if_true]
    split
    next found =>
      obtain ⟨some, -, changed⟩ := located_some found
      rw [some]
      exact changed fun i => { i with label, secret, contentType, modified := now }
    next missing =>
      rw [located_none missing]
      rfl

end

/-! ## Calls -/

/-- The vault and its file hold what is in the box. -/
structure World.Holds (x : Externals) (w : World) (b : Box) : Prop where
  coherent : Coherent x w
  sealed : w.vault.Sealed x b.key b.items
  label : w.vault.header.label = b.label
  state : w.vault.state = if b.isOpen then .unlocked b.key b.items else .locked

variable {x : Externals} {w w' : World} {b : Box} {key : Key} {items : List Item} {env : SaveEnv}

/-- **A save** fills the box with what the vault held before it. -/
theorem Saved.holds {v : Vault} (saved : Saved x v w.vault) (writable : Writable v)
    (file : w.FileHolds) (state : v.state = .unlocked key items) :
    w.Holds x ⟨key, v.header.label, items, true⟩ := by
  refine ⟨saved.coherent writable file, saved.sealed state, ?_, saved.state_eq.trans state⟩
  generalize w.vault = v' at saved
  cases saved
  rfl

namespace World.Holds

section

variable (h : w.Holds x b)
include h

theorem items_eq : w.vault.items = if b.isOpen then .ok b.items else .error .locked := by
  cases opened : b.isOpen <;> simp [Vault.items, h.state, opened]

theorem of_items (shown : w.vault.items = .ok items) : b.isOpen = true ∧ items = b.items := by
  rw [h.items_eq] at shown
  cases opened : b.isOpen <;> simp_all

theorem of_unlocked (state : w.vault.state = .unlocked key items) :
    b.isOpen = true ∧ key = b.key ∧ items = b.items := by
  have held := h.state
  cases opened : b.isOpen <;> simp_all

theorem of_locked (state : w.vault.state = .locked) : b.isOpen = false := by
  have held := h.state
  cases opened : b.isOpen <;> simp_all

theorem saveItems {restore : Vault → Vault} (opened : b.isOpen = true)
    (ok : World.saveOrRestore x env restore { w with vault := w.vault.setItems items } =
      (.ok (), w')) : w'.Holds x { b with items } := by
  obtain ⟨saved, file⟩ := saveOrRestore_ok ok
  have state : w.vault.state = .unlocked b.key b.items := h.state.trans (if_pos opened)
  rw [setItems_unlocked state] at saved
  have filled := saved.holds ((Edit.items items state).writable h.coherent.writable) file rfl
  rwa [h.label, ← opened] at filled

theorem rekey {newSalt drawn : Salt} {newKdf : KdfParams} {newKey : Key} (opened : b.isOpen = true)
    (valid : newKdf.validate = .ok ())
    (ok : w.rekey x env b.key newSalt newKdf newKey drawn = (.ok (), w')) :
    w'.Holds x { b with key := newKey } := by
  have state : w.vault.state = .unlocked b.key b.items := h.state.trans (if_pos opened)
  obtain ⟨saved, file⟩ := rekey_ok state ok
  have filled := saved.holds ((Edit.rekey newKey newSalt drawn state valid).writable h.coherent.writable) file rfl
  rwa [h.label, ← opened] at filled

end

variable (hx : x.Lawful) (hk : x.toCiphers.KeyBound)
include hx hk

theorem lock (h : w.Holds x b) :
    World.Holds x { w with vault := w.vault.lock } { b with isOpen := false } :=
  ⟨Micro.coherent hx hk .lock h.coherent, ⟨h.sealed.sealed, h.sealed.ids⟩, h.label, rfl⟩

/-- **An unlock** decrypts with the key of the box: no other key decrypts. -/
theorem settle (h : w.Holds x b) (contents : w.vault.Contents x key items)
    (settles : Settles x (w.opened key items) w') :
    key = b.key ∧ w'.Holds x { b with isOpen := true } := by
  obtain ⟨rfl, rfl⟩ := h.sealed.contents_unique hx hk contents
  have opened : Coherent x (w.opened b.key b.items) := Micro.coherent hx hk (.decrypt contents) h.coherent
  refine ⟨rfl, Micros.invariant (fun step hw => step.coherent hx hk hw) settles.micros opened, ?_, ?_, settles.state_eq⟩
  · cases settles with
    | matching | stale => exact ⟨h.sealed.sealed, h.sealed.ids⟩
    | rewritten _ saved _ => exact ⟨(saved.sealed rfl).sealed, (saved.sealed rfl).ids⟩
  · cases settles with
    | matching | stale => exact h.label
    | rewritten _ saved file => exact (saved.holds opened.writable file rfl).label.trans h.label

/-- **A call that fails leaves the box as it is.** -/
theorem failed {op : VaultOp} (h : w.Holds x b) (no : (w.call x op).1 = false) :
    (w.call x op).2.Holds x b := by
  rcases call : op.apply x w with ⟨r, w'⟩
  simp only [World.call, call] at no ⊢
  cases r with
  | ok => cases no
  | error e =>
    cases apply_effect call with
    | mutated m => rwa [m.error_eq]
    | rotated locked contents settles m rekeyed =>
      -- the unlock may have rewritten the index, which the box does not see
      rw [m.error_eq]
      have relocked := (h.settle hx hk contents settles).2.lock hx hk
      rwa [← h.of_locked locked] at relocked

/-- **A call that succeeds is one that the box allows**, and does to the box what it says. -/
theorem done {op : VaultOp} (h : w.Holds x b) (ok : (w.call x op).1 = true) :
    ∃ b', b.step op = some b' ∧ (w.call x op).2.Holds x b' := by
  rcases call : op.apply x w with ⟨r, w'⟩
  simp only [World.call, call] at ok ⊢
  cases r with
  | error e => cases ok
  | ok =>
  cases op with
  | insertItem =>
    simp only [VaultOp.apply, World.insertItem, World.insertItemUnchecked, World.thenReturn] at call
    repeat' split at call
    all_goals try cases (Prod.mk.inj call).1
    next shown _ _ _ _ same _ _ saved =>
      cases same
      cases (Prod.mk.inj call).2
      obtain ⟨opened, rfl⟩ := h.of_items shown
      refine ⟨_, if_pos opened, ?_⟩
      rw [← placeItem_items]
      exact h.saveItems opened saved
  | updateItem =>
    simp only [VaultOp.apply, World.updateItem] at call
    repeat' split at call
    all_goals try cases (Prod.mk.inj call).1
    next shown _ _ _ found _ _ =>
      obtain ⟨opened, rfl⟩ := h.of_items shown
      obtain ⟨some, -, changed⟩ := located_some found
      refine ⟨_, if_pos (by rw [opened, some]; rfl), ?_⟩
      rw [← changed]
      exact h.saveItems opened call
  | deleteItem =>
    simp only [VaultOp.apply, World.deleteItem] at call
    repeat' split at call
    all_goals try cases (Prod.mk.inj call).1
    next shown _ _ _ found =>
      obtain ⟨opened, rfl⟩ := h.of_items shown
      obtain ⟨some, erased, -⟩ := located_some found
      refine ⟨_, if_pos (by rw [opened, some]; rfl), ?_⟩
      rw [← erased]
      exact h.saveItems opened call
  | deleteItems env ids =>
    by_cases empty : ids = []
    · subst empty
      cases call
      exact ⟨b, rfl, h⟩
    · cases deleteItems_removed call empty with
      | intro state present state' saved file =>
        obtain ⟨opened, rfl, rfl⟩ := h.of_unlocked state
        have filled := saved.holds ((Edit.items _ state).writable h.coherent.writable) file rfl
        dsimp only at filled
        rw [h.label] at filled
        exact ⟨_, by simpa [Box.step, empty, opened] using present, filled⟩
  | importItems =>
    simp only [VaultOp.apply, World.importItems] at call
    repeat' split at call
    all_goals try cases (Prod.mk.inj call).1
    next empty =>
      cases call
      exact ⟨b, if_pos empty, h⟩
    next filled _ _ shown _ _ =>
      obtain ⟨opened, rfl⟩ := h.of_items shown
      exact ⟨_, (if_neg filled).trans (if_pos opened), h.saveItems opened call⟩
  | setLabel env label =>
    simp only [VaultOp.apply, World.setLabel] at call
    repeat' split at call
    all_goals try cases (Prod.mk.inj call).1
    next shown =>
      obtain ⟨opened, rfl⟩ := h.of_items shown
      obtain ⟨saved, file⟩ := saveOrRestore_ok call
      have state : w.vault.state = .unlocked b.key b.items := h.state.trans (if_pos opened)
      have filled := saved.holds ((Edit.label label state).writable h.coherent.writable) file state
      rw [← opened] at filled
      exact ⟨_, if_pos opened, filled⟩
  | changeKey =>
    rcases changeKey_cases call with ⟨_, no, -⟩ | ⟨valid, _, -, ⟨⟨items, state⟩, rekeyed⟩ |
      ⟨state, -, items, w₁, w₂, contents, settles, rekeyed, rfl⟩⟩
    · cases no
    · obtain ⟨opened, rfl, rfl⟩ := h.of_unlocked state
      exact ⟨_, if_pos rfl, h.rekey opened valid rekeyed⟩
    · obtain ⟨rfl, settled⟩ := h.settle hx hk contents settles
      have relocked := (settled.rekey rfl valid rekeyed).lock hx hk
      rw [← h.of_locked state] at relocked
      exact ⟨_, if_pos rfl, relocked⟩
  | lock =>
    cases call
    exact ⟨_, rfl, h.lock hx hk⟩
  | unlockWithKey =>
    rcases unlockWithKey_cases call with ⟨_, no, -⟩ | ⟨-, rfl, items, state⟩ | ⟨-, -, items, contents, settles⟩
    · cases no
    · obtain ⟨opened, rfl, rfl⟩ := h.of_unlocked state
      exact ⟨_, if_pos rfl, opened ▸ h⟩
    · obtain ⟨rfl, settled⟩ := h.settle hx hk contents settles
      exact ⟨_, if_pos rfl, settled⟩
  | setIndexAttributes | setPinned =>
    cases call
    exact ⟨b, rfl, Micro.coherent hx hk (.flags _ _ _) h.coherent, ⟨h.sealed.sealed, h.sealed.ids⟩, h.label, h.state⟩

end World.Holds

/-! ## Histories -/

/-- What can be seen of the box: a holder of the vault sees the items of an open one, and whoever
opens the file sees the label and unlocks with the key, and with no other, to the items. -/
structure World.Shows (x : Externals) (path : VaultPath) (w : World) (b : Box) : Prop where
  memory : w.vault.items = if b.isOpen then .ok b.items else .error .locked
  file : ∃ v, Vault.open x path w.file = .ok v ∧ v.header.label = b.label ∧
    World.OpensOnlyWith x ⟨v, w.file⟩ b.key b.items

theorem World.Holds.shows (hx : x.Lawful) (hk : x.toCiphers.KeyBound) (h : w.Holds x b)
    (path : VaultPath) : w.Shows x path b := by
  have coherent := h.coherent
  have decoded := decode_written hx.header coherent.header coherent.writable.checked w.vault.ciphertext
  refine ⟨h.items_eq, _, open_ok_iff.mpr ⟨_, _, coherent.holds, coherent.fits, decoded, rfl⟩, h.label, ?_⟩
  exact opensOnlyWith_of_sealed hx hk rfl rfl ⟨h.sealed.sealed, h.sealed.ids⟩

/-- **A vault is its successful calls.** From its creation on, in every history of calls and
failures, the calls that reported success are a run of the box, from an empty one behind the key of
the password; and what the vault and its file show is the box at the end of that run. -/
theorem vault_refines_box (hx : x.Lawful) (hk : x.toCiphers.KeyBound) {env : CreateEnv}
    {path : VaultPath} {label : String} {password : Bytes} {kdf : KdfParams}
    {before after : Option Bytes} {v : Vault}
    (made : Vault.create x env path label password kdf before = (.ok v, after))
    (ops : List VaultOp) :
    ∃ key b, deriveKey x.toCiphers password v.header.salt v.header.kdf = .ok key ∧
      (Calls.completed (World.call x) ⟨v, after⟩ ops).1.foldlM Box.step ⟨key, v.header.label, [], true⟩ = some b ∧
      (Calls.completed (World.call x) ⟨v, after⟩ ops).2.Shows x path b := by
  obtain ⟨v₀, key, writable, -, state, derived, saved, file⟩ := create_ok made
  obtain ⟨same, salt, params⟩ : v.header.label = v₀.header.label ∧ v.header.salt = v₀.header.salt ∧
      v.header.kdf = v₀.header.kdf := by
    cases saved
    exact ⟨rfl, rfl, rfl⟩
  have start : World.Holds x ⟨v, after⟩ ⟨key, v.header.label, [], true⟩ := by
    rw [same]
    exact saved.holds writable file state
  obtain ⟨b, run, last⟩ := @Calls.simulates _ _ _ (World.call x) Box.step (World.Holds x)
    (World.Holds.done hx hk) (World.Holds.failed hx hk) ops _ _ start
  rw [salt, params]
  exact ⟨key, b, derived, run, last.shows hx hk path⟩

/-- The assumptions hold of the reference instance, and its creation succeeds. -/
theorem vault_refines_box_created : ∃ v after, Reference.created = (.ok v, after) ∧ ∀ ops, ∃ key b,
    (Calls.completed (World.call Reference.externals) ⟨v, after⟩ ops).1.foldlM Box.step ⟨key, v.header.label, [], true⟩ = some b ∧
      (Calls.completed (World.call Reference.externals) ⟨v, after⟩ ops).2.Shows Reference.externals Reference.path b := by
  have hok : Reference.created.1.isOk = true := by decide +kernel
  rcases made : Reference.created with ⟨r, after⟩
  rw [made] at hok
  cases r with
  | error e => cases hok
  | ok v =>
    refine ⟨v, after, rfl, fun ops => ?_⟩
    obtain ⟨key, b, -, run, shows⟩ := vault_refines_box Reference.externals_lawful Reference.ciphers_keyBound made ops
    exact ⟨key, b, run, shows⟩

end SecretManager
