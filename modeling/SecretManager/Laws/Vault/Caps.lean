import SecretManager.Laws.Vault.Store

/-!
# The per-item caps in the store

`checkCaps` names the first of six limits an item breaks. What it accepts is stated once, as six
bounds (`WithinCaps`), and every item that an insertion, an edit or an import leaves behind and that
was not there before keeps them: an edit is an arbitrary function, and its result is measured after
it ran.
-/

namespace SecretManager

variable {x : Externals}

/-! ## What the check accepts -/

/-- Every cap on one item at once, as a predicate; the source checks them in order. -/
structure WithinCaps (label : String) (attributes : Attributes) (secretLen : Nat)
    (contentType : String) : Prop where
  secret : secretLen ≤ maxItemSecret
  label : label.utf8ByteSize ≤ maxItemLabel
  contentType : contentType.utf8ByteSize ≤ maxItemContentType
  count : attributes.size ≤ maxItemAttributes
  name : ∀ kv ∈ attributes.toList, kv.1.utf8ByteSize ≤ maxAttributeKey
  value : ∀ kv ∈ attributes.toList, kv.2.utf8ByteSize ≤ maxAttributeValue

abbrev Item.WithinCaps (i : Item) : Prop :=
  SecretManager.WithinCaps i.label i.attributes i.secret.length i.contentType

theorem check_eq_none_iff {cap : Cap} {n : Nat} : cap.check n = none ↔ n ≤ cap.limit := by
  unfold Cap.check
  split
  · simp only [reduceCtorEq, false_iff]
    omega
  · simp only [true_iff]
    omega

theorem orElse_eq_none_iff {α : Type} {a b : Option α} :
    (a <|> b) = none ↔ a = none ∧ b = none := by
  cases a <;> simp

theorem checkPairs_eq_none_iff {pairs : List (String × String)} :
    (pairs.findSome? fun kv => (Cap.check .attributeKey kv.1.utf8ByteSize) <|>
      (Cap.check .attributeValue kv.2.utf8ByteSize)) = none ↔
      (∀ kv ∈ pairs, kv.1.utf8ByteSize ≤ maxAttributeKey) ∧ ∀ kv ∈ pairs, kv.2.utf8ByteSize ≤ maxAttributeValue := by
  simp only [List.findSome?_eq_none_iff, orElse_eq_none_iff, check_eq_none_iff]
  exact forall₂_and

variable {attributes : Attributes} {contentType label : String}

/-- **The check accepts exactly the items within all six limits.** -/
theorem checkCaps_eq_none_iff {secretLen : Nat} :
    checkCaps label attributes secretLen contentType = none ↔
      WithinCaps label attributes secretLen contentType := by
  unfold checkCaps
  rw [orElse_eq_none_iff, orElse_eq_none_iff, orElse_eq_none_iff, orElse_eq_none_iff, checkPairs_eq_none_iff]
  simp only [check_eq_none_iff, Cap.limit]
  constructor
  · rintro ⟨secret, label, contentType, count, name, value⟩
    exact ⟨secret, label, contentType, count, name, value⟩
  · rintro ⟨secret, label, contentType, count, name, value⟩
    exact ⟨secret, label, contentType, count, name, value⟩

theorem checkCaps_isSome_iff {secretLen : Nat} :
    (∃ violation, checkCaps label attributes secretLen contentType = some violation) ↔
      ¬WithinCaps label attributes secretLen contentType := by
  rw [← checkCaps_eq_none_iff, ← ne_eq, Option.ne_none_iff_exists']

/-! ## What the mutators leave behind -/

/-- The items of an unlocked vault after a call: they were there before it, or keep the caps. -/
def World.AddsWithinCaps (w w' : World) : Prop :=
  ∀ key items', w'.vault.state = .unlocked key items' → ∃ key₀ items,
    w.vault.state = .unlocked key₀ items ∧ ∀ i ∈ items', i ∈ items ∨ i.WithinCaps

theorem World.AddsWithinCaps.refl (w : World) : w.AddsWithinCaps w := by
  intro key items' state
  exact ⟨key, items', state, fun i mem => .inl mem⟩

theorem saveOrRestore_addsWithinCaps {env : SaveEnv} {w : World} {key : Key}
    {items items' : List Item} {restore : Vault → Vault}
    (state : w.vault.state = .unlocked key items)
    (undo : restore (w.vault.setItems items') = (w.vault.setItems items').setItems items)
    (capped : ∀ i ∈ items', i ∈ items ∨ i.WithinCaps) : w.AddsWithinCaps
      (World.saveOrRestore x env restore { w with vault := w.vault.setItems items' }).2 := by
  unfold World.saveOrRestore
  cases hsave : World.save x env { w with vault := w.vault.setItems items' } with
  | mk r w' =>
    rcases save_cases hsave with ⟨e, rfl, rfl⟩ | ⟨rfl, saved, -⟩
    · simp only [undo, setItems_setItems state]
      exact .refl w
    · intro key' items'' state'
      rw [saved.state_eq, setItems_unlocked state] at state'
      cases state'
      exact ⟨key, items, state, capped⟩

theorem placeItem_withinCaps {now : UInt64} {uuid : String} {secret : Bytes} {replace : Bool}
    {items : List Item} (within : WithinCaps label attributes secret.length contentType) :
    ∀ i ∈ (World.placeItem now uuid label attributes secret contentType replace items).items,
      i ∈ items ∨ i.WithinCaps := by
  intro i mem
  unfold World.placeItem at mem
  dsimp only at mem
  split at mem
  next p prior hfound =>
    rcases List.mem_or_eq_of_mem_set mem with old | rfl
    · exact .inl old
    · -- an overwritten item was found by its attributes
      right
      obtain ⟨q, hq, hprior⟩ := Option.bind_eq_some_iff.mp hfound
      obtain ⟨prior', hget, heq⟩ := Option.map_eq_some_iff.mp hprior
      cases heq
      split at hq
      · obtain ⟨hlt, hp, -⟩ := List.findIdx?_eq_some_iff_getElem.mp hq
        obtain ⟨-, rfl⟩ := List.getElem?_eq_some_iff.mp hget
        have same := of_decide_eq_true hp
        exact ⟨within.secret, within.label, within.contentType, same ▸ within.count,
          same ▸ within.name, same ▸ within.value⟩
      · cases hq
  next =>
    rcases List.mem_append.mp mem with old | new
    · exact .inl old
    · right
      rw [List.mem_singleton.mp new]
      exact within

theorem thenReturn_world {α : Type} (a : α) (p : Except VaultError Unit × World) :
    (World.thenReturn a p).2 = p.2 := by
  obtain ⟨r, w⟩ := p
  cases r <;> rfl

theorem insertItem_addsWithinCaps (env : SaveEnv) (w : World) (now : UInt64) (uuid label : String)
    (attributes : Attributes) (secret : Bytes) (contentType : String) (replace : Bool) :
    w.AddsWithinCaps
      (w.insertItem x env now uuid label attributes secret contentType replace).2 := by
  unfold World.insertItem
  cases hitems : w.vault.items with
  | error e => exact .refl w
  | ok items =>
    obtain ⟨key, state⟩ := items_ok hitems
    cases hcaps : checkCaps label attributes secret.length contentType with
    | some violation => exact .refl w
    | none =>
      simp only [World.insertItemUnchecked, hitems, thenReturn_world]
      refine saveOrRestore_addsWithinCaps state ?_
        (placeItem_withinCaps (checkCaps_eq_none_iff.mp hcaps))
      rw [restoreDelta_setItems state]
      exact congrArg _ (placeItem_undo ..)

theorem updateItem_addsWithinCaps (env : SaveEnv) (w : World) (now : UInt64) (id : String)
    (f : Item → Item) : w.AddsWithinCaps (w.updateItem x env now id f).2 := by
  unfold World.updateItem
  cases hitems : w.vault.items with
  | error e => exact .refl w
  | ok items =>
    obtain ⟨key, state⟩ := items_ok hitems
    dsimp only
    split
    · exact .refl w
    next index prior hfound =>
      have hback := set_set_of_getElem? { f prior with modified := now } (found_getElem? hfound)
      split
      · -- over a cap: the item was put back
        rw [hback, setItems_setItems state]
        exact .refl w
      next hcaps =>
        refine saveOrRestore_addsWithinCaps state ?_ ?_
        · rw [restoreDelta_setItems state]
          exact congrArg _ hback
        · intro i mem
          rcases List.mem_or_eq_of_mem_set mem with old | rfl
          · exact .inl old
          · exact .inr (checkCaps_eq_none_iff.mp hcaps)

theorem checkImportItems_ok : ∀ {n : Nat} {batch : List ImportItem},
    World.checkImportItems n batch = .ok () → ∀ item ∈ batch,
      WithinCaps item.label item.attributes item.secret.length item.contentType := by
  intro n batch
  induction batch generalizing n with
  | nil =>
    intro _ item mem
    cases mem
  | cons head rest ih =>
    intro ok item mem
    unfold World.checkImportItems World.checkImportItem at ok
    cases hcaps : checkCaps head.label head.attributes head.secret.length head.contentType with
    | some violation => simp only [hcaps, reduceCtorEq] at ok
    | none =>
      simp only [hcaps] at ok
      rcases List.mem_cons.mp mem with rfl | mem
      · exact checkCaps_eq_none_iff.mp hcaps
      · exact ih ok item mem

theorem importItems_addsWithinCaps (env : SaveEnv) (w : World) (uuid : Nat → String)
    (batch : List ImportItem) : w.AddsWithinCaps (w.importItems x env uuid batch).2 := by
  unfold World.importItems
  split
  · exact .refl w
  cases hitems : w.vault.items with
  | error e => exact .refl w
  | ok items =>
    obtain ⟨key, state⟩ := items_ok hitems
    dsimp only
    split
    · exact .refl w
    next hcaps =>
      refine saveOrRestore_addsWithinCaps state ?_ ?_
      · rw [truncateItems_setItems state, List.take_left]
      · intro i mem
        rcases List.mem_append.mp mem with old | new
        · exact .inl old
        · right
          obtain ⟨n, hlt, rfl⟩ := List.mem_mapIdx.mp new
          exact checkImportItems_ok hcaps _ (List.getElem_mem hlt)

/-- The calls that add or change items. -/
def VaultOp.WritesItems : VaultOp → Prop
  | .insertItem .. | .updateItem .. | .importItems .. => True
  | _ => False

/-- **Whatever a call adds or changes keeps the caps**, from any world and whatever fails. -/
theorem writes_withinCaps {op : VaultOp} (writes : op.WritesItems) (w : World) :
    w.AddsWithinCaps (op.apply x w).2 := by
  cases op with
  | insertItem env now uuid label attributes secret contentType replace =>
    exact insertItem_addsWithinCaps env w now uuid label attributes secret contentType replace
  | updateItem env now id f => exact updateItem_addsWithinCaps env w now id f
  | importItems env uuid batch => exact importItems_addsWithinCaps env w uuid batch
  | deleteItem | deleteItems | setLabel | changeKey | lock | unlockWithKey | setIndexAttributes
  | setPinned => cases writes

end SecretManager
