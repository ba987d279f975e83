import SecretManager.Laws.Import.Run
import SecretManager.Laws.Vault.Search
import SecretManager.Laws.Vault.Caps
import SecretManager.Import.Reference

/-!
# What the lookup probes expect

A probe asks the daemon for one attribute set of the source and expects as many items as carry that
set or more. `SearchItems` matches in the same way, through the items of an unlocked vault and
through the header index of a locked one, so **after a faithful import every probe finds what it
expects** in either state. The vault was empty before, so nothing else answers.
-/

namespace SecretManager.Import

open List SecretManager.Reference

variable {uuid : Nat → String}

/-! ## The plan -/

/-- The attribute sets that are probed. -/
def probedSets (items : List SourceItem) : List Attributes := (probePlan items).map (·.attributes)

theorem probedSets_perm (items : List SourceItem) :
    (probedSets items).Perm ((items.map (·.attributes)).filter fun a => !a.isEmpty).dedup := by
  have sets : probedSets items = ((items.map (·.attributes)).filter fun a => !a.isEmpty).dedup.insertionSort
      fun a b => (compareAttributes a b).isLE := by
    rw [probedSets, probePlan, map_map]
    exact map_id _
  rw [sets]
  exact perm_insertionSort _ _

theorem probedSets_nodup (items : List SourceItem) : (probedSets items).Nodup :=
  (probedSets_perm items).nodup_iff.mpr (nodup_dedup _)

variable {items : List SourceItem}

theorem mem_probedSets {attributes : Attributes} :
    attributes ∈ probedSets items ↔ attributes.isEmpty = false ∧ ∃ item ∈ items, item.attributes = attributes := by
  rw [(probedSets_perm items).mem_iff, mem_dedup, mem_filter, mem_map, Bool.not_eq_true', and_comm]

theorem probePlan_expected {probe : ProbeQuery} (planned : probe ∈ probePlan items) :
    probe.expected = items.countP fun item => Attributes.covers item.attributes probe.attributes := by
  obtain ⟨attributes, -, rfl⟩ := mem_map.mp planned
  rfl

/-! ## The import -/

/-- A source item as `import_items` takes it, every field verbatim. -/
def SourceItem.toImport (item : SourceItem) : ImportItem :=
  { label := item.label, attributes := item.attributes, secret := item.secret, contentType := item.contentType
    created := item.created, modified := item.modified }

section

variable (uuid : Nat → String) (items : List SourceItem)

/-- What an empty vault holds after an import of these items. -/
def storedItems : List Item :=
  (items.map SourceItem.toImport).mapIdx fun i item => World.ofImport (uuid i) item

theorem storedItems_attributes :
    (storedItems uuid items).map (·.attributes) = items.map (·.attributes) := by
  refine ext_getElem? fun i => ?_
  simp only [storedItems, getElem?_map, getElem?_mapIdx, Option.map_map]
  rfl

theorem length_search_storedItems (query : Attributes) :
    ((storedItems uuid items).filter fun i => query.toList.all fun kv => i.attributes[kv.1]? == some kv.2).length =
      items.countP fun item => Attributes.covers item.attributes query := by
  have count : ∀ {α : Type} (attributes : α → Attributes) (l : List α),
      l.countP (fun a => Attributes.covers (attributes a) query) =
        (l.map attributes).countP fun a => Attributes.covers a query := fun attributes l => by
    rw [countP_map]
    rfl
  rw [← countP_eq_length_filter]
  exact ((count Item.attributes _).trans (by rw [storedItems_attributes])).trans (count SourceItem.attributes _).symm

end

/-- The byte strings that indexing these items hashes. -/
def indexedBytes (salt : Salt) (items : List SourceItem) : Set Bytes :=
  {b | ∃ item ∈ items, ∃ kv ∈ item.attributes.toList, b = attributeBytes salt kv.1 kv.2}

/-- A probe hashes nothing that the items do not. -/
theorem hashedBytes_subset {salt : Salt} {attributes : Attributes}
    (probed : attributes ∈ probedSets items) :
    {b | b ∈ hashedBytes salt (storedItems uuid items) attributes} ⊆ indexedBytes salt items := by
  intro b mem
  obtain ⟨kv, among, rfl⟩ := mem_map.mp mem
  rcases mem_append.mp among with stored | looked
  · obtain ⟨item, held, pair⟩ := mem_flatMap.mp stored
    have source : item.attributes ∈ items.map (·.attributes) := by
      rw [← storedItems_attributes uuid]
      exact mem_map_of_mem held
    obtain ⟨from_, mem', same⟩ := mem_map.mp source
    exact ⟨from_, mem', kv, same ▸ pair, rfl⟩
  · obtain ⟨-, item, mem', rfl⟩ := mem_probedSets.mp probed
    exact ⟨item, mem', kv, looked, rfl⟩

theorem imported_short {x : Externals} {env : SaveEnv} {batch : List ImportItem} {w w' : World}
    (empty : w.vault.items = .ok []) (imported : w.importItems x env uuid batch = (.ok (), w'))
    {key : Key} {stored : List Item} (state : w'.vault.state = .unlocked key stored) :
    ∀ item ∈ stored, ∀ kv ∈ item.attributes.toList, kv.1.utf8ByteSize + kv.2.utf8ByteSize < 2 ^ 32 := by
  intro item mem kv pair
  have adds := importItems_addsWithinCaps (x := x) env w uuid batch
  rw [imported] at adds
  obtain ⟨_, old, before, capped⟩ := adds key stored state
  obtain ⟨_, state₀⟩ := items_ok empty
  rw [state₀] at before
  cases before
  rcases capped item mem with none | within
  · cases none
  · have name := within.name kv pair
    have value := within.value kv pair
    unfold maxAttributeKey at name
    unfold maxAttributeValue at value
    omega

/-- **Every probe finds what it expects.** After `import_items` put these items into an empty vault
with attribute indexing on, a search for the attributes of a planned probe returns as many ids as
the probe expects, through the items while the vault is unlocked and through the header of every
vault with the same header, a locked one among them. Every attribute set of the items that is not
empty is probed once, and nothing else is. -/
theorem probes_match_search {x : Externals} {env : SaveEnv} {w w' : World}
    (empty : w.vault.items = .ok []) (on : w.vault.indexAttributes = true)
    (imported : w.importItems x env uuid (items.map SourceItem.toImport) = (.ok (), w'))
    (injective : Set.InjOn x.sha256 (indexedBytes w'.vault.header.indexSalt items)) :
    (∀ probe ∈ probePlan items,
      (∃ found, w'.vault.search probe.attributes = .ok found ∧ (found.map (·.id)).length = probe.expected) ∧
      ∀ v : Vault, v.header = w'.vault.header → (v.searchIds x probe.attributes).length = probe.expected) ∧
    ((probePlan items).map (·.attributes)).Nodup ∧
    ∀ attributes : Attributes, attributes ∈ (probePlan items).map (·.attributes) ↔
      attributes.isEmpty = false ∧ ∃ item ∈ items, item.attributes = attributes := by
  refine ⟨fun probe planned => ?_, probedSets_nodup items, fun attributes => mem_probedSets⟩
  have probed : probe.attributes ∈ probedSets items := mem_map_of_mem planned
  have filled : items.map SourceItem.toImport ≠ [] := by
    obtain ⟨-, item, mem, -⟩ := mem_probedSets.mp probed
    exact ne_nil_of_mem (mem_map_of_mem mem)
  have expected := probePlan_expected planned
  have stored := importItems_ok empty imported
  have saved := importItems_saved empty filled imported
  obtain ⟨key, state⟩ := items_ok stored
  obtain ⟨key₀, state₀⟩ := items_ok empty
  have indexed : w'.vault.indexAttributes = true := by
    rw [saved.warning.2, setItems_unlocked state₀]
    exact on
  refine ⟨⟨_, by simp only [Vault.search, stored]; rfl, ?_⟩, fun v header => ?_⟩
  · rw [length_map, expected]
    exact length_search_storedItems uuid items probe.attributes
  · rw [saved.searchIds_eq state indexed probe.attributes (imported_short empty imported state)
      (injective.mono (hashedBytes_subset probed)) header, length_map, expected]
    exact length_search_storedItems uuid items probe.attributes

/-- An unlocked vault without items, beside no file. -/
def noItems : World :=
  { threeItems with
    vault := threeItems.vault.setItems [] }

/-- Two items with the same attributes, one that has more, and one without any. -/
def overlappingItems : List SourceItem :=
  [mailEntry,
    { mailEntry with attributes := mailEntry.attributes.insert "port" "25" },
    mailEntry, plainEntry]

theorem probes_match_search_overlapping : ∃ w',
    noItems.importItems hashing saveEnv (fun i => s!"item{i}")
      (overlappingItems.map SourceItem.toImport) = (.ok (), w') ∧
      ∀ probe ∈ probePlan overlappingItems,
        (w'.vault.lock.searchIds hashing probe.attributes).length = probe.expected := by
  let run := noItems.importItems hashing saveEnv (fun i => s!"item{i}")
    (overlappingItems.map SourceItem.toImport)
  have answers : run.1.isOk = true ∧ run.2.vault.header.indexSalt = Vector.replicate saltLen 2 := by
    decide +kernel
  let pairs := overlappingItems.flatMap fun item => item.attributes.toList
  have distinct : ∀ kv ∈ pairs, ∀ kv' ∈ pairs,
      hashing.sha256 (attributeBytes (Vector.replicate saltLen 2) kv.1 kv.2) =
        hashing.sha256 (attributeBytes (Vector.replicate saltLen 2) kv'.1 kv'.2) →
      attributeBytes (Vector.replicate saltLen 2) kv.1 kv.2 =
        attributeBytes (Vector.replicate saltLen 2) kv'.1 kv'.2 := by
    decide
  obtain ⟨ok, salt⟩ := answers
  rcases hrun : run with ⟨r, w'⟩
  rw [hrun] at ok salt
  cases r with
  | error e => cases ok
  | ok u =>
    refine ⟨w', hrun, fun probe planned => ?_⟩
    refine ((probes_match_search rfl rfl hrun ?_).1 probe planned).2 _ rfl
    rw [salt]
    rintro _ ⟨item, mem, kv, pair, rfl⟩ _ ⟨item', mem', kv', pair', rfl⟩ same
    exact distinct kv (mem_flatMap.mpr ⟨item, mem, pair⟩) kv' (mem_flatMap.mpr ⟨item', mem', pair'⟩) same

end SecretManager.Import
