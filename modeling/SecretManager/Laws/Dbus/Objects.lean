import SecretManager.Laws.Utf8
import SecretManager.Laws.Vault.Coherence
import SecretManager.Dbus.Objects
import SecretManager.Dbus.Reference

/-!
# Which headers the path builders survive

The scan takes collection ids from file names and checks them. The item ids come from the header,
which `Vault::open` decodes before any password is given and of which it checks the version and the
KDF parameters only. A builder survives an item id exactly when the id is a chain of segments, and
nothing makes it one.
-/

namespace SecretManager

open List Reference Paths

variable {x : Externals}

variable {bytes : Bytes} {collectionId id : String}

namespace Paths

/-- An item id that can stand at the end of an object path. -/
def isChain (id : String) : Bool := chainFrom true (utf8 id)

/-- **Chains join at a slash.** -/
theorem chainFrom_append_slash (a b : Bytes) : ∀ fresh,
    chainFrom fresh (a ++ 47 :: b) = (chainFrom fresh a && chainFrom true b) := by
  induction a with
  | nil =>
    intro fresh
    have notSegment : isSegmentByte 47 = false := by decide
    cases fresh <;> simp [chainFrom, notSegment]
  | cons c a ih =>
    intro fresh
    rw [cons_append, chainFrom, chainFrom]
    split
    · exact ih false
    · split
      · exact ih true
      · rfl

theorem chainFrom_segment (all : bytes.all isSegmentByte = true) : ∀ fresh,
    (fresh = true → bytes ≠ []) → chainFrom fresh bytes = true := by
  induction bytes with
  | nil =>
    intro fresh nonempty
    cases fresh with
    | false => rfl
    | true => exact absurd rfl (nonempty rfl)
  | cons b bytes ih =>
    intro fresh _
    rw [all_cons, Bool.and_eq_true] at all
    rw [chainFrom, if_pos all.1]
    exact ih all.2 false (fun h => by cases h)

theorem isChain_of_isSegment (h : isSegment id = true) : isChain id = true := by
  unfold isSegment at h
  rw [Bool.and_eq_true] at h
  refine chainFrom_segment h.2 true fun _ empty => ?_
  have same : utf8 id = utf8 "" := empty
  cases utf8_inj same
  exact absurd h.1 (by decide)

theorem utf8_collectionsPrefix (rest : String) : utf8 (collectionsPrefix ++ rest) =
      47 :: (utf8 "org/freedesktop/secrets/collection" ++ 47 :: utf8 rest) := by
  rfl

theorem isObjectPath_collection (rest : String) :
    isObjectPath (collectionsPrefix ++ rest) = isChain rest := by
  have lead : chainFrom true (utf8 "org/freedesktop/secrets/collection") = true := by decide
  unfold isObjectPath
  rw [utf8_collectionsPrefix]
  simp [chainFrom_append_slash, lead, isChain]

theorem collection_eq (grammar : x.KnowsPaths) (h : isChain id = true) :
    collection x id = some (collectionsPrefix ++ id) := by
  rw [collection, owned, grammar, isObjectPath_collection, if_pos h]

/-- **An item path is built exactly when both ids are chains.** -/
theorem item_eq_some_iff (grammar : x.KnowsPaths) {itemId path : String} :
    item x collectionId itemId = some path ↔
      isChain collectionId = true ∧ isChain itemId = true ∧
        path = collectionsPrefix ++ collectionId ++ "/" ++ itemId := by
  have join : isObjectPath (collectionsPrefix ++ collectionId ++ "/" ++ itemId) =
      (isChain collectionId && isChain itemId) := by
    have assoc : collectionsPrefix ++ collectionId ++ "/" ++ itemId =
        collectionsPrefix ++ (collectionId ++ "/" ++ itemId) := by
      rw [String.append_assoc, String.append_assoc, String.append_assoc]
    rw [assoc, isObjectPath_collection, isChain, utf8_append, utf8_append]
    have slash : utf8 "/" = [47] := by decide
    rw [slash, append_assoc, singleton_append, chainFrom_append_slash]
    rfl
  rw [item, owned, grammar, join]
  cases isChain collectionId <;> cases isChain itemId <;> simp [eq_comm]

theorem isObjectPath_of_item (grammar : x.KnowsPaths) {itemId path : String}
    (h : item x collectionId itemId = some path) : isObjectPath path = true := by
  unfold item owned at h
  split at h
  next valid =>
    cases h
    rw [← grammar, valid]
  · cases h

end Paths

/-! ## The places that build item paths -/

variable (grammar : x.KnowsPaths)

include grammar

theorem mapM_item (segment : isChain collectionId = true) {ids : List String}
    (chains : ∀ id ∈ ids, isChain id = true) :
    ∃ paths, ids.mapM (item x collectionId) = some paths ∧ ∀ path ∈ paths, isObjectPath path = true := by
  induction ids with
  | nil => exact ⟨[], rfl, fun path mem => by cases mem⟩
  | cons id ids ih =>
    obtain ⟨paths, built, valid⟩ := ih fun id' mem => chains id' (mem_cons_of_mem _ mem)
    have here : item x collectionId id = some _ :=
      (item_eq_some_iff grammar).mpr ⟨segment, chains id mem_cons_self, rfl⟩
    refine ⟨_ :: paths, by simp only [mapM_cons, here, built]; rfl, ?_⟩
    intro path mem
    rcases mem_cons.mp mem with rfl | mem
    · exact isObjectPath_of_item grammar here
    · exact valid path mem

theorem isChain_of_mapM {ids paths : List String}
    (built : ids.mapM (item x collectionId) = some paths) : ∀ id ∈ ids, isChain id = true := by
  induction ids generalizing paths with
  | nil => exact fun id none => absurd none not_mem_nil
  | cons first ids ih =>
    rw [mapM_cons] at built
    obtain ⟨path, here, rest⟩ := Option.bind_eq_some_iff.mp built
    obtain ⟨paths, later, -⟩ := Option.bind_eq_some_iff.mp rest
    rw [forall_mem_cons]
    exact ⟨((item_eq_some_iff grammar).mp here).2.1, ih later⟩

omit grammar

variable {v : Vault}

theorem scannedVault_some {cfg : Config} {loaded : List String} {name : String}
    (h : scannedVault x cfg loaded name bytes = some (id, v)) :
    isSegment id = true ∧ ∃ v₀, Vault.open x (cfg.path id) (some bytes) = .ok v₀ ∧
      v = v₀.setIndexAttributes cfg.indexAttributes := by
  unfold scannedVault scanEntry at h
  cases hstem : vaultStem name with
  | none => simp [hstem, VaultScan.empty] at h
  | some id' =>
    simp only [hstem] at h
    split at h
    next id'' n seen broken v' heq =>
      cases h
      split at heq
      · simp at heq
      next segment =>
        split at heq
        next v₀ opened =>
          obtain ⟨⟨⟨rfl, -⟩, -, -⟩, rfl⟩ := heq
          refine ⟨?_, v₀, opened, rfl⟩
          simp only [Bool.or_eq_true, Bool.not_eq_true', not_or, Bool.not_eq_false] at segment
          exact segment.1
        · simp at heq
    · cases h

theorem scannedVault_locked {cfg : Config} {loaded : List String} {name : String}
    (h : scannedVault x cfg loaded name bytes = some (id, v)) : v.state = .locked := by
  obtain ⟨-, v₀, opened, rfl⟩ := scannedVault_some h
  obtain ⟨-, -, -, -, -, rfl⟩ := open_ok_iff.mp opened
  rfl

theorem searchCollection_subset (state : v.state = .locked) (query : Attributes) :
    ∀ id ∈ searchCollection x v query, ∃ e ∈ v.header.index, e.id = id := by
  intro id mem
  have ids : id ∈ v.searchIds x query := by
    simpa only [searchCollection, Vault.search, Vault.items, state] using mem
  unfold Vault.searchIds at ids
  split at ids
  · cases ids
  · obtain ⟨e, found, rfl⟩ := mem_map.mp ids
    exact ⟨e, (mem_filter.mp found).1, rfl⟩

theorem searchAll_from {vaults : List (String × Vault)} {query : Attributes}
    (built : ∀ p ∈ vaults, p.2.state = .locked ∧ ∃ paths, (searchCollection x p.2 query).mapM
      (item x p.1) = some paths ∧ ∀ path ∈ paths, isObjectPath path = true) :
    ∀ unlocked locked : List String, (∀ path ∈ locked, isObjectPath path = true) →
      ∃ locked', vaults.foldlM (fun (acc : List String × List String) (p : String × Vault) =>
          ((searchCollection x p.2 query).mapM (item x p.1)).map fun paths =>
            if p.2.isLocked then (acc.1, acc.2 ++ paths) else (acc.1 ++ paths, acc.2))
          (unlocked, locked) = some (unlocked, locked') ∧
        ∀ path ∈ locked', isObjectPath path = true := by
  induction vaults with
  | nil =>
    intro unlocked locked valid
    exact ⟨locked, rfl, valid⟩
  | cons p vaults ih =>
    intro unlocked locked valid
    obtain ⟨state, paths, here, validHere⟩ := built p mem_cons_self
    obtain ⟨locked', rest, validRest⟩ := ih (fun q mem => built q (mem_cons_of_mem _ mem))
      unlocked (locked ++ paths) (by
        intro path mem
        rcases mem_append.mp mem with old | new
        · exact valid path old
        · exact validHere path new)
    refine ⟨locked', ?_, validRest⟩
    have isLocked : p.2.isLocked = true := isLocked_iff.mpr state
    simpa only [foldlM_cons, here, Option.map_some, isLocked, if_true, Option.bind_eq_bind,
      Option.bind_some] using rest

/-- **Which headers panic no builder**: those whose item ids are chains of segments. For any files
that the scan loads under any names, registration and the `Items` property of each collection and
every search build every item path, and a valid one, exactly if all item ids of the headers are such
chains. -/
theorem chained_ids_build_paths (grammar : x.KnowsPaths) {cfg : Config}
    {vaults : List (String × Vault)}
    (scanned : ∀ p ∈ vaults, ∃ loaded name bytes, scannedVault x cfg loaded name bytes = some p) :
    ((∀ p ∈ vaults, (∃ paths, registerCollection x p.1 (some p.2) = some paths ∧
          ∀ path ∈ paths, Paths.isObjectPath path = true) ∧
        ∃ paths, Collection.items x p.1 (some p.2) = some paths ∧
          ∀ path ∈ paths, Paths.isObjectPath path = true) ∧
      ∀ query, ∃ paths, searchAll x vaults query = some ([], paths) ∧
        ∀ path ∈ paths, Paths.isObjectPath path = true) ↔
    ∀ p ∈ vaults, ∀ e ∈ p.2.header.index, Paths.isChain e.id = true := by
  have segment : ∀ p ∈ vaults, isChain p.1 = true := by
    intro p mem
    obtain ⟨loaded, name, bytes, h⟩ := scanned p mem
    exact isChain_of_isSegment (scannedVault_some h).1
  constructor
  · rintro ⟨builds, -⟩ p mem e inIndex
    obtain ⟨-, paths, built, -⟩ := builds p mem
    exact isChain_of_mapM grammar built e.id (mem_map_of_mem inIndex)
  intro chains
  constructor
  · intro p mem
    have ids : ∀ id ∈ p.2.itemIds, isChain id = true := by
      intro id listed
      obtain ⟨e, inIndex, rfl⟩ := mem_map.mp listed
      exact chains p mem e inIndex
    obtain ⟨paths, built, valid⟩ := mapM_item grammar (segment p mem) ids
    have path := collection_eq grammar (segment p mem)
    have all : registerCollection x p.1 (some p.2) =
        some ((collectionsPrefix ++ p.1) :: (collectionsPrefix ++ p.1) :: paths) := by
      simp only [registerCollection, path, Option.bind_some, built, Option.map_some]
    refine ⟨⟨_, all, ?_⟩, paths, built, valid⟩
    have own : isObjectPath (collectionsPrefix ++ p.1) = true := by
      rw [isObjectPath_collection]
      exact segment p mem
    simp only [forall_mem_cons]
    exact ⟨own, own, valid⟩
  · intro query
    refine searchAll_from (fun p mem => ?_) [] [] (fun path listed => by cases listed)
    obtain ⟨loaded, name, bytes, h⟩ := scanned p mem
    have state : p.2.state = .locked := scannedVault_locked h
    refine ⟨state, mapM_item grammar (segment p mem) fun id listed => ?_⟩
    obtain ⟨e, inIndex, rfl⟩ := searchCollection_subset state query id listed
    exact chains p mem e inIndex

namespace Reference

/-- A vault file whose header lists one item under the given id. -/
def fileListing (itemId : String) : Bytes :=
  let header : Header :=
    { version := version, label := "Login", created := 1, modified := 1, kdf := .fastForTests,
      salt := Vector.replicate saltLen 1, indexSalt := Vector.replicate saltLen 2,
      nonce := Vector.replicate nonceLen 7, index := [⟨itemId, []⟩] }
  match VaultFile.headerBytes externals header with
  | .ok aad => aad
  | .error _ => []

end Reference

/-- A file with the item id `a-b` is loaded under the id `login`, and its registration, its `Items`
property and every search that reaches it panic. -/
theorem item_id_panics_builders : ∃ p, scannedVault externals config [] "login.vault"
        (fileListing "a-b") = some p ∧
      registerCollection externals p.1 (some p.2) = none ∧
      Collection.items externals p.1 (some p.2) = none ∧
      searchAll externals [p] ∅ = none := by
  have panics : ((scannedVault externals config [] "login.vault"
      (fileListing "a-b")).any fun p =>
        decide (registerCollection externals p.1 (some p.2) = none ∧
          Collection.items externals p.1 (some p.2) = none ∧
          searchAll externals [p] ∅ = none)) = true := by decide
  rw [Option.any_eq_true] at panics
  obtain ⟨p, scanned, test⟩ := panics
  exact ⟨p, scanned, of_decide_eq_true test⟩

/-- A file whose item id is two segments is loaded, and no builder panics. -/
theorem chained_ids_build_paths_nested : ∃ p paths, scannedVault externals config [] "login.vault"
        (fileListing "a/b") = some p ∧
      searchAll externals [p] ∅ = some ([], paths) ∧
      ∀ path ∈ paths, Paths.isObjectPath path = true := by
  have loads : ((scannedVault externals config [] "login.vault"
      (fileListing "a/b")).any fun p =>
        p.2.header.index.all fun e => isChain e.id) = true := by decide
  rw [Option.any_eq_true] at loads
  obtain ⟨p, scanned, test⟩ := loads
  have scannedAll : ∀ q ∈ [p], ∃ loaded name bytes,
      scannedVault externals config loaded name bytes = some q := by
    intro q mem
    rw [mem_singleton.mp mem]
    exact ⟨_, _, _, scanned⟩
  have chains : ∀ q ∈ [p], ∀ e ∈ q.2.header.index, isChain e.id = true := by
    intro q mem
    rw [mem_singleton.mp mem]
    exact all_eq_true.mp test
  obtain ⟨paths, built, valid⟩ := ((chained_ids_build_paths (fun _ => rfl) scannedAll).mpr chains).2 ∅
  exact ⟨p, paths, scanned, built, valid⟩

end SecretManager
