import SecretManager.Dbus.Collections
import SecretManager.Laws.Vault.Identity

/-!
# Names, scans and merges

The name a create picks is free when it is picked. A scan of an entry opens at most one vault, at
the entry's own path. A merge leaves in the collection map what it opened and what was there before.
-/

namespace SecretManager

variable {x : Externals} {cfg : Config}

/-! ## Names -/

theorem Config.path_name_inj {id id' : String} (h : (cfg.path id).name = (cfg.path id').name) :
    id = id' := by
  simpa [Config.path] using h

/-- Cutting the extension off a vault's file name gives the id back. -/
theorem take_stem (id : String) :
    String.ofList ((id ++ ".vault").toList.take ((id ++ ".vault").toList.length - 6)) = id := by
  simp

theorem vaultStem_some {name id : String} (h : vaultStem name = some id) :
    name = (cfg.path id).name := by
  unfold vaultStem at h
  split at h
  next suffixed =>
    cases h
    simp only [Bool.and_eq_true, List.isSuffixOf_iff_suffix] at suffixed
    obtain ⟨stem, hstem⟩ := suffixed.1
    apply String.toList_inj.mp
    rw [← hstem]
    simp [Config.path]
  · cases h

/-- The search ends at a free name if one is within the fuel. -/
theorem firstFree_free {taken : String → Bool} {base : String} : ∀ {fuel n : Nat},
    (∃ k ≤ fuel, taken (candidate base (n + k)) = false) → taken (firstFree taken base fuel n) = false := by
  intro fuel
  induction fuel with
  | zero =>
    rintro n ⟨k, hk, free⟩
    obtain rfl : k = 0 := by omega
    exact free
  | succ fuel ih =>
    rintro n ⟨k, hk, free⟩
    unfold firstFree
    by_cases here : taken (candidate base n) = true
    · rw [if_pos here]
      apply ih
      cases k with
      | zero =>
        rw [Nat.add_zero, here] at free
        cases free
      | succ k => exact ⟨k, by omega, by rwa [Nat.add_right_comm, Nat.add_assoc]⟩
    · rw [if_neg here]
      simpa using here

theorem candidate_eq (base : String) {n : Nat} (small : n < 2 ^ 31) :
    candidate base n = base ++ "_" ++ Nat.repr n := by
  rw [candidate, Int.bmod_eq_of_le (by omega) (by omega)]
  rfl

/-- Among one candidate more than there are names, one is free, since the candidates are distinct as
long as the counter does not wrap. -/
theorem exists_free (base : String) (names : List String) {n : Nat}
    (few : n + names.length < 2 ^ 31) : ∃ k ≤ names.length, candidate base (n + k) ∉ names := by
  by_contra hall
  push Not at hall
  let candidates := (List.range (names.length + 1)).map fun k => candidate base (n + k)
  have distinct : candidates.Nodup := by
    refine List.Nodup.map_on (fun k mem k' mem' same => ?_) List.nodup_range
    rw [List.mem_range] at mem mem'
    rw [candidate_eq base (by omega), candidate_eq base (by omega)] at same
    have := Nat.repr_inj.mp (by simpa using same)
    omega
  have inside : candidates ⊆ names := by
    intro id hid
    obtain ⟨k, hk, rfl⟩ := List.mem_map.mp hid
    exact hall k (by have := List.mem_range.mp hk; omega)
  have hlen := (List.subperm_of_subset distinct inside).length_le
  simp only [candidates, List.length_map, List.length_range] at hlen
  omega

/-- **The name a create picks is not taken**, by the ids it copied or by a file, if these are too
few for the counter to wrap. -/
theorem uniqueCollectionIdIn_free (dir : Dir) (loaded : List String) (label : String)
    (few : loaded.length + dir.size < 2 ^ 31 - 2) : uniqueCollectionIdIn dir loaded label ∉ loaded ∧
      dir[(cfg.path (uniqueCollectionIdIn dir loaded label)).name]? = none := by
  let taken (id : String) : Bool := loaded.contains id || dir.contains (id ++ ".vault")
  have free : taken (uniqueCollectionIdIn dir loaded label) = false := by
    unfold uniqueCollectionIdIn
    dsimp only
    split
    · apply firstFree_free
      -- the names that count as taken: the loaded ids, and the stems of the files
      let names := loaded ++ dir.keys.map fun name =>
        String.ofList (name.toList.take (name.toList.length - 6))
      have length : names.length = loaded.length + dir.size := by simp [names]
      obtain ⟨k, hk, hfree⟩ := @exists_free (collectionIdFromLabel label) names 2 (by omega)
      refine ⟨k, length ▸ hk, ?_⟩
      · simp only [Bool.or_eq_false_iff, List.contains_eq_mem, decide_eq_false_iff_not]
        refine ⟨fun hmem => hfree (List.mem_append_left _ hmem), ?_⟩
        rw [← Bool.not_eq_true, Std.ExtTreeMap.contains_iff_mem]
        intro hmem
        exact hfree (List.mem_append_right _ (List.mem_map.mpr
          ⟨_, Std.ExtTreeMap.mem_keys.mpr hmem, take_stem _⟩))
    next here => simpa only [Bool.not_eq_true] using here
  simp only [taken, Bool.or_eq_false_iff, List.contains_eq_mem, decide_eq_false_iff_not] at free
  exact ⟨free.1, Std.ExtTreeMap.getElem?_eq_none_of_contains_eq_false free.2⟩

/-- Two collections of one label are loaded, and the directory holds a third. -/
theorem uniqueCollectionIdIn_free_third :
    let cfg : Config := ⟨"/vaults", .fastForTests, true⟩
    let dir : Dir := (∅ : Dir).put "login_3.vault" (some [0])
    uniqueCollectionIdIn dir ["login", "login_2"] "Login" = "login_4" ∧
      dir[(cfg.path "login_4").name]? = none := by
  intro cfg dir
  have picked : uniqueCollectionIdIn dir ["login", "login_2"] "Login" = "login_4" := by decide
  have free := (@uniqueCollectionIdIn_free cfg dir ["login", "login_2"] "Login" (by decide)).2
  rw [picked] at free
  exact ⟨picked, free⟩

/-! ## Scans -/

theorem scanEntry_cases (x : Externals) (cfg : Config) (loaded : List String) (name : String)
    (file : Option Bytes) (scan : VaultScan) (vaults : List Vault) :
    ((scanEntry x cfg loaded name file scan vaults).1.opened = scan.opened ∧
        (scanEntry x cfg loaded name file scan vaults).2 = vaults) ∨
      ∃ id v, name = (cfg.path id).name ∧ Vault.open x (cfg.path id) file = .ok v ∧
        (scanEntry x cfg loaded name file scan vaults).1.opened = scan.opened ++ [(id, vaults.length)] ∧
        (scanEntry x cfg loaded name file scan vaults).2 = vaults ++ [v.setIndexAttributes cfg.indexAttributes] := by
  unfold scanEntry
  split
  · exact .inl ⟨rfl, rfl⟩
  next id stem =>
    dsimp only
    split
    · exact .inl ⟨rfl, rfl⟩
    · split
      next v opened => exact .inr ⟨id, v, vaultStem_some stem, opened, rfl, rfl⟩
      · exact .inl ⟨rfl, rfl⟩

/-! ## Merges -/

theorem foldl_fixed {α β γ : Type} {f : α → β → α} (g : α → γ) (fixed : ∀ a b, g (f a b) = g a)
    (l : List β) (a : α) : g (l.foldl f a) = g a := by
  induction l generalizing a with
  | nil => rfl
  | cons b l ih => rw [List.foldl_cons, ih, fixed]

theorem mergeOpened_collections (opened : List (String × Handle)) :
    ∀ (acc : ServiceState × List String) (id : String),
      (opened.foldl mergeOpened acc).1.collections[id]? = acc.1.collections[id]? ∨
        ∃ h, (id, h) ∈ opened ∧ (opened.foldl mergeOpened acc).1.collections[id]? = some h := by
  induction opened with
  | nil => exact fun acc id => .inl rfl
  | cons entry rest ih =>
    intro acc id
    rw [List.foldl_cons]
    rcases ih (mergeOpened acc entry) id with hsame | ⟨h, hmem, hfound⟩
    · rw [hsame]
      by_cases hid : entry.1 = id
      · subst hid
        exact .inr ⟨entry.2, List.mem_cons_self, by simp [mergeOpened]⟩
      · exact .inl (by simp [mergeOpened, Std.ExtTreeMap.getElem?_insert, hid])
    · exact .inr ⟨h, List.mem_cons_of_mem _ hmem, hfound⟩

/-- **What a merge leaves under an id**: a vault the scan opened there, or what was there before. -/
theorem mergeScan_collections (st : ServiceState) (scan : VaultScan)
    (aliases : Except AliasError AliasMap) (id : String) :
    (mergeScan st scan aliases).1.collections[id]? = st.collections[id]? ∨
      ∃ h, (id, h) ∈ scan.opened ∧ (mergeScan st scan aliases).1.collections[id]? = some h := by
  unfold mergeScan
  have broken : ∀ acc, (scan.broken.foldl mergeBroken acc).1.collections = acc.1.collections :=
    @foldl_fixed _ _ _ mergeBroken (·.1.collections) (fun _ _ => rfl) _
  dsimp only
  rw [broken]
  exact mergeOpened_collections scan.opened (st, []) id

theorem mergeScan_aliases (st : ServiceState) (scan : VaultScan)
    (aliases : Except AliasError AliasMap) :
    (mergeScan st scan aliases).1.aliases = st.aliases.merge aliases := by
  unfold mergeScan
  have opened : ∀ acc, (scan.opened.foldl mergeOpened acc).1.aliases = acc.1.aliases :=
    @foldl_fixed _ _ _ mergeOpened (·.1.aliases) (fun _ _ => rfl) _
  have broken : ∀ acc, (scan.broken.foldl mergeBroken acc).1.aliases = acc.1.aliases :=
    @foldl_fixed _ _ _ mergeBroken (·.1.aliases) (fun _ _ => rfl) _
  dsimp only
  rw [broken, opened]

end SecretManager
