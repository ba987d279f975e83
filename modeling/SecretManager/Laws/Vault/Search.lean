import SecretManager.Laws.Vault.Coherence
import SecretManager.Vault.Search

/-!
# A locked search finds what an unlocked one finds

The header index holds one digest for each attribute pair, so a locked search compares digests where
an unlocked one compares text. The two agree when no two hashed byte strings share a digest: the
length of the key is hashed in front of it, which makes the hashed bytes of two pairs differ, and
the digests of an entry are sorted, which makes the binary search complete.

The key length is hashed as a `u32`. A stored pair is far below that: the items are part of the
sealed text, and a save refuses a file over the size limit.
-/

namespace SecretManager

open List

open Wire (le32 ofLe32)

variable {x : Externals}

/-! ## Hashed pairs -/

theorem utf8_length (s : String) : (utf8 s).length = s.utf8ByteSize := rfl

theorem le32_inj {m n : Nat} (hm : m < 2 ^ 32) (hn : n < 2 ^ 32) (h : le32 m = le32 n) : m = n := by
  have readM := Wire.ofLe32_le32 hm
  have readN := Wire.ofLe32_le32 hn
  simp only [le32, cons.injEq, and_true] at h
  rw [h.1, h.2.1, h.2.2.1, h.2.2.2] at readM
  exact readM.symm.trans readN

/-- **The hashed bytes tell pairs apart.** One of them short enough for its length field suffices:
equal byte strings have equal lengths. -/
theorem attributeBytes_inj {salt : Salt} {k v k' v' : String}
    (short : k.utf8ByteSize + v.utf8ByteSize < 2 ^ 32)
    (h : attributeBytes salt k v = attributeBytes salt k' v') : k = k' ∧ v = v' := by
  unfold attributeBytes at h
  rw [append_assoc, append_assoc, append_assoc, append_assoc] at h
  have fields := append_cancel_left h
  obtain ⟨lengths, texts⟩ := append_inj fields rfl
  have total : k.utf8ByteSize + v.utf8ByteSize = k'.utf8ByteSize + v'.utf8ByteSize := by
    have same := congrArg length texts
    simpa only [length_append, utf8_length] using same
  have keys : k.utf8ByteSize = k'.utf8ByteSize := le32_inj (by omega) (by omega) lengths
  obtain ⟨hk, hv⟩ := append_inj texts (by rw [utf8_length, utf8_length, keys])
  exact ⟨utf8_inj hk, utf8_inj hv⟩

/-! ## The order of an index entry -/

variable {a b : Digest}

theorem compareDigests_eq_iff : compareDigests a b = .eq ↔ a = b := by
  unfold compareDigests compareOfLessAndEq
  constructor
  · intro h
    split at h
    · cases h
    · split at h
      next same => exact Vector.toList_inj.mp same
      · cases h
  · rintro rfl
    rw [if_neg (List.lt_irrefl a.toList), if_pos rfl]

theorem compareDigests_eq_lt (h : compareDigests a b = .lt) : a.toList < b.toList := by
  unfold compareDigests compareOfLessAndEq at h
  split at h
  next lt => exact lt
  · split at h <;> cases h

theorem compareDigests_eq_gt_iff : compareDigests a b = .gt ↔ b.toList < a.toList := by
  unfold compareDigests compareOfLessAndEq
  constructor
  · intro h
    split at h
    · cases h
    next notLt =>
      split at h
      · cases h
      next ne =>
        -- neither less nor equal
        by_contra notGt
        exact ne (List.le_antisymm notGt notLt)
  · intro gt
    have ne : a.toList ≠ b.toList := by
      intro same
      rw [same] at gt
      exact List.lt_irrefl _ gt
    rw [if_neg (List.lt_asymm gt), if_neg ne]

def sortDigests (hashes : List Digest) : List Digest :=
  hashes.insertionSort fun a b => a.toList ≤ b.toList

theorem mem_sortDigests {hashes : List Digest} {d : Digest} : d ∈ sortDigests hashes ↔ d ∈ hashes :=
  mem_insertionSort _

theorem sortDigests_pairwise (hashes : List Digest) :
    (sortDigests hashes).Pairwise fun a b => a.toList ≤ b.toList := by
  exact pairwise_insertionSort _ hashes

theorem sortDigests_ordered (hashes : List Digest) (h : Digest) :
    Bisect.Ordered (fun d => compareDigests d h) (sortDigests hashes) := by
  refine (sortDigests_pairwise hashes).imp ?_
  intro a b le
  constructor
  · intro eq lt
    rw [compareDigests_eq_iff.mp eq] at le
    exact le (compareDigests_eq_lt lt)
  · intro gt
    have past := compareDigests_eq_gt_iff.mp gt
    refine compareDigests_eq_gt_iff.mpr ?_
    by_contra notGt
    exact le (List.lt_of_le_of_lt notGt past)

/-- **Binary search in an entry is membership.** -/
theorem found_sortDigests (hashes : List Digest) (h : Digest) :
    Bisect.found (fun d => compareDigests d h) (sortDigests hashes) = true ↔ h ∈ hashes := by
  rw [Bisect.found_iff (sortDigests_ordered hashes h)]
  constructor
  · rintro ⟨d, mem, eq⟩
    rw [← compareDigests_eq_iff.mp eq]
    exact mem_sortDigests.mp mem
  · intro mem
    exact ⟨h, mem_sortDigests.mpr mem, compareDigests_eq_iff.mpr rfl⟩

theorem matchesHashes_iff {id : String} {hashes query : List Digest} :
    (IndexEntry.matchesHashes ⟨id, sortDigests hashes⟩ query) = true ↔ ∀ h ∈ query, h ∈ hashes := by
  unfold IndexEntry.matchesHashes
  split
  next empty => simp [isEmpty_iff.mp empty]
  next nonempty =>
    obtain ⟨h, query', rfl⟩ := exists_cons_of_ne_nil (fun h => nonempty (isEmpty_iff.mpr h))
    split
    next none =>
      have nil : sortDigests hashes = [] := isEmpty_iff.mp none
      have nohash : h ∉ hashes := by
        rw [← mem_sortDigests, nil]
        exact not_mem_nil
      constructor
      · nofun
      · intro all
        exact absurd (all h mem_cons_self) nohash
    · rw [all_eq_true]
      exact forall₂_congr fun d _ => found_sortDigests hashes d

/-! ## The index of a vault -/

/-- The early exit of `search_ids` is an optimisation: entries without hashes match no pair. -/
theorem searchIds_eq (v : Vault) (query : Attributes) :
    v.searchIds x query = (v.header.index.filter fun e =>
        e.matchesHashes (hashQuery x v.header.indexSalt query)).map (·.id) := by
  unfold Vault.searchIds
  split
  next exit =>
    rw [Bool.and_eq_true, Bool.not_eq_true', Bool.not_eq_true'] at exit
    obtain ⟨nonempty, idsOnly⟩ := exit
    have hashed : (hashQuery x v.header.indexSalt query).isEmpty = false := by
      rw [hashQuery, isEmpty_map, Std.ExtTreeMap.isEmpty_toList]
      exact nonempty
    symm
    rw [map_eq_nil_iff, filter_eq_nil_iff]
    intro e mem
    have noHashes : e.attrHashes.isEmpty = true := by
      have none := any_eq_false.mp idsOnly e mem
      simpa using none
    simp [IndexEntry.matchesHashes, hashed, noHashes]
  · rfl

def Item.hashes (x : Externals) (salt : Salt) (item : Item) : List Digest :=
  item.attributes.toList.map fun kv => attributeHash x salt kv.1 kv.2

theorem buildIndex_true (salt : Salt) (items : List Item) : buildIndex x salt items true =
      items.map fun i => ⟨i.id, sortDigests (i.hashes x salt)⟩ := rfl

theorem buildIndex_false (salt : Salt) (items : List Item) :
    buildIndex x salt items false = items.map fun i => ⟨i.id, []⟩ := rfl

/-- The bytes hashed when these items are indexed and this query is looked up. -/
def hashedBytes (salt : Salt) (items : List Item) (query : Attributes) : List Bytes :=
  (items.flatMap (·.attributes.toList) ++ query.toList).map fun kv => attributeBytes salt kv.1 kv.2

variable {items : List Item}

/-- **One entry matches exactly when its item does**, if no two of the hashed byte strings share a
digest. -/
theorem entry_matches_iff {salt : Salt} {query : Attributes} {item : Item} (mem : item ∈ items)
    (short : ∀ kv ∈ item.attributes.toList, kv.1.utf8ByteSize + kv.2.utf8ByteSize < 2 ^ 32)
    (injective : Set.InjOn x.sha256 {b | b ∈ hashedBytes salt items query}) :
    IndexEntry.matchesHashes ⟨item.id, sortDigests (item.hashes x salt)⟩ (hashQuery x salt query) =
      query.toList.all fun kv => item.attributes[kv.1]? == some kv.2 := by
  rw [Bool.eq_iff_iff, matchesHashes_iff, all_eq_true]
  simp only [hashQuery, mem_map, forall_exists_index, and_imp, forall_apply_eq_imp_iff₂, beq_iff_eq]
  refine forall₂_congr fun kv looked => ?_
  rw [← Std.ExtTreeMap.mem_toList_iff_getElem?_eq_some]
  constructor
  · intro hashed
    obtain ⟨kv', stored, same⟩ := mem_map.mp hashed
    have bytes : attributeBytes salt kv'.1 kv'.2 = attributeBytes salt kv.1 kv.2 := by
      refine injective ?_ ?_ same
      · exact mem_map.mpr
          ⟨kv', mem_append_left _ (mem_flatMap.mpr ⟨item, mem, stored⟩), rfl⟩
      · exact mem_map.mpr ⟨kv, mem_append_right _ looked, rfl⟩
    obtain ⟨hk, hv⟩ := attributeBytes_inj (short kv' stored) bytes
    rw [← hk, ← hv]
    exact stored
  · intro stored
    exact mem_map.mpr ⟨kv, stored, rfl⟩

/-! ## What the file size says about the items -/

/-- Neither the cipher nor the item encoding shrinks text: a ciphertext is at least as long as its
message, and an encoded list at least as long as any attribute pair in it. -/
structure Externals.Uncompressed (x : Externals) : Prop where
  encrypt_length : ∀ {k n a p ct}, x.encrypt k n a p = some ct → p.length ≤ ct.length
  pair_length : ∀ {items b}, x.items.toAllocvec items = .ok b → ∀ item ∈ items,
    ∀ kv ∈ item.attributes.toList, kv.1.utf8ByteSize + kv.2.utf8ByteSize ≤ b.length

variable {v v' : Vault}

/-- **A vault that was saved has no pair near the `u32` limit.** -/
theorem Saved.short (lengths : x.Uncompressed) (saved : Saved x v v')
    (limit : v.sizeLimit ≤ maxVaultBytes) {key : Key} (state : v.state = .unlocked key items)
    {item : Item} (mem : item ∈ items) :
    ∀ kv ∈ item.attributes.toList, kv.1.utf8ByteSize + kv.2.utf8ByteSize < 2 ^ 32 := by
  intro kv stored
  cases saved with
  | mk live state' header encoded sealed fits =>
    rw [state] at state'
    cases state'
    unfold encodeItems at encoded
    unfold Crypto.seal at sealed
    split at encoded
    · cases encoded
    next plain henc =>
    cases encoded
    split at sealed
    next ct hct =>
      cases sealed
      have text := lengths.pair_length henc item mem kv stored
      have cipher := lengths.encrypt_length hct
      rw [length_append] at fits
      unfold maxVaultBytes at limit
      omega
    · cases sealed

theorem string_length_le (s : String) : s.utf8ByteSize ≤ (Codec.string.encode s).length := by
  have bytes : (utf8 s).flatMap Codec.byte.encode = utf8 s := flatMap_singleton' (utf8 s)
  change s.utf8ByteSize ≤ (Codec.nat.encode (utf8 s).length ++ (utf8 s).flatMap Codec.byte.encode).length
  rw [bytes, length_append]
  exact Nat.le_add_left _ _

theorem hashing_uncompressed : Reference.hashing.Uncompressed where
  encrypt_length := by
    intro k n a p ct h
    cases h
    rw [length_append]
    exact Nat.le_add_right _ _
  pair_length := by
    rintro items b h item mem ⟨key, value⟩ stored
    cases h
    calc key.utf8ByteSize + value.utf8ByteSize
        ≤ ((Codec.string.pair Codec.string).encode (key, value)).length := by
          simp only [Codec.pair, length_append]
          exact Nat.add_le_add (string_length_le key) (string_length_le value)
      _ ≤ ((Codec.map Codec.string).encode item.attributes).length :=
          Codec.length_encode_le_list _ stored
      _ ≤ (Reference.item.encode item).length := by
          simp only [Reference.item, Codec.via, Codec.pair, length_append]
          omega
      _ ≤ (Reference.item.list.encode items).length := Codec.length_encode_le_list _ mem

/-! ## The search -/

theorem Saved.index (saved : Saved x v v') :
    ∃ key items, v'.state = .unlocked key items ∧ v.state = .unlocked key items ∧
      v'.header.index = buildIndex x v'.header.indexSalt items v'.indexAttributes := by
  cases saved with
  | @mk key items now nonce aad plain ciphertext live state header encoded sealed fits =>
    exact ⟨key, items, state, state, rfl⟩

theorem Saved.searchIds_eq {u : Vault} (saved : Saved x v v') {key : Key}
    (state : v'.state = .unlocked key items) (on : v'.indexAttributes = true) (query : Attributes)
    (short : ∀ item ∈ items, ∀ kv ∈ item.attributes.toList, kv.1.utf8ByteSize + kv.2.utf8ByteSize <
      2 ^ 32) (injective : Set.InjOn x.sha256 {b | b ∈ hashedBytes v'.header.indexSalt items query})
    (header : u.header = v'.header) : u.searchIds x query =
      (items.filter fun i => query.toList.all fun kv => i.attributes[kv.1]? == some kv.2).map (·.id) := by
  obtain ⟨_, _, state', -, index⟩ := saved.index
  rw [state] at state'
  cases state'
  rw [SecretManager.searchIds_eq, header, index, on, buildIndex_true, filter_map, map_map]
  refine congrArg _ (filter_congr fun item mem => ?_)
  exact entry_matches_iff mem (short item mem) injective

/-- **Locked search equals unlocked search.** After a successful save with attribute indexing on, a
search of the header alone lists the ids of the items that a search of the decrypted items finds, in
the same order. With indexing off it lists nothing for a query with a pair in it, and every id for
the empty query. The size limit is what `open` and `build` set. -/
theorem locked_search_is_search (lengths : x.Uncompressed) {env : SaveEnv} {publish : Publish}
    {w w' : World} (limit : w.vault.sizeLimit ≤ maxVaultBytes)
    (ok : w.saveWith x env publish = (.ok (), w')) (query : Attributes) :
    ∃ key items, w'.vault.state = .unlocked key items ∧ (w'.vault.indexAttributes = true →
        Set.InjOn x.sha256 {b | b ∈ hashedBytes w'.vault.header.indexSalt items query} →
        ∃ found, w'.vault.search query = .ok found ∧
          ∀ v : Vault, v.header = w'.vault.header → v.searchIds x query = found.map (·.id)) ∧
      (w'.vault.indexAttributes = false → ∀ v : Vault, v.header = w'.vault.header →
          v.searchIds x query = if query.isEmpty then items.map (·.id) else []) := by
  have saved : Saved x w.vault w'.vault := by
    rcases saveWith_outcome ok with ⟨e, he, -⟩ | ⟨-, saved, -⟩
    · cases he
    · exact saved
  obtain ⟨key, items, state', state, index⟩ := saved.index
  refine ⟨key, items, state', ?_, ?_⟩
  · intro on injective
    refine ⟨_, by simp only [Vault.search, Vault.items, state']; rfl, ?_⟩
    intro v header
    exact saved.searchIds_eq state' on query (fun item mem => saved.short lengths limit state mem) injective header
  · intro off v header
    rw [searchIds_eq, header, index, off, buildIndex_false, filter_map, map_map]
    by_cases empty : query.isEmpty = true
    · have noHashes : (hashQuery x w'.vault.header.indexSalt query).isEmpty = true := by
        rw [hashQuery, isEmpty_map, Std.ExtTreeMap.isEmpty_toList]
        exact empty
      rw [if_pos empty]
      simp [IndexEntry.matchesHashes, noHashes, Function.comp_def]
    · have hashed : (hashQuery x w'.vault.header.indexSalt query).isEmpty = false := by
        rw [hashQuery, isEmpty_map, Std.ExtTreeMap.isEmpty_toList]
        exact Bool.not_eq_true _ ▸ empty
      rw [if_neg empty]
      simp [IndexEntry.matchesHashes, hashed, Function.comp_def]

/-- A vault of three items, two with an attribute, is saved and searched for one of them; once it is
locked the header gives the same ids. -/
theorem locked_search_is_search_tagged :
    let query : Attributes := (∅ : Attributes).insert "app" "mail"
    ∃ w' found, Reference.taggedItems.save Reference.hashing Reference.saveEnv = (.ok (), w') ∧
      w'.vault.search query = .ok found ∧
      w'.vault.lock.searchIds Reference.hashing query = found.map (·.id) := by
  intro query
  let run := Reference.taggedItems.save Reference.hashing Reference.saveEnv
  have answers : run.1.isOk = true ∧ run.2.vault.indexAttributes = true ∧
      run.2.vault.header.indexSalt = Vector.replicate saltLen 2 ∧
      run.2.vault.state = .unlocked ⟨Vector.replicate keyLen 3⟩ Reference.tagged := by
    decide +kernel
  have distinct : ∀ b ∈ hashedBytes (Vector.replicate saltLen 2) Reference.tagged query,
      ∀ b' ∈ hashedBytes (Vector.replicate saltLen 2) Reference.tagged query,
        Reference.hashing.sha256 b = Reference.hashing.sha256 b' → b = b' := by
    decide +kernel
  obtain ⟨ok, indexed, salt, items⟩ := answers
  rcases hrun : run with ⟨r, w'⟩
  rw [hrun] at ok indexed salt items
  cases r with
  | error e => cases ok
  | ok u =>
    obtain ⟨key, items', state, on, -⟩ := locked_search_is_search hashing_uncompressed
      (w := Reference.taggedItems) le_rfl hrun query
    rw [items] at state
    cases state
    rw [salt] at on
    obtain ⟨found, search, ids⟩ := on indexed fun b hb b' hb' => distinct b hb b' hb'
    exact ⟨w', found, hrun, search, ids _ rfl⟩

end SecretManager
