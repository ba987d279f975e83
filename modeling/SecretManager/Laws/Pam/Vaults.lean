import SecretManager.Pam.Vaults
import SecretManager.Laws.Dbus.Collections

/-!
# What a login sees of a directory

The daemon's scan and the hooks' listing walk one directory with tests of their own. A scan opens
the entries that `Loads` describes and no others. The hooks enumerate the collection they are
configured for and every regular file that `read_dir` gives them whose id fits their limit
(`Enumerated`), and no others. A file that the daemon can open has a header that they can read; they
accept it from a regular file of the user's own that nobody else can write, with parameters that a
login can afford (`Loads.vaultHeader_isSome`).
-/

namespace SecretManager.Pam

open List

variable {x : Externals} {cfg : Config}
variable {listing : ReadDir}

/-! ## The daemon's scan -/

/-- The daemon takes the entry for a collection with this id, and opens it. -/
structure Loads (x : Externals) (cfg : Config) (name : String) (e : DirEntry) (id : String)
    (v : Vault) : Prop where
  stem : vaultStem name = some id
  segment : Paths.isSegment id = true
  opened : Vault.open x (cfg.path id) e.contents = .ok v

/-- The id that one turn of a scan adds. -/
def openedId (x : Externals) (cfg : Config) (loaded : List String) (entry : String × DirEntry) :
    Option String :=
  (vaultStem entry.1).filter fun id =>
    Paths.isSegment id && !loaded.contains id &&
      (Vault.open x (cfg.path id) entry.2.contents).toOption.isSome

theorem scanEntry_ids (loaded : List String) (entry : String × DirEntry) (scan : VaultScan)
    (vaults : List Vault) :
    (scanEntry x cfg loaded entry.1 entry.2.contents scan vaults).1.opened.map Prod.fst =
      scan.opened.map Prod.fst ++ (openedId x cfg loaded entry).toList := by
  unfold scanEntry openedId
  cases vaultStem entry.1 with
  | none => simp
  | some id =>
    rw [Option.filter_some]
    cases hsegment : Paths.isSegment id with
    | false => simp [hsegment]
    | true =>
      by_cases hloaded : id ∈ loaded
      · simp [hloaded]
      · cases hopen : Vault.open x (cfg.path id) entry.2.contents with
        | ok v | error e => simp [hsegment, hloaded, hopen, Except.toOption]

theorem scan_ids (loaded : List String) (entries : List (String × DirEntry)) :
    ∀ acc : VaultScan × List Vault,
      (entries.foldl (fun acc entry =>
          scanEntry x cfg loaded entry.1 entry.2.contents acc.1 acc.2) acc).1.opened.map Prod.fst =
        acc.1.opened.map Prod.fst ++ entries.filterMap (openedId x cfg loaded) := by
  induction entries with
  | nil => simp
  | cons entry rest ih =>
    intro acc
    rw [foldl_cons, ih, scanEntry_ids]
    cases h : openedId x cfg loaded entry <;> simp [h]

variable {id : String}

theorem openedId_eq_some {loaded : List String} {entry : String × DirEntry} :
    openedId x cfg loaded entry = some id ↔
      id ∉ loaded ∧ ∃ v, Loads x cfg entry.1 entry.2 id v := by
  unfold openedId
  rw [Option.filter_eq_some_iff]
  constructor
  · rintro ⟨stem, test⟩
    simp only [Bool.and_eq_true, Bool.not_eq_true', contains_eq_mem, decide_eq_false_iff_not,
      Option.isSome_iff_exists] at test
    obtain ⟨⟨segment, fresh⟩, v, hv⟩ := test
    refine ⟨fresh, v, stem, segment, ?_⟩
    cases hopen : Vault.open x (cfg.path id) entry.2.contents with
    | error e => rw [hopen] at hv; cases hv
    | ok v' => rw [hopen] at hv; cases hv; rfl
  · rintro ⟨fresh, v, loads⟩
    refine ⟨loads.stem, ?_⟩
    simp [loads.segment, fresh, loads.opened, Except.toOption]

/-- **A scan** opens every entry that loads under an id it does not have yet, and nothing else. -/
theorem mem_scanDir {loaded : List String} {dir : VaultDir} :
    id ∈ (scanDir x cfg loaded dir).1.opened.map Prod.fst ↔
      id ∉ loaded ∧ ∃ name e v, dir[name]? = some e ∧ Loads x cfg name e id v := by
  unfold scanDir
  rw [scan_ids]
  simp only [VaultScan.empty, map_nil, nil_append, mem_filterMap, openedId_eq_some,
    Prod.exists, Std.ExtTreeMap.mem_toList_iff_getElem?_eq_some]
  constructor
  · rintro ⟨name, e, here, fresh, v, loads⟩
    exact ⟨fresh, name, e, v, here, loads⟩
  · rintro ⟨fresh, name, e, v, here, loads⟩
    exact ⟨name, e, here, fresh, v, loads⟩

/-! ## The hooks' listing -/

/-- The hooks have the collection of this id before them: it is the configured one, or a regular
file of its name is listed and the id is within their limit. -/
def Enumerated (listing : ReadDir) (configured id : String) : Prop :=
  id = configured ∨ id.utf8ByteSize ≤ maxCollectionLen ∧
    ∃ entries, listing = .ok entries ∧ .ok (id ++ ".vault", .ok .regular) ∈ entries

variable {name : String}

theorem stripVault_eq_some : stripVault name = some id ↔ name = id ++ ".vault" := by
  unfold stripVault
  constructor
  · intro stem
    split at stem
    next suffixed =>
      obtain ⟨front, whole⟩ := isSuffixOf_iff_suffix.mp suffixed
      cases stem
      refine String.toList_inj.mp ?_
      have six : ".vault".toList.length = 6 := rfl
      rw [String.toList_append, String.toList_ofList, ← whole, length_append, six,
        Nat.add_sub_cancel, take_left]
    · cases stem
  · rintro rfl
    have six : ".vault".toList.length = 6 := rfl
    rw [String.toList_append, if_pos (isSuffixOf_iff_suffix.mpr (suffix_append _ _)),
      length_append, six, Nat.add_sub_cancel, take_left, String.ofList_toList]

theorem collectionIsValid_iff : collectionIsValid id = true ↔
      Paths.isSegment id = true ∧ id.utf8ByteSize ≤ maxCollectionLen := by
  simp only [collectionIsValid, Paths.isSegment, Bool.and_eq_true, decide_eq_true_eq]
  constructor
  · rintro ⟨⟨nonempty, short⟩, bytes⟩
    exact ⟨⟨nonempty, bytes⟩, short⟩
  · rintro ⟨⟨nonempty, bytes⟩, short⟩
    exact ⟨⟨nonempty, short⟩, bytes⟩

variable {e : DirEntry} {v : Vault}

theorem listedId_eq_some {entry : Except IoError (String × Except IoError FileType)} :
    listedId entry = some id ↔ entry = .ok (id ++ ".vault", .ok .regular) ∧ collectionIsValid id = true := by
  constructor
  · intro listed
    unfold listedId at listed
    split at listed
    · cases listed
    · split at listed
      · obtain ⟨stem, valid⟩ := Option.filter_eq_some_iff.mp listed
        rw [stripVault_eq_some.mp stem]
        exact ⟨rfl, valid⟩
      · cases listed
  · rintro ⟨rfl, valid⟩
    exact Option.filter_eq_some_iff.mpr ⟨stripVault_eq_some.mpr rfl, valid⟩

theorem mem_listVaultCollections : id ∈ listVaultCollections listing ↔
    collectionIsValid id = true ∧
      ∃ entries, listing = .ok entries ∧ .ok (id ++ ".vault", .ok .regular) ∈ entries := by
  unfold listVaultCollections
  cases listing with
  | error e => exact ⟨nofun, fun ⟨_, _, failed, _⟩ => nomatch failed⟩
  | ok entries =>
    rw [(perm_insertionSort (· ≤ ·) _).mem_iff, mem_filterMap]
    constructor
    · rintro ⟨entry, mem, listed⟩
      obtain ⟨rfl, valid⟩ := listedId_eq_some.mp listed
      exact ⟨valid, entries, rfl, mem⟩
    · rintro ⟨valid, _, ⟨⟩, mem⟩
      exact ⟨_, mem, listedId_eq_some.mpr ⟨rfl, valid⟩⟩

theorem mem_allVaultIds {configured : String} :
    id ∈ allVaultIds listing configured ↔ id = configured ∨ id ∈ listVaultCollections listing := by
  unfold allVaultIds
  dsimp only
  split
  next known =>
    refine ⟨.inr, fun found => ?_⟩
    rcases found with rfl | listed
    · exact contains_iff_mem.mp known
    · exact listed
  · rw [(perm_insertionSort (· ≤ ·) _).mem_iff, mem_append, mem_singleton, or_comm]

/-- **What the hooks enumerate** of the collections that the daemon would load. -/
theorem Loads.mem_allVaultIds (loads : Loads x cfg name e id v) {configured : String} :
    id ∈ allVaultIds listing configured ↔ Enumerated listing configured id := by
  rw [Pam.mem_allVaultIds, mem_listVaultCollections, collectionIsValid_iff, and_iff_right loads.segment]
  rfl

/-! ## Headers -/

theorem headerPrefixLen_ok {bytes : Bytes} {need : Nat} (ok : headerPrefixLen bytes = .ok need) :
    prefixLen ≤ bytes.length ∧ prefixLen ≤ need ∧ ∀ n, prefixLen ≤ n → headerPrefixLen (bytes.take n) = .ok need := by
  unfold headerPrefixLen at ok
  split at ok
  · cases ok
  next long =>
    split at ok
    · cases ok
    next named =>
      split at ok
      next a b c d rest fields =>
        dsimp only at ok
        split at ok
        · cases ok
        next fits =>
          cases ok
          have length : 8 + (rest.length + 4) = bytes.length := by
            have hdrop := congrArg length fields
            simp only [length_drop, length_cons] at hdrop
            omega
          refine ⟨by unfold prefixLen; omega, Nat.le_add_right _ _, fun n enough => ?_⟩
          unfold prefixLen at enough
          have head : (bytes.take n).take 8 = bytes.take 8 := by
            rw [take_take, Nat.min_eq_left (by omega)]
          have tail : (bytes.take n).drop 8 = a :: b :: c :: d :: rest.take (n - 12) := by
            obtain ⟨k, rfl⟩ : ∃ k, n = k + 12 := ⟨n - 12, by omega⟩
            rw [drop_take, fields]
            rfl
          unfold headerPrefixLen
          rw [if_neg (by rw [length_take]; omega), head, if_neg named, tail]
          dsimp only
          rw [if_neg fits]
      · cases ok

/-- **A file that opens** has a header that the hooks can read, and it is the vault's. -/
theorem readHeader_of_open {path : VaultPath} {file : Option Bytes}
    (opened : Vault.open x path file = .ok v) : file.bind (readHeader x) = some v.header := by
  obtain ⟨bytes, vf, rfl, -, decoded, rfl⟩ := open_ok_iff.mp opened
  unfold VaultFile.decode decodeHeaderPrefix at decoded
  cases hneed : headerPrefixLen bytes with
  | error e => rw [hneed] at decoded; cases decoded
  | ok need =>
    obtain ⟨long, enough, short⟩ := headerPrefixLen_ok hneed
    rw [hneed] at decoded
    dsimp only at decoded
    by_cases hlen : bytes.length < need
    · rw [if_pos hlen] at decoded
      cases decoded
    · rw [if_neg hlen] at decoded
      have whole : (bytes.take need).length = need := by rw [length_take]; omega
      -- cut at `need`, the bytes decode as they did before
      simp only [Option.bind_some, readHeader, if_neg (Nat.not_lt.mpr long),
        short prefixLen (Nat.le_refl _), if_neg hlen, decodeHeader, decodeHeaderPrefix,
        short need enough, whole, Nat.lt_irrefl, take_take, Nat.min_self]
      cases hread : x.header.takeFromBytes ((bytes.take need).drop prefixLen) with
      | error e => rw [hread] at decoded; cases decoded
      | ok r =>
        obtain ⟨header, rest⟩ := r
        simp only [hread] at decoded ⊢
        by_cases hrest : rest ≠ []
        · rw [if_pos hrest] at decoded
          cases decoded
        · rw [if_neg hrest] at decoded ⊢
          cases hcheck : checkHeader header with
          | error e => rw [hcheck] at decoded; cases decoded
          | ok u => rw [hcheck] at decoded; cases decoded; rfl

/-- What a file must be, besides a vault, for a hook to accept its header. -/
structure Suitable (uid : UInt32) (e : DirEntry) (v : Vault) : Prop where
  owned : e.uid = uid
  guarded : e.mode &&& 0o022 = 0
  acceptable : kdfAcceptableForLogin v.header.kdf = true

/-- **A header that a hook accepts**, of a file that the daemon opens. -/
theorem Loads.vaultHeader_isSome (loads : Loads x cfg name e id v) {uid : UInt32}
    {readable : Bool} : (vaultHeader x (some e) uid readable).isSome = true ↔
      e.fileType = .regular ∧ Suitable uid e v ∧ readable = true := by
  have read := readHeader_of_open loads.opened
  constructor
  · intro accepted
    unfold vaultHeader at accepted
    split at accepted
    next absent => cases absent
    next entry same =>
      cases same
      split at accepted
      · cases accepted
      next regular =>
        split at accepted
        · cases accepted
        next owned =>
          split at accepted
          · cases accepted
          next guarded =>
            split at accepted
            · cases accepted
            next readable =>
              rw [read] at accepted
              dsimp only at accepted
              split at accepted
              next acceptable =>
                exact ⟨not_not.mp regular, ⟨not_not.mp owned, not_not.mp guarded, acceptable⟩,
                  by simpa using readable⟩
              · cases accepted
  · rintro ⟨regular, suitable, rfl⟩
    simp only [Pam.vaultHeader, regular, suitable.owned, suitable.guarded, read, suitable.acceptable,
      ne_eq, not_true_eq_false, if_false, Bool.not_true, Bool.false_eq_true, if_true, Option.isSome_some]

end SecretManager.Pam
