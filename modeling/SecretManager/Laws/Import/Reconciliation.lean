import SecretManager.Laws.Import.Decommission

/-!
# What the count of a wallet reconciles

The count check adds the walked entries to the index entries that no walked one hashes to, and
compares the sum with the size of the index. **It is a containment test**: with distinct names on
one side and distinct pairs on the other, the sum is the size of the index exactly when every walked
name hashes into it. An entry that is left over gets its names from a table of hashed splits, so
whatever name it gets hashes to its pair.
-/

namespace SecretManager.Import

open List

/-! ## Counting a difference -/

section

variable {α : Type} [BEq α] [LawfulBEq α]

theorem length_filter_contains_comm {l k : List α} (hl : l.Nodup) (hk : k.Nodup) :
    (l.filter k.contains).length = (k.filter l.contains).length := by
  refine List.Perm.length_eq ((perm_ext_iff_of_nodup (hl.filter _) (hk.filter _)).mpr fun a => ?_)
  simp only [mem_filter, contains_iff_mem]
  exact and_comm

theorem length_add_difference {index walked : List α} (distinct : index.Nodup)
    (once : walked.Nodup) :
    walked.length + (index.filter fun a => !walked.contains a).length = index.length ↔ ∀ a ∈ walked, a ∈ index := by
  have parts := length_eq_length_filter_add (l := index) walked.contains
  have shared : (walked.filter index.contains).length = walked.length ↔ ∀ a ∈ walked, a ∈ index := by
    rw [length_filter_eq_length_iff]
    simp only [contains_iff_mem]
  rw [length_filter_contains_comm distinct once] at parts
  rw [← shared]
  omega

end

/-! ## Hashes as text -/

theorem digitChar_inj : ∀ a < 16, ∀ b < 16, Nat.digitChar a = Nat.digitChar b → a = b := by decide

theorem hexByte_inj {a b : UInt8} (h : hexByte a = hexByte b) : a = b := by
  simp only [hexByte, cons.injEq, and_true] at h
  have ha := a.toNat_lt
  have hb := b.toNat_lt
  have high := digitChar_inj _ (by omega) _ (by omega) h.1
  have low := digitChar_inj _ (by omega) _ (by omega) h.2
  exact UInt8.toNat_inj.mp (by omega)

theorem hex_inj {bs cs : Bytes} (h : hex bs = hex cs) : bs = cs := by
  refine Framing.flatMap_inj (p := fun _ => True) (fun _ => cons_ne_nil _ _) ?_ (fun _ _ => trivial)
    (fun _ _ => trivial) (String.ofList_inj.mp h)
  intro b c rest rest' _ _ same
  obtain ⟨first, rest⟩ := append_inj same rfl
  exact ⟨hexByte_inj first, rest⟩

/-- A pair of hashes as an unlisted entry shows it. -/
def hexPair (pair : Md5Hash × Md5Hash) : String × String := (hex pair.1.toList, hex pair.2.toList)

theorem hexPair_injective : Function.Injective hexPair := by
  rintro ⟨a, b⟩ ⟨c, d⟩ h
  obtain ⟨first, second⟩ := Prod.mk.inj h
  exact Prod.ext (Vector.toList_inj.mp (hex_inj first)) (Vector.toList_inj.mp (hex_inj second))

/-! ## The names of a walk -/

def Extraction.accounted (e : Extraction) : List Provenance :=
  e.items.map (·.provenance) ++ (e.refusals.map (·.provenance) ++ e.skipped.map (·.provenance))

/-- A walk that accounts for these entries of a wallet, each once. -/
structure Extraction.Names (e : Extraction) (names : List (String × String)) : Prop where
  refused : ∀ row ∈ e.refusals, row.isRefused = true
  named : e.accounted.map (fun p => (p.folder, p.entry)) = names.map fun n => (some n.1, some n.2)
  distinct : names.Nodup

/-- The bytes of the names that are hashed. -/
def nameBytes (names : List (String × String)) : Set Bytes :=
    {b | ∃ n ∈ names, b = utf8 n.1 ∨ b = utf8 n.2}

section

variable {e : Extraction} {names : List (String × String)}

theorem Extraction.Names.accounted_eq (walk : e.Names names) :
    e.items.map (·.provenance) ++ accountedProvenances e.report e.skipped = e.accounted := by
  have refused : e.refusals.filter (·.isRefused) = e.refusals := filter_eq_self.mpr walk.refused
  have imported : (e.items.map ItemReport.imported).filter (·.isRefused) = [] := by
    rw [filter_eq_nil_iff]
    intro row mem
    obtain ⟨item, -, rfl⟩ := mem_map.mp mem
    exact Bool.false_ne_true
  rw [accountedProvenances, e.report_items, filter_append, refused, imported, append_nil,
    Extraction.accounted]

theorem Extraction.Names.length_eq (walk : e.Names names) : e.walked = names.length := by
  have lengths := congrArg length walk.named
  simp only [length_map, Extraction.accounted, length_append] at lengths
  rw [e.walked_eq]
  omega

theorem Extraction.Names.pairs_eq (walk : e.Names names) :
    e.accounted.filterMap Provenance.pair = names.map fun n => namePair n.1 n.2 := by
  -- the pair of a provenance depends on its two names alone
  have hashed := congrArg (filterMap fun p : Option String × Option String =>
    p.1.bind fun folder => p.2.map (namePair folder)) walk.named
  rw [filterMap_map, filterMap_map] at hashed
  have pair : (Provenance.pair : Provenance → _) =
      (fun p => p.1.bind fun folder => p.2.map (namePair folder)) ∘ fun p : Provenance => (p.folder, p.entry) := by
    funext p
    cases folder : p.folder <;> cases entry : p.entry <;> simp [Provenance.pair, folder, entry]
  rw [pair, hashed]
  exact congrFun filterMap_eq_map names

/-- **Distinct names have distinct pairs**, where the hash tells them apart. -/
theorem namePair_nodup (distinct : names.Nodup) (injective : Set.InjOn md5 (nameBytes names)) :
    (names.map fun n => namePair n.1 n.2).Nodup := by
  refine distinct.map_on fun n hn m hm same => ?_
  obtain ⟨folder, entry⟩ := Prod.mk.inj same
  have first := utf8_inj (injective ⟨n, hn, .inl rfl⟩ ⟨m, hm, .inl rfl⟩ folder)
  have second := utf8_inj (injective ⟨n, hn, .inr rfl⟩ ⟨m, hm, .inr rfl⟩ entry)
  exact Prod.ext first second

end

/-! ## The names of an unlisted entry -/

theorem mem_resolveTable {keys : List String} {pair : Md5Hash × Md5Hash} {names : String × String}
    (mem : (pair, names) ∈ resolveTable keys) : pair = namePair names.1 names.2 := by
  obtain ⟨split, -, same⟩ := mem_map.mp mem
  cases same
  rfl

theorem mem_of_lookup {κ ν : Type} [BEq κ] [LawfulBEq κ] {k : κ} {v : ν} : ∀ {rows : List (κ × ν)},
    rows.lookup k = some v → (k, v) ∈ rows := by
  intro rows
  induction rows with
  | nil => exact nofun
  | cons row rows ih =>
    intro found
    obtain ⟨k', v'⟩ := row
    rw [lookup_cons] at found
    split at found
    next same =>
      cases found
      obtain rfl := eq_of_beq same
      exact mem_cons_self
    next => exact mem_cons_of_mem _ (ih found)

theorem resolveUnlisted_eq (pair : Md5Hash × Md5Hash) (keys : List String) :
    resolveUnlisted pair (resolveTable keys) = (none, none) ∨ ∃ folder entry,
      resolveUnlisted pair (resolveTable keys) = (some folder, some entry) ∧ pair = namePair folder entry := by
  unfold resolveUnlisted
  split
  next folder entry found =>
    have hashed := mem_resolveTable (mem_of_lookup found)
    exact .inr ⟨folder, entry, rfl, hashed⟩
  next => exact .inl rfl

/-! ## The reconciliation -/

theorem WalletInventory.entryCount_eq (w : WalletInventory) : w.entryCount = w.pairs.length := by
  rw [WalletInventory.entryCount, WalletInventory.pairs, length_flatMap]
  simp only [length_map]

/-- **The count of a wallet reconciles names with hashes.** For an index without repeated pairs and
a walk that accounts for distinct names: the unlisted entries are the pairs of the index that no
name hashes to, in order and each once; the count check passes exactly when every name hashes into
the index; and a name of an unlisted entry hashes to its pair. -/
theorem wallet_count_reconciles (x : Externals) {e : Extraction} {names : List (String × String)}
    {w : WalletInventory} (stem : Option String) (dest : Option Destination) (walk : e.Names names)
    (index : w.pairs.Nodup) (usize : w.entryCount < 2 ^ 64)
    (injective : Set.InjOn md5 (nameBytes names)) :
    ((e.verify x (.located stem (.wallet w)) dest).unlisted.map fun u => (u.folderHash, u.entryHash)) =
      (w.pairs.filter fun pair => ∀ n ∈ names, namePair n.1 n.2 ≠ pair).map hexPair ∧
    ((e.verify x (.located stem (.wallet w)) dest).unlisted.map fun u => (u.folderHash, u.entryHash)).Nodup ∧
    ((e.verify x (.located stem (.wallet w)) dest).count.passed = true ↔ ∀ n ∈ names, namePair n.1 n.2 ∈ w.pairs) ∧
    ∀ u ∈ (e.verify x (.located stem (.wallet w)) dest).unlisted, (u.folder = none ∧ u.entry = none) ∨
      ∃ folder entry, u.folder = some folder ∧ u.entry = some entry ∧
        (u.folderHash, u.entryHash) = hexPair (namePair folder entry) := by
  have hashes : (names.map fun n => namePair n.1 n.2).Nodup := namePair_nodup walk.distinct injective
  have unlisted : (e.verify x (.located stem (.wallet w)) dest).unlisted =
      (w.pairs.filter fun pair => !(names.map fun n => namePair n.1 n.2).contains pair).map fun pair =>
        { folderHash := hex pair.1.toList, entryHash := hex pair.2.toList,
          folder := (resolveUnlisted pair (resolveTable e.unresolvedSidecarRows)).1,
          entry := (resolveUnlisted pair (resolveTable e.unresolvedSidecarRows)).2 } := by
    change unlistedWalletEntries w e.items (accountedProvenances e.report e.skipped) e.unresolvedSidecarRows = _
    rw [unlistedWalletEntries, walk.accounted_eq, walk.pairs_eq]
  have shown : ((e.verify x (.located stem (.wallet w)) dest).unlisted.map fun u => (u.folderHash, u.entryHash)) =
      (w.pairs.filter fun pair => ∀ n ∈ names, namePair n.1 n.2 ≠ pair).map hexPair := by
    rw [unlisted, map_map]
    refine congrArg (map hexPair) (filter_congr fun pair _ => ?_)
    rw [Bool.eq_iff_iff, decide_eq_true_eq, Bool.not_eq_true', ← Bool.not_eq_true, contains_iff_mem,
      mem_map, not_exists]
    exact forall_congr' fun n => not_and
  refine ⟨shown, ?_, ?_, ?_⟩
  · rw [shown]
    exact (index.filter _).map hexPair_injective
  · have count : (e.verify x (.located stem (.wallet w)) dest).count = ⟨some w.entryCount, names.length,
        (w.pairs.filter fun pair => !(names.map fun n => namePair n.1 n.2).contains pair).length⟩ := by
      change CountCheck.mk _ e.walked (e.verify x (.located stem (.wallet w)) dest).unlisted.length = _
      rw [walk.length_eq, unlisted, length_map]
      rfl
    have contained := length_add_difference index hashes
    rw [length_map, ← w.entryCount_eq] at contained
    rw [count]
    simp only [CountCheck.passed, Bool.and_eq_true, decide_eq_true_eq, beq_iff_eq]
    rw [and_iff_right_of_imp fun h => by omega, contained]
    simp only [mem_map, forall_exists_index, and_imp, forall_apply_eq_imp_iff₂]
  · intro u mem
    obtain ⟨pair, -, rfl⟩ := mem_map.mp mem
    rcases resolveUnlisted_eq pair e.unresolvedSidecarRows with none | ⟨folder, entry, found, same⟩
    · rw [none]
      exact .inl ⟨rfl, rfl⟩
    · rw [found]
      exact .inr ⟨folder, entry, rfl, rfl, by rw [← same]; rfl⟩

/-- One entry written and one skipped, out of an index of three. -/
def partlyRead : Extraction :=
  { Reference.fullExtraction [Reference.mailEntry] with
    skipped := [⟨"router", "no type", .kwallet "kdewallet" "Passwords" "router"⟩] }

def threeEntries : WalletInventory :=
  ⟨[⟨md5 (utf8 "Passwords"), [md5 (utf8 "mail"), md5 (utf8 "wifi"), md5 (utf8 "router")]⟩]⟩

theorem partlyRead_names : partlyRead.Names [("Passwords", "mail"), ("Passwords", "router")] where
  refused := by
    intro row mem
    cases mem
  named := rfl
  distinct := by decide

theorem wallet_count_reconciles_partly :
    (partlyRead.verify Reference.hashing (.located none (.wallet threeEntries)) none).count.passed =
      true ↔ ∀ n ∈ [("Passwords", "mail"), ("Passwords", "router")], namePair n.1 n.2 ∈ threeEntries.pairs := by
  have distinct : threeEntries.pairs.Nodup := by decide +kernel
  have small : threeEntries.entryCount < 2 ^ 64 := by decide
  have told : ∀ b ∈ [utf8 "Passwords", utf8 "mail", utf8 "router"],
      ∀ c ∈ [utf8 "Passwords", utf8 "mail", utf8 "router"], md5 b = md5 c → b = c := by
    decide +kernel
  have among : ∀ b ∈ nameBytes [("Passwords", "mail"), ("Passwords", "router")],
      b ∈ [utf8 "Passwords", utf8 "mail", utf8 "router"] := by
    rintro b ⟨n, mem, rfl | rfl⟩
    all_goals
      rcases mem_cons.mp mem with rfl | mem
      · simp
      · obtain rfl := mem_singleton.mp mem
        simp
  exact (wallet_count_reconciles Reference.hashing none none partlyRead_names distinct small
    fun b hb c hc same => told b (among b hb) c (among c hc) same).2.2.1

end SecretManager.Import
