import SecretManager.Laws.Dbus.Daemon
import SecretManager.Dbus.Reference

/-!
# Loaded collections and broken files

An unlock looks at `broken` before it looks at `collections`, so an id that is in both is refused
for good although its vault is loaded. The two maps are kept apart by nobody: a create picks an id
that is neither loaded nor a file, and its file can be new while the id is still listed as broken; a
merge lists as broken what its scan could not open, and the id can have been loaded since.

A scan that sees each file once, as the one at startup does, never lists an id in both ways.
-/

namespace SecretManager

open List

variable {ι : Type} {x : Externals} {toml : Toml} {cfg : Config}

/-- No loaded collection is reported as broken. -/
def ServiceState.Apart (st : ServiceState) : Prop :=
  ∀ id, id ∈ st.collections → st.brokenError id = none

theorem ServiceState.apart_iff {st : ServiceState} :
    st.Apart ↔ ∀ id, id ∈ st.collections → id ∉ st.broken := by
  refine forall_congr' fun id => imp_congr_right fun _ => ?_
  rw [brokenError, Option.map_eq_none_iff, ← Option.not_isSome_iff_eq_none, Std.ExtTreeMap.isSome_getElem?_iff_mem]

/-! ## The discipline -/

/-- A create puts in no id that is listed as broken, and a merge lists none that is loaded, before
it or by it. -/
def keepsApart (s : Daemon ι) : Action ι → Bool
  | .insert t =>
    match (s.tasks t).role with
    | .brings id _ => decide (id ∉ s.service.broken)
    | _ => true
  | .merge =>
    match s.reload with
    | .scanned scan _ => scan.broken.all fun entry =>
        decide (entry.1 ∉ s.service.collections ∧ entry.1 ∉ scan.opened.map Prod.fst)
    | _ => true
  | _ => true

/-! ## Merges -/

theorem mergeOpened_apart (opened : List (String × Handle)) : ∀ (acc : ServiceState × List String),
    acc.1.Apart → (opened.foldl mergeOpened acc).1.Apart := by
  induction opened with
  | nil => exact fun acc apart => apart
  | cons entry rest ih =>
    intro acc apart
    apply ih
    rw [ServiceState.apart_iff] at apart ⊢
    intro id loaded listed
    simp only [mergeOpened, Std.ExtTreeMap.mem_insert, Std.ExtTreeMap.mem_erase,
      Std.LawfulEqCmp.compare_eq_iff_eq] at loaded listed
    rcases loaded with rfl | loaded
    · exact listed.1 Std.ReflCmp.compare_self
    · exact apart id loaded listed.2

theorem mergeBroken_apart (broken : List (String × VaultPath × String)) :
    ∀ (acc : ServiceState × List String), acc.1.Apart → (∀ entry ∈ broken, entry.1 ∉ acc.1.collections) →
      (broken.foldl mergeBroken acc).1.Apart := by
  induction broken with
  | nil => exact fun acc apart _ => apart
  | cons entry rest ih =>
    intro acc apart unloaded
    rw [foldl_cons]
    refine ih _ ?_ fun other hmem => unloaded other (mem_cons_of_mem _ hmem)
    rw [ServiceState.apart_iff] at apart ⊢
    intro id loaded listed
    simp only [mergeBroken, Std.ExtTreeMap.mem_insert, Std.LawfulEqCmp.compare_eq_iff_eq] at loaded listed
    rcases listed with rfl | listed
    · exact unloaded entry mem_cons_self loaded
    · exact apart id loaded listed

/-- **A merge keeps the maps apart** if what it lists as broken was neither loaded nor opened. -/
theorem mergeScan_apart {st : ServiceState} {scan : VaultScan}
    (aliases : Except AliasError AliasMap) (apart : st.Apart)
    (fresh : ∀ entry ∈ scan.broken, entry.1 ∉ st.collections ∧ entry.1 ∉ scan.opened.map Prod.fst) :
    (mergeScan st scan aliases).1.Apart := by
  have unloaded : ∀ entry ∈ scan.broken, entry.1 ∉ (scan.opened.foldl mergeOpened (st, [])).1.collections := by
    intro entry hmem loaded
    obtain ⟨hold, hopened⟩ := fresh entry hmem
    rcases mergeOpened_collections scan.opened (st, []) entry.1 with hsame | ⟨h, hin, -⟩
    · rw [← Std.ExtTreeMap.isSome_getElem?_iff_mem, hsame, Std.ExtTreeMap.isSome_getElem?_iff_mem] at loaded
      exact hold loaded
    · exact hopened (mem_map.mpr ⟨_, hin, rfl⟩)
  have merged := mergeBroken_apart scan.broken _ (mergeOpened_apart scan.opened (st, []) apart) unloaded
  rw [ServiceState.apart_iff] at merged ⊢
  -- the ids whose files are gone are dropped from the list
  intro id loaded listed
  exact merged id loaded (Std.ExtTreeMap.mem_of_mem_filter listed)

/-! ## Startup -/

theorem scanEntry_listed (x : Externals) (cfg : Config) (loaded : List String) (name : String)
    (file : Option Bytes) (scan : VaultScan) (vaults : List Vault) :
    let scan' := (scanEntry x cfg loaded name file scan vaults).1
    (scan'.opened = scan.opened ∧ scan'.broken = scan.broken) ∨
      (∃ id h, name = (cfg.path id).name ∧ scan'.opened = scan.opened ++ [(id, h)] ∧ scan'.broken = scan.broken) ∨
      ∃ id reason, name = (cfg.path id).name ∧ scan'.opened = scan.opened ∧
        scan'.broken = scan.broken ++ [(id, reason)] := by
  unfold scanEntry
  split
  · exact .inl ⟨rfl, rfl⟩
  next id stem =>
    dsimp only
    split
    · exact .inl ⟨rfl, rfl⟩
    · split
      · exact .inr (.inl ⟨id, _, vaultStem_some stem, rfl, rfl⟩)
      · exact .inr (.inr ⟨id, _, vaultStem_some stem, rfl, rfl⟩)

/-- What a scan has listed of these entries, when it saw each once. -/
structure ListedOnce (cfg : Config) (names : List String) (scan : VaultScan) : Prop where
  opened : ∀ {id h}, (id, h) ∈ scan.opened → (cfg.path id).name ∈ names
  broken : ∀ {id reason}, (id, reason) ∈ scan.broken → (cfg.path id).name ∈ names
  once : ∀ entry ∈ scan.broken, entry.1 ∉ scan.opened.map Prod.fst

theorem ListedOnce.scanEntry {names : List String} {scan : VaultScan}
    (listed : ListedOnce cfg names scan) {name : String} (fresh : name ∉ names)
    (loaded : List String) (file : Option Bytes) (vaults : List Vault) :
    ListedOnce cfg (names ++ [name]) (scanEntry x cfg loaded name file scan vaults).1 := by
  have hopened : ∀ {id h}, (id, h) ∈ scan.opened → (cfg.path id).name ∈ names ++ [name] :=
    fun hmem => mem_append_left _ (listed.opened hmem)
  have hbroken : ∀ {id reason}, (id, reason) ∈ scan.broken → (cfg.path id).name ∈ names ++ [name] :=
    fun hmem => mem_append_left _ (listed.broken hmem)
  rcases scanEntry_listed x cfg loaded name file scan vaults with
    ⟨ho, hb⟩ | ⟨id, h, rfl, ho, hb⟩ | ⟨id, reason, rfl, ho, hb⟩
  · refine ⟨?_, ?_, ?_⟩
    · rw [ho]; exact hopened
    · rw [hb]; exact hbroken
    · rw [ho, hb]; exact listed.once
  · refine ⟨?_, ?_, ?_⟩
    · intro id' h' hmem
      rw [ho] at hmem
      rcases mem_append.mp hmem with hmem | hmem
      · exact hopened hmem
      · obtain ⟨rfl, -⟩ := Prod.mk.inj (mem_singleton.mp hmem)
        exact mem_append_right _ (mem_singleton.mpr rfl)
    · rw [hb]; exact hbroken
    · rw [ho, hb]
      intro entry hmem hin
      rw [map_append] at hin
      rcases mem_append.mp hin with hin | hin
      · exact listed.once entry hmem hin
      · -- a broken file was seen before, and this one was not
        rw [map_singleton, mem_singleton] at hin
        have seen := listed.broken hmem
        rw [hin] at seen
        exact fresh seen
  · refine ⟨?_, ?_, ?_⟩
    · rw [ho]; exact hopened
    · intro id' reason' hmem
      rw [hb] at hmem
      rcases mem_append.mp hmem with hmem | hmem
      · exact hbroken hmem
      · obtain ⟨rfl, -⟩ := Prod.mk.inj (mem_singleton.mp hmem)
        exact mem_append_right _ (mem_singleton.mpr rfl)
    · rw [ho, hb]
      intro entry hmem hin
      rcases mem_append.mp hmem with hmem | hmem
      · exact listed.once entry hmem hin
      · rw [mem_singleton] at hmem
        subst hmem
        obtain ⟨entry', hin', hid⟩ := mem_map.mp hin
        have seen := listed.opened hin'
        rw [hid] at seen
        exact fresh seen

theorem bootScan_listed {entries : List (String × Bytes)}
    (distinct : (entries.map Prod.fst).Nodup) :
    ListedOnce cfg (entries.map Prod.fst) (bootScan x cfg entries).1 := by
  induction entries using reverseRecOn with
  | nil => exact ⟨nofun, nofun, nofun⟩
  | append_singleton entries entry ih =>
    rw [map_append, nodup_append] at distinct
    have unseen : entry.1 ∉ entries.map Prod.fst :=
      fun hmem => distinct.2.2 _ hmem _ (mem_singleton.mpr rfl) rfl
    rw [map_append]
    have unfolded : bootScan x cfg (entries ++ [entry]) =
        SecretManager.scanEntry x cfg [] entry.1 (some entry.2) (bootScan x cfg entries).1
          (bootScan x cfg entries).2 := by
      simp only [bootScan, foldl_append, foldl_cons, foldl_nil]
    rw [unfolded]
    exact (ih distinct.1).scanEntry unseen [] (some entry.2) _

theorem Daemon.boot_apart {dir : Dir} {aliasFile : Option Bytes} {s : Daemon ι}
    (h : Daemon.boot ι x toml cfg dir aliasFile = some s) : s.service.Apart := by
  obtain ⟨aliases, -, rfl⟩ := Option.map_eq_some_iff.mp h
  refine mergeScan_apart aliases ?_ ?_
  · intro id loaded
    simp at loaded
  · intro entry hmem
    exact ⟨by simp, (bootScan_listed (Dir.names_nodup dir)).once entry hmem⟩

/-! ## Runs -/

variable [DecidableEq ι]

theorem apart_step {s s' : Daemon ι} {a : Action ι} (apart : s.service.Apart)
    (ok : keepsApart s a = true) (h : s.step x toml cfg a = some s') : s'.service.Apart := by
  cases Daemon.step_inv h with
  | @insert t label aliasName id h v task vault =>
    have unlisted : id ∉ s.service.broken := by
      simpa only [keepsApart, task, Task.role, decide_eq_true_eq] using ok
    rw [ServiceState.apart_iff] at apart ⊢
    intro id' loaded listed
    rw [Std.ExtTreeMap.mem_insert, Std.LawfulEqCmp.compare_eq_iff_eq] at loaded
    rcases loaded with rfl | loaded
    · exact unlisted listed
    · exact apart id' loaded listed
  | merge scanned =>
    refine mergeScan_apart _ apart fun entry hmem => ?_
    simp only [keepsApart, scanned, all_eq_true, decide_eq_true_eq] at ok
    exact ok entry hmem
  | unmap task =>
    exact fun id loaded => apart id (Std.ExtTreeMap.mem_of_mem_erase loaded)
  | _ => exact apart

/-- **A loaded collection is never reported as broken**, in every run in which no create puts in an
id that is listed as broken and no merge lists one that is loaded. -/
theorem loaded_is_not_broken {dir : Dir} {aliasFile : Option Bytes} {s₀ s : Daemon ι}
    (boot : Daemon.boot ι x toml cfg dir aliasFile = some s₀)
    (run : Reach (Daemon.step x toml cfg) (fun s a => keepsApart s a = true) s₀ s) :
    s.service.Apart :=
  run.invariant (fun s => s.service.Apart) (Daemon.boot_apart boot) apart_step

section

open Reference

def brokenDir : Dir := Dir.put ∅ "login.vault" (some [0])

/-- A daemon that starts over one file that is no vault. -/
abbrev brokenBoot : Option (Daemon (Fin 1)) :=
  Daemon.boot (Fin 1) externals daemonToml config brokenDir none

/-- A create beside a broken file, and a Reload that sees both. -/
theorem loaded_is_not_broken_beside : ∃ s₀ s, brokenBoot = some s₀ ∧
      Reach daemonStep (fun s a => keepsApart s a = true) s₀ s ∧
      s.service.collections.keys = ["work"] ∧ s.service.broken.keys = ["login"] ∧
      s.service.Apart := by
  refine Reach.exists_run_from (createSteps 0 "Work" none ++ [Action.insert 0, .reload .start,
      .reload (.entry "work.vault"), .reload (.entry "login.vault"), .reload (.stat none), .merge])
    (fun s => s.service.collections.keys = ["work"] ∧ s.service.broken.keys = ["login"])
    (by decide +kernel) fun boot run passed => ?_
  exact ⟨passed.1, passed.2, loaded_is_not_broken boot run⟩

/-- **Without the discipline** the file of a broken collection is taken away, a create gives its id
to a new collection, and the new collection is loaded, unlocked and reported as broken. -/
theorem created_collection_is_broken :
    ∃ s₀ s, brokenBoot = some s₀ ∧ Reach daemonStep (fun _ _ => True) s₀ s ∧
      "login" ∈ s.service.collections ∧ (s.service.brokenError "login").isSome = true := by
  exact Reach.exists_run_from ([Action.externalVault "login.vault" none] ++
    createSteps 0 "Login" none ++ [Action.insert 0]) _ (by decide +kernel) fun _ _ passed => passed

end

end SecretManager
