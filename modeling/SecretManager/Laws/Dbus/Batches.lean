import SecretManager.Dbus.Batches
import SecretManager.Dbus.Reference
import SecretManager.Laws.Dbus.LockSystem

/-!
# Batches are answered like single paths

`Unlock` and `Lock` cut a request into one bucket for each collection and answer it bucket by
bucket. Two facts make that invisible. All elements of a bucket were resolved under one guard, so
they lead to the same vault, and the answer to each is the one it would get by itself. And locking a
vault does not change which items it has, so it does not matter which element locks it.
-/

namespace SecretManager

open List

variable {group : String × List Nat} {h : Handle} {id : String} {p : Pending (Option Handle)}

namespace Service

variable {st : ServiceState} {vaults : List Vault} {objects : List String}

/-! ## Paths -/

/-- What a path resolves to, **the vault included**: a collection or an item is answered with the
vault its id stands for in the map at that moment, and a broken id with none. -/
theorem resolvePath_vault {path : String} {target : PathTarget}
    (resolved : st.resolvePath path = some target) : match target with
    | .broken id => st.collections[id]? = none
    | .collection id h | .item id h _ => st.collections[id]? = some h := by
  obtain ⟨⟨id, item⟩, -, found⟩ := Option.bind_eq_some_iff.mp resolved
  cases vault : st.collections[id]? with
  | some h =>
    cases item with
    | none | some item =>
      simp only [vault] at found
      cases found
      exact vault
  | none =>
    cases item with
    | none =>
      simp only [vault] at found
      split at found
      · cases found
        exact vault
      · cases found
    | some item =>
      simp only [vault] at found
      cases found

/-- The entry `Unlock` keeps for a path is that of the id the path resolves to, and its vault is
whatever the map held then; a broken collection is kept without one. -/
theorem unlockPending_eq {path : String} (pending : unlockPending st path = some p) :
    p.path = path ∧ p.vault = st.collections[p.cid]? := by
  unfold unlockPending at pending
  cases resolved : st.resolvePath path with
  | none =>
    rw [resolved] at pending
    cases pending
  | some target =>
    have vault := resolvePath_vault resolved
    rw [resolved] at pending
    cases target with
    | broken id | collection id h | item id h item =>
      cases pending
      exact ⟨rfl, vault.symm⟩

/-- `Lock` keeps an entry only where there is a vault to lock, and it is the one in the map. -/
theorem lockPending_eq {path : String} {p : Pending Handle}
    (pending : lockPending st path = some p) :
    p.path = path ∧ st.collections[p.cid]? = some p.vault := by
  unfold lockPending at pending
  cases resolved : st.resolvePath path with
  | none =>
    rw [resolved] at pending
    cases pending
  | some target =>
    have vault := resolvePath_vault resolved
    rw [resolved] at pending
    cases target with
    | broken id => cases pending
    | collection id h | item id h item =>
      cases pending
      exact ⟨rfl, vault⟩

/-! ## Unlock -/

/-- The answer to one element by itself. -/
def answer (vaults : List Vault) (p : Pending (Option Handle)) : Option Bool :=
  match p.vault with
  | none => some true
  | some h => vaults[h]?.bind fun vault => if p.names vault then some vault.isLocked else none

theorem answer_locked {locked : Bool} (answered : answer vaults p = some locked) :
    lockedNow vaults p.vault = locked := by
  unfold answer at answered
  unfold lockedNow
  cases vault : p.vault with
  | none =>
    rw [vault] at answered
    cases answered
    rfl
  | some h =>
    simp only [vault] at answered
    obtain ⟨v, found, answered⟩ := Option.bind_eq_some_iff.mp answered
    split at answered
    · cases answered
      simp [found]
    · cases answered

theorem object_eq_answer (path : String) :
    object st vaults path = (unlockPending st path).bind fun p =>
      (answer vaults p).map fun _ => (p.cid, p.vault) := by
  unfold object unlockPending
  cases st.resolvePath path with
  | none => rfl
  | some target =>
    cases target with
    | broken id => rfl
    | collection id h =>
      simp only [answer, Pending.names, Option.bind_some]
      cases vaults[h]? with
      | none => rfl
      | some v => rfl
    | item id h item =>
      simp only [answer, Pending.names, Option.bind_some]
      cases vaults[h]? with
      | none => rfl
      | some v =>
        by_cases has : v.hasItem item = true
        · simp [has]
        · simp [has]

/-- What holds of every element and its collection holds of all in a bucket, the first among
them. -/
theorem bucket_shares {ν : Type} {pending : List (Pending ν)} {Q : String → Pending ν → Prop}
    (all : ∀ p ∈ pending, Q p.cid p) (mem : group ∈ groupByCollection pending) :
    (∀ i ∈ group.2, ∃ p, pending[i]? = some p ∧ Q group.1 p) ∧
      ∃ first, (group.2.head?.bind fun i => pending[i]?) = some first ∧ Q group.1 first := by
  obtain ⟨positions, nonempty⟩ := mem_buckets mem
  have shared : ∀ i ∈ group.2, ∃ p, pending[i]? = some p ∧ Q group.1 p := by
    intro i hi
    obtain ⟨p, found, key⟩ := (positions i).mp hi
    exact ⟨p, found, key ▸ all p (mem_of_getElem? found)⟩
  obtain ⟨i₀, idxs, cut⟩ := exists_cons_of_ne_nil nonempty
  obtain ⟨first, found, own⟩ := shared i₀ (by rw [cut]; exact mem_cons_self)
  exact ⟨shared, first, by rw [cut]; exact found, own⟩

section

variable {pending : List (Pending (Option Handle))}
  (resolved : ∀ p ∈ pending, p.vault = st.collections[p.cid]?)

include resolved

theorem unlockGroup_eq (mem : group ∈ groupByCollection pending) (verdict : List (Option Bool)) :
    unlockGroup vaults pending verdict group.2 = group.2.foldl (fun verdict i =>
      if (pending[i]?.bind (answer vaults)).isSome then verdict.set i (pending[i]?.bind (answer vaults))
      else verdict) verdict := by
  obtain ⟨shared, first, head, vault⟩ :=
    bucket_shares (Q := fun id p => p.vault = st.collections[id]?) resolved mem
  unfold unlockGroup
  simp only [head, vault]
  cases hv : st.collections[group.1]? with
  | none =>
    refine foldl_ext _ _ _ fun verdict i hi => ?_
    obtain ⟨p, found, vault⟩ := shared i hi
    simp [found, answer, vault, hv]
  | some h =>
    dsimp only
    cases hvault : vaults[h]? with
    | none =>
      refine (foldl_set_unwanted _ (fun i hi => ?_) verdict).symm
      obtain ⟨p, found, vault⟩ := shared i hi
      simp [found, answer, vault, hv, hvault]
    | some v =>
      refine foldl_ext _ _ _ fun verdict i hi => ?_
      obtain ⟨p, found, vault⟩ := shared i hi
      simp only [found, answer, vault, hv, hvault, Option.bind_some, Option.any_some]
      split
      · simp
      · simp

theorem verdicts_eq : (groupByCollection pending).foldl
    (fun verdict group => unlockGroup vaults pending verdict group.2)
    (replicate pending.length none) = pending.map (answer vaults) := by
  have grouped : ∀ verdict : List (Option Bool), (groupByCollection pending).foldl
      (fun verdict group => unlockGroup vaults pending verdict group.2) verdict =
      ((groupByCollection pending).flatMap Prod.snd).foldl (fun verdict i =>
        if (pending[i]?.bind (answer vaults)).isSome then
          verdict.set i (pending[i]?.bind (answer vaults)) else verdict) verdict := by
    intro verdict
    rw [foldl_flatMap]
    exact foldl_ext _ _ _ fun verdict group mem => unlockGroup_eq resolved mem verdict
  rw [grouped]
  refine foldl_set_buckets Pending.cid pending fun i p found => ?_
  rw [found, Option.bind_some]
  cases answer vaults p with
  | none => rfl
  | some locked => rfl

end

theorem unlockElement_eq {acc : UnlockLoop} (agrees : Records acc.seen acc.found.collections)
    {path : String} (pending : unlockPending st path = some p) :
    (unlockElement acc (p, answer vaults p)).found = unlockOne st vaults acc.found path ∧
      Records (unlockElement acc (p, answer vaults p)).seen
        (unlockElement acc (p, answer vaults p)).found.collections := by
  obtain ⟨rfl, -⟩ := unlockPending_eq pending
  have named : object st vaults p.path = (answer vaults p).map fun _ => (p.cid, p.vault) := by
    rw [object_eq_answer, pending]
    rfl
  unfold unlockOne
  rw [named]
  cases answered : answer vaults p with
  | none => exact ⟨rfl, agrees⟩
  | some locked =>
    simp only [Option.map_some, answer_locked answered]
    cases locked with
    | false => exact ⟨rfl, agrees⟩
    | true =>
      simp only [unlockElement]
      by_cases seen : p.cid ∈ acc.found.collections
      · rw [if_pos ((agrees p.cid).mpr seen), if_pos seen]
        exact ⟨rfl, agrees⟩
      · rw [if_neg fun h => seen ((agrees p.cid).mp h), if_neg seen]
        exact ⟨rfl, agrees.insert p.cid⟩

theorem unlockBatch_eq (st : ServiceState) (vaults : List Vault) (objects : List String) :
    unlockBatch st vaults objects = objects.foldl (unlockOne st vaults) ⟨[], [], []⟩ := by
  have resolved : ∀ p ∈ objects.filterMap (unlockPending st), p.vault = st.collections[p.cid]? := by
    intro p mem
    obtain ⟨path, -, pending⟩ := mem_filterMap.mp mem
    exact (unlockPending_eq pending).2
  have zipped : ∀ pending : List (Pending (Option Handle)),
      pending.zip (pending.map (answer vaults)) = pending.map fun p => (p, answer vaults p) := by
    intro pending
    induction pending with
    | nil => rfl
    | cons p pending ih => rw [map_cons, zip_cons_cons, ih, map_cons]
  have loop : ∀ (objects : List String) (acc : UnlockLoop), Records acc.seen acc.found.collections →
      ((objects.filterMap (unlockPending st)).foldl (fun acc p => unlockElement acc (p, answer vaults p))
        acc).found = objects.foldl (unlockOne st vaults) acc.found := by
    intro objects
    induction objects with
    | nil => exact fun acc _ => rfl
    | cons path objects ih =>
      intro acc agrees
      cases pending : unlockPending st path with
      | none =>
        have dropped : unlockOne st vaults acc.found path = acc.found := by
          unfold unlockOne
          rw [object_eq_answer, pending]
          rfl
        rw [filterMap_cons_none pending, foldl_cons, dropped]
        exact ih acc agrees
      | some p =>
        obtain ⟨found, agrees'⟩ :
            (unlockElement acc (p, answer vaults p)).found = unlockOne st vaults acc.found path ∧ _ :=
          unlockElement_eq agrees pending
        rw [filterMap_cons_some pending, foldl_cons, foldl_cons, ← found]
        exact ih _ agrees'
  unfold unlockBatch
  simp only [verdicts_eq resolved, zipped, foldl_map]
  exact loop objects _ .empty

theorem unlockOne_collections (acc : Unlocking) (path : String) :
    (unlockOne st vaults acc path).collections =
      match needs st vaults path with
      | some id => if id ∈ acc.collections then acc.collections else acc.collections ++ [id]
      | none => acc.collections := by
  unfold unlockOne needs
  cases object st vaults path with
  | none => rfl
  | some named =>
    simp only [Option.bind_some]
    split
    · rfl
    · rfl

/-- **The collections of the prompt** are those that the paths need, each where it is needed
first. -/
theorem unlockOneByOne_collections (st : ServiceState) (vaults : List Vault)
    (objects : List String) : (objects.foldl (unlockOne st vaults) ⟨[], [], []⟩).collections =
      (objects.filterMap (needs st vaults)).eraseDups := by
  induction objects using reverseRecOn with
  | nil => rfl
  | append_singleton objects path ih =>
    rw [foldl_append, foldl_cons, foldl_nil, filterMap_append, unlockOne_collections, ih]
    cases needed : needs st vaults path with
    | none => simp [needed]
    | some id =>
      rw [filterMap_cons_some needed, filterMap_nil, eraseDups_concat]
      simp

theorem answerUnlock_collections {env : UnlockEnv} {walk : List String → Unlocking}
    {unlocked collections requested : List String}
    (replied : answerUnlock env objects walk = .ok (unlocked, some ⟨collections, requested⟩)) :
    collections = (walk objects).collections := by
  unfold answerUnlock at replied
  split at replied
  · cases replied
  split at replied
  · cases replied
  dsimp only at replied
  split at replied
  · cases replied
  split at replied
  · cases replied
  split at replied
  · cases replied
  cases replied
  rfl

/-! ## Lock -/

theorem lockOpen_hasItem (v : Vault) : v.lockOpen.hasItem = v.hasItem := by
  unfold Vault.lockOpen
  split
  · rfl
  · rfl

theorem lockOpen_lockOpen (v : Vault) : v.lockOpen.lockOpen = v.lockOpen := by
  have locked := v.lockOpen_isLocked
  rw [Vault.lockOpen, if_pos locked]

theorem modify_lockOpen {v : Vault} (found : vaults[h]? = some v) :
    vaults.modify h Vault.lockOpen = if v.isLocked then vaults else vaults.set h v.lock := by
  refine List.ext_getElem? fun h' => ?_
  have lt := (List.getElem?_eq_some_iff.mp found).1
  rw [List.getElem?_modify]
  by_cases locked : v.isLocked = true
  · rw [if_pos locked]
    by_cases same : h = h'
    · subst same
      simp [found, Vault.lockOpen, locked]
    · simp [same]
  · rw [if_neg locked, getElem?_set]
    by_cases same : h = h'
    · subst same
      rw [found, if_pos rfl, if_pos lt]
      simp [Vault.lockOpen, locked]
    · simp [same]

def isOpen (vaults : List Vault) (h : Handle) : Bool := vaults[h]?.any fun v => !v.isLocked

theorem isOpen_iff : isOpen vaults h = true ↔ ∃ v, vaults[h]? = some v ∧ v.isLocked = false := by
  unfold isOpen
  cases vaults[h]? with
  | none => simp
  | some v => simp

theorem modify_of_not_open (shut : isOpen vaults h = false) :
    vaults.modify h Vault.lockOpen = vaults := by
  unfold isOpen at shut
  cases found : vaults[h]? with
  | none => exact modify_eq_self (getElem?_eq_none_iff.mp found)
  | some v =>
    rw [found, Option.any_some, Bool.not_eq_false'] at shut
    rw [modify_lockOpen found, if_pos shut]

theorem isOpen_modify (h h' : Handle) :
    isOpen (vaults.modify h Vault.lockOpen) h' = (decide (h ≠ h') && isOpen vaults h') := by
  unfold isOpen
  rw [List.getElem?_modify]
  by_cases same : h = h'
  · cases vaults[h']? with
    | none => simp
    | some v => simp [same, v.lockOpen_isLocked]
  · simp [same]

def Relocked (vaults vaults' : List Vault) : Prop :=
  ∀ h : Handle, vaults'[h]? = vaults[h]? ∨ vaults'[h]? = vaults[h]?.map Vault.lockOpen

theorem Relocked.refl (vaults : List Vault) : Relocked vaults vaults := fun _ => .inl rfl

variable {vaults' : List Vault}

theorem Relocked.modify (relocked : Relocked vaults vaults') (h : Handle) :
    Relocked vaults (vaults'.modify h Vault.lockOpen) := by
  intro h'
  rw [List.getElem?_modify]
  by_cases same : h = h'
  · refine .inr ?_
    rcases relocked h' with old | locked
    · simp [same, old]
    · rw [locked]
      cases vaults[h']? with
      | none => rfl
      | some v => simp [same, lockOpen_lockOpen]
  · simpa [same] using relocked h'

theorem Relocked.any_names (relocked : Relocked vaults vaults') {V : Type} (p : Pending V)
    (h : Handle) : vaults'[h]?.any p.names = vaults[h]?.any p.names := by
  rcases relocked h with same | locked
  · rw [same]
  · rw [locked]
    cases vaults[h]? with
    | none => rfl
    | some v => simp [Pending.names, lockOpen_hasItem]

def named (vaults : List Vault) (p : Pending Handle) : Bool := vaults[p.vault]?.any p.names

def lockable (st : ServiceState) (vaults : List Vault) (path : String) : Option Handle :=
  (object st vaults path).bind Prod.snd

theorem object_of_lockable {path : String} (locks : lockable st vaults path = some h) :
    ∃ id, object st vaults path = some (id, some h) := by
  obtain ⟨⟨id, vault⟩, found, rfl⟩ := Option.bind_eq_some_iff.mp locks
  exact ⟨id, found⟩

theorem object_eq_named {path : String} : object st vaults path = some (id, some h) ↔
      ∃ p, lockPending st path = some p ∧ named vaults p = true ∧ p.cid = id ∧ p.vault = h := by
  unfold object lockPending
  cases st.resolvePath path with
  | none => simp
  | some target =>
    cases target with
    | broken id' => simp
    | collection id' h' | item id' h' item =>
      cases vault : vaults[h']? with
      | none => simp [named, vault]
      | some v => simp [named, vault, Pending.names]

theorem lockable_eq (path : String) : lockable st vaults path =
      (lockPending st path).bind fun p => if named vaults p then some p.vault else none := by
  refine Option.ext fun h => ?_
  have locks : lockable st vaults path = some h ↔ ∃ id, object st vaults path = some (id, some h) := by
    refine ⟨object_of_lockable, ?_⟩
    rintro ⟨id, found⟩
    rw [lockable, found]
    rfl
  rw [locks, Option.bind_eq_some_iff]
  constructor
  · rintro ⟨id, found⟩
    obtain ⟨p, pending, name, -, vault⟩ := object_eq_named.mp found
    exact ⟨p, pending, by rw [if_pos name, vault]⟩
  · rintro ⟨p, pending, found⟩
    split at found
    next name => exact ⟨p.cid, object_eq_named.mpr ⟨p, pending, name, rfl, Option.some.inj found⟩⟩
    · cases found

theorem Relocked.lockable (relocked : Relocked vaults vaults') (path : String) :
    lockable st vaults' path = lockable st vaults path := by
  rw [lockable_eq, lockable_eq]
  refine congrArg _ (funext fun p => ?_)
  rw [named, relocked.any_names]
  rfl

theorem lockWalk_eq (objects : List String) :
    ∀ acc : List String × List Vault, Relocked vaults acc.2 →
    objects.foldl (lockOne st) acc = (acc.1 ++ objects.filter fun path => (lockable st vaults path).isSome,
        (objects.filterMap (lockable st vaults)).foldl (fun vaults h => vaults.modify h Vault.lockOpen) acc.2) := by
  induction objects with
  | nil =>
    intro acc _
    simp
  | cons path objects ih =>
    intro acc relocked
    have same : lockable st acc.2 path = lockable st vaults path := relocked.lockable path
    rw [foldl_cons]
    cases locks : lockable st vaults path with
    | none =>
      have still : lockOne st acc path = acc := by
        unfold lockOne
        split
        next found =>
          rw [locks, Service.lockable, found] at same
          cases same
        · rfl
      rw [still, ih acc relocked]
      simp [locks]
    | some h =>
      rw [locks] at same
      obtain ⟨id, found⟩ := object_of_lockable same
      have moved : lockOne st acc path = (acc.1 ++ [path], acc.2.modify h Vault.lockOpen) := by
        simp only [lockOne, found]
      rw [moved, ih _ (relocked.modify h)]
      simp [locks]

section

variable {pending : List (Pending Handle)}
  (resolved : ∀ p ∈ pending, st.collections[p.cid]? = some p.vault)

/-- The element at a position names something. -/
def wanted (vaults : List Vault) (pending : List (Pending Handle)) (i : Nat) : Bool :=
  pending[i]?.any (named vaults)

theorem foldl_answered (wanted : Nat → Bool) (idxs : List Nat) :
    ∀ (answered : List Bool) (any : Bool),
    idxs.foldl (fun (acc : List Bool × Bool) i =>
        if wanted i then (acc.1.set i true, true) else (acc.1, acc.2)) (answered, any) =
      (idxs.foldl (fun answered i => if wanted i then answered.set i true else answered) answered,
        any || idxs.any wanted) := by
  induction idxs with
  | nil =>
    intro answered any
    simp
  | cons i idxs ih =>
    intro answered any
    by_cases hi : wanted i = true
    · simp [hi, ih]
    · simp [hi, ih]

include resolved

/-- **One collection**: its elements are answered as each would be by itself, and its vault is
locked if one of them names something. -/
theorem lockGroup_eq (mem : group ∈ groupByCollection pending) {acc : Locking}
    (relocked : Relocked vaults acc.vaults) :
    ∃ h, st.collections[group.1]? = some h ∧ lockGroup pending acc group =
      { vaults := if group.2.any (wanted vaults pending) then acc.vaults.modify h Vault.lockOpen
          else acc.vaults
        answered := group.2.foldl (fun answered i =>
          if wanted vaults pending i then answered.set i true else answered) acc.answered
        changed := acc.changed ++
          if group.2.any (wanted vaults pending) && isOpen acc.vaults h then [group.1] else [] } := by
  obtain ⟨shared, first, head, vault⟩ :=
    bucket_shares (Q := fun id p => st.collections[id]? = some p.vault) resolved mem
  refine ⟨first.vault, vault, ?_⟩
  have tested : ∀ i ∈ group.2, (pending[i]?.any fun p => acc.vaults[first.vault]?.any p.names) =
      wanted vaults pending i := by
    intro i hi
    obtain ⟨p, found, vault'⟩ := shared i hi
    have same : p.vault = first.vault := Option.some.inj (vault'.symm.trans vault)
    simp only [wanted, found, Option.any_some, named, same, relocked.any_names]
  unfold lockGroup
  simp only [head]
  cases hv : acc.vaults[first.vault]? with
  | none =>
    have unwanted : ∀ i ∈ group.2, wanted vaults pending i = false := by
      intro i hi
      rw [← tested i hi, hv]
      cases pending[i]? with
      | none => rfl
      | some p => rfl
    have none : group.2.any (wanted vaults pending) = false := by
      rw [any_eq_false]
      intro i hi
      rw [unwanted i hi]
      exact Bool.false_ne_true
    simp [none, foldl_set_unwanted _ unwanted]
  | some v =>
    have open_ : isOpen acc.vaults first.vault = !v.isLocked := by simp [isOpen, hv]
    have loop : group.2.foldl (fun (acc : List Bool × Bool) i =>
        if pending[i]?.any fun p => p.names v then (acc.1.set i true, true) else (acc.1, acc.2))
        (acc.answered, false) =
        (group.2.foldl (fun answered i =>
          if wanted vaults pending i then answered.set i true else answered) acc.answered,
          group.2.any (wanted vaults pending)) := by
      rw [← Bool.false_or (group.2.any _), ← foldl_answered]
      refine foldl_ext _ _ _ fun acc' i hi => ?_
      have test := tested i hi
      simp only [hv, Option.any_some] at test
      rw [test]
    simp only [loop, open_, modify_lockOpen hv]
    by_cases any : group.2.any (wanted vaults pending) = true
    · by_cases locked : v.isLocked = true
      · simp [locked]
      · simp [any, locked]
    · simp [any]

def hits (st : ServiceState) (vaults : List Vault) (pending : List (Pending Handle))
    (group : String × List Nat) : Option Handle :=
  if group.2.any (wanted vaults pending) then st.collections[group.1]? else none

theorem lockGroups_eq {groups : List (String × List Nat)}
    (sub : ∀ group ∈ groups, group ∈ groupByCollection pending) : ∀ {acc : Locking},
    Relocked vaults acc.vaults →
    (groups.foldl (lockGroup pending) acc).answered = (groups.flatMap Prod.snd).foldl (fun answered i =>
          if wanted vaults pending i then answered.set i true else answered) acc.answered ∧
      (groups.foldl (lockGroup pending) acc).vaults = (groups.filterMap (hits st vaults pending)).foldl
          (fun vaults h => vaults.modify h Vault.lockOpen) acc.vaults := by
  induction groups with
  | nil => exact fun _ => ⟨rfl, rfl⟩
  | cons group groups ih =>
    intro acc relocked
    obtain ⟨h, vault, one⟩ := lockGroup_eq resolved (sub group mem_cons_self) relocked
    rw [foldl_cons, flatMap_cons, foldl_append, one]
    have rest := fun group mem => sub group (mem_cons_of_mem _ mem)
    by_cases any : group.2.any (wanted vaults pending) = true
    · have hit : hits st vaults pending group = some h := by rw [hits, if_pos any, vault]
      rw [filterMap_cons_some hit]
      have step := @ih rest
      simp only [any]
      exact step (relocked.modify h)
    · have miss : hits st vaults pending group = none := by rw [hits, if_neg any]
      rw [filterMap_cons_none miss]
      simp only [any]
      exact ih rest relocked

/-- **Which collections are locked**: those that are named and have an open vault, each vault
once. -/
theorem lockGroups_changed {groups : List (String × List Nat)}
    (sub : ∀ group ∈ groups, group ∈ groupByCollection pending) : ∀ {acc : Locking},
    Relocked vaults acc.vaults →
    ∃ more, (groups.foldl (lockGroup pending) acc).changed = acc.changed ++ more ∧
      (more.map fun id => st.collections[id]?).Nodup ∧
      (∀ id ∈ more, (∃ group ∈ groups, group.1 = id ∧ group.2.any (wanted vaults pending) = true) ∧
        ∃ h, st.collections[id]? = some h ∧ isOpen acc.vaults h = true) ∧
      ∀ group ∈ groups, group.2.any (wanted vaults pending) = true → ∀ h,
        st.collections[group.1]? = some h → isOpen acc.vaults h = true → ∃ id ∈ more, st.collections[id]? = some h := by
  induction groups with
  | nil => exact fun _ => ⟨[], by simp⟩
  | cons group groups ih =>
    intro acc relocked
    obtain ⟨h, vault, one⟩ := lockGroup_eq resolved (sub group mem_cons_self) relocked
    have rest := fun group mem => sub group (mem_cons_of_mem _ mem)
    rw [foldl_cons]
    cases locks : group.2.any (wanted vaults pending) && isOpen acc.vaults h with
    | false =>
      have vaults_eq : (lockGroup pending acc group).vaults = acc.vaults := by
        rw [one]
        split
        next any =>
          rw [any] at locks
          exact modify_of_not_open locks
        · rfl
      obtain ⟨more, changed, nodup, locked, all⟩ := ih rest (vaults_eq ▸ relocked)
      rw [vaults_eq] at locked all
      refine ⟨more, ?_, nodup, fun id mem => ?_, fun group' mem any h' vault' open_ => ?_⟩
      · rw [changed, one, locks]
        simp
      · obtain ⟨⟨group', mem', found⟩, open_⟩ := locked id mem
        exact ⟨⟨group', mem_cons_of_mem _ mem', found⟩, open_⟩
      · rcases mem_cons.mp mem with rfl | mem
        · rw [vault] at vault'
          cases vault'
          rw [any, open_] at locks
          cases locks
        · exact all group' mem any h' vault' open_
    | true =>
      obtain ⟨any, open_⟩ := Bool.and_eq_true_iff.mp locks
      have vaults_eq : (lockGroup pending acc group).vaults = acc.vaults.modify h Vault.lockOpen := by
        rw [one, any]
        rfl
      obtain ⟨more, changed, nodup, locked, all⟩ := ih rest (vaults_eq ▸ relocked.modify h)
      rw [vaults_eq] at locked all
      simp only [isOpen_modify, Bool.and_eq_true, decide_eq_true_eq] at locked all
      refine ⟨group.1 :: more, ?_, ?_, fun id mem => ?_, fun group' mem any' h' vault' open' => ?_⟩
      · rw [changed, one, locks]
        simp
      · -- its vault is locked now, so no bucket after it locks it again
        rw [map_cons, nodup_cons]
        refine ⟨fun mem => ?_, nodup⟩
        obtain ⟨id, mem, same⟩ := mem_map.mp mem
        obtain ⟨-, h', vault', ne, -⟩ := locked id mem
        rw [vault', vault] at same
        exact ne (Option.some.inj same).symm
      · rcases mem_cons.mp mem with rfl | mem
        · exact ⟨⟨group, mem_cons_self, rfl, any⟩, h, vault, open_⟩
        · obtain ⟨⟨group', mem', found⟩, h', vault', -, open'⟩ := locked id mem
          exact ⟨⟨group', mem_cons_of_mem _ mem', found⟩, h', vault', open'⟩
      · by_cases same : h = h'
        · exact ⟨group.1, mem_cons_self, same ▸ vault⟩
        rcases mem_cons.mp mem with rfl | mem
        · exact absurd (Option.some.inj (vault.symm.trans vault')) same
        · obtain ⟨id, mem, found⟩ := all group' mem any' h' vault' ⟨same, open'⟩
          exact ⟨id, mem_cons_of_mem _ mem, found⟩

end

/-! ## Both calls -/

/-- A path names an object of the collection, and the collection is not broken. -/
def Named (st : ServiceState) (vaults : List Vault) (objects : List String) (id : String) : Prop :=
  ∃ path ∈ objects, ∃ h, object st vaults path = some (id, some h)

theorem object_vault {path : String} (found : object st vaults path = some (id, some h)) :
    st.collections[id]? = some h := by
  obtain ⟨p, pending, -, rfl, rfl⟩ := object_eq_named.mp found
  exact (lockPending_eq pending).2

theorem bucket_named (mem : group ∈ groupByCollection (objects.filterMap (lockPending st)))
    (any : group.2.any (wanted vaults (objects.filterMap (lockPending st))) = true) :
    Named st vaults objects group.1 := by
  obtain ⟨i, hi, want⟩ := any_eq_true.mp any
  obtain ⟨p, found, key⟩ := ((mem_buckets mem).1 i).mp hi
  rw [wanted, found] at want
  obtain ⟨path, hpath, pending⟩ := mem_filterMap.mp (mem_of_getElem? found)
  exact ⟨path, hpath, p.vault, object_eq_named.mpr ⟨p, pending, want, key, rfl⟩⟩

theorem exists_bucket_of_named (name : Named st vaults objects id) :
    ∃ idxs, (id, idxs) ∈ groupByCollection (objects.filterMap (lockPending st)) ∧
      idxs.any (wanted vaults (objects.filterMap (lockPending st))) = true := by
  obtain ⟨path, hpath, h, found⟩ := name
  obtain ⟨p, pending, want, rfl, rfl⟩ := object_eq_named.mp found
  obtain ⟨i, at_⟩ := mem_iff_getElem?.mp (mem_filterMap.mpr ⟨path, hpath, pending⟩)
  obtain ⟨idxs, mem, hi⟩ := exists_bucket Pending.cid at_
  refine ⟨idxs, mem, any_eq_true.mpr ⟨i, hi, ?_⟩⟩
  rw [wanted, at_]
  exact want

theorem mem_hits : h ∈ (groupByCollection (objects.filterMap (lockPending st))).filterMap
        (hits st vaults (objects.filterMap (lockPending st))) ↔
      ∃ path ∈ objects, lockable st vaults path = some h := by
  rw [mem_filterMap]
  constructor
  · rintro ⟨group, mem, hit⟩
    unfold hits at hit
    split at hit
    next any =>
      obtain ⟨path, hpath, h', found⟩ := bucket_named mem any
      rw [object_vault found] at hit
      refine ⟨path, hpath, ?_⟩
      rw [lockable, found]
      exact hit
    · cases hit
  · rintro ⟨path, hpath, locks⟩
    obtain ⟨id, found⟩ := object_of_lockable locks
    obtain ⟨idxs, mem, any⟩ := exists_bucket_of_named ⟨path, hpath, h, found⟩
    exact ⟨(id, idxs), mem, by rw [hits, if_pos any, object_vault found]⟩

theorem resolved_of_lockPending (objects : List String) :
    ∀ p ∈ objects.filterMap (lockPending st), st.collections[p.cid]? = some p.vault := by
  intro p mem
  obtain ⟨path, -, pending⟩ := mem_filterMap.mp mem
  exact (lockPending_eq pending).2

/-- **The lookups and the locking of a `Lock` are those of the walk.** -/
theorem lockBatch_eq (st : ServiceState) (vaults : List Vault) (objects : List String) :
    ((lockBatch st vaults objects).1, (lockBatch st vaults objects).2.2) = objects.foldl (lockOne st) ([], vaults) := by
  rw [lockWalk_eq objects ([], vaults) (.refl vaults), nil_append]
  unfold lockBatch
  dsimp only
  generalize pending_eq : objects.filterMap (lockPending st) = pending
  obtain ⟨answered, locked⟩ := @lockGroups_eq st vaults pending
    (pending_eq ▸ resolved_of_lockPending objects) _ (fun _ => id)
    { vaults, answered := replicate pending.length false, changed := [] } (.refl vaults)
  rw [answered, locked]
  have answers : ((groupByCollection pending).flatMap Prod.snd).foldl (fun answered i =>
      if wanted vaults pending i then answered.set i true else answered)
      (replicate pending.length false) = pending.map (named vaults) := by
    refine foldl_set_buckets Pending.cid pending fun i p found => ?_
    rw [wanted, found, Option.any_some]
    cases named vaults p with
    | false => rfl
    | true => rfl
  refine Prod.ext ?_ ?_
  · dsimp only
    rw [answers, ← map_prod_left_eq_zip, filterMap_map, ← pending_eq, filterMap_filterMap,
      ← filterMap_eq_filter]
    refine filterMap_congr fun path _ => ?_
    simp only [Function.comp_apply, lockable_eq, Option.guard]
    cases found : lockPending st path with
    | none => rfl
    | some p =>
      obtain ⟨rfl, -⟩ := lockPending_eq found
      cases want : named vaults p with
      | false | true => simp [want]
  · dsimp only
    refine List.ext_getElem? fun h => ?_
    rw [getElem?_foldl_modify lockOpen_lockOpen, getElem?_foldl_modify lockOpen_lockOpen]
    refine if_congr ?_ rfl rfl
    rw [← pending_eq, mem_hits, mem_filterMap]

/-- **Batches are answered like single paths.** An `Unlock` gives what the walk gives, and its
prompt names the collections that the paths need, each once and in the order in which they are
needed first. A `Lock` gives the paths that the walk gives and leaves the vaults as the walk does.
It locks the collections that a path names, and no others; each vault that was open is locked
once. -/
theorem batches_one_by_one (st : ServiceState) (vaults : List Vault) (env : UnlockEnv)
    (objects : List String) (cap : objects.length ≤ 1024) :
    (unlock st vaults env objects = unlockOneByOne st vaults env objects ∧ ∀ unlocked collections requested,
        unlock st vaults env objects = .ok (unlocked, some ⟨collections, requested⟩) →
          collections = (objects.filterMap (needs st vaults)).eraseDups ∧ collections.Nodup ∧
          collections.Pairwise fun a b =>
            (objects.filterMap (needs st vaults)).idxOf a < (objects.filterMap (needs st vaults)).idxOf b) ∧
    ∃ locked changed vaults', lock st vaults objects = (.ok (locked, changed), vaults') ∧
      lockOneByOne st vaults objects = (.ok locked, vaults') ∧
      (∀ h v, vaults[h]? = some v → ((∃ id, st.collections[id]? = some h ∧ Named st vaults objects id) →
          vaults'[h]? = some v.lockOpen) ∧
        (¬ (∃ id, st.collections[id]? = some h ∧ Named st vaults objects id) → vaults'[h]? = some v)) ∧
      (changed.map fun id => st.collections[id]?).Nodup ∧
      (∀ id ∈ changed, Named st vaults objects id ∧
        ∃ h v, st.collections[id]? = some h ∧ vaults[h]? = some v ∧ v.isLocked = false) ∧
      ∀ id h v, Named st vaults objects id → st.collections[id]? = some h → vaults[h]? = some v →
        v.isLocked = false → ∃ id' ∈ changed, st.collections[id']? = some h := by
  have count : checkObjectCount objects.length = .ok () := if_neg (Nat.not_lt.mpr cap)
  refine ⟨⟨?_, ?_⟩, ?_⟩
  · unfold unlock unlockOneByOne answerUnlock
    rw [unlockBatch_eq]
  · intro unlocked collections requested replied
    have found : collections = (objects.filterMap (needs st vaults)).eraseDups := by
      rw [← unlockOneByOne_collections, ← unlockBatch_eq]
      exact answerUnlock_collections replied
    rw [found]
    exact ⟨rfl, eraseDups_nodup _, eraseDups_pairwise_idxOf _⟩
  obtain ⟨changed, all, nodup, named, every⟩ := @lockGroups_changed st vaults _
    (resolved_of_lockPending objects) _ (fun _ => id)
    { vaults, answered := replicate (objects.filterMap (lockPending st)).length false, changed := [] }
    (.refl vaults)
  rw [nil_append] at all
  have walk := lockBatch_eq st vaults objects
  refine ⟨(lockBatch st vaults objects).1, changed, (lockBatch st vaults objects).2.2, ?_, ?_, ?_, nodup, ?_, ?_⟩
  · rw [lock, count, ← all]
    rfl
  · rw [lockOneByOne, count, ← walk]
  · intro h v found
    have after : (lockBatch st vaults objects).2.2[h]? =
        if h ∈ objects.filterMap (lockable st vaults) then vaults[h]?.map Vault.lockOpen
        else vaults[h]? := by
      rw [← getElem?_foldl_modify lockOpen_lockOpen]
      rw [lockWalk_eq objects ([], vaults) (.refl vaults)] at walk
      rw [(Prod.mk.inj walk).2]
    have reached : (∃ id, st.collections[id]? = some h ∧ Named st vaults objects id) ↔
        h ∈ objects.filterMap (lockable st vaults) := by
      rw [mem_filterMap]
      constructor
      · rintro ⟨id, vault, path, hpath, h', found⟩
        rw [object_vault found] at vault
        exact ⟨path, hpath, by rw [lockable, found]; exact vault⟩
      · rintro ⟨path, hpath, locks⟩
        obtain ⟨id, found⟩ := object_of_lockable locks
        exact ⟨id, object_vault found, path, hpath, h, found⟩
    rw [after, found, reached]
    exact ⟨fun mem => if_pos mem, fun out => if_neg out⟩
  · intro id mem
    obtain ⟨⟨group, hgroup, rfl, any⟩, h, vault, open_⟩ := named id mem
    obtain ⟨v, found, unlocked⟩ := isOpen_iff.mp open_
    exact ⟨bucket_named hgroup any, h, v, vault, found, unlocked⟩
  · intro id h v name vault found unlocked
    obtain ⟨idxs, mem, any⟩ := exists_bucket_of_named name
    exact every (id, idxs) mem any h vault (isOpen_iff.mpr ⟨v, found, unlocked⟩)

section

open Reference

/-- Two collections, an alias of the first, and a file that failed to open. -/
def mixedState : ServiceState :=
  { collections := .ofList [("login", 0), ("work", 1)]
    broken := .ofList [("bad", (path, "truncated"))]
    aliases := .usable (.ofList [("default", "login")]) }

def indexedVault : Vault :=
  { threeItems.vault with
    header := { threeItems.vault.header with index := [⟨"a", []⟩, ⟨"b", []⟩] } }

/-- Repeated paths, paths through the alias, an unknown item and a broken collection. -/
def mixedPaths : List String :=
  ["/org/freedesktop/secrets/aliases/default", "/org/freedesktop/secrets/collection/work/z",
    "/org/freedesktop/secrets/collection/bad", "/org/freedesktop/secrets/aliases/default/b",
    "/org/freedesktop/secrets/collection/work", "/org/freedesktop/secrets/aliases/default"]

theorem batches_one_by_one_mixed :
    let vaults := [indexedVault, indexedVault.lock]
    let env : UnlockEnv := { sender := some ":1.7", outstanding := 0, exported := .ok () }
    unlock mixedState vaults env mixedPaths = .ok
        (["/org/freedesktop/secrets/aliases/default", "/org/freedesktop/secrets/aliases/default/b",
          "/org/freedesktop/secrets/aliases/default"],
        some { collections := ["bad", "work"]
               requested := ["/org/freedesktop/secrets/collection/bad", "/org/freedesktop/secrets/collection/work"] }) ∧
      unlock mixedState vaults env mixedPaths = unlockOneByOne mixedState vaults env mixedPaths ∧
      lockOneByOne mixedState vaults mixedPaths = (.ok
        ["/org/freedesktop/secrets/aliases/default", "/org/freedesktop/secrets/aliases/default/b",
          "/org/freedesktop/secrets/collection/work", "/org/freedesktop/secrets/aliases/default"],
        [indexedVault.lock, indexedVault.lock]) := by
  intro vaults env
  obtain ⟨⟨same, -⟩, locked, changed, vaults', locks, walk, -⟩ :=
    batches_one_by_one mixedState vaults env mixedPaths (by decide)
  have result : lock mixedState vaults mixedPaths = (.ok
      (["/org/freedesktop/secrets/aliases/default", "/org/freedesktop/secrets/aliases/default/b",
        "/org/freedesktop/secrets/collection/work", "/org/freedesktop/secrets/aliases/default"],
        ["login"]), [indexedVault.lock, indexedVault.lock]) := by decide +kernel
  cases locks.symm.trans result
  exact ⟨by decide +kernel, same, walk⟩

end

end Service

end SecretManager
