import SecretManager.Dbus.DeleteItems
import SecretManager.Laws.Dbus.Daemon
import SecretManager.Laws.Vault.Writes
import SecretManager.Lib.Buckets
import SecretManager.Dbus.Reference

/-!
# A batch is deleted as a whole or not at all

Between the paths of a `DeleteItems` and the removal of the items the call gives up every lock three
times or more, so whatever it has found out may no longer be true. It does not have to be: the
removal looks every item up again and takes all of them or none, in one save. Everything before it
leaves the daemon as it is.

What comes after it is a different matter. The call announces the items, and a signal that cannot be
sent ends it with an error, when the items are gone. In every run in which the signals are sent, an
error means that the call has removed nothing.
-/

namespace SecretManager

open List

variable {x : Externals} {target : CollectionRef} {items : List String} {ι : Type}

/-! ## The vault -/

section

variable {env : SaveEnv} {w w' : World} {ids : List String}

theorem pullOut_kept {α : Type} (p : α → Bool) (l : List α) : ∀ i, (Delta.pullOut p i l).1 =
    l.filter fun a => !p a := by
  induction l with
  | nil => exact fun i => rfl
  | cons a l ih =>
    intro i
    simp only [Delta.pullOut]
    by_cases hp : p a = true
    · simp [hp, ih]
    · simp [hp, ih]

/-- **One save has taken the items out**, and left the others in their order. -/
inductive ItemsRemoved (x : Externals) (ids : List String) (w : World) : World → Prop
  | intro {key items w'} (state : w.vault.state = .unlocked key items)
      (present : ∀ id ∈ ids, ∃ i ∈ items, i.id = id)
      (state' : w'.vault.state = .unlocked key (items.filter fun i => !ids.contains i.id))
      (saved : Saved x
        { w.vault with state := .unlocked key (items.filter fun i => !ids.contains i.id) } w'.vault)
      (holds : w'.FileHolds) : ItemsRemoved x ids w w'

theorem deleteItems_removed (deleted : w.deleteItems x env ids = (.ok (), w')) (some : ids ≠ []) :
    ItemsRemoved x ids w w' := by
  unfold World.deleteItems at deleted
  rw [if_neg (by simpa using some)] at deleted
  cases hitems : w.vault.items with
  | error e =>
    rw [hitems] at deleted
    cases deleted
  | ok items =>
    obtain ⟨key, state⟩ := items_ok hitems
    simp only [hitems] at deleted
    split at deleted
    · cases deleted
    next present =>
      obtain ⟨saved, holds⟩ := saveOrRestore_ok deleted
      rw [pullOut_kept, setItems_unlocked state] at saved
      refine .intro state (fun id mem => ?_) saved.state_eq saved holds
      have found := find?_eq_none.mp present id mem
      simpa using found

/-- The batch is refused and the world stays, or it is empty, or it is saved as a whole. -/
theorem deleteBatch_cases (x : Externals) (env : SaveEnv) (ids : List String) (w : World) :
    (∃ e, w.deleteBatch x env ids = (.returned (.error e), w)) ∨
      ids = [] ∧ w.deleteBatch x env ids = (.returned (.ok ()), w) ∨
      ids ≠ [] ∧ ∃ w', w.deleteBatch x env ids = (.signalling ids, w') ∧ ItemsRemoved x ids w w' := by
  unfold World.deleteBatch
  split
  · exact .inl ⟨_, rfl⟩
  split
  next empty => exact .inr (.inl ⟨List.isEmpty_iff.mp empty, rfl⟩)
  next full =>
    rw [List.isEmpty_iff] at full
    have mutates := deleteItems_mutates x env w ids
    cases deleted : w.deleteItems x env ids with
    | mk r w' =>
      rw [deleted] at mutates
      cases r with
      | error e =>
        cases mutates
        exact .inl ⟨_, rfl⟩
      | ok a => exact .inr (.inr ⟨full, w', rfl, deleteItems_removed deleted full⟩)

end

theorem Daemon.setWorld_world {s : Daemon ι} {h : Handle} {w : World} (world : s.world h = some w) :
    s.setWorld h w = s := by
  obtain ⟨vault, file⟩ := Daemon.world_some world
  have vaults : s.vaults.set h w.vault = s.vaults := by
    obtain ⟨lt, here⟩ := List.getElem?_eq_some_iff.mp vault
    rw [← here]
    exact set_getElem_self lt
  have dir : s.dir.put w.vault.path.name w.file = s.dir := by
    refine Std.ExtTreeMap.ext_getElem? fun name => ?_
    rw [file]
    exact Dir.getElem?_put_self _ _ _
  rw [Daemon.setWorld, vaults, dir]

/-! ## The paths -/

section

/-- The item of the collection that a path names. -/
def ServiceState.itemOf (st : ServiceState) (id path : String) : Option String :=
  (st.resolveItem path).bind fun r => if r.cid = id then some r.item else none

theorem map_eq_of_mapM {α β : Type} {f : α → Option β} {l : List α} : ∀ {r : List β},
    l.mapM f = some r → l.map f = r.map some := by
  induction l with
  | nil =>
    intro r h
    cases h
    rfl
  | cons a l ih =>
    intro r h
    rw [mapM_cons] at h
    obtain ⟨b, hb, h⟩ := Option.bind_eq_some_iff.mp h
    obtain ⟨bs, hbs, h⟩ := Option.bind_eq_some_iff.mp h
    cases h
    rw [map_cons, hb, ih hbs, map_cons]

/-- The paths that a call has accepted: each names an item of its collection, and these are the
items. -/
structure AcceptedItems (target : CollectionRef) (items : List String) (st : ServiceState)
    (id : String)
    (itemIds : List String) : Prop where
  owner : target.resolve st = .ok id
  paths : ∀ path ∈ items, ∃ item, st.itemOf id path = some item
  itemIds : itemIds = (items.filterMap (st.itemOf id)).eraseDups

variable {st : ServiceState} {id : String}

theorem AcceptedItems.of_resolved {all : List ResolvedItem} (owner : target.resolve st = .ok id)
    (resolved : items.map st.resolveItem = all.map some) (own : ∀ r ∈ all, r.cid = id) :
    AcceptedItems target items st id (all.map (·.item)).eraseDups := by
  refine ⟨owner, fun path mem => ?_, ?_⟩
  · have listed : st.resolveItem path ∈ all.map some := resolved ▸ mem_map_of_mem mem
    obtain ⟨r, mem, found⟩ := mem_map.mp listed
    exact ⟨r.item, by simp [ServiceState.itemOf, ← found, own r mem]⟩
  · have cut : items.filterMap (st.itemOf id) = (items.map st.resolveItem).filterMap fun found =>
        found.bind fun r => if r.cid = id then some r.item else none := by
      rw [filterMap_map]
      rfl
    rw [cut, resolved, filterMap_map]
    congr 1
    rw [← filterMap_eq_map]
    refine filterMap_congr fun r mem => ?_
    simp [own r mem]

/-- **What one run of the check has accepted**: items of this collection, and each is listed
once. -/
theorem checkRun_ok {vault : Vault} {cid : String} :
    ∀ {todo : List ResolvedItem} {itemIds : List String}
    {seen : Std.ExtTreeSet String} {rest itemIds' seen'} (done : List ResolvedItem),
    itemIds = (done.map (·.item)).eraseDups → Records seen itemIds →
    checkRun vault id cid todo itemIds seen = .ok (rest, itemIds', seen') →
    ∃ run, todo = run ++ rest ∧ (∀ r ∈ run, r.cid = id) ∧
      itemIds' = ((done ++ run).map (·.item)).eraseDups ∧ Records seen' itemIds' := by
  intro todo
  induction todo with
  | nil =>
    intro itemIds seen rest itemIds' seen' done listed records checked
    cases checked
    exact ⟨[], rfl, nofun, by rw [append_nil, listed], records⟩
  | cons r todo ih =>
    intro itemIds seen rest itemIds' seen' done listed records checked
    unfold checkRun at checked
    split at checked
    · cases checked
      exact ⟨[], rfl, nofun, by rw [append_nil, listed], records⟩
    next same =>
      split at checked
      · cases checked
      split at checked
      · cases checked
      next own =>
        have next : (((done ++ [r]).map (·.item))).eraseDups =
            if (done.map (·.item)).contains r.item then itemIds else itemIds ++ [r.item] := by
          rw [map_append, map_singleton, eraseDups_concat, ← listed]
        have known : r.item ∈ itemIds ↔ (done.map (·.item)).contains r.item = true := by
          rw [listed, mem_eraseDups, contains_iff_mem]
        have rejoin : ∀ {itemIds₁ : List String} {seen₁ : Std.ExtTreeSet String},
            itemIds₁ = ((done ++ [r]).map (·.item)).eraseDups → Records seen₁ itemIds₁ →
            checkRun vault id cid todo itemIds₁ seen₁ = .ok (rest, itemIds', seen') →
            ∃ run, r :: todo = run ++ rest ∧ (∀ r ∈ run, r.cid = id) ∧
              itemIds' = ((done ++ run).map (·.item)).eraseDups ∧ Records seen' itemIds' := by
          intro itemIds₁ seen₁ listed₁ records₁ checked₁
          obtain ⟨run, cut, mine, listed', records'⟩ := ih (done ++ [r]) listed₁ records₁ checked₁
          refine ⟨r :: run, by rw [cut, cons_append], ?_, ?_, records'⟩
          · intro r' mem
            rcases mem_cons.mp mem with rfl | mem
            · exact (Decidable.not_not.mp same).trans (Decidable.not_not.mp own)
            · exact mine r' mem
          · rw [listed', append_assoc, singleton_append]
        split at checked
        next old =>
          refine rejoin ?_ records checked
          rw [next, if_pos (known.mp ((records r.item).mp old))]
        next new =>
          refine rejoin ?_ (records.insert r.item) checked
          rw [next, if_neg fun mem => new ((records r.item).mpr (known.mpr mem))]

end

/-! ## The log -/

/-- What a call has done: the states it has looked things up in, and the daemon before and after
each of its steps. -/
structure BatchLog (ι : Type) where
  resolvedIn : Option ServiceState
  lookedUpIn : Option ServiceState
  changes : List (Daemon ι × Daemon ι)

def BatchLog.empty (ι : Type) : BatchLog ι :=
  { resolvedIn := none, lookedUpIn := none, changes := [] }

def BatchLog.note (c : BatchDelete ι) (a : BatchAction ι) (c' : BatchDelete ι) (log : BatchLog ι) :
    BatchLog ι :=
  match a with
  | .other _ => log
  | .resolve =>
    { log with
      resolvedIn := some c.daemon.service, changes := log.changes ++ [(c.daemon, c'.daemon)] }
  | .lookup =>
    { log with
      lookedUpIn := some c.daemon.service, changes := log.changes ++ [(c.daemon, c'.daemon)] }
  | _ => { log with changes := log.changes ++ [(c.daemon, c'.daemon)] }

/-- **The call has changed nothing.** -/
def Unchanged (changes : List (Daemon ι × Daemon ι)) : Prop :=
  ∀ change ∈ changes, change.2 = change.1

theorem Unchanged.concat {changes : List (Daemon ι × Daemon ι)} (unchanged : Unchanged changes)
    (d : Daemon ι) : Unchanged (changes ++ [(d, d)]) := by
  intro change mem
  rcases mem_append.mp mem with mem | mem
  · exact unchanged change mem
  · rw [mem_singleton.mp mem]

/-- **One of its steps has removed the items**, from the vault that it has looked up, and the others
have changed nothing. -/
inductive BatchLog.Removes (x : Externals) (id : String) (itemIds : List String)
    (log : BatchLog ι) : Prop
  | intro {before after d h w w' st} (steps : log.changes = before ++ (d, d.setWorld h w') :: after)
      (others : Unchanged (before ++ after)) (lookedUp : log.lookedUpIn = some st)
      (vault : st.collections[id]? = some h) (world : d.world h = some w)
      (removed : ItemsRemoved x itemIds w w')

/-- The call has done what it was asked to. -/
structure BatchLog.Deleted (x : Externals) (target : CollectionRef) (items : List String)
    (log : BatchLog ι) (st : ServiceState) (id : String) (itemIds : List String) : Prop where
  resolvedIn : log.resolvedIn = some st
  accepted : AcceptedItems target items st id itemIds
  effect : itemIds = [] ∧ Unchanged log.changes ∨ log.Removes x id itemIds

theorem BatchLog.Deleted.signal {log : BatchLog ι} {st : ServiceState} {id : String}
    {itemIds : List String} (deleted : log.Deleted x target items st id itemIds) (d : Daemon ι) :
    ({ log with changes := log.changes ++ [(d, d)] } : BatchLog ι).Deleted x target items st id
      itemIds := by
  refine ⟨deleted.resolvedIn, deleted.accepted, ?_⟩
  rcases deleted.effect with ⟨none, unchanged⟩ | removes
  · exact .inl ⟨none, unchanged.concat d⟩
  · cases removes with
    | @intro before after d₀ h w w' st' steps others lookedUp vault world removed =>
      have steps' : log.changes ++ [(d, d)] = before ++ (d₀, d₀.setWorld h w') :: (after ++ [(d, d)]) := by
        rw [steps, append_assoc, cons_append]
      refine .inr (.intro steps' ?_ lookedUp vault world removed)
      rw [← append_assoc]
      exact others.concat d

/-! ## Steps -/

section

variable [DecidableEq ι] {toml : Toml} {cfg : Config}

/-- Every way one step can end. -/
inductive BatchStep (x : Externals) (toml : Toml) (cfg : Config) (target : CollectionRef)
    (items : List String) (c : BatchDelete ι) : BatchAction ι → BatchDelete ι → Prop
  | other {a daemon} (moved : c.daemon.step x toml cfg a = some daemon) :
      BatchStep x toml cfg target items c (.other a) { c with daemon }
  | resolve (phase : c.phase = .called) :
      BatchStep x toml cfg target items c .resolve
        { c with phase := .ofPaths target items c.daemon.service }
  | check {id r rest itemIds seen vault} (phase : c.phase = .checking id (r :: rest) itemIds seen) :
      BatchStep x toml cfg target items c .check
        { c with phase := .ofRun id (checkRun vault id r.cid (r :: rest) itemIds seen) }
  | broken {id itemIds seen} (phase : c.phase = .checking id [] itemIds seen) :
      BatchStep x toml cfg target items c .lookup { c with phase := .returned (.error .isLocked) }
  | lookup {id itemIds seen h} (phase : c.phase = .checking id [] itemIds seen)
      (vault : c.daemon.service.collections[id]? = some h) :
      BatchStep x toml cfg target items c .lookup { c with phase := .deleting id itemIds h }
  | delete {env id itemIds h w} (phase : c.phase = .deleting id itemIds h)
      (world : c.daemon.world h = some w) :
      BatchStep x toml cfg target items c (.delete env)
        { daemon := c.daemon.setWorld h (w.deleteBatch x env itemIds).2
          phase := (w.deleteBatch x env itemIds).1 }
  | signal {r itemId rest} (phase : c.phase = .signalling (itemId :: rest)) :
      BatchStep x toml cfg target items c (.signal r) { c with phase := .ofSignal rest r }

theorem BatchDelete.step_inv {c c' : BatchDelete ι} {a : BatchAction ι}
    (h : c.step x toml cfg target items a = some c') :
    BatchStep x toml cfg target items c a c' := by
  cases a with (simp only [BatchDelete.step] at h)
  | other a =>
    obtain ⟨daemon, moved, rfl⟩ := Option.map_eq_some_iff.mp h
    exact .other moved
  | resolve =>
    split at h
    next phase =>
      cases h
      exact .resolve phase
    · cases h
  | check =>
    split at h
    next phase =>
      obtain ⟨vault, -, rfl⟩ := Option.map_eq_some_iff.mp h
      exact .check phase
    · cases h
  | lookup =>
    split at h
    next phase =>
      split at h
      · cases h
        exact .broken phase
      next vault =>
        cases h
        exact .lookup phase vault
    · cases h
  | delete env =>
    split at h
    next phase =>
      obtain ⟨w, world, rfl⟩ := Option.map_eq_some_iff.mp h
      exact .delete phase world
    · cases h
  | signal r =>
    split at h
    next phase =>
      cases h
      exact .signal phase
    · cases h

def BatchLog.Sound (x : Externals) (target : CollectionRef) (items : List String)
    (log : BatchLog ι) : BatchPhase → Prop
  | .called => Unchanged log.changes
  | .checking id rest itemIds seen =>
    Unchanged log.changes ∧ Records seen itemIds ∧ ∃ st done, log.resolvedIn = some st ∧
      target.resolve st = .ok id ∧ items.map st.resolveItem = (done ++ rest).map some ∧
      (∀ r ∈ done, r.cid = id) ∧ itemIds = (done.map (·.item)).eraseDups
  | .deleting id itemIds h =>
    Unchanged log.changes ∧ ∃ st st', log.resolvedIn = some st ∧
      AcceptedItems target items st id itemIds ∧ log.lookedUpIn = some st' ∧
      st'.collections[id]? = some h
  | .signalling _ | .returned (.ok ()) => ∃ st id itemIds, log.Deleted x target items st id itemIds
  | .returned (.error _) => Unchanged log.changes

def BatchAction.announces : BatchAction ι → Bool
  | .signal r => r.isOk
  | _ => true

omit [DecidableEq ι] in
theorem BatchLog.Sound.ofPaths {c : BatchDelete ι} {log : BatchLog ι}
    (unchanged : Unchanged log.changes) : BatchLog.Sound x target items
      { log with resolvedIn := some c.daemon.service, changes := log.changes ++ [(c.daemon, c.daemon)] }
      (.ofPaths target items c.daemon.service) := by
  have still := unchanged.concat c.daemon
  unfold BatchPhase.ofPaths
  split
  · exact still
  split
  · exact still
  next id owner =>
    split
    · exact still
    next resolved paths =>
      exact ⟨still, .empty, _, [], rfl, owner, map_eq_of_mapM paths, nofun, rfl⟩

/-- A step keeps the record sound, if no signal fails. -/
theorem BatchStep.sound {c c' : BatchDelete ι} {a : BatchAction ι} {log : BatchLog ι}
    (step : BatchStep x toml cfg target items c a c') (announces : a.announces = true)
    (sound : log.Sound x target items c.phase) :
    (BatchLog.note c a c' log).Sound x target items c'.phase := by
  cases step with
  | other moved => exact sound
  | resolve phase =>
    rw [phase] at sound
    exact .ofPaths sound
  | @check id r rest itemIds seen vault phase =>
    rw [phase] at sound
    obtain ⟨unchanged, records, st, done, resolvedIn, owner, paths, own, listed⟩ := sound
    have still := unchanged.concat c.daemon
    cases checked : checkRun vault id r.cid (r :: rest) itemIds seen with
    | error e => exact still
    | ok result =>
      obtain ⟨rest', itemIds', seen'⟩ := result
      obtain ⟨run, cut, mine, listed', records'⟩ := checkRun_ok done listed records checked
      refine ⟨still, records', st, done ++ run, resolvedIn, owner, ?_, ?_, listed'⟩
      · rw [paths, cut, append_assoc]
      · intro r' mem
        exact (mem_append.mp mem).elim (own r') (mine r')
  | broken phase =>
    rw [phase] at sound
    exact sound.1.concat c.daemon
  | lookup phase vault =>
    rw [phase] at sound
    obtain ⟨unchanged, -, st, done, resolvedIn, owner, paths, own, listed⟩ := sound
    rw [append_nil] at paths
    exact ⟨unchanged.concat c.daemon, st, c.daemon.service, resolvedIn,
      listed ▸ .of_resolved owner paths own, rfl, vault⟩
  | @delete env id itemIds h w phase world =>
    rw [phase] at sound
    obtain ⟨unchanged, st, st', resolvedIn, accepted, lookedUp, vault⟩ := sound
    have still := unchanged.concat c.daemon
    have same := Daemon.setWorld_world world
    rcases deleteBatch_cases x env itemIds w with ⟨e, refused⟩ | ⟨none, nothing⟩ |
      ⟨full, w', saved, removed⟩
    · rw [refused]
      simp only [same]
      exact still
    · rw [nothing]
      simp only [same]
      exact ⟨st, id, itemIds, resolvedIn, accepted, .inl ⟨none, still⟩⟩
    · rw [saved]
      refine ⟨st, id, itemIds, resolvedIn, accepted, .inr (.intro rfl ?_ lookedUp vault world removed)⟩
      rw [append_nil]
      exact unchanged
  | @signal r itemId rest phase =>
    rw [phase] at sound
    obtain ⟨st, id, itemIds, deleted⟩ := sound
    cases r with
    | error e => cases announces
    | ok u =>
      have after := deleted.signal c.daemon
      unfold BatchPhase.ofSignal
      dsimp only
      split
      · exact ⟨st, id, itemIds, after⟩
      · exact ⟨st, id, itemIds, after⟩

/-! ## Every run -/

variable {daemon : Daemon ι} {c : BatchDelete ι} {log : BatchLog ι} {r : Except DbusError Unit}

/-- **All or nothing.** In every run of a `DeleteItems` beside anything else the daemon does, in
which its signals are sent: when it returns an error, none of its steps has changed the daemon. When
it returns `Ok`, every path named an item of the call's collection in the state the paths were
resolved in, so a call with any other path is refused. Then one save has removed exactly these items
from the collection's vault, where all of them were, and has left the others in their order; no
other step of the call has changed anything, and none has when there were no paths. -/
theorem delete_items_all_or_nothing
    (run : Reach (logged (BatchDelete.step x toml cfg target items) BatchLog.note)
      (fun _ a => a.announces = true) (⟨daemon, .called⟩, .empty ι) (c, log))
    (returned : c.phase = .returned r) : (∀ e, r = .error e → Unchanged log.changes) ∧
      (r = .ok () → ∃ st id itemIds, log.resolvedIn = some st ∧ target.resolve st = .ok id ∧
        (∀ path ∈ items, ∃ item, st.itemOf id path = some item) ∧
        itemIds = (items.filterMap (st.itemOf id)).eraseDups ∧ itemIds.Nodup ∧
        (items = [] ∧ Unchanged log.changes ∨ log.Removes x id itemIds)) := by
  have sound := run.logged_invariant (fun c log => log.Sound x target items c.phase)
    (fun _ h => nomatch h) fun sound announces moved =>
      (BatchDelete.step_inv moved).sound announces sound
  rw [returned] at sound
  refine ⟨?_, ?_⟩
  · rintro e rfl
    exact sound
  · rintro rfl
    obtain ⟨st, id, itemIds, deleted⟩ := sound
    have accepted := deleted.accepted
    refine ⟨st, id, itemIds, deleted.resolvedIn, accepted.owner, accepted.paths, accepted.itemIds,
      accepted.itemIds ▸ eraseDups_nodup _, ?_⟩
    refine deleted.effect.imp_left fun nothing => ⟨?_, nothing.2⟩
    refine eq_nil_iff_forall_not_mem.mpr fun path mem => ?_
    obtain ⟨item, named⟩ := accepted.paths path mem
    have listed : item ∈ itemIds := by
      rw [accepted.itemIds, mem_eraseDups]
      exact mem_filterMap.mpr ⟨path, mem, named⟩
    rw [nothing.1] at listed
    cases listed

end

/-! ## Runs of one call -/

section

open Reference

variable [∀ n, OfNat ι n]

abbrev batchStep (items : List String) : BatchDelete (Fin 2) × BatchLog (Fin 2) →
    BatchAction (Fin 2) →
    Option (BatchDelete (Fin 2) × BatchLog (Fin 2)) :=
  logged (BatchDelete.step externals daemonToml config (.id "login") items) BatchLog.note

def BatchPhase.result : BatchPhase → Option (Except DbusError Unit)
  | .returned r => some r
  | _ => none

theorem BatchPhase.eq_returned {phase : BatchPhase} {r : Except DbusError Unit}
    (h : phase.result = some r) : phase = .returned r := by
  cases phase with
  | returned r' =>
    cases h
    rfl
  | _ => cases h

/-- The items of a vault that is open. -/
def Daemon.openItems {ι : Type} (d : Daemon ι) (h : Handle) : Option (List String) :=
  (d.vaults[h]?.bind fun v => v.items.toOption).map fun items => items.map (·.id)

/-- A collection is made, and another client puts the items `a` and `b` into it. -/
def twoItems : List (BatchAction ι) :=
  let steps : List (Action ι) := createSteps 0 "Login" none ++
    [Action.insert 0, .task 1 (.resolve "login"), writeItem 1 "a", writeItem 1 "b"]
  steps.map .other

def twicePath : List String :=
  ["/org/freedesktop/secrets/collection/login/a", "/org/freedesktop/secrets/collection/login/a"]

/-- **A signal that cannot be sent** ends the call with an error when the item is gone. -/
theorem delete_items_fails_after_removal : ∃ daemon p, emptyBoot 2 = some daemon ∧
      Reach (batchStep twicePath) (fun _ _ => True) (⟨daemon, .called⟩, .empty (Fin 2)) p ∧
      p.1.phase = .returned (.error (.failed "closed")) ∧
      ∃ change ∈ p.2.changes, change.1.openItems 0 = some ["a", "b"] ∧
        change.2.openItems 0 = some ["b"] := by
  refine Reach.exists_run_from (twoItems ++ [BatchAction.resolve, .check, .lookup, .delete saveEnv,
      .signal (.error (.failed "closed"))])
    (fun p => p.1.phase.result = some (.error (.failed "closed")) ∧ ∃ change ∈ p.2.changes,
      change.1.openItems 0 = some ["a", "b"] ∧ change.2.openItems 0 = some ["b"])
    (by decide +kernel) fun _ _ passed => ?_
  exact ⟨BatchPhase.eq_returned passed.1, passed.2⟩

/-- Another client writes an item between the check and the removal. -/
theorem delete_items_all_or_nothing_interleaved : ∃ daemon c log, emptyBoot 2 = some daemon ∧
      Reach (batchStep twicePath) (fun _ a => a.announces = true) (⟨daemon, .called⟩, .empty (Fin 2)) (c, log) ∧
      c.phase = .returned (.ok ()) ∧ c.daemon.openItems 0 = some ["b", "c"] ∧
      ∃ st id itemIds, log.resolvedIn = some st ∧ CollectionRef.resolve st (.id "login") = .ok id ∧
        (∀ path ∈ twicePath, ∃ item, st.itemOf id path = some item) ∧
        itemIds = (twicePath.filterMap (st.itemOf id)).eraseDups ∧ log.Removes externals id itemIds := by
  refine Reach.exists_run_pair (twoItems ++ [BatchAction.resolve, .check, .other (writeItem 1 "c"),
      .lookup, .delete saveEnv, .signal (.ok ())])
    (fun c _ => c.phase.result = some (.ok ()) ∧ c.daemon.openItems 0 = some ["b", "c"])
    (by decide +kernel) fun _ run passed => ?_
  have returned := BatchPhase.eq_returned passed.1
  obtain ⟨st, id, itemIds, resolvedIn, owner, paths, listed, -, effect⟩ :=
    (delete_items_all_or_nothing run returned).2 rfl
  exact ⟨returned, passed.2, st, id, itemIds, resolvedIn, owner, paths, listed,
    effect.resolve_left fun h => nomatch h.1⟩

end

end SecretManager
