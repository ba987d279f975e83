import SecretManager.Laws.Dbus.ViewSteps
import SecretManager.Laws.Dbus.Updates
import SecretManager.Dbus.Reference

/-!
# Creates that name one alias

`CreateCollection` with an alias answers with the collection the alias resolves to, and makes a
prompt only when it resolves to none. The lookup is made when the call arrives; the alias is written
after the dialog, the derivation of the key and the creation of the file. So two calls can both find
the alias free, and both make a collection for it: the second repoints the alias that the first has
recorded.

What the lookup is worth is said by the runs in which it is still true when it is used. If a create
wins its gate only while the alias is free, and no other create is between its gate and the end of
its recording, then the creates make one collection at most, and no alias that resolves is
repointed.
-/

namespace SecretManager

open Function ServiceState

/-! ## The alias -/

section

variable {a : String} {st : ServiceState}

section

variable (st : ServiceState)

/-- An update of the alias would not be refused: the table is usable and has room. -/
def ServiceState.records (a : String) : Bool :=
  match st.aliases with
  | .usable table => (checkAliasRoom table a).isOk
  | .degraded .. => false

/-- The alias resolves to no loaded collection and can be recorded. -/
def ServiceState.free (a : String) : Bool := st.records a && (st.target a).isNone

/-- A step takes the alias from the loaded collection it resolves to. -/
def ServiceState.repoints (a : String) (st' : ServiceState) : Bool :=
  (st.target a).isSome && decide (st'.target a ≠ st.target a)

theorem ServiceState.target_eq (a : String) :
    st.target a = st.aliases.known[a]?.filter fun id => st.view.collections.contains id := by
  unfold target aliasTarget
  cases st.aliases with
  | usable table => rfl
  | degraded reason known =>
    simp only [AliasTable.resolve, AliasTable.known]
    cases known[a]? with
    | none => rfl
    | some id => rfl

theorem ServiceState.view_contains (id : String) :
    st.view.collections.contains id = st.collections.contains id := by
  rw [Bool.eq_iff_iff, List.contains_iff_mem, view, Std.ExtTreeMap.mem_keys,
    Std.ExtTreeMap.contains_iff_mem]

end

theorem ServiceState.repoints_same {st' : ServiceState} (h : st'.target a = st.target a) :
    st.repoints a st' = false := by
  simp [repoints, h]

theorem ServiceState.repoints_none {st' : ServiceState} (h : st.target a = none) :
    st.repoints a st' = false := by
  simp [repoints, h]

theorem ServiceState.free_iff : st.free a = true ↔ st.records a = true ∧ st.target a = none := by
  rw [free, Bool.and_eq_true, Option.isNone_iff_eq_none]

/-- The alias of a table that has it resolves as soon as the collection is loaded. -/
theorem ServiceState.target_of_known {id : String} (known : st.aliases.known[a]? = some id)
    (loaded : st.collections.contains id = true) : st.target a = some id := by
  rw [target_eq, known, Option.filter_some, view_contains, if_pos loaded]

/-- A collection that is loaded is all that a free alias can come to resolve to by it. -/
theorem ServiceState.target_insert {id : String} {h : Handle} (none_ : st.target a = none) :
    ({ st with collections := st.collections.insert id h } : ServiceState).target a = none ∨
      ({ st with collections := st.collections.insert id h } : ServiceState).target a = some id := by
  rw [target_eq] at none_ ⊢
  cases known : st.aliases.known[a]? with
  | none => exact .inl rfl
  | some target =>
    rw [known, Option.filter_some, view_contains] at none_
    rw [Option.filter_some, view_contains]
    by_cases same : id = target
    · subst same
      refine .inr (if_pos ?_)
      exact Std.ExtTreeMap.contains_insert_self
    · refine .inl (if_neg ?_)
      rw [Std.ExtTreeMap.contains_insert, Bool.or_eq_true, not_or]
      exact ⟨by simpa using same, fun loaded => absurd none_ (by simp [loaded])⟩

end

/-! ## Recording -/

section

variable {a id : String}

/-- The update is under way, and what it is about to install maps the alias to the collection. -/
def CallPhase.writes {ε : Type} (a id : String) : CallPhase ε → Bool
  | .ready _ => true
  | .edited _ _ next | .written _ _ next _ => decide (next[a]? = some id)
  | .done _ => false

/-- **A piece of a create's update** that cannot be refused leaves the table alone and goes on, or
ends with the alias in the table. -/
theorem record_piece {toml : Toml} {st : ServiceState} {env : AliasWriteEnv}
    {file file' : Option Bytes} {table : AliasTable} {phase phase' : CallPhase DbusError}
    (records : st.records a = true) (writes : phase.writes a id = true)
    (piece : updatePiece toml (recordAlias a id) st env file phase = (table, file', phase')) :
    (table = st.aliases ∧ phase'.writes a id = true) ∨
      ((∃ outcome, phase' = .done outcome) ∧ ∃ next, table = .usable next ∧ next[a]? = some id) := by
  cases usable : st.aliases with
  | degraded reason known =>
    rw [ServiceState.records, usable] at records
    cases records
  | usable base =>
    rw [ServiceState.records, usable] at records
    have records : (checkAliasRoom base a).isOk = true := records
    cases phase with
    | ready attempt =>
      have room : checkAliasRoom base a = .ok () := by
        cases room : checkAliasRoom base a with
        | error e =>
          rw [room] at records
          cases records
        | ok => rfl
      have edit : (recordAlias a id).edit st.view base = .ok (base.insert a id) := by
        simp only [recordAlias, room]
      simp only [updatePiece, usable, beginAttempt_edited attempt edit] at piece
      cases piece
      exact .inl ⟨rfl, decide_eq_true Std.ExtTreeMap.getElem?_insert_self⟩
    | edited attempt base' next =>
      simp only [updatePiece, usable] at piece
      cases piece
      exact .inl ⟨rfl, writes⟩
    | written attempt base' next result =>
      have maps : next[a]? = some id := of_decide_eq_true writes
      simp only [updatePiece, usable] at piece
      by_cases retry : base ≠ base' ∧ attempt < aliasUpdateAttempts
      · rw [finishAttempt_retry (recordAlias a id) next result retry] at piece
        cases piece
        exact .inl ⟨rfl, rfl⟩
      cases result with
      | ok =>
        rw [finishAttempt_committed (recordAlias a id) next retry] at piece
        cases piece
        exact .inr ⟨⟨_, rfl⟩, next, rfl, maps⟩
      | error e =>
        rw [finishAttempt_notWritten (recordAlias a id) next e retry] at piece
        cases piece
        exact .inr ⟨⟨_, rfl⟩, next, rfl, maps⟩
    | done outcome => cases writes

end

/-! ## Tasks -/

section

/-- The task is past its gate, and not over. -/
def Task.working (task : Task) : Bool := decide (task.stage = .past) || decide (task.stage = .did)

/-- The task belongs to a create that names the alias, or to a call that touches neither aliases nor
collections. -/
def Task.names (a : String) : Task → Bool
  | .create _ aliasName _ => decide (aliasName = some a)
  | .setAlias .. | .delete .. | .orphan .. => false
  | _ => true

/-- A create that has won its gate and not made its file. -/
def CreatePhase.makes : CreatePhase → Bool
  | .naming .. | .named .. | .queued .. | .running .. => true
  | _ => false

/-- A task is begun for a create that names the alias, and nothing else touches aliases or
collections. -/
def TaskAction.names (a : String) : TaskAction → Bool
  | .setAlias .. | .beginDelete _ => false
  | .beginCreate _ aliasName => decide (aliasName = some a)
  | _ => true

def Action.names {ι : Type} (a : String) : Action ι → Bool
  | .task _ act => act.names a
  | .reload _ | .merge => false
  | _ => true

theorem returned_working (collection : Option String) :
    (Task.returned collection).working = false := by
  cases collection with
  | none => rfl
  | some id => rfl

theorem killed_working (task : Task) : task.killed.working = false := by
  unfold Task.killed
  split
  · rfl
  · rfl

variable {a : String} {st : ServiceState} {dir : Dir} {g g' : Gate} {task task' : Task}
  {act : TaskAction}

theorem afterError_cases (label : String) (aliasName : Option String) (pin : Bytes) (attempt : Nat)
    (e : VaultError) :
    Task.afterError label aliasName pin attempt e = .create label aliasName (.naming pin (attempt + 1)) ∨
      Task.afterError label aliasName pin attempt e = .returned none := by
  unfold Task.afterError
  split
  · split
    · exact .inl rfl
    · exact .inr rfl
  · exact .inr rfl

theorem killed_names (early : task.working = false) : task.killed.names a = true := by
  unfold Task.killed
  split
  · cases early
  · rfl

section

variable (h : task.advance st dir g act = some (task', g')) (named : task.names a = true)
include h named

theorem advance_names (only : act.names a = true) (lives : act = .die → task.working = false) :
    task'.names a = true := by
  unfold Task.advance at h
  split at h
  case h_1 id =>
    obtain ⟨handle, found, heq⟩ := Option.map_eq_some_iff.mp h
    cases heq
    rfl
  all_goals repeat' split at h
  all_goals cases h
  all_goals first
    | rfl
    | exact named
    | exact only
    | exact killed_names (lives rfl)

/-- **How a task moves** with respect to its gate: it stays outside, it goes on behind it, or it
wins it now. -/
theorem advance_working (lives : act = .die → task.working = false) :
    (task.working = false ∧ task'.working = false) ∨
      (∃ label phase phase', task = .create label (some a) phase ∧ phase.makes = true ∧
        task' = .create label (some a) phase' ∧ phase'.makes = true) ∨
      (act = .claim ∧ g.committed = false ∧
        ∃ label phase, task' = .create label (some a) phase ∧ phase.makes = true) := by
  have goes : ∀ {label : String} {aliasName : Option String} {phase phase' : CreatePhase},
      (Task.create label aliasName phase).names a = true → phase.makes = true → phase'.makes = true →
      ∃ l p p', Task.create label aliasName phase = .create l (some a) p ∧ p.makes = true ∧
        Task.create label aliasName phase' = .create l (some a) p' ∧ p'.makes = true := by
    intro label aliasName phase phase' named before after
    obtain rfl : aliasName = some a := of_decide_eq_true named
    exact ⟨label, phase, phase', rfl, before, rfl, after⟩
  unfold Task.advance at h
  split at h
  case h_1 id =>
    obtain ⟨handle, found, heq⟩ := Option.map_eq_some_iff.mp h
    cases heq
    exact .inl ⟨rfl, rfl⟩
  case h_13 label aliasName pin =>
    obtain rfl : aliasName = some a := of_decide_eq_true named
    cases h
    cases committed : g.committed with
    | true => exact .inl ⟨rfl, rfl⟩
    | false => exact .inr (.inr ⟨rfl, rfl, label, .naming pin 1, rfl, rfl⟩)
  case h_18 =>
    split at h
    · cases h
      exact .inl ⟨lives rfl, killed_working _⟩
    · cases h
  case h_17 collection =>
    cases h
    exact .inl ⟨returned_working collection, rfl⟩
  all_goals repeat' split at h
  all_goals cases h
  all_goals first
    | exact .inl ⟨rfl, rfl⟩
    | exact .inr (.inl (goes named rfl rfl))
    | exact absurd named Bool.false_ne_true

end

end

/-! ## The daemon -/

section

variable {ι : Type} {a : String} {s s' : Daemon ι} {created : List ι}
variable {aliasName : Option String} {label : String} {task : Task}

/-- What the create that is past its gate has come to, with the creates that have made a
collection. -/
inductive Daemon.Works (a : String) (s : Daemon ι) (t : ι) : List ι → Prop
  | making {label phase} (task : s.tasks t = .create label (some a) phase) (makes : phase.makes = true)
      (free : s.service.free a = true) : Works a s t []
  | bringing {label id h} (task : s.tasks t = .create label (some a) (.created id h))
      (free : s.service.free a = true) : Works a s t [t]
  | recording {label id call} (task : s.tasks t = .create label (some a) (.recording id a call))
      (records : s.service.records a = true) (loaded : s.service.collections.contains id = true)
      (target : s.service.target a = none ∨ s.service.target a = some id)
      (writes : call.writes a id = true) : Works a s t [t]

/-- **Where the creates of the alias stand**: at most one is past its gate, and when one is done
that has made a collection, the alias resolves. -/
inductive Daemon.Standing (a : String) (s : Daemon ι) : List ι → Prop
  | quiet (idle : ∀ t, (s.tasks t).working = false) : Standing a s []
  | works {t created} (alone : ∀ t', t' ≠ t → (s.tasks t').working = false)
      (at_ : s.Works a t created) : Standing a s created
  | taken (t : ι) (idle : ∀ t', (s.tasks t').working = false) (target : s.service.target a ≠ none) :
      Standing a s [t]

theorem CreatePhase.makes_working {phase : CreatePhase} (h : phase.makes = true) :
    (Task.create label aliasName phase).working = true := by
  cases phase with
  | naming | named | queued | running => rfl
  | _ => cases h

theorem Daemon.Works.working {t : ι} (works : s.Works a t created) :
    (s.tasks t).working = true := by
  cases works with
  | making task makes free => exact task ▸ CreatePhase.makes_working makes
  | bringing task free | recording task records loaded target writes => exact task ▸ rfl

theorem Daemon.Works.congr {t : ι} (works : s.Works a t created) (task : s'.tasks t = s.tasks t)
    (service : s'.service = s.service) : s'.Works a t created := by
  cases works with
  | making task' makes free => exact .making (task.trans task') makes (service ▸ free)
  | bringing task' free => exact .bringing (task.trans task') (service ▸ free)
  | recording task' records loaded target writes =>
    exact .recording (task.trans task') (service ▸ records) (service ▸ loaded) (service ▸ target) writes

namespace Daemon.Standing

variable {t : ι}

section

variable (stands : s.Standing a created)
include stands

theorem length_le : created.length ≤ 1 := by
  cases stands with
  | quiet | taken => simp
  | works alone at_ =>
    cases at_ with
    | making | bringing | recording => simp

theorem congr (tasks : s'.tasks = s.tasks) (service : s'.service = s.service) :
    s'.Standing a created := by
  cases stands with
  | quiet idle => exact .quiet (tasks ▸ idle)
  | works alone at_ => exact .works (tasks ▸ alone) (at_.congr (congrFun tasks _) service)
  | taken t idle target => exact .taken t (tasks ▸ idle) (service ▸ target)

theorem at_working (working : (s.tasks t).working = true) :
    s.Works a t created ∧ ∀ t', t' ≠ t → (s.tasks t').working = false := by
  cases stands with
  | quiet idle | taken t₀ idle target =>
    rw [idle t] at working
    cases working
  | @works t₀ _ alone at_ =>
    by_cases same : t = t₀
    · subst same
      exact ⟨at_, alone⟩
    · rw [alone t same] at working
      cases working

theorem at_making {phase : CreatePhase} (task : s.tasks t = .create label aliasName phase)
    (makes : phase.makes = true) :
    s.service.free a = true ∧ created = [] ∧ ∀ t', t' ≠ t → (s.tasks t').working = false := by
  obtain ⟨at_, alone⟩ := stands.at_working (t := t) (task ▸ CreatePhase.makes_working makes)
  cases at_ with
  | making task' makes' free => exact ⟨free, rfl, alone⟩
  | bringing task' free | recording task' records loaded target writes =>
    rw [task] at task'
    cases task'
    cases makes

theorem at_bringing {id : String} {h : Handle}
    (task : s.tasks t = .create label aliasName (.created id h)) :
    s.service.free a = true ∧ created = [t] ∧ ∀ t', t' ≠ t → (s.tasks t').working = false := by
  obtain ⟨at_, alone⟩ := stands.at_working (t := t) (task ▸ rfl)
  cases at_ with
  | bringing task' free => exact ⟨free, rfl, alone⟩
  | making task' makes free =>
    rw [task] at task'
    cases task'
    cases makes
  | recording task' records loaded target writes =>
    rw [task] at task'
    cases task'

theorem at_recording {id name : String} {call : CallPhase DbusError}
    (task : s.tasks t = .create label aliasName (.recording id name call)) :
    name = a ∧ created = [t] ∧ s.service.records a = true ∧ s.service.collections.contains id = true ∧
      (s.service.target a = none ∨ s.service.target a = some id) ∧ call.writes a id = true ∧
      ∀ t', t' ≠ t → (s.tasks t').working = false := by
  obtain ⟨at_, alone⟩ := stands.at_working (t := t) (task ▸ rfl)
  cases at_ with
  | recording task' records loaded target writes =>
    rw [task] at task'
    cases task'
    exact ⟨rfl, rfl, records, loaded, target, writes, alone⟩
  | making task' makes free =>
    rw [task] at task'
    cases task'
    cases makes
  | bringing task' free =>
    rw [task] at task'
    cases task'

theorem unmade (idle : ∀ t, (s.tasks t).working = false) (free : s.service.free a = true) :
    created = [] := by
  cases stands with
  | quiet => rfl
  | @works t _ alone at_ =>
    have working := at_.working
    rw [idle t] at working
    cases working
  | taken t _ target => exact absurd (free_iff.mp free).2 target

end

variable [DecidableEq ι]

theorem aside (stands : s.Standing a created) (before : (s.tasks t).working = false)
    (after : task.working = false) (tasks : s'.tasks = Function.update s.tasks t task)
    (service : s'.service = s.service) : s'.Standing a created := by
  have keeps : ∀ t', (s.tasks t').working = false → (s'.tasks t').working = false := by
    intro t' idle
    rw [tasks, update_apply]
    split
    · exact after
    · exact idle
  cases stands with
  | quiet idle => exact .quiet fun t' => keeps t' (idle t')
  | @works t₀ _ alone at_ =>
    have other : t₀ ≠ t := by
      rintro rfl
      rw [at_.working] at before
      cases before
    refine .works (fun t' ne => keeps t' (alone t' ne)) (at_.congr ?_ service)
    rw [tasks, update_of_ne other]
  | taken t₀ idle target => exact .taken t₀ (fun t' => keeps t' (idle t')) (service ▸ target)

theorem goesOn (alone : ∀ t', t' ≠ t → (s.tasks t').working = false)
    (tasks : s'.tasks = Function.update s.tasks t task)
    (at_ : s'.tasks t = task → s'.Works a t created) : s'.Standing a created := by
  refine .works (fun t' ne => ?_) (at_ ?_)
  · rw [tasks, update_of_ne ne]
    exact alone t' ne
  · rw [tasks, update_self]

end Daemon.Standing

theorem Daemon.idle_update {t : ι} [DecidableEq ι]
    (alone : ∀ t', t' ≠ t → (s.tasks t').working = false) (ended : task.working = false) (t' : ι) :
    (Function.update s.tasks t task t').working = false := by
  rw [update_apply]
  split
  · exact ended
  next ne => exact alone t' ne

variable [DecidableEq ι]

/-- The creates that a step lets make a collection. -/
def Daemon.makes (s : Daemon ι) (s' : Daemon ι) : Action ι → List ι
  | .job t _ => if s.vaults.length < s'.vaults.length then [t] else []
  | _ => []

variable {x : Externals} {toml : Toml} {cfg : Config} {act : Action ι}

/-- What a step must not do to the creates: kill one that is past its gate, -/
def Daemon.spares (s : Daemon ι) : Action ι → Bool
  | .task t .die => !(s.tasks t).working
  | _ => true

/-- or let one pass it while the alias is not free or another one is past its own. -/
def Daemon.Admits (a : String) (s : Daemon ι) (act : Action ι) : Prop :=
  ∀ t, act = .task t .claim → (s.gates t).committed = false →
    s.service.free a = true ∧ ∀ t', (s.tasks t').working = false

omit [DecidableEq ι] in
theorem Daemon.spares_die {t : ι} {act : TaskAction} (spares : s.spares (.task t act) = true)
    (h : act = .die) : (s.tasks t).working = false := by
  subst h
  simpa [Daemon.spares] using spares

section

variable (step : DaemonStep x toml cfg s act s') (only : act.names a = true)
  (spares : s.spares act = true)
include step only spares

theorem DaemonStep.names (named : ∀ t, (s.tasks t).names a = true) :
    ∀ t, (s'.tasks t).names a = true := by
  have update : ∀ {t : ι} {task : Task}, task.names a = true →
      ∀ t', (Function.update s.tasks t task t').names a = true := by
    intro t task h t'
    rw [update_apply]
    split
    · exact h
    · exact named t'
  cases step with
  | @task t act task g moved =>
    exact update (advance_names moved (named t) only (Daemon.spares_die spares))
  | @unlink t id h w bytes task world unlocked present | @unmap t id h task =>
    have := named t
    rw [task] at this
    cases this
  | unlinkLocked task world locked | unlinkFailed task world unlocked failed | orphan task made
  | orphanFailed task failed => exact update rfl
  | @job t env label aliasName pin attempt id v file task made =>
    have := named t
    rw [task] at this
    exact update this
  | @jobFailed t env label aliasName pin attempt id e file task failed =>
    have := named t
    rw [task] at this
    refine update ?_
    rcases afterError_cases label aliasName pin attempt e with again | ended
    · rw [again]
      exact this
    · rw [ended]
      rfl
  | @insert t label aliasName id h v task vault =>
    have := named t
    rw [task] at this
    refine update ?_
    unfold Task.afterInsert
    split
    · rfl
    · exact this
  | @aliases t env call phase phase' aliases aliasFile upd piece =>
    refine update ?_
    have := named t
    unfold Task.updated
    split
    next name collection _ task =>
      rw [task] at this
      cases this
    next task =>
      rw [task] at this
      split
      · rfl
      · exact this
    next task =>
      rw [task] at this
      cases this
    · exact this
  | _ => exact named

/-- **A step of the daemon** leaves at most one create past its gate, and repoints nothing. -/
theorem DaemonStep.standing (admits : s.Admits a act) (named : ∀ t, (s.tasks t).names a = true)
    (stands : s.Standing a created) :
    s'.Standing a (created ++ s.makes s' act) ∧ s.service.repoints a s'.service = false := by
  -- a step that leaves the tasks, the collections and the aliases
  have same : ∀ {s' : Daemon ι}, s'.tasks = s.tasks → s'.service = s.service → s.makes s' act = [] →
      s'.Standing a (created ++ s.makes s' act) ∧ s.service.repoints a s'.service = false := by
    intro s' tasks service makes
    rw [makes, List.append_nil]
    exact ⟨stands.congr tasks service, repoints_same (by rw [service])⟩
  -- a task that belongs to no create
  have foreign : ∀ {t : ι} {task : Task}, s.tasks t = task → task.names a = false → False := by
    intro t task h unnamed
    have := named t
    rw [h, unnamed] at this
    cases this
  have own : ∀ {t : ι} {label : String} {aliasName : Option String} {phase : CreatePhase},
      s.tasks t = .create label aliasName phase → aliasName = some a := by
    intro t label aliasName phase task
    have := named t
    rw [task] at this
    exact of_decide_eq_true this
  cases step with
  | @task t act task g moved =>
    rw [show s.makes _ (.task t act) = [] from rfl, List.append_nil]
    refine ⟨?_, repoints_same rfl⟩
    rcases advance_working moved (named t) (Daemon.spares_die spares) with ⟨before, after⟩ |
      ⟨label, phase, phase', before, makes, rfl, makes'⟩ | ⟨rfl, uncommitted, label, phase, rfl, makes⟩
    · exact stands.aside before after rfl rfl
    · obtain ⟨free, rfl, alone⟩ := stands.at_making before makes
      exact .goesOn alone rfl fun self => .making self makes' free
    · obtain ⟨free, idle⟩ := admits t rfl uncommitted
      obtain rfl := stands.unmade idle free
      exact .goesOn (fun t' _ => idle t') rfl fun self => .making self makes free
  | gate moved | operate task world | externalVault name file | externalAliases file =>
    exact same rfl rfl rfl
  | unlinkLocked task world locked | unlinkFailed task world unlocked failed
  | unlink task world unlocked present | unmap task | orphan task made
  | orphanFailed task failed => exact (foreign task rfl).elim
  | @job t env label aliasName pin attempt id v file task made =>
    obtain rfl := own task
    obtain ⟨free, rfl, alone⟩ := stands.at_making task rfl
    refine ⟨?_, repoints_same rfl⟩
    rw [show s.makes _ (.job t env) = [t] from if_pos (by simp)]
    exact .goesOn alone rfl fun self => .bringing self free
  | @jobFailed t env label aliasName pin attempt id e file task failed =>
    obtain rfl := own task
    obtain ⟨free, rfl, alone⟩ := stands.at_making task rfl
    refine ⟨?_, repoints_same rfl⟩
    rw [show s.makes _ (.job t env) = [] from if_neg (by simp [Daemon.setTask])]
    rcases afterError_cases label (some a) pin attempt e with again | ended
    · exact .goesOn alone rfl fun self => .making (self.trans again) rfl free
    · exact .quiet (Daemon.idle_update alone (ended ▸ rfl))
  | @insert t label aliasName id h v task vault =>
    obtain rfl := own task
    obtain ⟨free, rfl, alone⟩ := stands.at_bringing task
    obtain ⟨records, free⟩ := free_iff.mp free
    refine ⟨?_, repoints_none free⟩
    refine .goesOn alone rfl fun self => .recording self records ?_ (target_insert free) rfl
    exact Std.ExtTreeMap.contains_insert_self
  | @aliases t env call phase phase' aliases aliasFile update piece =>
    rcases Task.update_cases update with ⟨name, collection, task, -⟩ | ⟨label, aliasName, id, name, task, rfl⟩ |
      ⟨id, h, task, -⟩
    · exact (foreign task rfl).elim
    · obtain rfl := own task
      obtain ⟨rfl, rfl, records, loaded, target, writes, alone⟩ := stands.at_recording task
      rcases record_piece records writes piece with ⟨rfl, writes'⟩ | ⟨⟨outcome, rfl⟩, next, rfl, maps⟩
      · have goes : (s.tasks t).updated phase' = .create label (some name) (.recording id name phase') := by
          rw [task]
          cases phase' with
          | done outcome => cases writes'
          | _ => rfl
        refine ⟨.goesOn alone rfl fun self => ?_, repoints_same rfl⟩
        exact .recording (self.trans goes) records loaded target writes'
      · have resolves : ({ s.service with aliases := .usable next } : ServiceState).target name = some id :=
          target_of_known maps loaded
        refine ⟨.taken t (Daemon.idle_update alone ?_) (by simp [resolves]), ?_⟩
        · rw [task]
          rfl
        · rcases target with none_ | same
          · exact repoints_none none_
          · exact repoints_same (resolves.trans same.symm)
    · exact (foreign task rfl).elim
  | entry scanning | reload kept | merge scanned => cases only

end

end

/-! ## The bus -/

section

variable {ι κ : Type} {a : String} {b b' : Bus ι κ} {act : BusAction ι κ}

/-- The prompt belongs to a create that names the alias, or to an Unlock. -/
def PromptAction.names (a : String) : PromptAction → Bool
  | .unlock _ => true
  | .createCollection _ aliasName => decide (aliasName = some a)
  | .deleteCollection _ => false

def BusCall.names (a : String) : BusCall ι → Bool
  | .preparing _ action | .exporting _ action | .holding _ action => action.names a
  | _ => true

/-- **Creates that name the alias**, and no `SetAlias`, Reload or delete; everything else can go on
beside them. -/
def BusAction.onlyCreates (a : String) : BusAction ι κ → Bool
  | .request _ _ action => action.names a
  | .inner (.daemon act) => act.names a
  | _ => true

/-- **The lookup is still true when it is used**: a create wins its gate only while the alias is
free and no other create is between its gate and the end of its recording; and none is killed in
between. -/
def Bus.createsInTurn (a : String) (b : Bus ι κ) : BusAction ι κ → Bool
  | .inner (.daemon (.task t .claim)) =>
    (b.system.daemon.gates t).committed ||
      (b.system.daemon.service.free a && b.issued.all fun t => !(b.system.daemon.tasks t).working)
  | .inner (.daemon (.task t .die)) => !(b.system.daemon.tasks t).working
  | _ => true

/-- Every prompt that is handed out, or is about to be, names the alias. -/
structure Bus.Armed (a : String) (b : Bus ι κ) : Prop where
  calls : ∀ k, (b.calls k).names a = true
  slots : ∀ i o action, b.objects i = some o → o.action = some action → action.names a = true

theorem BusCall.names_of_subject {call : BusCall ι} (subject : call.subject = none)
    (asked : ∀ c action, call = .preparing c action → action.names a = true) :
    call.names a = true := by
  cases call with
  | preparing c action => exact asked c action rfl
  | exporting | holding => cases subject
  | _ => rfl

variable [DecidableEq ι] [DecidableEq κ] {x : Externals} {toml : Toml} {cfg : Config} {idle : Nat}

theorem BusStep.armed (step : BusStep x toml cfg idle b act b') (only : act.onlyCreates a = true)
    (armed : b.Armed a) : b'.Armed a := by
  have call : ∀ {k : κ} {call : BusCall ι}, call.names a = true →
      ∀ k', (Function.update b.calls k call k').names a = true := by
    intro k call h k'
    rw [update_apply]
    split
    · exact h
    · exact armed.calls k'
  have slot : ∀ {i : ι} {o : PromptObject}, (∀ action, o.action = some action → action.names a = true) →
      ∀ i' o' action, Function.update b.objects i (some o) i' = some o' → o'.action = some action →
        action.names a = true := by
    intro i o h i' o' action object
    rw [update_apply] at object
    split at object
    · cases object
      exact h action
    · exact armed.slots i' o' action object
  cases step with
  | called plain before after asked =>
    refine ⟨call (BusCall.names_of_subject after fun c action eq => ?_), armed.slots⟩
    rw [asked c action eq] at only
    exact only
  | @issued k i c action before unused admitted quota =>
    have names := armed.calls k
    rw [before] at names
    exact ⟨call names, slot nofun⟩
  | @exported k i action o before object =>
    have names := armed.calls k
    rw [before] at names
    refine ⟨call rfl, slot ?_⟩
    rintro _ ⟨⟩
    exact names
  | @withdrawn k i action o before object =>
    exact ⟨call rfl, slot fun action => armed.slots i o action object⟩
  | @took k i o action before object action_ =>
    exact ⟨call (armed.slots i o action object action_), slot nofun⟩
  | disarmed before object => exact ⟨call rfl, slot nofun⟩
  | claimed before object moved =>
    refine ⟨call ?_, armed.slots⟩
    split
    · rfl
    · rfl
  | inserted | unexported | prompting | spent | spawned | dismissing | cancelled | finished =>
    exact ⟨call rfl, armed.slots⟩
  | inner | close | leave | disconnect => exact ⟨armed.calls, armed.slots⟩

/-- A step of the bus in such a run does to the daemon what its own action does, or what the begin
of a create does, or nothing. -/
theorem BusStep.daemon (step : BusStep x toml cfg idle b act b') (only : act.onlyCreates a = true)
    (armed : b.Armed a) : (act.own = none ∧ b.system.Rests b'.system) ∨
      ∃ act', DaemonStep x toml cfg b.system.daemon act' b'.system.daemon ∧ act'.names a = true ∧ (act.own = some act' ∨
          act.own = none ∧ ∃ t label aliasName, act' = .task t (.beginCreate label aliasName)) := by
  rcases step.rests_or_steps with rests | ⟨act', moved, own | ⟨own, k, i, action, before, begins⟩⟩
  · exact .inl rests
  · refine .inr ⟨act', moved, ?_, .inl own⟩
    obtain ⟨inner, rfl, daemon⟩ := BusAction.own_eq_some own
    subst daemon
    exact only
  · have names := armed.calls k
    rw [before] at names
    cases action with
    | unlock collections => cases begins
    | createCollection label aliasName =>
      cases begins
      exact .inr ⟨_, moved, names, .inr ⟨own, i, label, aliasName, rfl⟩⟩
    | deleteCollection id => cases names

/-! ## Every run -/

/-- The creates that have made a collection, and whether an alias was repointed. -/
structure CreateLog (ι : Type) where
  created : List ι
  repointed : Bool
  deriving DecidableEq

def CreateLog.empty : CreateLog ι := { created := [], repointed := false }

def CreateLog.note (a : String) (b : Bus ι κ) (act : BusAction ι κ) (b' : Bus ι κ)
    (log : CreateLog ι) : CreateLog ι :=
  { created := log.created ++ act.own.toList.flatMap (b.system.daemon.makes b'.system.daemon)
    repointed := log.repointed || b.system.daemon.service.repoints a b'.system.daemon.service }

/-- What holds in every state. -/
structure Bus.Creates (a : String) (p : Bus ι κ × CreateLog ι) : Prop where
  sound : p.1.Sound
  armed : p.1.Armed a
  named : ∀ t, (p.1.system.daemon.tasks t).names a = true
  stands : p.1.system.daemon.Standing a p.2.created
  steady : p.2.repointed = false

omit [DecidableEq κ] in
theorem Bus.Sound.working_issued (sound : b.Sound) {t : ι}
    (working : (b.system.daemon.tasks t).working = true) : t ∈ b.issued := by
  refine sound.listed t fun fresh => ?_
  have stage := (sound.fresh t fresh .createCollection).stage
  have stage : (b.system.daemon.tasks t).stage = .idle ∨ (b.system.daemon.tasks t).stage = .other ∨
      (b.system.daemon.tasks t).stage = .ended := stage
  rcases stage with h | h | h
  · simp [Task.working, h] at working
  · simp [Task.working, h] at working
  · simp [Task.working, h] at working

omit [DecidableEq κ] in
theorem Bus.Sound.inTurn (sound : b.Sound) {act' : Action ι} (own : act.own = some act')
    (turn : b.createsInTurn a act = true) :
    b.system.daemon.spares act' = true ∧ b.system.daemon.Admits a act' := by
  obtain ⟨inner, rfl, rfl⟩ := BusAction.own_eq_some own
  constructor
  · unfold Daemon.spares
    split
    · exact turn
    · rfl
  · rintro t rfl uncommitted
    rw [Bus.createsInTurn, uncommitted, Bool.false_or, Bool.and_eq_true, List.all_eq_true] at turn
    refine ⟨turn.1, fun t' => ?_⟩
    rw [Bool.eq_false_iff]
    intro working
    have idle := turn.2 t' (sound.working_issued working)
    rw [working] at idle
    cases idle

theorem Bus.Creates.step {p p' : Bus ι κ × CreateLog ι} (inv : Bus.Creates a p)
    (only : act.onlyCreates a = true) (turn : p.1.createsInTurn a act = true)
    (step : BusStep x toml cfg idle p.1 act p'.1) (log : p'.2 = CreateLog.note a p.1 act p'.1 p.2) :
    Bus.Creates a p' := by
  have sound := inv.sound.step step
  have armed := step.armed only inv.armed
  rcases step.daemon only inv.armed with ⟨own, tasks, service⟩ | ⟨act', moved, names, own⟩
  · have note : p'.2 = p.2 := by
      rw [log, CreateLog.note, own, repoints_same (by rw [service])]
      simp
    refine ⟨sound, armed, fun t => by rw [tasks]; exact inv.named t, ?_, by rw [note]; exact inv.steady⟩
    rw [note]
    exact inv.stands.congr tasks service
  · obtain ⟨spares, admits, makes⟩ : p.1.system.daemon.spares act' = true ∧ p.1.system.daemon.Admits a act' ∧
        act.own.toList.flatMap (p.1.system.daemon.makes p'.1.system.daemon) =
          p.1.system.daemon.makes p'.1.system.daemon act' := by
      rcases own with own | ⟨own, t, label, aliasName, rfl⟩
      · obtain ⟨spares, admits⟩ := inv.sound.inTurn own turn
        exact ⟨spares, admits, by simp [own]⟩
      · exact ⟨rfl, nofun, by simp [own, Daemon.makes]⟩
    obtain ⟨stands, steady⟩ := moved.standing names spares admits inv.named inv.stands
    refine ⟨sound, armed, moved.names names spares inv.named, ?_, ?_⟩
    · rw [log, CreateLog.note, makes]
      exact stands
    · rw [log, CreateLog.note, steady, inv.steady]
      rfl

variable {dir : Dir} {aliasFile : Option Bytes} {daemon : Daemon ι} {log : CreateLog ι}

/-- **One collection per alias**, in every run of creates that name it in which the lookup is still
true when it is used: at most one of them makes a collection, and the alias is not taken from a
loaded collection. -/
theorem creates_of_alias_make_one_collection
    (boot : Daemon.boot ι x toml cfg dir aliasFile = some daemon)
    (run : Reach (logged (Bus.step x toml cfg idle) (CreateLog.note a))
      (fun p act => act.onlyCreates a = true ∧ p.1.createsInTurn a act = true)
      (Bus.start κ daemon, .empty) (b, log)) : log.created.length ≤ 1 ∧ log.repointed = false := by
  have booted := Daemon.boot_booted boot
  have inv : Bus.Creates a (b, log) := by
    refine run.invariant (Bus.Creates a) ?_ ?_
    · refine ⟨Bus.start_sound booted, ⟨fun _ => rfl, nofun⟩, fun t => ?_, .quiet fun t => ?_, rfl⟩
      · exact congrArg (Task.names a) (booted.tasks t)
      · exact congrArg Task.working (booted.tasks t)
    · rintro p act p' inv ⟨only, turn⟩ moved
      obtain ⟨step, log⟩ := logged_eq_some moved
      exact inv.step only turn (Bus.step_inv step) log
  exact ⟨inv.stands.length_le, inv.steady⟩

end

/-! ## Runs of two creates -/

section

open Reference

variable {ι κ : Type} [∀ n, OfNat ι n] [∀ n, OfNat κ n]

/-- TOML on the tables that two creates of the default alias can write. -/
def twoCreates : Toml := toml [∅, .ofList [("default", "login")], .ofList [("default", "work")]]

abbrev createStep (n k : Nat) : Bus (Fin n) (Fin k) × CreateLog (Fin n) →
    BusAction (Fin n) (Fin k) →
    Option (Bus (Fin n) (Fin k) × CreateLog (Fin n)) :=
  logged (Bus.step externals twoCreates config 10) (CreateLog.note "default")

abbrev createBoot (n : Nat) : Option (Daemon (Fin n)) :=
  Daemon.boot (Fin n) externals twoCreates config ∅ none

/-- A confirmed create runs from its dialog to the end of its recording. -/
def runCreate {ι κ : Type} (i : ι) : List (BusAction ι κ) :=
  let steps : List (Action ι) :=
    (createSteps i "" none).tail ++ [Action.insert i] ++ aliasSteps i ++ [Action.task i .finish]
  steps.map fun act => .inner (.daemon act)

/-- Two creates name the default alias, and both dialogs are confirmed. -/
def bothConfirmed : List (BusAction ι κ) :=
  issueSteps 0 ":1.7" 0 (.createCollection "Login" (some "default")) ++
    issueSteps 1 ":1.8" 1 (.createCollection "Work" (some "default")) ++
    promptSteps 2 ":1.7" 0 ++ promptSteps 3 ":1.8" 1 ++ runCreate 0 ++ runCreate 1

/-- **The lookup can be stale**: two creates that name one alias both make a collection, and the
second takes the alias from the first. -/
theorem creates_of_alias_make_two_collections : ∃ d p, createBoot 2 = some d ∧
      Reach (createStep 2 4) (fun _ act => act.onlyCreates "default" = true) (Bus.start (Fin 4) d, .empty) p ∧
      p.2 = { created := [0, 1], repointed := true } ∧
      p.1.system.daemon.service.target "default" = some "work" := by
  exact Reach.exists_run_from bothConfirmed _ (by decide +kernel) fun _ _ passed => passed

/-- A create names the default alias and runs to its end, and a later call is refused. -/
def oneAfterTheOther : List (BusAction ι κ) :=
  issueSteps 0 ":1.7" 0 (.createCollection "Login" (some "default")) ++ promptSteps 1 ":1.7" 0 ++
    runCreate 0 ++ [BusAction.request 2 ":1.8" (.createCollection "Work" (some "default")), .issue 2 1]

theorem creates_of_alias_make_one_collection_sequence :
    ∃ d p, createBoot 2 = some d ∧ Reach (createStep 2 4)
        (fun p act => act.onlyCreates "default" = true ∧ p.1.createsInTurn "default" act = true)
        (Bus.start (Fin 4) d, .empty) p ∧
      (p.2.created = [0] ∧ p.1.issued = [0] ∧ p.1.system.daemon.service.target "default" = some "login") ∧
      p.2.created.length ≤ 1 ∧ p.2.repointed = false := by
  refine Reach.exists_run_from oneAfterTheOther (fun p => p.2.created = [0] ∧ p.1.issued = [0] ∧
    p.1.system.daemon.service.target "default" = some "login") (by decide +kernel)
    fun boot run passed => ?_
  exact ⟨passed, creates_of_alias_make_one_collection boot run⟩

end

end SecretManager
