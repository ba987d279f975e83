import SecretManager.Laws.Dbus.ViewSteps
import SecretManager.Laws.Dbus.Updates
import SecretManager.Dbus.Reference

/-!
# What a client may hold at once

A quota is checked when a call comes in, and the entry is made later, after other calls have had the
state lock. What counts is the second check, under the lock that makes the entry: a step adds at
most one entry, for a client that has room for it, and every other step takes entries away or leaves
them.

The alias table is different, since an update edits a copy and installs it later, perhaps over a
table that has grown in the meantime. But the copy has passed the check too, so no table that is
installed is too large, as long as no Reload brings one in.
-/

namespace SecretManager

open Function

variable {ι κ : Type} {x : Externals} {toml : Toml} {cfg : Config} {idle : Nat} {b b' : Bus ι κ}
variable {act : BusAction ι κ}

/-! ## Owners -/

section

variable {c : Client} {i : ι}

theorem Bus.ownedBy_iff : b.ownedBy c i = true ↔ ∃ o, b.objects i = some o ∧ o.withdrawn = false ∧
      (b.system.gateOf o.kind i).owned = true ∧ o.owner = c := by
  unfold Bus.ownedBy Bus.hasOwner
  cases b.objects i with
  | none => simp
  | some o => simp [and_assoc]

variable [DecidableEq ι]

theorem LockSystem.step_owned {s s' : LockSystem ι ι} {act : LockAction ι ι}
    (moved : s.step x toml cfg idle act = some s') {kind : PromptKind}
    (owned : (s'.gateOf kind i).owned = true) : (s.gateOf kind i).owned = true := by
  rw [← LockSystem.taskState_gate] at owned ⊢
  exact ((LockSystem.step_inv moved).moves kind i).owned_of owned

theorem Bus.reclaimAll_owned {kind : PromptKind}
    (owned : ((b.reclaimAll x toml cfg idle c).gateOf kind i).owned = true) :
    (b.system.gateOf kind i).owned = true := by
  rw [Bus.reclaimAll_eq] at owned
  have each : ∀ (s : LockSystem ι ι) (j : ι), ((b.reclaimOne x toml cfg idle s j).gateOf kind i).owned = true →
        (s.gateOf kind i).owned = true := by
    intro s j owned
    unfold Bus.reclaimOne at owned
    split at owned
    next o object =>
      cases moved : s.step x toml cfg idle (o.kind.gate j .reclaim) with
      | none =>
        rw [moved] at owned
        exact owned
      | some s' =>
        rw [moved] at owned
        exact LockSystem.step_owned moved owned
    · exact owned
  generalize b.system = s, b.issued.filter (b.ownedBy c) = prompts at owned ⊢
  induction prompts generalizing s with
  | nil => exact owned
  | cons j prompts ih => exact each s j (ih _ owned)

variable [DecidableEq κ]

theorem BusStep.ownedBy (step : BusStep x toml cfg idle b act b') (owned : b'.ownedBy c i = true) :
    b.ownedBy c i = true ∨ b.promptQuota c = true ∧ ∀ j, b'.ownedBy c j = true → j ≠ i → b.ownedBy c j = true := by
  have still : ∀ {b' : Bus ι κ}, b'.ownedBy c i = true → b'.objects = b.objects →
      (∀ {kind j}, (b'.system.gateOf kind j).owned = true → (b.system.gateOf kind j).owned = true) →
      b.ownedBy c i = true := by
    intro b' owned objects gate
    obtain ⟨o, object, kept, owned, owner⟩ := Bus.ownedBy_iff.mp owned
    rw [objects] at object
    exact Bus.ownedBy_iff.mpr ⟨o, object, kept, gate owned, owner⟩
  -- the object of a prompt that is there keeps its owner, and is withdrawn for good
  have armed : ∀ {b' : Bus ι κ} {j : ι} {o o' : PromptObject}, b'.ownedBy c i = true →
      b'.objects = Function.update b.objects j (some o') → b'.system = b.system →
      b.objects j = some o → o'.kind = o.kind → o'.owner = o.owner →
      (o'.withdrawn = false → o.withdrawn = false) → b.ownedBy c i = true := by
    intro b' j o o' owned objects system object kind owner kept
    obtain ⟨o₁, object₁, kept₁, owned₁, owner₁⟩ := Bus.ownedBy_iff.mp owned
    rw [objects] at object₁
    rw [system] at owned₁
    refine Bus.ownedBy_iff.mpr ?_
    by_cases same : i = j
    · subst same
      rw [update_self] at object₁
      cases object₁
      exact ⟨o, object, kept kept₁, kind ▸ owned₁, owner ▸ owner₁⟩
    · rw [update_of_ne same] at object₁
      exact ⟨o₁, object₁, kept₁, owned₁, owner₁⟩
  cases step with
  | @issued k j c' action before unused admitted quota =>
    have other : ∀ {c₁ : Client} {j' : ι}, j' ≠ j → Bus.ownedBy
        { (b.setCall k (.exporting j action)).setObject j
            { owner := c', kind := action.kind, action := none, exported := false, withdrawn := false }
          with issued := b.issued ++ [j] } c₁ j' = true → b.ownedBy c₁ j' = true := by
      intro c₁ j' ne owned
      obtain ⟨o, object, held⟩ := Bus.ownedBy_iff.mp owned
      exact Bus.ownedBy_iff.mpr ⟨o, (update_of_ne ne _ _).symm.trans object, held⟩
    by_cases same : i = j
    · subst same
      obtain ⟨o, object, -, -, owner⟩ := Bus.ownedBy_iff.mp owned
      cases (update_self i _ b.objects).symm.trans object
      obtain rfl : c' = c := owner
      exact .inr ⟨quota, fun j' owned' ne => other ne owned'⟩
    · exact .inl (other same owned)
  | exported before object | took before object slot | disarmed before object =>
    exact .inl (armed owned rfl rfl object rfl rfl id)
  | withdrawn before object => exact .inl (armed owned rfl rfl object rfl rfl nofun)
  | inner free own moved | spawned before moved
  | cancelled before object moved | claimed before object moved | finished before object moved =>
    exact .inl (still owned rfl (LockSystem.step_owned moved))
  | disconnect left unprocessed => exact .inl (still owned rfl Bus.reclaimAll_owned)
  | _ => exact .inl (still owned rfl id)

/-! ## Quotas -/

def Bus.sessionsOf (b : Bus ι κ) (c : Client) : List (Nat × Client) :=
  b.sessions.filter fun e => decide (e.2 = c)

theorem BusStep.sessionsOf_length (step : BusStep x toml cfg idle b act b') (c : Client) :
    (b'.sessionsOf c).length ≤ (b.sessionsOf c).length ∨ (b.sessionsOf c).length < maxSessionsPerSender ∧
        (b'.sessionsOf c).length = (b.sessionsOf c).length + 1 := by
  have fewer : ∀ {sessions : List (Nat × Client)}, sessions.Sublist b.sessions →
      (sessions.filter fun e => decide (e.2 = c)).length ≤ (b.sessionsOf c).length :=
    fun sublist => (sublist.filter _).length_le
  cases step with
  | @inserted k c' before quota =>
    unfold Bus.sessionsOf
    by_cases same : c' = c
    · subst same
      exact .inr ⟨of_decide_eq_true quota, by simp⟩
    · exact .inl (by simp [same])
  | unexported | close | disconnect => exact .inl (fewer List.filter_sublist)
  | _ => exact .inl (fewer (List.Sublist.refl _))

/-- Both quotas: sessions of one sender, and live prompts of one owner. -/
structure Bus.WithinQuotas (b : Bus ι κ) : Prop where
  sessions : ∀ c, (b.sessionsOf c).length ≤ maxSessionsPerSender
  prompts : ∀ c (prompts : Finset ι), (∀ i ∈ prompts, b.ownedBy c i = true) → prompts.card ≤ maxPromptsPerOwner

omit [DecidableEq κ] in
theorem Bus.card_le_of_ownedBy (listed : ∀ i, b.objects i ≠ none → i ∈ b.issued)
    {prompts : Finset ι} (owned : ∀ i ∈ prompts, b.ownedBy c i = true) :
    prompts.card ≤ (b.issued.filter (b.ownedBy c)).length := by
  refine le_trans (Finset.card_le_card ?_) (List.toFinset_card_le _)
  intro i mem
  obtain ⟨o, object, -⟩ := Bus.ownedBy_iff.mp (owned i mem)
  exact List.mem_toFinset.mpr
    (List.mem_filter.mpr ⟨listed i (by rw [object]; nofun), owned i mem⟩)

theorem BusStep.withinQuotas (step : BusStep x toml cfg idle b act b')
    (listed : ∀ i, b.objects i ≠ none → i ∈ b.issued) (held : b.WithinQuotas) :
    b'.WithinQuotas where
  sessions c := by
    have before := held.sessions c
    rcases step.sessionsOf_length c with fewer | ⟨room, one⟩
    · exact fewer.trans before
    · omega
  prompts c prompts owned := by
    by_cases old : ∀ i ∈ prompts, b.ownedBy c i = true
    · exact held.prompts c prompts old
    · -- one of them is new, and the others left room for it
      push Not at old
      obtain ⟨i, mem, new⟩ := old
      obtain ⟨quota, others⟩ := (step.ownedBy (owned i mem)).resolve_left (by simp [new])
      have rest : (prompts.erase i).card ≤ (b.issued.filter (b.ownedBy c)).length := by
        refine Bus.card_le_of_ownedBy listed fun j mem => ?_
        obtain ⟨ne, mem⟩ := Finset.mem_erase.mp mem
        exact others j (owned j mem) ne
      have room : (b.issued.filter (b.ownedBy c)).length < maxPromptsPerOwner := of_decide_eq_true quota
      have card := Finset.card_erase_add_one mem
      omega

/-- The quotas hold on **every run**, with no premise on what the clients do. -/
theorem Bus.withinQuotas_of_reach {daemon : Daemon ι}
    (run : Reach (Bus.step x toml cfg idle) (fun _ _ => True) (Bus.start κ daemon) b) :
    b.WithinQuotas := by
  refine (run.invariant (fun b => (∀ i, b.objects i ≠ none → i ∈ b.issued) ∧ b.WithinQuotas) ?_ ?_).2
  · refine ⟨fun i h => absurd rfl h, fun c => Nat.zero_le _, fun c prompts owned => ?_⟩
    have none : prompts = ∅ := by
      refine Finset.eq_empty_of_forall_notMem fun i mem => ?_
      obtain ⟨o, object, -⟩ := Bus.ownedBy_iff.mp (owned i mem)
      cases object
    rw [none]
    exact Nat.zero_le _
  · rintro b act b' ⟨listed, held⟩ - moved
    have step := Bus.step_inv moved
    exact ⟨fun i => step.listed listed, step.withinQuotas listed held⟩

end

/-! ## Aliases -/

/-- The table has at most as many entries as clients may make. -/
def AliasMap.Fits (table : AliasMap) : Prop := table.size ≤ maxAliases

theorem fits_insert {table : AliasMap} {name : String} (fits : AliasMap.Fits table)
    (room : checkAliasRoom table name = .ok ()) (id : String) :
    AliasMap.Fits (table.insert name id) := by
  unfold AliasMap.Fits at fits ⊢
  unfold checkAliasRoom at room
  rw [Std.ExtTreeMap.size_insert]
  split
  · exact fits
  next new =>
    split at room
    · cases room
    next small =>
      simp only [new, Bool.not_false, Bool.true_and, decide_eq_true_eq] at small
      omega

theorem update_fits {task : Task} {call : AliasCall ServiceView DbusError}
    {phase : CallPhase DbusError} {view : ServiceView} {base next : AliasMap}
    (update : task.update = some (call, phase)) (fits : AliasMap.Fits base)
    (edit : call.edit view base = .ok next) : AliasMap.Fits next := by
  rcases Task.update_cases update with ⟨name, collection, -, rfl⟩ | ⟨-, -, id, name, -, rfl⟩ |
    ⟨id, -, -, rfl⟩
  · simp only [setAlias] at edit
    split at edit
    · cases edit
      exact Nat.le_trans Std.ExtTreeMap.size_erase_le fits
    · split at edit
      · cases edit
      · split at edit
        · cases edit
        next room =>
          cases edit
          exact fits_insert fits room _
  · simp only [recordAlias] at edit
    split at edit
    · cases edit
    next room =>
      cases edit
      exact fits_insert fits room id
  · simp only [purgeAliases] at edit
    cases edit
    exact Nat.le_trans Std.ExtTreeMap.size_filter_le_size fits

section

variable [DecidableEq ι] [DecidableEq κ] {b₀ : Bus ι κ}

/-- The action is a piece of a Reload. -/
def BusAction.reloads (act : BusAction ι κ) : Bool := act.own.any Action.reloads

/-- The table fits, and so does every table that an update under way may install. -/
structure Daemon.AliasesFit (d : Daemon ι) : Prop where
  known : AliasMap.Fits d.service.aliases.known
  pending : ∀ t next, (d.tasks t).pending = some next → AliasMap.Fits next

theorem BusStep.aliasesFit (step : BusStep x toml cfg idle b act b')
    (noReload : act.reloads = false) (fit : b.system.daemon.AliasesFit) :
    b'.system.daemon.AliasesFit := by
  rcases step.rests_or_steps with ⟨-, tasks, service⟩ |
    ⟨act', moved, own | ⟨-, k, i, action, -, begins⟩⟩
  · exact ⟨service ▸ fit.known, fun t next h => fit.pending t next (tasks ▸ h)⟩
  · have noReload' : act'.reloads = false := by
      rw [BusAction.reloads, own] at noReload
      exact noReload
    obtain ⟨known, pending⟩ := moved.tables noReload' update_fits fit.known fit.pending
    exact ⟨known, pending⟩
  · have noReload' : act'.reloads = false := by
      cases action with
      | unlock collections => cases begins
      | createCollection label aliasName | deleteCollection id =>
        cases begins
        rfl
    obtain ⟨known, pending⟩ := moved.tables noReload' update_fits fit.known fit.pending
    exact ⟨known, pending⟩

theorem Bus.aliasesFit_of_reach
    (run : Reach (Bus.step x toml cfg idle) (fun _ act => act.reloads = false) b₀ b)
    (fit : b₀.system.daemon.AliasesFit) : b.system.daemon.AliasesFit :=
  run.invariant (fun b => b.system.daemon.AliasesFit) fit
    fun fit noReload moved => (Bus.step_inv moved).aliasesFit noReload fit

/-! ## Every run -/

variable {dir : Dir} {aliasFile : Option Bytes} {daemon : Daemon ι}

/-- **Quotas hold at every moment** of every run: of sessions, of prompts, and, from a table that
fits and as long as nothing is reloaded, of aliases. The table may be the one the daemon has started
with or the one that is there later, when every update under way has started from a table that
fits. -/
theorem client_quotas (boot : Daemon.boot ι x toml cfg dir aliasFile = some daemon)
    (run : Reach (Bus.step x toml cfg idle) (fun _ _ => True) (Bus.start κ daemon) b₀) :
    (∀ c, (b₀.sessions.filter fun e => decide (e.2 = c)).length ≤ 32) ∧
      (∀ c (prompts : Finset ι), (∀ i ∈ prompts, b₀.ownedBy c i = true) → prompts.card ≤ 8) ∧
      (daemon.service.aliases.known.size ≤ 256 →
        ∀ b, Reach (Bus.step x toml cfg idle) (fun _ act => act.reloads = false) (Bus.start κ daemon) b →
          b.system.daemon.service.aliases.known.size ≤ 256) ∧
      (b₀.system.daemon.service.aliases.known.size ≤ 256 →
        (∀ t next, (b₀.system.daemon.tasks t).pending = some next → next.size ≤ 256) →
        ∀ b, Reach (Bus.step x toml cfg idle) (fun _ act => act.reloads = false) b₀ b →
          b.system.daemon.service.aliases.known.size ≤ 256) := by
  have held := Bus.withinQuotas_of_reach run
  refine ⟨held.sessions, held.prompts, fun known b run' => ?_, fun known pending b run' => ?_⟩
  · refine (Bus.aliasesFit_of_reach run' ⟨known, fun t next h => ?_⟩).known
    have h : (daemon.tasks t).pending = some next := h
    rw [(Daemon.boot_booted boot).tasks t] at h
    cases h
  · exact (Bus.aliasesFit_of_reach run' ⟨known, pending⟩).known

end

section

open Reference

/-- A client has a collection made with an alias, asks for nine prompts before any of them is made,
and opens a session. -/
def greedyClient : List (BusAction (Fin 10) (Fin 12)) :=
  let recorded : List (Action (Fin 10)) := [Action.insert 9] ++ aliasSteps 9 ++ [Action.task 9 .finish]
  let callers := List.finRange 9
  issueSteps 10 ":1.7" 9 (.createCollection "Login" (some "default")) ++ promptSteps 11 ":1.7" 9 ++
    createTask 9 ++ recorded.map (fun act => BusAction.inner (.daemon act)) ++
    callers.map (fun i => BusAction.request (i.castLE (by decide)) ":1.7" (.unlock ["login"])) ++
    callers.map (fun i => BusAction.issue (i.castLE (by decide)) (i.castLE (by decide))) ++
    [BusAction.openSession 9 ":1.7", .insertSession 9]

theorem client_quotas_greedy : ∃ daemon b, emptyBoot 10 = some daemon ∧
      Reach busStep (fun _ act => act.reloads = false) (Bus.start (Fin 12) daemon) b ∧
      (b.sessions = [(1, ":1.7")] ∧ b.issued = [9, 0, 1, 2, 3, 4, 5, 6, 7] ∧
        (List.finRange 10).filter (b.ownedBy ":1.7") = [0, 1, 2, 3, 4, 5, 6, 7] ∧
        b.system.daemon.service.aliases.known.size = 1) ∧
      (∀ c, (b.sessions.filter fun e => decide (e.2 = c)).length ≤ 32) ∧
      (∀ c (prompts : Finset (Fin 10)), (∀ i ∈ prompts, b.ownedBy c i = true) → prompts.card ≤ 8) ∧
      b.system.daemon.service.aliases.known.size ≤ 256 := by
  refine Reach.exists_run_from greedyClient
    (fun b => b.sessions = [(1, ":1.7")] ∧ b.issued = [9, 0, 1, 2, 3, 4, 5, 6, 7] ∧
      (List.finRange 10).filter (b.ownedBy ":1.7") = [0, 1, 2, 3, 4, 5, 6, 7] ∧
      b.system.daemon.service.aliases.known.size = 1) (by decide +kernel) ?_
  intro daemon b boot run full
  have started : daemon.service.aliases.known.size ≤ 256 := by
    have empty : (emptyBoot 10).all (fun d => decide (d.service.aliases.known.size ≤ 256)) = true := by
      decide
    rw [boot] at empty
    exact of_decide_eq_true empty
  obtain ⟨sessions, prompts, aliases, -⟩ := client_quotas boot (run.mono fun _ => trivial)
  exact ⟨full, sessions, prompts, aliases started b run⟩

end

end SecretManager
