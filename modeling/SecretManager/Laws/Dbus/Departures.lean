import SecretManager.Laws.Dbus.Commits

/-!
# Prompts of clients that have left

The disconnect of a client is processed once. It takes the owner entries of the client's prompts
away and tells their tasks to abort, unless they have won their gate. Two gaps are left. A `Prompt`
call that has taken the action and not spawned the task yet has nothing that could be aborted, and
it spawns the task all the same. And a task that stands between its dialog and its gate does not
wait anywhere, so it wins the gate after it was told to abort.

In every run that stays out of the two gaps, a create or delete whose owner's disconnect was
processed before the gate was claimed makes and unlinks no vault file.
-/

namespace SecretManager

variable {ι κ : Type} {o : PromptObject} {label : TaskLabel}

/-! ## What is recorded -/

structure DepartureLog where
  /-- The disconnect of the owner had been processed, and the gate was not claimed. -/
  departed : Bool
  files : List FileEvent
  deriving DecidableEq

def DepartureLog.empty : DepartureLog := { departed := false, files := [] }

def DepartureLog.note {κ : Type} (e : PromptEvents) (v : PromptView κ) (l : DepartureLog) :
    DepartureLog :=
  { departed := l.departed || (v.gone && !v.state.gate.committed)
    files := l.files ++ e.file.toList }

/-! ## The gaps -/

section

/-- **No gap is met**: while its gate is unclaimed, no create or delete is spawned whose owner's
disconnect has been processed, and none tries the gate after it was told to abort. -/
def Bus.stopsInTime (b : Bus ι κ) : BusAction ι κ → Bool
  | .spawn k =>
    match b.calls k with
    | .holding i action =>
      decide (action.kind = .unlock) || (b.system.gateOf action.kind i).committed ||
        !(b.objects i).any fun o => b.processed o.owner
    | _ => true
  | .inner (.daemon (.task i .claim)) =>
    (b.system.daemon.gates i).committed || !(b.system.daemon.gates i).told
  | _ => true

/-- The same, seen from one prompt. -/
structure PromptView.InTime (v : PromptView κ) (e : PromptEvents) : Prop where
  run : e.run = true → v.gone = true → v.state.gate.committed = true
  claims : e.claims = true → v.state.gate.told = true → v.state.gate.committed = true

variable [DecidableEq ι] {b b' : Bus ι κ} {a : BusAction ι κ} {i : ι}

theorem BusCall.holding_of_about {call : BusCall ι} {action : PromptAction}
    (h : call.about i = some (.holding action)) : call = .holding i action := by
  cases call with
  | holding j action' =>
    by_cases hij : i = j
    · subst hij
      rw [BusCall.about_self rfl] at h
      cases h
      rfl
    · rw [BusCall.about_of_ne rfl hij] at h
      cases h
  | idle | opening c | opened session | preparing c action | returned => cases h
  | exporting j action | prompting j | dismissing j | disarmed j | cancelled j | won j =>
    by_cases hij : i = j
    · subst hij
      rw [BusCall.about_self rfl] at h
      cases h
    · rw [BusCall.about_of_ne rfl hij] at h
      cases h

theorem Bus.run_inv (h : (b.events a b' i).run = true) :
    ∃ k action, a = .spawn k ∧ b.calls k = .holding i action := by
  cases object : b.objects i with
  | none =>
    rw [Bus.events_fresh object] at h
    cases h
  | some o =>
    cases a with
    | spawn k =>
      simp only [Bus.events, object, Option.any_eq_true] at h
      obtain ⟨call, about, holding⟩ := h
      cases call with
      | holding action => exact ⟨k, action, rfl, BusCall.holding_of_about about⟩
      | _ => cases holding
    | inner a | finish k => simp [Bus.events, object, PromptEvents.none] at h
    | _ =>
      cases h

theorem Action.claims_inv {act : Action ι} (h : act.label i = .claims) : act = .task i .claim := by
  cases act with
  | task t act =>
    obtain ⟨rfl, label⟩ := TaskLabel.ite_eq h (by decide)
    cases act with
    | claim => rfl
    | _ => cases label
  | gate t act | operate t op | unlink t fault | unmap t | job t env | insert t | aliases t env =>
    cases (TaskLabel.ite_eq h (by decide)).2
  | _ => cases h

theorem Bus.claims_inv (object : b.objects i = some o) (kind : o.kind ≠ .unlock)
    (h : (b.events a b' i).claims = true) : a = .inner (.daemon (.task i .claim)) := by
  cases a with
  | inner act =>
    simp only [Bus.events, object, decide_eq_true_eq] at h
    have label : act.label .createCollection i = .claims := by
      cases hkind : o.kind with
      | unlock => exact absurd hkind kind
      | createCollection | deleteCollection =>
        rw [hkind] at h
        exact h
    cases act with
    | daemon act => rw [Action.claims_inv label]
    | _ => cases label
  | spawn k | finish k => simp [Bus.events, object, PromptEvents.none] at h
  | _ =>
    cases h

theorem Bus.inTime (sound : b.Sound) (ok : b.stopsInTime a = true) (object : b.objects i = some o)
    (kind : o.kind ≠ .unlock) : (b.view i).InTime (b.events a b' i) where
  run h gone := by
    obtain ⟨k, action, rfl, call⟩ := Bus.run_inv h
    have held : (b.view i).calls k = some (.holding action) := by
      simp only [Bus.view, call]
      exact BusCall.about_self rfl
    obtain ⟨o', object', hkind⟩ := (sound.views i).holds k _ action held rfl
    obtain rfl : o = o' := Option.some.inj (object.symm.trans object')
    have processed : b.processed o.owner = true := by simpa [Bus.view, object] using gone
    rw [Bus.view_state object, LockSystem.taskState_gate]
    simpa [Bus.stopsInTime, call, hkind, kind, object, processed] using ok
  claims h told := by
    obtain rfl := Bus.claims_inv object kind h
    have gate : (b.view i).state.gate = b.system.daemon.gates i := by
      rw [Bus.view_state object]
      cases hkind : o.kind with
      | unlock => exact absurd hkind kind
      | createCollection | deleteCollection => rfl
    rw [gate] at told ⊢
    simpa [Bus.stopsInTime, told] using ok

end

/-! ## Tasks that are stopped -/

section

/-- No file was made or unlinked, and only a task that was told to abort, or whose gate is taken, is
still to come to its gate. -/
structure TaskState.Stopped (p : TaskState) (files : List FileEvent) : Prop where
  files : files = []
  quiet : p.stage.quiet = true
  asks : p.stage = .asks → p.gate.told = true ∨ p.gate.committed = true

variable {kind : PromptKind} {p p' : TaskState} {e : Option FileEvent} {files : List FileEvent}

theorem TaskState.Stopped.of_ne (stopped : p.Stopped files) (quiet : p'.stage.quiet = true)
    (ne : p'.stage ≠ .asks) : p'.Stopped files :=
  ⟨stopped.files, quiet, fun h => absurd h ne⟩

theorem TaskState.Stopped.keep (stopped : p.Stopped files) (stage : p'.stage = p.stage)
    (told : p.gate.told = true → p'.gate.told = true)
    (committed : p.gate.committed = true → p'.gate.committed = true) : p'.Stopped files :=
  ⟨stopped.files, stage ▸ stopped.quiet, fun h => (stopped.asks (stage ▸ h)).imp told committed⟩

theorem TaskMove.told (move : TaskMove kind label p e p') (h : p.gate.told = true) :
    p'.gate.told = true := by
  rw [Gate.told, Bool.or_eq_true] at h ⊢
  cases move with
  | reclaimed owned kept | claimed unclaimed => exact h.imp_left (Bool.or_eq_true_iff.mpr ∘ .inl)
  | aborted aborting => exact .inr rfl
  | _ => exact h

theorem TaskMove.committed (move : TaskMove kind label p e p') (stage : p.stage ≠ .unlocks)
    (h : p.gate.committed = true) : p'.gate.committed = true := by
  cases move with
  | wins unclaimed | claimed unclaimed => rfl
  | unlocks committed r' => exact absurd rfl stage
  | _ => exact h

theorem TaskMove.claim_commits (move : TaskMove kind (.gate .dismissClaim) p e p') :
    p'.gate.committed = true := by
  cases move with
  | claimed unclaimed => rfl
  | late claimed => exact claimed

theorem TaskMove.stopped (move : TaskMove kind label p e p') (stopped : p.Stopped files)
    (begins : label = .begins → p.gate.committed = true)
    (claims : label = .claims → p.gate.told = true → p.gate.committed = true) :
    e = none ∧ p'.Stopped files := by
  have told := move.told
  cases move with
  | aside | stays => exact ⟨rfl, stopped⟩
  | begins first =>
    refine ⟨rfl, stopped.files, ?_, fun _ => .inr (begins rfl)⟩
    rcases TaskStage.begun_cases first with rfl | rfl | ⟨rfl, -⟩
    · rfl
    · rfl
    · rfl
  | serves after =>
    rcases after with rfl | rfl
    · exact ⟨rfl, stopped.of_ne rfl nofun⟩
    · exact ⟨rfl, stopped.of_ne rfl nofun⟩
  | released | refused | loses claimed | unlocks committed r' | finishes done =>
    exact ⟨rfl, stopped.of_ne rfl nofun⟩
  | wins unclaimed =>
    have claimed := (stopped.asks rfl).elim (claims rfl) id
    rw [unclaimed] at claimed
    cases claimed
  | fails | does e | succeeds | job e => cases stopped.quiet
  | dies aborted alive after =>
    rcases after with rfl | ⟨rfl, -⟩
    · exact ⟨rfl, stopped.of_ne rfl nofun⟩
    · cases stopped.quiet
  | claimed unclaimed => exact ⟨rfl, stopped.files, stopped.quiet, fun _ => .inr rfl⟩
  | reclaimed owned kept | dismissed | late claimed | ends dismissing | aborted aborting =>
    exact ⟨rfl, stopped.keep rfl told id⟩

theorem TaskMove.owned_lost (move : TaskMove kind label p e p') (before : p.gate.owned = true)
    (after : p'.gate.owned = false) :
    label = .finishes ∨ label = .gate .dismissFinish ∨ label = .gate .reclaim := by
  cases move with
  | finishes done => exact .inl rfl
  | ends dismissing => exact .inr (.inl rfl)
  | reclaimed owned kept => exact .inr (.inr rfl)
  | _ => cases before.symm.trans after

/-- A task that is to ask for its gate can be aborted through its handle, until it is told to abort
or its gate is taken. -/
theorem TaskMove.asks (move : TaskMove kind label p e p') (asks : p'.stage = .asks) :
    label = .begins ∧ p'.gate.handle = true ∧ p'.gate.owned = p.gate.owned ∨
      p.stage = .asks ∧ (label = .gate .dismissFinish ∨
        (p.gate.handle = true ∧ p.gate.owned = true → p'.gate.committed = true ∨
          p'.gate.told = true ∨ p'.gate.handle = true ∧ p'.gate.owned = true)) := by
  cases move with
  | aside | stays | dismissed | late claimed | aborted aborting =>
    exact .inr ⟨asks, .inr fun h => .inr (.inr h)⟩
  | begins first => exact .inl ⟨rfl, rfl, rfl⟩
  | serves after => rcases after with rfl | rfl <;> cases asks
  | dies aborted alive after => rcases after with rfl | ⟨-, rfl⟩ <;> cases asks
  | ends dismissing => exact .inr ⟨asks, .inl rfl⟩
  | claimed unclaimed => exact .inr ⟨asks, .inr fun _ => .inl rfl⟩
  | @reclaimed stage g r r' owned kept =>
    refine .inr ⟨asks, .inr fun ⟨handle, _⟩ => ?_⟩
    have handle : g.handle = true := handle
    cases hcommitted : g.committed with
    | true => exact .inl hcommitted
    | false => exact .inr (.inl (by simp [Gate.told, Gate.reclaimPrompt, handle, hcommitted]))
  | _ => cases asks

end

/-! ## The invariant -/

section

/-- What holds of a create or delete and its log. -/
structure Departing (v : PromptView κ) (l : DepartureLog) : Prop where
  unlocks : v.state.stage ≠ .unlocks
  won : ∀ k, v.calls k = some .won → v.state.gate.committed = true
  owner : v.state.gate.owned = false → v.gone = true ∨ v.state.gate.committed = true ∨ v.state.stage ≠ .idle
  asks : v.state.stage = .asks → v.state.gate.committed = true ∨ v.state.gate.told = true ∨
    v.state.gate.handle = true ∧ v.state.gate.owned = true
  gone : l.departed = true → v.gone = true
  stopped : l.departed = true ∨ v.gone = true ∧ v.state.gate.committed = false → v.state.Stopped l.files

/-- What is kept of a prompt through every move, for the prompts that make or unlink a file. -/
structure DepartureInv (v : PromptView κ) (l : DepartureLog) : Prop where
  slot : v.Slot
  fresh : v.object = none → l = .empty ∧ v.gone = false
  files : FilesFit v.state l.files
  departing : ∀ o, v.object = some o → o.kind ≠ .unlock → Departing v l

variable {v v' : PromptView κ} {l : DepartureLog} {e : PromptEvents} {o' : PromptObject}

theorem DepartureLog.note_files (move : TaskMove o.kind label v.state e.file v'.state)
    (fit : FilesFit v.state l.files) : FilesFit v'.state (l.note e v').files := by
  cases hfile : e.file with
  | none =>
    rw [hfile] at move
    simpa [DepartureLog.note, hfile] using move.filesFit fit
  | some event =>
    rw [hfile] at move
    simpa [DepartureLog.note, hfile] using move.filesFit_some fit

section

variable (at_ : Departing v l) (step : ViewStep v e v' o o' label)
include at_ step

theorem Departing.ends (h : label = .gate .dismissFinish) : v'.state.gate.committed = true := by
  obtain ⟨k, won⟩ := step.ends h
  exact step.task.committed at_.unlocks (at_.won k won)

theorem Departing.next_owner (h : v'.state.gate.owned = false) :
    v'.gone = true ∨ v'.state.gate.committed = true ∨ v'.state.stage ≠ .idle := by
  cases before : v.state.gate.owned with
  | true =>
    rcases step.task.owned_lost before h with rfl | ends | reclaim
    · refine .inr (.inr ?_)
      rw [step.task.finishes_inv.2.2.1]
      nofun
    · exact .inr (.inl (at_.ends step ends))
    · exact .inl (step.reclaim reclaim)
  | false =>
    rcases at_.owner before with gone | committed | busy
    · exact .inl (step.gone gone)
    · exact .inr (.inl (step.task.committed at_.unlocks committed))
    · refine .inr (.inr ?_)
      by_cases begins : label = .begins
      · subst begins
        exact step.task.begins_inv.2
      · exact fun h => busy ((step.task.idle_iff begins step.serves).mp h)

theorem Departing.next_asks (slot : v.Slot) (inTime : v.InTime e) (h : v'.state.stage = .asks) :
    v'.state.gate.committed = true ∨ v'.state.gate.told = true ∨
      v'.state.gate.handle = true ∧ v'.state.gate.owned = true := by
  have committed := step.task.committed at_.unlocks
  rcases step.task.asks h with ⟨rfl, handle, owned⟩ | ⟨asks, ends | keeps⟩
  · obtain ⟨w, held⟩ := step.begins rfl
    cases before : v.state.gate.owned with
    | true => exact .inr (.inr ⟨handle, owned.trans before⟩)
    | false =>
      rcases at_.owner before with gone | claimed | busy
      · exact .inl (committed (inTime.run step.run gone))
      · exact .inl (committed claimed)
      · exact absurd (slot.idle w held) busy
  · exact .inl (at_.ends step ends)
  · rcases at_.asks asks with claimed | told | running
    · exact .inl (committed claimed)
    · exact .inr (.inl (step.task.told told))
    · exact keeps running

end

theorem ViewStep.stopped (step : ViewStep v e v' o o' label) (inTime : v.InTime e)
    (gone : v.gone = true) (stopped : v.state.Stopped l.files) :
    v'.state.Stopped (l.note e v').files := by
  obtain ⟨none, stopped⟩ := step.task.stopped stopped
    (fun begins => inTime.run (step.run.trans (decide_eq_true begins)) gone)
    (fun claims => inTime.claims (step.claims.trans (decide_eq_true claims)))
  simpa [DepartureLog.note, none] using stopped

theorem Departing.next (at_ : Departing v l) (step : ViewStep v e v' o o' label) (slot : v.Slot)
    (slot' : v'.Slot) (files' : FilesFit v'.state (l.note e v').files) (kind : o.kind ≠ .unlock)
    (inTime : v.InTime e) : Departing v' (l.note e v') where
  unlocks h := (step.task.unlocks_inv h).elim at_.unlocks kind
  won k h := by
    rcases step.won k h with won | ⟨rfl, -⟩
    · exact step.task.committed at_.unlocks (at_.won k won)
    · exact step.task.claim_commits
  owner := at_.next_owner step
  asks := at_.next_asks step slot inTime
  gone h := by
    simp only [DepartureLog.note, Bool.or_eq_true, Bool.and_eq_true] at h
    exact h.elim (fun departed => step.gone (at_.gone departed)) And.left
  stopped h := by
    have gone_case : v'.gone = true ∧ v'.state.gate.committed = false → v'.state.Stopped (l.note e v').files := by
      rintro ⟨gone, unclaimed⟩
      have unclaimed_before : v.state.gate.committed = false := by
        rw [Bool.eq_false_iff]
        intro claimed
        rw [step.task.committed at_.unlocks claimed] at unclaimed
        cases unclaimed
      rcases step.left gone with before | unowned
      · exact step.stopped inTime before (at_.stopped (.inr ⟨before, unclaimed_before⟩))
      · -- the owner leaves with this step
        obtain ⟨none, quiet⟩ := files'.unclaimed unclaimed
        refine ⟨none, quiet, fun asks => ?_⟩
        rcases at_.next_asks step slot inTime asks with claimed | told | ⟨-, owned⟩
        · exact .inr claimed
        · exact .inl told
        · have withdrawn : v'.withdrawn = true := by
            simpa [PromptView.hasOwner, PromptView.withdrawn, owned, step.object] using unowned
          rw [(slot'.lost withdrawn).1] at asks
          cases asks
    rcases h with departed | gone
    · simp only [DepartureLog.note, Bool.or_eq_true, Bool.and_eq_true, Bool.not_eq_true'] at departed
      rcases departed with departed | gone
      · exact step.stopped inTime (at_.gone departed) (at_.stopped (.inl departed))
      · exact gone_case gone
    · exact gone_case gone

theorem Departing.issued {gone : Bool} {calls : κ → Option PromptCall}
    (won : ∀ k, calls k ≠ some .won) :
    Departing ⟨some o, .new, gone, calls⟩ (DepartureLog.empty.note .none ⟨some o, .new, gone, calls⟩) where
  unlocks := nofun
  won k h := absurd h (won k)
  owner := nofun
  asks := nofun
  gone h := by
    simp only [DepartureLog.note, DepartureLog.empty, Bool.false_or, Bool.and_eq_true] at h
    exact h.1
  stopped _ := ⟨rfl, rfl, nofun⟩

variable [DecidableEq κ]

theorem DepartureInv.move (sound : v.Sound) (inv : DepartureInv v l) (move : ViewMove v e v')
    (inTime : ∀ o, v.object = some o → o.kind ≠ .unlock → v.InTime e) :
    DepartureInv v' (l.note e v') := by
  have slot := inv.slot.move sound move
  cases object : v.object with
  | none =>
    obtain ⟨rfl, here⟩ := inv.fresh object
    obtain ⟨rfl, rfl | ⟨k, o, gone, action, -, -, rfl⟩⟩ := move.fresh object
    · have same : DepartureLog.empty.note .none v' = .empty := by
        simp [DepartureLog.note, PromptEvents.none, here]
      rw [same]
      exact inv
    · refine ⟨slot, by simp, .of_quiet rfl rfl, fun _ _ _ => .issued fun k' h => ?_⟩
      cases (PromptView.call_of_issued (sound.fresh object) h).2
  | some o =>
    obtain ⟨o', label, step⟩ := move.viewStep object
    have files := DepartureLog.note_files step.task inv.files
    refine ⟨slot, fun none => ?_, files, fun o₁ object₁ kind => ?_⟩
    · rw [step.object] at none
      cases none
    · obtain rfl : o' = o₁ := Option.some.inj (step.object.symm.trans object₁)
      have kind : o.kind ≠ .unlock := step.kind ▸ kind
      exact (inv.departing o object kind).next step inv.slot slot files kind (inTime o object kind)

end

/-! ## Every run -/

section

variable [DecidableEq ι] [DecidableEq κ] {x : Externals} {toml : Toml} {cfg : Config} {idle : Nat}
variable {dir : Dir} {aliasFile : Option Bytes} {daemon : Daemon ι}

/-- The invariant on **every run from boot** that meets no gap. -/
theorem DepartureInv.reach (boot : Daemon.boot ι x toml cfg dir aliasFile = some daemon)
    {p : Bus ι κ × (ι → DepartureLog)}
    (run : Reach (logged (Bus.step x toml cfg idle) (Bus.record DepartureLog.note))
      (fun p a => p.1.stopsInTime a = true) (Bus.start κ daemon, fun _ => .empty) p) (i : ι) :
    DepartureInv (p.1.view i) (p.2 i) := by
  refine (Bus.views_of_reach DepartureInv (Bus.start_sound (Daemon.boot_booted boot)) ?_ ?_ run).2 i
  · intro i
    exact ⟨.start rfl fun _ => rfl, fun _ => ⟨rfl, rfl⟩, .of_quiet rfl rfl, nofun⟩
  · intro b log a b' i ok sound _ move inv
    exact inv.move (sound.views i) move fun o object kind => Bus.inTime sound ok object kind

/-- **A departed client's prompt does nothing irreversible**, in every run that stays out of the two
gaps: a create or delete whose owner's disconnect was processed before its gate was claimed has made
and unlinked no vault file. -/
theorem departed_client_is_harmless (boot : Daemon.boot ι x toml cfg dir aliasFile = some daemon)
    {p : Bus ι κ × (ι → DepartureLog)}
    (run : Reach (logged (Bus.step x toml cfg idle) (Bus.record DepartureLog.note))
      (fun p a => p.1.stopsInTime a = true) (Bus.start κ daemon, fun _ => .empty) p) {i : ι}
    (object : p.1.objects i = some o) (kind : o.kind ≠ .unlock)
    (departed : (p.2 i).departed = true) : (p.2 i).files = [] :=
  have inv := (DepartureInv.reach boot run i).departing o object kind
  (inv.stopped (.inl departed)).files

open Reference

variable [∀ n, OfNat ι n] [∀ n, OfNat κ n]

/-- A create is under way when its client leaves, and is aborted in its dialog. -/
def abortedInDialog : List (BusAction ι κ) :=
  issueSteps 0 ":1.7" 0 (.createCollection "Login" none) ++ promptSteps 1 ":1.7" 0 ++
    [BusAction.inner (.daemon (.task 0 .check)), .leave ":1.7", .disconnect ":1.7",
      .inner (.daemon (.gate 0 .abort)), .inner (.daemon (.task 0 .die))]

theorem departed_client_is_harmless_aborted : ∃ d p o, emptyBoot 1 = some d ∧
      Reach (logged busStep (Bus.record DepartureLog.note)) (fun p a => p.1.stopsInTime a = true)
        (Bus.start (Fin 2) d, fun _ => .empty) p ∧
      p.1.objects 0 = some o ∧ o.kind = .createCollection ∧ (p.2 0).departed = true ∧
      (p.2 0).files = [] := by
  obtain ⟨d, p, boot, run, test⟩ := Reach.exists_of_exec_from
    (logged busStep (Bus.record DepartureLog.note)) (fun p a => p.1.stopsInTime a = true) (emptyBoot 1)
    (fun d => (Bus.start (Fin 2) d, fun _ => .empty)) abortedInDialog
    (fun p => decide ((p.2 0).departed = true ∧ (p.1.objects 0).map (·.kind) = some .createCollection))
    (by decide)
  obtain ⟨departed, kind⟩ := of_decide_eq_true test
  obtain ⟨o, object, kind⟩ := Option.map_eq_some_iff.mp kind
  exact ⟨d, p, o, boot, run, object, kind, departed,
    departed_client_is_harmless boot run object (by rw [kind]; nofun) departed⟩

/-- The client leaves between the moment its `Prompt` call takes the action and the moment the call
spawns the task. The task goes its way. -/
def spawnedLate : List (BusAction ι κ) :=
  issueSteps 0 ":1.7" 0 (.createCollection "Login" none) ++
    [BusAction.prompt 1 ":1.7" 0, .take 1, .leave ":1.7", .disconnect ":1.7", .spawn 1] ++ createTask 0

/-- The client leaves while its delete is between the confirmation and the gate. -/
def claimedLate : List (BusAction ι κ) :=
  issueSteps 0 ":1.7" 0 (.createCollection "Login" none) ++ promptSteps 1 ":1.7" 0 ++ createTask 0 ++
    [BusAction.inner (.daemon (.insert 0))] ++
    issueSteps 2 ":1.8" 1 (.deleteCollection "login") ++ promptSteps 3 ":1.8" 1 ++
    [BusAction.inner (.daemon (.task 1 .check)), .inner (.daemon (.task 1 (.confirm true))), .leave ":1.8",
      .disconnect ":1.8", .inner (.daemon (.gate 1 .abort)), .inner (.daemon (.task 1 .check)),
      .inner (.daemon (.task 1 .claim)), .inner (.daemon (.unlink 1 none))]

/-- **Both gaps are real**: a client's disconnect is processed before the gate is claimed, and its
prompt makes a vault file, or unlinks one, all the same. -/
theorem departed_client_acts : ∃ d, emptyBoot 2 = some d ∧
      (∃ p o, Reach (logged busStep (Bus.record DepartureLog.note)) (fun _ _ => True)
          (Bus.start (Fin 4) d, fun _ => .empty) p ∧
        p.1.objects 0 = some o ∧ o.kind = .createCollection ∧ (p.2 0).departed = true ∧
        (p.2 0).files = [.created]) ∧
      ∃ p o, Reach (logged busStep (Bus.record DepartureLog.note)) (fun _ _ => True)
          (Bus.start (Fin 4) d, fun _ => .empty) p ∧
        p.1.objects 1 = some o ∧ o.kind = .deleteCollection ∧ (p.2 1).departed = true ∧
        (p.2 1).files = [.unlinked] := by
  obtain ⟨d, p, boot, run, test⟩ := Reach.exists_of_exec_from
    (logged busStep (Bus.record DepartureLog.note)) (fun _ _ => True) (emptyBoot 2)
    (fun d => (Bus.start (Fin 4) d, fun _ => .empty)) spawnedLate
    (fun p => decide ((p.2 0).departed = true ∧ (p.2 0).files = [.created] ∧
      (p.1.objects 0).map (·.kind) = some .createCollection)) (by decide +kernel)
  obtain ⟨d', p', boot', run', test'⟩ := Reach.exists_of_exec_from
    (logged busStep (Bus.record DepartureLog.note)) (fun _ _ => True) (emptyBoot 2)
    (fun d => (Bus.start (Fin 4) d, fun _ => .empty)) claimedLate
    (fun p => decide ((p.2 1).departed = true ∧ (p.2 1).files = [.unlinked] ∧
      (p.1.objects 1).map (·.kind) = some .deleteCollection)) (by decide +kernel)
  obtain rfl : d = d' := Option.some.inj (boot.symm.trans boot')
  obtain ⟨departed, files, kind⟩ := of_decide_eq_true test
  obtain ⟨departed', files', kind'⟩ := of_decide_eq_true test'
  obtain ⟨o, object, kind⟩ := Option.map_eq_some_iff.mp kind
  obtain ⟨o', object', kind'⟩ := Option.map_eq_some_iff.mp kind'
  exact ⟨d, boot, ⟨p, o, run, object, kind, departed, files⟩, ⟨p', o', run', object', kind', departed', files'⟩⟩

end

end SecretManager
