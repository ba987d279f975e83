import SecretManager.Laws.Dbus.ViewSteps
import SecretManager.Dbus.Reference

/-!
# What is left of clients that have gone

A session and a prompt are known to the daemon by their entries: the session with its owner, the
prompt in `prompt_owners`, `prompt_tasks`, `prompt_commits` and, for an Unlock, `prompt_unlocked`.
The disconnect of a client is processed once and takes the client's entries away, those that are
there. So an entry that a call makes later stays. And the record of an Unlock is taken from a task
that is told to abort, which may record once more before it dies.

In every run that stays out of these gaps, a client that has left has no entry of any kind once all
calls have returned, all tasks are over and all disconnects are processed. The entries of the task
and of the gate need no such condition.
-/

namespace SecretManager

open Function

variable {ι κ : Type} {b b' : Bus ι κ} {x : Externals} {toml : Toml} {cfg : Config} {idle : Nat}

/-! ## The gaps -/

/-- The client for whom a step makes a session or an owner entry. -/
def Bus.enters (b : Bus ι κ) : BusAction ι κ → Option Client
  | .insertSession k =>
    match b.calls k with
    | .opening c => if b.sessionQuota c then some c else none
    | _ => none
  | .issue k _ =>
    match b.calls k with
    | .preparing c action =>
      if action.admitted b.system.daemon.service && b.promptQuota c then some c else none
    | _ => none
  | _ => none

/-- **No gap is met**: no entry is made for a client whose disconnect has been processed, and no
Unlock is killed that has something on record and no owner. -/
def Bus.entersInTime (b : Bus ι κ) : BusAction ι κ → Bool
  | .inner (.unlock i .die) => (b.system.prompts i).record.isEmpty || b.hasOwner i
  | a => (b.enters a).all fun c => !b.processed c

/-! ## The entries of a task -/

section

/-- The task's entry is there only as long as the task, and nobody else has been handed it. -/
structure TaskState.Tidy (p : TaskState) : Prop where
  idle : p.stage = .idle → p.gate.told = false ∧ p.gate.handle = false ∧ p.gate.shown = false ∧ p.record = []
  told : p.gate.told = true → p.gate.handle = false
  handle : p.gate.handle = true → p.stage.alive = true

variable {kind : PromptKind} {label : TaskLabel} {p p' : TaskState} {e : Option FileEvent}

theorem TaskState.Tidy.live (alive : p.stage.alive = true)
    (told : p.gate.told = true → p.gate.handle = false) : p.Tidy := by
  refine ⟨fun idle => ?_, told, fun _ => alive⟩
  rw [idle] at alive
  cases alive

theorem TaskState.Tidy.ended (busy : p.stage ≠ .idle) (handle : p.gate.handle = false) :
    p.Tidy where
  idle h := absurd h busy
  told _ := handle
  handle h := absurd (handle.symm.trans h) nofun

theorem TaskState.Tidy.noHandle (tidy : p.Tidy) (ended : p.stage.alive = false) :
    p.gate.handle = false := by
  rw [Bool.eq_false_iff]
  intro handle
  rw [tidy.handle handle] at ended
  cases ended

theorem TaskState.Tidy.taken (tidy : p.Tidy) (stage : p'.stage = p.stage)
    (handle : p'.gate.handle = false)
    (idle : p.gate.told = false → p.gate.handle = false → p.gate.shown = false → p.record = [] →
      p'.gate.told = false ∧ p'.gate.shown = false ∧ p'.record = []) : p'.Tidy where
  idle h := by
    obtain ⟨told, noHandle, shown, record⟩ := tidy.idle (stage ▸ h)
    obtain ⟨told', shown', record'⟩ := idle told noHandle shown record
    exact ⟨told', handle, shown', record'⟩
  told _ := handle
  handle h := absurd (handle.symm.trans h) nofun

theorem TaskMove.tidy (move : TaskMove kind label p e p') (tidy : p.Tidy)
    (serves : label ≠ .serves) : p'.Tidy := by
  cases move with
  | aside | stays | late claimed => exact tidy
  | @begins g r stage first =>
    have alive : stage.alive = true := by
      rcases TaskStage.begun_cases first with rfl | rfl | ⟨rfl, -⟩
      · rfl
      · rfl
      · rfl
    refine .live alive fun told => ?_
    exact absurd ((tidy.idle rfl).1.symm.trans told) nofun
  | serves after => exact absurd rfl serves
  | released | job e => exact .ended nofun (tidy.noHandle rfl)
  | refused | wins unclaimed | loses claimed | fails | does e | succeeds | unlocks committed r' =>
    exact .live rfl tidy.told
  | finishes done => exact .ended nofun rfl
  | @dies stage stage' g r aborted alive after =>
    refine .ended ?_ (tidy.told ?_)
    · rcases after with rfl | ⟨-, rfl⟩
      · nofun
      · nofun
    · exact Bool.or_eq_true_iff.mpr (.inr aborted)
  | @reclaimed stage g r r' owned kept =>
    refine tidy.taken rfl rfl fun told handle _ record => ⟨?_, rfl, ?_⟩
    · simpa [Gate.told, Gate.reclaimPrompt, show g.handle = false from handle] using told
    · exact kept.elim id fun same => same.1.trans record
  | dismissed => exact ⟨tidy.idle, tidy.told, tidy.handle⟩
  | @claimed stage g r unclaimed =>
    refine tidy.taken rfl rfl fun told handle shown record => ⟨?_, shown, record⟩
    simpa [Gate.told, show g.handle = false from handle] using told
  | ends dismissing => exact tidy.taken rfl rfl fun told _ _ _ => ⟨told, rfl, rfl⟩
  | @aborted stage g r aborting =>
    have told : g.told = true := Bool.or_eq_true_iff.mpr (.inl aborting)
    refine ⟨fun idle => ?_, fun _ => tidy.told told, tidy.handle⟩
    exact absurd ((tidy.idle idle).1.symm.trans told) nofun

theorem TaskMove.shown (move : TaskMove kind label p e p') (h : p'.gate.shown = true) :
    p'.gate.handle = true ∨ label = .gate .dismissClaim ∧ p.gate.committed = false ∨
      p.gate.shown = true ∧ p'.gate.handle = p.gate.handle ∧ label ≠ .gate .dismissFinish := by
  cases move with
  | begins first => exact .inl rfl
  | claimed unclaimed => exact .inr (.inl ⟨rfl, unclaimed⟩)
  | finishes done | reclaimed owned kept | ends dismissing => cases h
  | _ => exact .inr (.inr ⟨h, rfl, nofun⟩)

theorem TaskMove.record_inv (move : TaskMove kind label p e p') (tidy : p.Tidy)
    (h : p'.record ≠ []) :
    p'.stage.alive = true ∨ p'.record = p.record ∧ p'.gate.owned = p.gate.owned ∧
      (label = .dies ∨ p.stage.alive = false) := by
  -- a move that leaves the stage
  have still : p'.stage = p.stage → p'.record = p.record → p'.gate.owned = p.gate.owned →
      p'.stage.alive = true ∨ p'.record = p.record ∧ p'.gate.owned = p.gate.owned ∧
        (label = .dies ∨ p.stage.alive = false) := by
    intro stage record owned
    cases alive : p.stage.alive with
    | true => exact .inl (by rw [stage, alive])
    | false => exact .inr ⟨record, owned, .inr rfl⟩
  cases move with
  | begins first | serves after => exact absurd (tidy.idle rfl).2.2.2 h
  | released | job e => exact .inr ⟨rfl, rfl, .inr rfl⟩
  | refused | wins unclaimed | loses claimed | fails | does e | succeeds | unlocks committed r' =>
    exact .inl rfl
  | dies aborted alive after => exact .inr ⟨rfl, rfl, .inl rfl⟩
  | finishes done | ends dismissing => exact absurd rfl h
  | reclaimed owned kept =>
    rcases kept with empty | ⟨-, handle, -⟩
    · exact absurd empty h
    · exact .inl (tidy.handle handle)
  | aside | stays | dismissed | claimed unclaimed | late claimed | aborted aborting =>
    exact still rfl rfl rfl

end

/-! ## The entries of a prompt -/

variable {o : PromptObject}

section

variable {v v' : PromptView κ} {e : PromptEvents}

/-- What holds of the entries of every prompt. -/
structure PromptView.Swept (v : PromptView κ) : Prop where
  slot : v.Slot
  tidy : v.state.Tidy
  owner : v.hasOwner = true → v.gone = false
  shown : v.state.gate.shown = true → v.state.gate.handle = true ∨ ∃ k, v.calls k = some .won
  record : v.state.record ≠ [] → v.hasOwner = true ∨ v.state.stage.alive = true

theorem PromptView.Swept.next_shown {o' : PromptObject} {label : TaskLabel} (swept : v.Swept)
    (step : ViewStep v e v' o o' label) (h : v'.state.gate.shown = true) :
    v'.state.gate.handle = true ∨ ∃ k, v'.calls k = some .won := by
  rcases step.task.shown h with handle | ⟨claims, unclaimed⟩ | ⟨shown, same, ends⟩
  · exact .inl handle
  · exact .inr (step.wins claims unclaimed)
  · rcases swept.shown shown with handle | ⟨k, won⟩
    · exact .inl (same.trans handle)
    · exact .inr ⟨k, (step.keeps k won).resolve_right ends⟩

theorem PromptView.Swept.next_record {o' : PromptObject} {label : TaskLabel} (swept : v.Swept)
    (step : ViewStep v e v' o o' label) (slot' : v'.Slot) (tidy' : v'.state.Tidy)
    (dies : e.died = true → v.state.record = [] ∨ v.hasOwner = true) (h : v'.state.record ≠ []) :
    v'.hasOwner = true ∨ v'.state.stage.alive = true := by
  rcases step.task.record_inv swept.tidy h with alive | ⟨record, owned, ended⟩
  · exact .inr alive
  · rw [record] at h
    have owner : v.hasOwner = true := by
      rcases ended with died | ended
      · exact (dies (step.died.trans (decide_eq_true died))).resolve_left h
      · refine (swept.record h).resolve_right ?_
        rw [ended]
        nofun
    -- the record of a prompt that is withdrawn is empty, so the owner entry is still there
    have listed : v'.withdrawn = false := by
      rw [Bool.eq_false_iff]
      intro withdrawn
      exact h (record ▸ (tidy'.idle (slot'.lost withdrawn).1).2.2.2)
    refine .inl ?_
    rw [PromptView.hasOwner, Bool.and_eq_true] at owner
    rw [PromptView.hasOwner_some step.object, owned, owner.2]
    simpa [PromptView.withdrawn, step.object] using listed

variable [DecidableEq κ]

theorem PromptView.Swept.move (sound : v.Sound) (swept : v.Swept) (move : ViewMove v e v')
    (issued : v.object = none → v'.object ≠ none → v'.gone = false)
    (dies : e.died = true → v.state.record = [] ∨ v.hasOwner = true) : v'.Swept := by
  have slot := swept.slot.move sound move
  cases object : v.object with
  | none =>
    obtain ⟨-, rfl | ⟨k, o, gone, action, -, -, rfl⟩⟩ := move.fresh object
    · exact swept
    · refine ⟨slot, ⟨fun _ => ⟨rfl, rfl, rfl, rfl⟩, fun _ => rfl, nofun⟩, fun _ => ?_, nofun, ?_⟩
      · exact issued object nofun
      · exact fun h => absurd rfl h
  | some o =>
    obtain ⟨o', label, step⟩ := move.viewStep object
    have tidy := step.task.tidy swept.tidy step.serves
    refine ⟨slot, tidy, fun owner => ?_, swept.next_shown step, swept.next_record step slot tidy dies⟩
    rw [Bool.eq_false_iff]
    intro gone
    rcases step.left gone with before | unowned
    · rw [swept.owner (step.owner owner).1] at before
      cases before
    · rw [owner] at unowned
      cases unowned

end

/-! ## Steps -/

section

variable [DecidableEq ι] {a : BusAction ι κ} {i : ι}

theorem Bus.died_inv (object : b.objects i = some o) (kind : o.kind = .unlock)
    (h : (b.events a b' i).died = true) : a = .inner (.unlock i .die) := by
  cases a with
  | inner act =>
    simp only [Bus.events, object, kind, decide_eq_true_eq] at h
    cases act with
    | unlock p act =>
      obtain ⟨rfl, label⟩ := TaskLabel.ite_eq h (by decide)
      rcases act.label_cases with ⟨rest, rfl⟩ | rfl | goes
      · cases label
      · rfl
      · rw [goes] at label
        cases label
    | gate p act | record p | decrypt p env | drop p | touchUnlock p | collect p | relock p
    | finish p => cases (TaskLabel.ite_eq h (by decide)).2
    | _ => cases h
  | spawn k | finish k => simp [Bus.events, object, PromptEvents.none] at h
  | _ =>
    cases h

theorem Bus.dies_swept (ok : b.entersInTime a = true) (h : (b.events a b' i).died = true) :
    (b.view i).state.record = [] ∨ (b.view i).hasOwner = true := by
  cases object : b.objects i with
  | none =>
    rw [Bus.events_fresh object] at h
    cases h
  | some o =>
    rw [Bus.view_state object, Bus.view_hasOwner]
    cases kind : o.kind with
    | createCollection | deleteCollection => exact .inl rfl
    | unlock =>
      obtain rfl := Bus.died_inv object kind h
      rw [Bus.entersInTime, Bool.or_eq_true] at ok
      exact ok.imp_left List.isEmpty_iff.mp

variable [DecidableEq κ]

theorem BusStep.issue_inv (step : BusStep x toml cfg idle b a b') (before : b.objects i = none)
    (after : b'.objects i = some o) : b.enters a = some o.owner ∧ b'.processed = b.processed := by
  -- a step that replaces an object that was there
  have armed : ∀ {j : ι} {o₀ o' : PromptObject}, b.objects j = some o₀ →
      Function.update b.objects j (some o') i = some o → False := by
    intro j o₀ o' object h
    rw [update_apply] at h
    split at h
    next hij =>
      rw [← hij, before] at object
      cases object
    · rw [before] at h
      cases h
  cases step with
  | @issued k j c action call unused admitted quota =>
    refine ⟨?_, rfl⟩
    have after : Function.update b.objects j (some
        { owner := c, kind := action.kind, action := none, exported := false, withdrawn := false }) i =
      some o := after
    rw [update_apply] at after
    split at after
    · cases after
      simp [Bus.enters, call, admitted, quota]
    · rw [before] at after
      cases after
  | exported call object | withdrawn call object | took call object slot | disarmed call object =>
    exact (armed object after).elim
  | _ =>
    have same : b.objects i = some o := after
    rw [before] at same
    cases same

theorem BusStep.sessions (step : BusStep x toml cfg idle b a b') (ok : b.entersInTime a = true)
    (swept : ∀ e ∈ b.sessions, b.processed e.2 = false) :
    ∀ e ∈ b'.sessions, b'.processed e.2 = false := by
  cases step with
  | @inserted k c before quota =>
    intro e mem
    rcases List.mem_append.mp mem with old | new
    · exact swept e old
    · obtain rfl := List.mem_singleton.mp new
      have unprocessed : b.processed c = false := by
        simpa [Bus.entersInTime, Bus.enters, before, quota] using ok
      exact unprocessed
  | unexported before | close session c => exact fun e mem => swept e (List.mem_filter.mp mem).1
  | @disconnect c left unprocessed =>
    intro e mem
    obtain ⟨old, other⟩ := List.mem_filter.mp mem
    exact (update_of_ne (of_decide_eq_true other) _ _).trans (swept e old)
  | _ => exact swept

end

/-! ## Every run -/

section

variable [DecidableEq ι]

/-- The call has not been made, or has returned. -/
def BusCall.settled : BusCall ι → Bool
  | .idle | .returned => true
  | _ => false

omit [DecidableEq ι] in
theorem BusCall.subject_of_settled {call : BusCall ι} (settled : call.settled = true) :
    call.subject = none := by
  cases call with
  | idle | returned => rfl
  | _ => cases settled

/-- **Nothing goes on any more**: every call has returned, the task of every prompt is over, and the
disconnect of everyone who has left is processed. -/
structure Bus.Settled (b : Bus ι κ) : Prop where
  calls : ∀ k, (b.calls k).settled = true
  tasks : ∀ i o, b.objects i = some o → (b.system.taskState o.kind i).stage.alive = false
  processed : ∀ c, b.left c = true → b.processed c = true

/-- There is no entry for this client: no session, and of its prompts none in `prompt_owners`,
`prompt_tasks`, `prompt_commits` and `prompt_unlocked`. -/
structure Bus.Forgets (b : Bus ι κ) (c : Client) : Prop where
  sessions : ∀ session, (session, c) ∉ b.sessions
  prompts : ∀ i o, b.objects i = some o → o.owner = c →
    b.hasOwner i = false ∧ (b.system.gateOf o.kind i).handle = false ∧
      (b.system.gateOf o.kind i).shown = false ∧ (b.system.taskState o.kind i).record = []

/-- What holds in every state. -/
structure Bus.Swept (b : Bus ι κ) : Prop where
  sound : b.Sound
  sessions : ∀ e ∈ b.sessions, b.processed e.2 = false
  prompts : ∀ i, (b.view i).Swept

theorem Bus.Swept.forgets {b : Bus ι κ} (swept : b.Swept) (settled : b.Settled) {c : Client}
    (left : b.left c = true) : b.Forgets c where
  sessions session mem := by
    have unprocessed := swept.sessions _ mem
    rw [settled.processed c left] at unprocessed
    cases unprocessed
  prompts i o object owner := by
    have at_ := swept.prompts i
    have ended := settled.tasks i o object
    rw [← LockSystem.taskState_gate, ← Bus.view_hasOwner]
    rw [← Bus.view_state object] at ended ⊢
    have unowned : (b.view i).hasOwner = false := by
      rw [Bool.eq_false_iff]
      intro hasOwner
      have gone := at_.owner hasOwner
      simp [Bus.view, object, owner, settled.processed c left] at gone
    have handle := at_.tidy.noHandle ended
    refine ⟨unowned, handle, ?_, ?_⟩
    · rw [Bool.eq_false_iff]
      intro shown
      rcases at_.shown shown with running | ⟨k, won⟩
      · rw [handle] at running
        cases running
      · have none : (b.view i).calls k = none :=
          BusCall.about_of_none (BusCall.subject_of_settled (settled.calls k))
        rw [none] at won
        cases won
    · by_contra record
      rcases at_.record record with hasOwner | alive
      · rw [unowned] at hasOwner
        cases hasOwner
      · rw [ended] at alive
        cases alive

variable [DecidableEq κ] {dir : Dir} {aliasFile : Option Bytes} {daemon : Daemon ι}

/-- Every step that meets no gap keeps it. -/
theorem Bus.Swept.step {a : BusAction ι κ} (swept : b.Swept) (ok : b.entersInTime a = true)
    (step : BusStep x toml cfg idle b a b') : b'.Swept where
  sound := swept.sound.step step
  sessions := step.sessions ok swept.sessions
  prompts i := by
    refine (swept.prompts i).move (swept.sound.views i) (step.view swept.sound i) ?_ (Bus.dies_swept ok)
    intro before after
    obtain ⟨o, object⟩ := Option.ne_none_iff_exists'.mp after
    obtain ⟨enters, processed⟩ := step.issue_inv before object
    have other : ∀ i, a ≠ .inner (.unlock i .die) := by
      rintro i rfl
      cases enters
    have unprocessed : b.processed o.owner = false := by
      unfold Bus.entersInTime at ok
      split at ok
      next i => exact absurd rfl (other i)
      · simpa [enters] using ok
    have object : b'.objects i = some o := object
    simp [Bus.view, object, processed, unprocessed]

omit [DecidableEq κ] in
theorem Bus.start_swept (booted : Booted x cfg daemon) : (Bus.start κ daemon).Swept where
  sound := Bus.start_sound booted
  sessions := nofun
  prompts _ :=
    { slot := .start rfl fun _ => rfl
      tidy := ⟨fun _ => ⟨rfl, rfl, rfl, rfl⟩, fun _ => rfl, nofun⟩
      owner := nofun
      shown := nofun
      record := fun h => absurd rfl h }

/-- **No state is kept for departed clients**, in every run that stays out of the gaps: once nothing
goes on any more, there is no entry for a client that has left the bus. -/
theorem departed_client_is_forgotten (boot : Daemon.boot ι x toml cfg dir aliasFile = some daemon)
    (run : Reach (Bus.step x toml cfg idle) (fun b a => b.entersInTime a = true)
      (Bus.start κ daemon) b) (settled : b.Settled) {c : Client} (left : b.left c = true) :
    b.Forgets c := by
  have swept : b.Swept := run.invariant Bus.Swept (Bus.start_swept (Daemon.boot_booted boot))
    fun swept ok moved => swept.step ok (Bus.step_inv moved)
  exact swept.forgets settled left

end

/-! ## Runs that settle -/

section

open Reference

variable [∀ n, OfNat ι n] [∀ n, OfNat κ n]

variable {n m : Nat}

def BusAction.leaver {ι κ : Type} : BusAction ι κ → Option Client
  | .leave c => some c
  | _ => none

theorem BusStep.left {ι κ : Type} [DecidableEq ι] [DecidableEq κ] {x : Externals} {toml : Toml}
    {cfg : Config} {idle : Nat} {b b' : Bus ι κ} {a : BusAction ι κ}
    (step : BusStep x toml cfg idle b a b') {c : Client} (h : b'.left c = true) :
    b.left c = true ∨ a.leaver = some c := by
  cases step with
  | leave c' =>
    have h : Function.update b.left c' true c = true := h
    rw [update_apply] at h
    split at h
    next same => exact .inr (congrArg some same.symm)
    · exact .inl h
  | _ => exact .inl h

/-- The state is settled, for all that one client's leaving has to do with it. -/
def Bus.settles (b : Bus (Fin n) (Fin m)) (c : Client) : Bool :=
  decide (∀ k, (b.calls k).settled = true) &&
    decide (∀ i, (b.objects i).all (fun o => !(b.system.taskState o.kind i).stage.alive) = true) &&
    b.left c && b.processed c

theorem Bus.exists_settled (ok : Bus (Fin n) (Fin m) → BusAction (Fin n) (Fin m) → Bool)
    (c : Client) (as : List (BusAction (Fin n) (Fin m))) (test : Bus (Fin n) (Fin m) → Bool)
    (h : ((emptyBoot n).bind fun d => Reach.exec busStep
      (fun b a => (ok b a && a.leaver.all (· == c)) = true) (Bus.start (Fin m) d) as).any
      (fun b => b.settles c && test b) = true) :
    ∃ d b, emptyBoot n = some d ∧ Reach busStep (fun b a => ok b a = true) (Bus.start (Fin m) d) b ∧ b.Settled ∧
      b.left c = true ∧ test b = true := by
  obtain ⟨d, b, boot, run, passed⟩ := Reach.exists_of_exec_from busStep
    (fun b a => (ok b a && a.leaver.all (· == c)) = true) (emptyBoot n) (Bus.start (Fin m)) as
    (fun b => b.settles c && test b) h
  simp only [Bus.settles, Bool.and_eq_true, decide_eq_true_eq] at passed
  obtain ⟨⟨⟨⟨calls, tasks⟩, left⟩, processed⟩, passed⟩ := passed
  have only : ∀ c', b.left c' = true → c' = c := by
    refine run.invariant (fun b => ∀ c', b.left c' = true → c' = c) (fun c' h => absurd h Bool.false_ne_true) ?_
    intro b a b' before ok moved c' h
    rcases (Bus.step_inv moved).left h with already | leaver
    · exact before c' already
    · simpa [leaver] using (Bool.and_eq_true_iff.mp ok).2
  refine ⟨d, b, boot, run.mono fun ok => (Bool.and_eq_true_iff.mp ok).1, ⟨calls, ?_, ?_⟩, left, passed⟩
  · intro i o object
    simpa [object] using tasks i
  · intro c' h
    rw [only c' h, processed]

def sessionSteps {ι κ : Type} (k : κ) (c : Client) : List (BusAction ι κ) :=
  [.openSession k c, .insertSession k, .exportSession k true]

/-- A client with a session leaves while the dialog of its create is up. -/
def leftInDialog : List (BusAction ι κ) :=
  sessionSteps 0 ":1.7" ++ issueSteps 1 ":1.7" 0 (.createCollection "Login" none) ++ promptSteps 2 ":1.7" 0 ++
    [BusAction.inner (.daemon (.task 0 .check)), .leave ":1.7", .disconnect ":1.7",
      .inner (.daemon (.gate 0 .abort)), .inner (.daemon (.task 0 .die))]

theorem departed_client_is_forgotten_dialog : ∃ d b, emptyBoot 1 = some d ∧
      Reach busStep (fun b a => b.entersInTime a = true) (Bus.start (Fin 3) d) b ∧ b.Settled ∧
      b.left ":1.7" = true ∧ (b.nextSession = 1 ∧ b.issued = [0]) ∧ b.Forgets ":1.7" := by
  obtain ⟨d, b, boot, run, settled, left, used⟩ := @Bus.exists_settled 1 3 Bus.entersInTime ":1.7"
    leftInDialog (fun b => decide (b.nextSession = 1 ∧ b.issued = [0])) (by decide)
  exact ⟨d, b, boot, run, settled, left, of_decide_eq_true used, departed_client_is_forgotten boot run settled left⟩

/-- A client leaves while its `OpenSession` call is between the quota and the entry. -/
def openedLate : List (BusAction ι κ) :=
  [.openSession 0 ":1.8", .leave ":1.8", .disconnect ":1.8", .insertSession 0, .exportSession 0 true]

/-- A client leaves while its `Unlock` call is on its way to the owner entry. -/
def issuedLate : List (BusAction ι κ) :=
  [.request 0 ":1.8" (.unlock ["login"]), .leave ":1.8", .disconnect ":1.8", .issue 0 0, .exportPrompt 0 true]

/-- A client leaves while its Unlock is between the password and the gate, and the task that is told
to abort records the collection before it dies. -/
def recordedLate : List (BusAction ι κ) :=
  issueSteps 0 ":1.7" 0 (.createCollection "Login" none) ++ promptSteps 1 ":1.7" 0 ++ createTask 0 ++
    [BusAction.inner (.daemon (.insert 0)), .inner (.daemon (.task 0 .finish)),
      .inner (.daemon (.task 1 (.resolve "login"))), .inner (.request 1 .lock)] ++
    issueSteps 2 ":1.8" 2 (.unlock ["login"]) ++ promptSteps 3 ":1.8" 2 ++
    (askUnlock 2).map BusAction.inner ++
    [BusAction.leave ":1.8", .disconnect ":1.8", .inner (.gate 2 .abort)] ++
    (deriveUnlock 2).map BusAction.inner ++ [BusAction.inner (.unlock 2 .die)]

/-- **The gaps are real**: nothing goes on any more, and a client that has left still has a session,
an owner entry, or the record of its Unlock. -/
theorem departed_client_is_kept :
    (∃ d b, emptyBoot 3 = some d ∧ Reach busStep (fun _ _ => True) (Bus.start (Fin 6) d) b ∧
      b.Settled ∧ b.left ":1.8" = true ∧ (1, ":1.8") ∈ b.sessions) ∧
    (∃ d b, emptyBoot 3 = some d ∧ Reach busStep (fun _ _ => True) (Bus.start (Fin 6) d) b ∧
      b.Settled ∧ b.left ":1.8" = true ∧ b.ownedBy ":1.8" 0 = true) ∧
    ∃ d b, emptyBoot 3 = some d ∧ Reach busStep (fun _ _ => True) (Bus.start (Fin 6) d) b ∧
      b.Settled ∧ b.left ":1.8" = true ∧ (b.objects 2).map (·.owner) = some ":1.8" ∧
      (b.system.prompts 2).record = ["login"] := by
  refine ⟨?_, ?_, ?_⟩
  · obtain ⟨d, b, boot, run, settled, left, kept⟩ := @Bus.exists_settled 3 6 (fun _ _ => true) ":1.8"
      openedLate (fun b => decide ((1, ":1.8") ∈ b.sessions)) (by decide)
    exact ⟨d, b, boot, run.mono fun _ => trivial, settled, left, of_decide_eq_true kept⟩
  · obtain ⟨d, b, boot, run, settled, left, kept⟩ := @Bus.exists_settled 3 6 (fun _ _ => true) ":1.8"
      issuedLate (fun b => b.ownedBy ":1.8" 0) (by decide)
    exact ⟨d, b, boot, run.mono fun _ => trivial, settled, left, kept⟩
  · obtain ⟨d, b, boot, run, settled, left, kept⟩ := @Bus.exists_settled 3 6 (fun _ _ => true) ":1.8"
      recordedLate (fun b => decide ((b.objects 2).map (·.owner) = some ":1.8" ∧
        (b.system.prompts 2).record = ["login"])) (by decide +kernel)
    exact ⟨d, b, boot, run.mono fun _ => trivial, settled, left, of_decide_eq_true kept⟩

end

end SecretManager
