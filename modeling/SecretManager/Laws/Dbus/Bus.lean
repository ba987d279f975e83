import SecretManager.Laws.Dbus.Tasks

/-!
# What one step of the bus can do

`BusStep` lists every way a step can end. Most steps move one call along and leave the daemon alone,
or drive it to one of its own steps. The disconnect of a client is the exception: it goes through
all the client's prompts, and `foldl_reclaimOne` says what it leaves of each.
-/

namespace SecretManager

open LockSystem

variable {ι : Type} {i : ι} {κ : Type} {x : Externals} {toml : Toml} {cfg : Config} {idle : Nat}
variable {b' : Bus ι κ} {s s' : LockSystem ι ι}

/-! ## Calls about a prompt -/

/-- Where a call about a prompt stands. -/
inductive PromptCall where
  | exporting (action : PromptAction)
  | prompting
  | holding (action : PromptAction)
  | dismissing
  | disarmed
  | cancelled
  | won
  deriving DecidableEq

def PromptCall.action : PromptCall → Option PromptAction
  | .exporting action | .holding action => some action
  | _ => none

/-- A `Prompt` call that is about to spawn the task. -/
def PromptCall.isHolding : PromptCall → Bool
  | .holding _ => true
  | _ => false

section

def BusCall.subject : BusCall ι → Option (ι × PromptCall)
  | .exporting i action => some (i, .exporting action)
  | .prompting i => some (i, .prompting)
  | .holding i action => some (i, .holding action)
  | .dismissing i => some (i, .dismissing)
  | .disarmed i => some (i, .disarmed)
  | .cancelled i => some (i, .cancelled)
  | .won i => some (i, .won)
  | .idle | .opening _ | .opened _ | .preparing .. | .returned => none

variable [DecidableEq ι]
variable {call : BusCall ι}

/-- Where the call stands, if it is about this prompt. -/
def BusCall.about (i : ι) (call : BusCall ι) : Option PromptCall :=
  call.subject.bind fun e => if e.1 = i then some e.2 else none

theorem BusCall.about_self {c : PromptCall} (h : call.subject = some (i, c)) :
    call.about i = some c := by
  simp [BusCall.about, h]

theorem BusCall.about_of_ne {j : ι} {c : PromptCall} (h : call.subject = some (j, c)) (ne : i ≠ j) :
    call.about i = none := by
  simp [BusCall.about, h, ne.symm]

theorem BusCall.about_of_none (h : call.subject = none) : call.about i = none := by
  simp [BusCall.about, h]

end

/-! ## Steps -/

section

variable [DecidableEq ι] [DecidableEq κ]

/-- The actions that do nothing for a prompt that can be seen from outside. -/
def BusAction.plain : BusAction ι κ → Bool
  | .inner _ | .spawn _ | .finish _ => false
  | _ => true

/-- Every way one step can end. -/
inductive BusStep (x : Externals) (toml : Toml) (cfg : Config) (idle : Nat) (b : Bus ι κ) :
    BusAction ι κ → Bus ι κ → Prop
  | inner {a system} (free : a.driven = false) (own : ∀ t, a.newcomer = some t → b.objects t = none)
      (moved : b.system.step x toml cfg idle a = some system) :
      BusStep x toml cfg idle b (.inner a) { b with system }
  /-- A call that is about no prompt goes on or returns. -/
  | called {a k call} (plain : a.plain = true) (before : (b.calls k).subject = none)
      (after : call.subject = none)
      (asked : ∀ c action, call = .preparing c action → a = .request k c action) :
      BusStep x toml cfg idle b a (b.setCall k call)
  | inserted {k c} (before : b.calls k = .opening c) (quota : b.sessionQuota c = true) :
      BusStep x toml cfg idle b (.insertSession k)
        { b.setCall k (.opened (b.nextSession + 1)) with
          sessions := b.sessions ++ [(b.nextSession + 1, c)], nextSession := b.nextSession + 1 }
  | unexported {k session ok} (before : b.calls k = .opened session) :
      BusStep x toml cfg idle b (.exportSession k ok)
        { b.setCall k .returned with
          sessions := b.sessions.filter fun e => decide (e.1 ≠ session) }
  | close (session : Nat) (c : Client) :
      BusStep x toml cfg idle b (.close session c)
        { b with sessions := b.sessions.filter fun e => decide (e ≠ (session, c)) }
  | issued {k i c action} (before : b.calls k = .preparing c action) (unused : b.unused i = true)
      (admitted : action.admitted b.system.daemon.service = true) (quota : b.promptQuota c = true) :
      BusStep x toml cfg idle b (.issue k i)
        { (b.setCall k (.exporting i action)).setObject i
            { owner := c, kind := action.kind, action := none, exported := false, withdrawn := false }
          with issued := b.issued ++ [i] }
  | exported {k i action o} (before : b.calls k = .exporting i action)
      (object : b.objects i = some o) :
      BusStep x toml cfg idle b (.exportPrompt k true)
        ((b.setCall k .returned).setObject i { o with action := some action, exported := true })
  | withdrawn {k i action o} (before : b.calls k = .exporting i action)
      (object : b.objects i = some o) :
      BusStep x toml cfg idle b (.exportPrompt k false)
        ((b.setCall k .returned).setObject i { o with withdrawn := true })
  | prompting {k c i} (before : b.calls k = .idle) (owner : b.checkOwner c i = true) :
      BusStep x toml cfg idle b (.prompt k c i) (b.setCall k (.prompting i))
  | took {k i o action} (before : b.calls k = .prompting i) (object : b.objects i = some o)
      (slot : o.action = some action) :
      BusStep x toml cfg idle b (.take k) ((b.setCall k (.holding i action)).setObject i { o with action := none })
  | spent {k i o} (before : b.calls k = .prompting i) (object : b.objects i = some o)
      (slot : o.action = none) : BusStep x toml cfg idle b (.take k) (b.setCall k .returned)
  | spawned {k i action system} (before : b.calls k = .holding i action)
      (moved : b.system.step x toml cfg idle (action.begin i) = some system) :
      BusStep x toml cfg idle b (.spawn k) { b.setCall k .returned with system }
  | dismissing {k c i} (before : b.calls k = .idle) (owner : b.checkOwner c i = true) :
      BusStep x toml cfg idle b (.dismiss k c i) (b.setCall k (.dismissing i))
  | disarmed {k i o} (before : b.calls k = .dismissing i) (object : b.objects i = some o) :
      BusStep x toml cfg idle b (.disarm k) ((b.setCall k (.disarmed i)).setObject i { o with action := none })
  | cancelled {k i o system} (before : b.calls k = .disarmed i) (object : b.objects i = some o)
      (moved : b.system.step x toml cfg idle (o.kind.gate i .dismiss) = some system) :
      BusStep x toml cfg idle b (.cancel k) { b.setCall k (.cancelled i) with system }
  | claimed {k i o system} (before : b.calls k = .cancelled i) (object : b.objects i = some o)
      (moved : b.system.step x toml cfg idle (o.kind.gate i .dismissClaim) = some system) :
      BusStep x toml cfg idle b (.claim k)
        { b.setCall k (if (b.system.gateOf o.kind i).committed then .returned else .won i) with system }
  | finished {k i o system} (before : b.calls k = .won i) (object : b.objects i = some o)
      (moved : b.system.step x toml cfg idle (o.kind.gate i .dismissFinish) = some system) :
      BusStep x toml cfg idle b (.finish k) { b.setCall k .returned with system }
  | leave (c : Client) :
      BusStep x toml cfg idle b (.leave c) { b with left := Function.update b.left c true }
  | disconnect {c} (left : b.left c = true) (unprocessed : b.processed c = false) :
      BusStep x toml cfg idle b (.disconnect c)
        { b with
          system := b.reclaimAll x toml cfg idle c
          sessions := b.sessions.filter fun e => decide (e.2 ≠ c)
          processed := Function.update b.processed c true }

variable {b : Bus ι κ} {a : BusAction ι κ}

/-- Each step of the bus is one of the listed changes, with what the code had checked before it. -/
theorem Bus.step_inv (h : b.step x toml cfg idle a = some b') : BusStep x toml cfg idle b a b' := by
  cases a with (simp only [Bus.step] at h)
  | inner a =>
    split at h
    · cases h
    next free =>
      rw [Bool.or_eq_true, not_or, Bool.not_eq_true] at free
      obtain ⟨system, moved, rfl⟩ := Option.map_eq_some_iff.mp h
      refine .inner free.1 (fun t ht => ?_) moved
      simpa [ht] using free.2
  | openSession k c =>
    split at h
    next before =>
      cases h
      refine .called rfl (by rw [before]; rfl) ?_ ?_
      · split
        · rfl
        · rfl
      · split
        · nofun
        · nofun
    · cases h
  | insertSession k =>
    split at h
    next before =>
      split at h
      next quota =>
        cases h
        exact .inserted before quota
      · cases h
        exact .called rfl (by rw [before]; rfl) rfl nofun
    · cases h
  | exportSession k ok =>
    split at h
    next before =>
      split at h
      · cases h
        exact .called rfl (by rw [before]; rfl) rfl nofun
      · cases h
        exact .unexported before
    · cases h
  | close session c =>
    cases h
    exact .close session c
  | request k c action =>
    split at h
    next before =>
      cases h
      refine .called rfl (by rw [before]; rfl) ?_ ?_
      · split
        · rfl
        · rfl
      · split
        · rintro c' action' ⟨⟩
          rfl
        · nofun
    · cases h
  | issue k i =>
    split at h
    next before =>
      split at h
      · cases h
      next unused =>
        rw [Bool.not_eq_true, Bool.not_eq_false'] at unused
        split at h
        next allowed =>
          cases h
          rw [Bool.and_eq_true] at allowed
          exact .issued before unused allowed.1 allowed.2
        · cases h
          exact .called rfl (by rw [before]; rfl) rfl nofun
    · cases h
  | exportPrompt k ok =>
    split at h
    next before =>
      obtain ⟨o, object, rfl⟩ := Option.map_eq_some_iff.mp h
      cases ok with
      | true => exact .exported before object
      | false => exact .withdrawn before object
    · cases h
  | prompt k c i =>
    split at h
    next before =>
      cases h
      split
      next owner => exact .prompting before owner
      · exact .called rfl (by rw [before]; rfl) rfl nofun
    · cases h
  | take k =>
    split at h
    next before =>
      obtain ⟨o, object, rfl⟩ := Option.map_eq_some_iff.mp h
      split
      next slot => exact .took before object slot
      next slot => exact .spent before object slot
    · cases h
  | spawn k =>
    split at h
    next before =>
      obtain ⟨system, moved, rfl⟩ := Option.map_eq_some_iff.mp h
      exact .spawned before moved
    · cases h
  | dismiss k c i =>
    split at h
    next before =>
      cases h
      split
      next owner => exact .dismissing before owner
      · exact .called rfl (by rw [before]; rfl) rfl nofun
    · cases h
  | disarm k =>
    split at h
    next before =>
      obtain ⟨o, object, rfl⟩ := Option.map_eq_some_iff.mp h
      exact .disarmed before object
    · cases h
  | cancel k =>
    split at h
    next before =>
      obtain ⟨o, object, h⟩ := Option.bind_eq_some_iff.mp h
      obtain ⟨system, moved, rfl⟩ := Option.map_eq_some_iff.mp h
      exact .cancelled before object moved
    · cases h
  | claim k =>
    split at h
    next before =>
      obtain ⟨o, object, h⟩ := Option.bind_eq_some_iff.mp h
      obtain ⟨system, moved, rfl⟩ := Option.map_eq_some_iff.mp h
      exact .claimed before object moved
    · cases h
  | finish k =>
    split at h
    next before =>
      obtain ⟨o, object, h⟩ := Option.bind_eq_some_iff.mp h
      obtain ⟨system, moved, rfl⟩ := Option.map_eq_some_iff.mp h
      exact .finished before object moved
    · cases h
  | leave c =>
    cases h
    exact .leave c
  | disconnect c =>
    split at h
    next due =>
      cases h
      rw [Bool.and_eq_true, Bool.not_eq_true'] at due
      exact .disconnect due.1 due.2
    · cases h

end

/-! ## Disconnects -/

section

variable [DecidableEq ι]

theorem LockSystem.reclaim_enabled (x : Externals) (toml : Toml) (cfg : Config) (idle : Nat)
    {kind : PromptKind} (owned : (s.gateOf kind i).owned = true) :
    ∃ s', s.step x toml cfg idle (kind.gate i .reclaim) = some s' := by
  cases kind with
  | unlock =>
    have owned : (s.prompts i).gate.owned = true := owned
    simp only [PromptKind.gate, step, UnlockPrompt.gateStep, owned]
    split
    · cases ‹_›
    · split
      · exact ⟨_, rfl⟩
      · exact ⟨_, rfl⟩
  | createCollection | deleteCollection =>
    have owned : (s.daemon.gates i).owned = true := owned
    simp [PromptKind.gate, step, Action.elsewhere, Daemon.step, Gate.step, owned]

variable (b : Bus ι κ)

def Bus.reclaimOne (x : Externals) (toml : Toml) (cfg : Config) (idle : Nat) (s : LockSystem ι ι)
    (i : ι) : LockSystem ι ι :=
  match b.objects i with
  | some o => (s.step x toml cfg idle (o.kind.gate i .reclaim)).getD s
  | none => s

theorem Bus.reclaimAll_eq (c : Client) : b.reclaimAll x toml cfg idle c =
      (b.issued.filter (b.ownedBy c)).foldl (b.reclaimOne x toml cfg idle) b.system := rfl

variable {b}

section

variable (x : Externals) (toml : Toml) (cfg : Config) (idle : Nat)

theorem Bus.reclaimOne_of_ne (s : LockSystem ι ι) {j : ι} (other : i ≠ j ∨ b.objects i = none)
    (kind : PromptKind) :
    (b.reclaimOne x toml cfg idle s j).taskState kind i = s.taskState kind i := by
  unfold Bus.reclaimOne
  split
  next o object =>
    have ne : i ≠ j := by
      rintro rfl
      rcases other with h | h
      · exact h rfl
      · rw [h] at object
        cases object
    cases moved : s.step x toml cfg idle (o.kind.gate j .reclaim) with
    | none => rfl
    | some s' => exact taskState_of_aside moved (PromptKind.gate_label_of_ne _ _ ne _)
  · rfl

theorem Bus.reclaimOne_self (s : LockSystem ι ι) {o : PromptObject}
    (object : b.objects i = some o) :
    (s.gateOf o.kind i).owned = true ∧ TaskMove o.kind (.gate .reclaim) (s.taskState o.kind i) none
          ((b.reclaimOne x toml cfg idle s i).taskState o.kind i) ∨
      (s.gateOf o.kind i).owned = false ∧
        (b.reclaimOne x toml cfg idle s i).taskState o.kind i = s.taskState o.kind i := by
  unfold Bus.reclaimOne
  rw [object]
  dsimp only
  cases moved : s.step x toml cfg idle (o.kind.gate i .reclaim) with
  | none =>
    refine .inr ⟨Bool.eq_false_iff.mpr fun owned => ?_, rfl⟩
    obtain ⟨s', enabled⟩ := reclaim_enabled x toml cfg idle owned
    rw [moved] at enabled
    cases enabled
  | some s' =>
    have move := (LockSystem.step_inv moved).moves o.kind i
    rw [PromptKind.gate_label, PromptKind.gate_fileEvent] at move
    exact .inl ⟨taskState_gate s o.kind i ▸ move.reclaim_inv.1, move⟩

theorem Bus.foldl_reclaimOne {o : PromptObject} (object : b.objects i = some o) (l : List ι) :
    ∀ s : LockSystem ι ι,
      i ∈ l ∧ (s.gateOf o.kind i).owned = true ∧ TaskMove o.kind (.gate .reclaim) (s.taskState o.kind i) none
            ((l.foldl (b.reclaimOne x toml cfg idle) s).taskState o.kind i) ∨
        ¬ (i ∈ l ∧ (s.gateOf o.kind i).owned = true) ∧
          (l.foldl (b.reclaimOne x toml cfg idle) s).taskState o.kind i = s.taskState o.kind i := by
  induction l with
  | nil =>
    intro s
    exact .inr ⟨fun h => List.not_mem_nil h.1, rfl⟩
  | cons j l ih =>
    intro s
    have after := ih (b.reclaimOne x toml cfg idle s j)
    by_cases hij : i = j
    · subst hij
      rcases Bus.reclaimOne_self x toml cfg idle s object with
        ⟨owned, move⟩ | ⟨unowned, same⟩
      · -- the first time it comes up it loses its owner, so it is left alone from then on
        rcases after with ⟨-, owned', -⟩ | ⟨-, same⟩
        · rw [← taskState_gate, move.reclaim_inv.2] at owned'
          cases owned'
        · exact .inl ⟨List.mem_cons_self, owned, same ▸ move⟩
      · rcases after with ⟨-, owned', -⟩ | ⟨-, same'⟩
        · rw [← taskState_gate, same, taskState_gate, unowned] at owned'
          cases owned'
        · refine .inr ⟨fun h => ?_, same'.trans same⟩
          rw [unowned] at h
          cases h.2
    · have same := Bus.reclaimOne_of_ne (b := b) x toml cfg idle s (.inl hij) o.kind
      rw [← taskState_gate, same, taskState_gate] at after
      simpa [hij] using after

end

theorem Bus.foldl_reclaimOne_fresh (fresh : b.objects i = none) (kind : PromptKind) (l : List ι) :
    ∀ s : LockSystem ι ι,
      (l.foldl (b.reclaimOne x toml cfg idle) s).taskState kind i = s.taskState kind i := by
  induction l with
  | nil =>
    intro s
    rfl
  | cons j l ih =>
    intro s
    rw [List.foldl_cons, ih]
    exact Bus.reclaimOne_of_ne x toml cfg idle s (.inr fresh) kind

end

/-! ## The daemon below -/

section

variable [DecidableEq ι]

/-- A step leaves the tasks, the collections and the aliases of the daemon. -/
def LockSystem.Rests (s s' : LockSystem ι ι) : Prop :=
  s'.daemon.tasks = s.daemon.tasks ∧ s'.daemon.service = s.daemon.service

/-- The action of the rest of the daemon. -/
def LockAction.own : LockAction ι ι → Option (Action ι)
  | .daemon act => some act
  | _ => none

theorem LockSystem.step_rests {act : LockAction ι ι} (moved : s.step x toml cfg idle act = some s')
    (other : act.own = none) : s.Rests s' := by
  have rest := (LockSystem.step_inv moved).rest (fun act' h => by subst h; cases other)
  exact ⟨by rw [rest], by rw [rest]⟩

theorem LockSystem.step_own {act : Action ι}
    (moved : s.step x toml cfg idle (.daemon act) = some s') :
    DaemonStep x toml cfg s.daemon act s'.daemon := by
  cases LockSystem.step_inv moved with
  | daemon elsewhere within => exact Daemon.step_inv within

theorem LockSystem.gate_rests {kind : PromptKind} {i : ι} {g : GateAction}
    (moved : s.step x toml cfg idle (kind.gate i g) = some s') : s.Rests s' := by
  have daemon : ∀ {s' : LockSystem ι ι}, s.step x toml cfg idle (.daemon (.gate i g)) = some s' → s.Rests s' := by
    intro s' moved
    generalize daemon' : s'.daemon = after
    have step := step_own moved
    rw [daemon'] at step
    unfold LockSystem.Rests
    rw [daemon']
    cases step with
    | gate => exact ⟨rfl, rfl⟩
  cases kind with
  | unlock => exact step_rests moved rfl
  | createCollection | deleteCollection => exact daemon moved

theorem Bus.reclaimAll_rests (b : Bus ι κ) (c : Client) :
    b.system.Rests (b.reclaimAll x toml cfg idle c) := by
  rw [Bus.reclaimAll_eq]
  generalize b.issued.filter (b.ownedBy c) = prompts
  have each : ∀ (s : LockSystem ι ι) (i : ι), s.Rests (b.reclaimOne x toml cfg idle s i) := by
    intro s i
    unfold Bus.reclaimOne
    split
    next o object =>
      cases moved : s.step x toml cfg idle (o.kind.gate i .reclaim) with
      | none => exact ⟨rfl, rfl⟩
      | some s' => exact gate_rests moved
    · exact ⟨rfl, rfl⟩
  suffices h : ∀ s : LockSystem ι ι, s.Rests (prompts.foldl (b.reclaimOne x toml cfg idle) s) from
    h b.system
  induction prompts with
  | nil => exact fun s => ⟨rfl, rfl⟩
  | cons i prompts ih =>
    intro s
    obtain ⟨tasks, service⟩ := each s i
    obtain ⟨tasks', service'⟩ := ih (b.reclaimOne x toml cfg idle s i)
    exact ⟨tasks'.trans tasks, service'.trans service⟩

def BusAction.own : BusAction ι κ → Option (Action ι)
  | .inner act => act.own
  | _ => none

omit [DecidableEq ι] in
theorem BusAction.own_eq_some {act : BusAction ι κ} {act' : Action ι} (h : act.own = some act') :
    ∃ inner, act = .inner inner ∧ inner = .daemon act' := by
  unfold BusAction.own LockAction.own at h
  split at h
  · split at h
    · cases h
      exact ⟨_, rfl, rfl⟩
    · cases h
  · cases h

variable [DecidableEq κ] {b : Bus ι κ} {act : BusAction ι κ}

/-- **What a step of the bus does to the tasks, the collections and the aliases**: what a step of
the daemon does that is the action itself, what the begin of a prompt's task does, or nothing. -/
theorem BusStep.rests_or_steps (step : BusStep x toml cfg idle b act b') :
    (act.own = none ∧ b.system.Rests b'.system) ∨
      ∃ act', DaemonStep x toml cfg b.system.daemon act' b'.system.daemon ∧ (act.own = some act' ∨
          act.own = none ∧ ∃ k i action, b.calls k = .holding i action ∧ action.begin i = .daemon act') := by
  cases step with
  | @inner act system free own moved =>
    cases act with
    | daemon act => exact .inr ⟨act, step_own moved, .inl rfl⟩
    | _ => exact .inl ⟨rfl, step_rests moved rfl⟩
  | @spawned k i action system before moved =>
    cases action with
    | unlock collections => exact .inl ⟨rfl, step_rests moved rfl⟩
    | createCollection label aliasName | deleteCollection id =>
      exact .inr ⟨_, step_own moved, .inr ⟨rfl, k, i, _, before, rfl⟩⟩
  | cancelled before object moved | claimed before object moved | finished before object moved =>
    exact .inl ⟨rfl, gate_rests moved⟩
  | called plain before after asked =>
    refine .inl ⟨?_, rfl, rfl⟩
    cases act with
    | inner => cases plain
    | _ => rfl
  | disconnect left unprocessed => exact .inl ⟨rfl, b.reclaimAll_rests _⟩
  | _ => exact .inl ⟨rfl, rfl, rfl⟩

end

end SecretManager
