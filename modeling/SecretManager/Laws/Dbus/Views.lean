import SecretManager.Laws.Dbus.Bus

/-!
# One prompt at a time

Clients, calls and prompts meet in one state, but what a prompt promises is a matter of that prompt
alone: its object, its task with its flags, whether its owner's disconnect has been processed, and
the calls that are about it. That is its `PromptView`. `BusStep.view` says how a step changes the
view of any one prompt, together with what the step does for that prompt that can be seen from
outside: its task is spawned, `Completed` is emitted, a vault file is made or unlinked.

An invariant of views that every `ViewMove` keeps therefore holds of every prompt in every run, and
its proof never has to tell one prompt from another.
-/

namespace SecretManager

open Function

variable {ι κ : Type} {a : BusAction ι κ} {b b' : Bus ι κ}

/-! ## Views -/

/-- All that concerns one prompt. -/
@[ext]
structure PromptView (κ : Type) where
  object : Option PromptObject
  state : TaskState
  /-- The disconnect of its owner has been processed. -/
  gone : Bool
  calls : κ → Option PromptCall

/-- The prompt has an entry in `prompt_owners`. -/
def PromptView.hasOwner {κ : Type} (v : PromptView κ) : Bool :=
  v.object.any (!·.withdrawn) && v.state.gate.owned

/-- What one step of the bus does for one prompt. -/
structure PromptEvents where
  /-- Its task is spawned. -/
  run : Bool
  /-- `Completed` is emitted, with this flag. -/
  completed : Option Bool
  file : Option FileEvent
  /-- Its task, a create or a delete, tries the gate. -/
  claims : Bool
  /-- Its task is killed. -/
  died : Bool
  deriving DecidableEq

def PromptEvents.none : PromptEvents :=
  { run := false, completed := .none, file := .none, claims := false, died := false }

section

def Bus.view [DecidableEq ι] (b : Bus ι κ) (i : ι) : PromptView κ :=
  { object := b.objects i
    state := (b.objects i).elim .new fun o => b.system.taskState o.kind i
    gone := (b.objects i).any fun o => b.processed o.owner
    calls := fun k => (b.calls k).about i }

variable [DecidableEq ι]

/-- What a step does for a prompt. `Completed` is emitted by whoever takes the owner entry away. -/
def Bus.events (b : Bus ι κ) (a : BusAction ι κ) (b' : Bus ι κ) (i : ι) : PromptEvents :=
  match a, b.objects i with
  | .spawn k, some _ =>
    { PromptEvents.none with run := ((b.calls k).about i).any PromptCall.isHolding }
  | .finish k, some _ =>
    { PromptEvents.none with
      completed := if (b.calls k).about i = some .won ∧ b.hasOwner i = true then some true else none }
  | .inner a, some o =>
    { run := false
      completed :=
        if a.label o.kind i = .finishes ∧ b.hasOwner i = true then b.system.outcome o.kind i else none
      file := b.system.fileEvent o.kind a b'.system i
      claims := decide (a.label o.kind i = .claims)
      died := decide (a.label o.kind i = .dies) }
  | _, _ => .none

end

/-! ## Moves of a view -/

/-- A call that holds no action and has won no gate. -/
def PromptCall.light (call : Option PromptCall) : Bool :=
  call.all fun c => c.action.isNone && decide (c ≠ .won)

section

variable [DecidableEq κ]

def PromptView.setCall (v : PromptView κ) (k : κ) (call : Option PromptCall) : PromptView κ :=
  { v with calls := Function.update v.calls k call }

/-- Every way one step can change the view of one prompt, with what it does for the prompt. -/
inductive ViewMove (v : PromptView κ) : PromptEvents → PromptView κ → Prop
  | same : ViewMove v .none v
  | issued {k o gone action} (fresh : v.object = none) (kind : action.kind = o.kind)
      (slot : o.action = none) (listed : o.withdrawn = false) :
      ViewMove v .none
        { object := some o, state := .new, gone
          calls := Function.update v.calls k (some (.exporting action)) }
  | exported {k o action} (object : v.object = some o) (call : v.calls k = some (.exporting action)) :
      ViewMove v .none
        { v.setCall k none with object := some { o with action := some action, exported := true } }
  | withdrawn {k o action} (object : v.object = some o) (call : v.calls k = some (.exporting action)) :
      ViewMove v .none { v.setCall k none with object := some { o with withdrawn := true } }
  /-- A `Prompt` or `Dismiss` call goes on. -/
  | called {k call} (object : v.object.isSome = true) (before : PromptCall.light (v.calls k) = true)
      (after : PromptCall.light call = true) : ViewMove v .none (v.setCall k call)
  | took {k o action} (object : v.object = some o) (call : v.calls k = some .prompting)
      (slot : o.action = some action) :
      ViewMove v .none
        { v.setCall k (some (.holding action)) with object := some { o with action := none } }
  | disarmed {k o} (object : v.object = some o) (call : v.calls k = some .dismissing) :
      ViewMove v .none { v.setCall k (some .disarmed) with object := some { o with action := none } }
  | spawned {k o action state} (object : v.object = some o) (call : v.calls k = some (.holding action))
      (move : TaskMove o.kind .begins v.state none state) :
      ViewMove v { PromptEvents.none with run := true } { v.setCall k none with state }
  | cancelled {k o state} (object : v.object = some o) (call : v.calls k = some .disarmed)
      (move : TaskMove o.kind (.gate .dismiss) v.state none state) :
      ViewMove v .none { v.setCall k (some .cancelled) with state }
  | claimed {k o state} (object : v.object = some o) (call : v.calls k = some .cancelled)
      (move : TaskMove o.kind (.gate .dismissClaim) v.state none state) :
      ViewMove v .none
        { v.setCall k (if v.state.gate.committed then none else some .won) with state }
  | finished {k o state} (object : v.object = some o) (call : v.calls k = some .won)
      (move : TaskMove o.kind (.gate .dismissFinish) v.state none state) :
      ViewMove v { PromptEvents.none with completed := if v.hasOwner then some true else none }
        { v.setCall k none with state }
  /-- The disconnect of the owner is processed, with an owner entry -/
  | reclaimed {o state} (object : v.object = some o) (owned : v.hasOwner = true)
      (move : TaskMove o.kind (.gate .reclaim) v.state none state) :
      ViewMove v .none { v with state, gone := true }
  /-- or without. -/
  | departed (object : v.object.isSome = true) (unowned : v.hasOwner = false) :
      ViewMove v .none { v with gone := true }
  | inner {o label e state dismissed} (object : v.object = some o) (inside : label.inside = true)
      (move : TaskMove o.kind label v.state e state)
      (failed : v.state.stage = .failed → dismissed = true)
      (succeeded : v.state.stage = .succeeded → dismissed = false) :
      ViewMove v
        { run := false
          completed := if label = .finishes ∧ v.hasOwner = true then some dismissed else none
          file := e
          claims := decide (label = .claims)
          died := decide (label = .dies) }
        { v with state }

end

/-! ## What holds of every prompt -/

structure PromptView.Sound {κ : Type} (v : PromptView κ) : Prop where
  /-- No call is about a prompt that was not issued. -/
  fresh : v.object = none → ∀ k, v.calls k = none
  /-- The action that a call holds, -/
  holds : ∀ k c action, v.calls k = some c → c.action = some action → ∃ o, v.object = some o ∧ action.kind = o.kind
  /-- or that waits to be taken, is of the prompt's kind. -/
  slot : ∀ o action, v.object = some o → o.action = some action → action.kind = o.kind

section

variable [DecidableEq κ] {v v' : PromptView κ}

theorem PromptView.Sound.update (sound : v.Sound) {k : κ} {call : Option PromptCall}
    {o : PromptObject} (object : v'.object = some o)
    (calls : v'.calls = Function.update v.calls k call)
    (kind : ∀ o₀, v.object = some o₀ → o₀.kind = o.kind)
    (held : ∀ c action, call = some c → c.action = some action → action.kind = o.kind)
    (slot : ∀ action, o.action = some action → action.kind = o.kind) : v'.Sound where
  fresh none := by
    rw [object] at none
    cases none
  holds k' c action hcall haction := by
    refine ⟨o, object, ?_⟩
    rw [calls, update_apply] at hcall
    split at hcall
    · exact held c action hcall haction
    · obtain ⟨o₀, hobject, hkind⟩ := sound.holds k' c action hcall haction
      exact hkind.trans (kind o₀ hobject)
  slot o' action hobject haction := by
    obtain rfl : o = o' := Option.some.inj (object.symm.trans hobject)
    exact slot action haction

omit [DecidableEq κ] in
theorem PromptView.Sound.keep (sound : v.Sound) (object : v'.object = v.object)
    (calls : v'.calls = v.calls) : v'.Sound where
  fresh := by
    rw [object, calls]
    exact sound.fresh
  holds := by
    rw [object, calls]
    exact sound.holds
  slot := by
    rw [object]
    exact sound.slot

theorem PromptCall.light_action {call : Option PromptCall} (light : PromptCall.light call = true)
    {c : PromptCall} {action : PromptAction} (hcall : call = some c)
    (haction : c.action = some action) : False := by
  subst hcall
  simp [PromptCall.light, haction] at light

/-- Every move of a view keeps it: an action is only handed on, so its kind stays the prompt's. -/
theorem PromptView.Sound.move {e : PromptEvents} (sound : v.Sound) (move : ViewMove v e v') :
    v'.Sound := by
  have kept : ∀ o : PromptObject, v.object = some o → ∀ o₀, v.object = some o₀ → o₀.kind = o.kind := by
    intro o object o₀ object₀
    rw [object] at object₀
    cases object₀
    rfl
  cases move with
  | same => exact sound
  | issued fresh kind slot listed =>
    refine sound.update rfl rfl (fun o₀ h => ?_) (fun c action hcall haction => ?_) (fun action h => ?_)
    · rw [fresh] at h
      cases h
    · cases hcall
      cases haction
      exact kind
    · rw [slot] at h
      cases h
  | @exported k o action object call =>
    refine sound.update rfl rfl (kept o object) nofun (fun action' h => ?_)
    cases h
    obtain ⟨o₀, object₀, hkind⟩ := sound.holds k _ action call rfl
    exact hkind.trans (kept o object o₀ object₀)
  | @withdrawn k o action object call =>
    exact sound.update rfl rfl (kept o object) nofun (sound.slot o · object)
  | called object before after =>
    obtain ⟨o, object⟩ := Option.isSome_iff_exists.mp object
    exact sound.update object rfl (kept o object)
      (fun c action hcall haction => (PromptCall.light_action after hcall haction).elim)
      (sound.slot o · object)
  | @took k o action object call slot =>
    refine sound.update rfl rfl (kept o object) (fun c action' hcall haction => ?_) nofun
    cases hcall
    cases haction
    exact sound.slot o action object slot
  | @disarmed k o object call =>
    exact sound.update rfl rfl (kept o object) (by rintro c action ⟨⟩ ⟨⟩) nofun
  | @spawned k o action state object call move | @finished k o state object call move =>
    exact sound.update object rfl (kept o object) nofun (sound.slot o · object)
  | @cancelled k o state object call move =>
    exact sound.update object rfl (kept o object) (by rintro c action ⟨⟩ ⟨⟩) (sound.slot o · object)
  | @claimed k o state object call move =>
    refine sound.update object rfl (kept o object) (fun c action hcall haction => ?_) (sound.slot o · object)
    split at hcall
    · cases hcall
    · cases hcall
      cases haction
  | reclaimed object owned move | departed object unowned
  | inner object inside move failed succeeded => exact sound.keep rfl rfl

end

/-! ## Steps, one prompt at a time -/

section

variable [DecidableEq ι]
variable {call : BusCall ι} {i : ι} {k : κ} {o : PromptObject}

theorem Bus.view_hasOwner (b : Bus ι κ) (i : ι) : (b.view i).hasOwner = b.hasOwner i := by
  unfold PromptView.hasOwner Bus.hasOwner Bus.view
  cases b.objects i with
  | none => rfl
  | some o => simp [LockSystem.taskState_gate]

theorem Bus.view_state (object : b.objects i = some o) :
    (b.view i).state = b.system.taskState o.kind i := by
  simp [Bus.view, object]

theorem Bus.view_congr (objects : b'.objects i = b.objects i)
    (system : ∀ o, b.objects i = some o → b'.system.taskState o.kind i = b.system.taskState o.kind
      i) (processed : ∀ o, b.objects i = some o → b'.processed o.owner = b.processed o.owner)
    (calls : b'.calls = b.calls) : b'.view i = b.view i := by
  unfold Bus.view
  rw [objects, calls]
  cases object : b.objects i with
  | none => rfl
  | some o => simp [system o object, processed o object]

theorem Bus.view_setObject_of_ne (b : Bus ι κ) {j : ι} (ne : i ≠ j) (o : PromptObject) :
    (b.setObject j o).view i = b.view i := by
  have objects : (b.setObject j o).objects i = b.objects i := update_of_ne ne _ _
  exact Bus.view_congr objects (fun _ _ => rfl) (fun _ _ => rfl) rfl

theorem Bus.view_setObject {o' : PromptObject} (object : b.objects i = some o)
    (kind : o'.kind = o.kind) (owner : o'.owner = o.owner) :
    (b.setObject i o').view i = { b.view i with object := some o' } := by
  unfold Bus.view
  rw [object]
  simp [Bus.setObject, kind, owner]

theorem Bus.view_setObject_fresh (o : PromptObject) (state : b.system.taskState o.kind i = .new) :
    (b.setObject i o).view i =
      { object := some o, state := .new, gone := b.processed o.owner, calls := (b.view i).calls } := by
  simp [Bus.view, Bus.setObject, state]

theorem Bus.view_system (object : b.objects i = some o) (system : LockSystem ι ι) :
    Bus.view { b with system } i = { b.view i with state := system.taskState o.kind i } := by
  unfold Bus.view
  simp [object]

attribute [local simp] Bus.events

theorem Bus.events_plain (plain : a.plain = true) (i : ι) : b.events a b' i = .none := by
  cases a with
  | inner a | spawn k | finish k => cases plain
  | _ => cases object : b.objects i <;> simp

theorem Bus.events_fresh (fresh : b.objects i = none) : b.events a b' i = .none := by
  cases a <;> simp [fresh]

theorem Bus.checkOwner_object {c : Client} (h : b.checkOwner c i = true) :
    (b.view i).object.isSome = true := by
  simp only [Bus.checkOwner, Bus.view, Bool.and_eq_true, Option.any_eq_true] at h ⊢
  obtain ⟨-, o, object, -⟩ := h
  simp [object]

theorem Bus.events_of_none (h : (b.calls k).about i = none) (call : a = .spawn k ∨ a = .finish k) :
    b.events a b' i = .none := by
  cases object : b.objects i with
  | none => exact Bus.events_fresh object
  | some o =>
    rcases call with rfl | rfl
    · simp [object, h, PromptEvents.none]
    · simp [object, h, PromptEvents.none]

section

variable (object : b.objects i = some o)
include object

theorem Bus.events_spawn {action : PromptAction}
    (h : (b.calls k).about i = some (.holding action)) :
    b.events (.spawn k) b' i = { PromptEvents.none with run := true } := by
  simp [object, h, PromptCall.isHolding]

theorem Bus.events_finish (h : (b.calls k).about i = some .won) : b.events (.finish k) b' i =
      { PromptEvents.none with completed := if (b.view i).hasOwner then some true else none } := by
  simp [object, h, Bus.view_hasOwner]

theorem Bus.events_inner {a : LockAction ι ι} {dismissed : Bool}
    (h : a.label o.kind i = .finishes → b.system.outcome o.kind i = some dismissed) :
    b.events (.inner a) b' i =
      { run := false
        completed :=
          if a.label o.kind i = .finishes ∧ (b.view i).hasOwner = true then some dismissed else none
        file := b.system.fileEvent o.kind a b'.system i
        claims := decide (a.label o.kind i = .claims)
        died := decide (a.label o.kind i = .dies) } := by
  by_cases finishes : a.label o.kind i = .finishes
  · simp [object, Bus.view_hasOwner, h finishes]
  · simp [object, finishes]

theorem Bus.gate_move {x : Externals} {toml : Toml} {cfg : Config} {idle : Nat} {act : GateAction}
    {system : LockSystem ι ι}
    (moved : b.system.step x toml cfg idle (o.kind.gate i act) = some system) :
    TaskMove o.kind (.gate act) (b.view i).state none (system.taskState o.kind i) := by
  have move := (LockSystem.step_inv moved).moves o.kind i
  rwa [PromptKind.gate_label, PromptKind.gate_fileEvent, ← Bus.view_state object] at move

end

variable [DecidableEq κ]

theorem Bus.view_setCall (b : Bus ι κ) (k : κ) (call : BusCall ι) (i : ι) :
    (b.setCall k call).view i = (b.view i).setCall k (call.about i) := by
  have calls : (fun k' => (Function.update b.calls k call k').about i) =
      Function.update (fun k' => (b.calls k').about i) k (call.about i) :=
    comp_update (BusCall.about i) b.calls k call
  unfold Bus.view Bus.setCall PromptView.setCall
  rw [← calls]

theorem Bus.view_setCall_of_none (before : (b.calls k).about i = none)
    (after : call.about i = none) : (b.setCall k call).view i = b.view i := by
  rw [Bus.view_setCall, after, ← before]
  exact PromptView.ext rfl rfl rfl (update_eq_self k (b.view i).calls)

variable {x : Externals} {toml : Toml} {cfg : Config} {idle : Nat}

theorem Bus.view_driven (object : b.objects i = some o) (system : LockSystem ι ι) :
    Bus.view { b.setCall k call with system } i =
      { (b.view i).setCall k (call.about i) with state := system.taskState o.kind i } := by
  rw [← Bus.view_setCall, ← Bus.view_system (b := b.setCall k call) object]

theorem Bus.view_driven_of_ne {act : LockAction ι ι} {system : LockSystem ι ι}
    (before : (b.calls k).about i = none) (after : call.about i = none)
    (moved : b.system.step x toml cfg idle act = some system)
    (aside : ∀ kind, act.label kind i = .aside) :
    Bus.view { b.setCall k call with system } i = b.view i := by
  rw [← Bus.view_setCall_of_none before after]
  exact Bus.view_congr rfl (fun o _ => LockSystem.taskState_of_aside moved (aside o.kind)) (fun _ _ => rfl) rfl

/-- What the bus keeps of every prompt, issued or not: a name that was not issued is free in all of
the daemon's tables. -/
structure Bus.Sound (b : Bus ι κ) : Prop where
  fresh : ∀ i, b.objects i = none → ∀ kind, (b.system.taskState kind i).Free
  unlocks : ∀ i, b.objects i = none → b.system.taskState .unlock i = .new
  listed : ∀ i, b.objects i ≠ none → i ∈ b.issued
  views : ∀ i, (b.view i).Sound

omit [DecidableEq κ] in
theorem Bus.Sound.unused (sound : b.Sound) (unused : b.unused i = true) (kind : PromptKind) :
    b.objects i = none ∧ b.system.taskState kind i = .new := by
  rw [Bus.unused, Bool.and_eq_true, Option.isNone_iff_eq_none] at unused
  have daemon : b.system.daemon.taskState i = .new := by
    have free := (sound.fresh i unused.1 .createCollection).gate
    have task : b.system.daemon.tasks i = .idle := by
      cases task : b.system.daemon.tasks i with
      | idle => rfl
      | _ => simp [task] at unused
    exact congrArg₂ (fun stage gate => TaskState.mk stage gate []) (by rw [task]; rfl) free
  cases kind with
  | unlock => exact ⟨unused.1, sound.unlocks i unused.1⟩
  | createCollection | deleteCollection => exact ⟨unused.1, daemon⟩

theorem Bus.view_armed {o' : PromptObject} (object : b.objects i = some o) (kind : o'.kind = o.kind)
    (owner : o'.owner = o.owner) : ((b.setCall k call).setObject i o').view i =
      { (b.view i).setCall k (call.about i) with object := some o' } := by
  rw [← Bus.view_setCall, Bus.view_setObject (b := b.setCall k call) object kind owner]

theorem Bus.view_armed_of_ne {j : ι} (ne : i ≠ j) (before : (b.calls k).about i = none)
    (after : call.about i = none) (o : PromptObject) :
    ((b.setCall k call).setObject j o).view i = b.view i := by
  rw [Bus.view_setObject_of_ne _ ne]
  exact Bus.view_setCall_of_none before after

/-- **A disconnect** reclaims the prompts of the client that has left and no others. -/
theorem Bus.view_disconnect (sound : b.Sound) {c : Client} (objects : b'.objects = b.objects)
    (calls : b'.calls = b.calls) (system : b'.system = b.reclaimAll x toml cfg idle c)
    (processed : b'.processed = Function.update b.processed c true) :
    ViewMove (b.view i) .none (b'.view i) := by
  cases object : b.objects i with
  | none =>
    have same : b'.view i = b.view i :=
      Bus.view_congr (by rw [objects]) (by rw [object]; nofun) (by rw [object]; nofun) calls
    rw [same]
    exact .same
  | some o =>
    have after : b'.view i =
        { b.view i with state := b'.system.taskState o.kind i, gone := b'.processed o.owner } := by
      simp [Bus.view, objects, object, calls]
    have hasOwner : (b.view i).hasOwner = true → (b.system.gateOf o.kind i).owned = true := by
      intro h
      rw [PromptView.hasOwner, Bool.and_eq_true, Bus.view_state object, LockSystem.taskState_gate] at h
      exact h.2
    have reclaimed := Bus.foldl_reclaimOne x toml cfg idle object (b.issued.filter (b.ownedBy c)) b.system
    rw [← Bus.reclaimAll_eq, ← system] at reclaimed
    by_cases owner : o.owner = c
    · have owned : b.ownedBy c i = (b.view i).hasOwner := by
        simp [Bus.ownedBy, Bus.view_hasOwner, object, owner]
      have gone : b'.processed o.owner = true := by rw [processed, owner, update_self]
      rw [after, gone]
      rcases reclaimed with ⟨mem, -, move⟩ | ⟨out, same⟩
      · refine .reclaimed object (owned ▸ (List.mem_filter.mp mem).2) ?_
        rw [Bus.view_state object]
        exact move
      · have unowned : (b.view i).hasOwner = false := by
          rw [Bool.eq_false_iff]
          intro h
          have listed : i ∈ b.issued := sound.listed i (by rw [object]; nofun)
          exact out ⟨List.mem_filter.mpr ⟨listed, owned.trans h⟩, hasOwner h⟩
        rw [same, ← Bus.view_state object]
        exact .departed (by simp [Bus.view, object]) unowned
    · have unlisted : i ∉ b.issued.filter (b.ownedBy c) := by
        intro mem
        have owned := (List.mem_filter.mp mem).2
        simp [Bus.ownedBy, object, owner] at owned
      have kept : b'.processed o.owner = b.processed o.owner := by
        rw [processed, update_of_ne owner]
      have same : b'.view i = b.view i := by
        rcases reclaimed with ⟨mem, -, -⟩ | ⟨-, same⟩
        · exact absurd mem unlisted
        · rw [after, same, kept]
          exact PromptView.ext rfl (Bus.view_state object).symm (by simp [Bus.view, object]) rfl
      rw [same]
      exact .same

theorem BusStep.view (sound : b.Sound) (step : BusStep x toml cfg idle b a b') (i : ι) :
    ViewMove (b.view i) (b.events a b' i) (b'.view i) := by
  cases step with
  | @inner a system free own moved =>
    cases object : b.objects i with
    | none =>
      have same : Bus.view { b with system } i = b.view i :=
        Bus.view_congr rfl (by rw [object]; nofun) (fun _ _ => rfl) rfl
      rw [Bus.events_fresh object, same]
      exact .same
    | some o =>
      have step := LockSystem.step_inv moved
      have own' : a.newcomer ≠ some i := by
        intro h
        rw [own i h] at object
        cases object
      have inside := LockAction.inside_of_free free own' o.kind
      have move := step.moves o.kind i
      rw [← Bus.view_state object] at move
      have after := Bus.view_system object system
      obtain ⟨dismissed, outcome, failed, succeeded⟩ := step.outcome o.kind i
      rw [← Bus.view_state object] at failed succeeded
      rw [after, Bus.events_inner object outcome]
      exact .inner object inside move failed succeeded
  | called plain before after asked =>
    rw [Bus.events_plain plain, Bus.view_setCall_of_none (BusCall.about_of_none before) (BusCall.about_of_none after)]
    exact .same
  | @inserted k c before quota =>
    have same : (b.setCall k (.opened (b.nextSession + 1))).view i = b.view i :=
      Bus.view_setCall_of_none (by rw [before]; rfl) rfl
    exact same ▸ .same
  | @unexported k session ok before =>
    have same : (b.setCall k .returned).view i = b.view i :=
      Bus.view_setCall_of_none (by rw [before]; rfl) rfl
    exact same ▸ .same
  | close session c | leave c =>
    exact .same
  | @issued k j c action before unused admitted quota =>
    have call : (b.calls k).about i = none := by rw [before]; rfl
    by_cases hij : i = j
    · subst hij
      obtain ⟨object, state⟩ := sound.unused unused action.kind
      have after := Bus.view_setObject_fresh (b := b.setCall k (.exporting i action))
        { owner := c, kind := action.kind, action := none, exported := false, withdrawn := false } state
      rw [Bus.view_setCall, BusCall.about_self rfl] at after
      exact after ▸ .issued object rfl rfl rfl
    · have same := Bus.view_armed_of_ne hij call
        (BusCall.about_of_ne rfl hij : (BusCall.exporting j action).about i = none)
        { owner := c, kind := action.kind, action := none, exported := false, withdrawn := false }
      exact same ▸ .same
  | @exported k j action o before object =>
    have call : (b.calls k).subject = some (j, .exporting action) := by rw [before]; rfl
    by_cases hij : i = j
    · subst hij
      rw [Bus.view_armed object]
      · exact .exported object (BusCall.about_self call)
      · rfl
      · rfl
    · rw [Bus.view_armed_of_ne hij (BusCall.about_of_ne call hij) rfl]
      exact .same
  | @withdrawn k j action o before object =>
    have call : (b.calls k).subject = some (j, .exporting action) := by rw [before]; rfl
    by_cases hij : i = j
    · subst hij
      rw [Bus.view_armed object]
      · exact .withdrawn object (BusCall.about_self call)
      · rfl
      · rfl
    · rw [Bus.view_armed_of_ne hij (BusCall.about_of_ne call hij) rfl]
      exact .same
  | @prompting k c j before owner | @dismissing k c j before owner =>
    have call : (b.calls k).about i = none := by rw [before]; rfl
    by_cases hij : i = j
    · subst hij
      rw [Bus.view_setCall]
      refine .called (Bus.checkOwner_object owner) ?_ ?_
      · exact (congrArg PromptCall.light call).trans rfl
      · rw [BusCall.about_self rfl]
        rfl
    · rw [Bus.view_setCall_of_none call (BusCall.about_of_ne rfl hij)]
      exact .same
  | @took k j o action before object slot =>
    have call : (b.calls k).subject = some (j, .prompting) := by rw [before]; rfl
    by_cases hij : i = j
    · subst hij
      rw [Bus.view_armed object, BusCall.about_self rfl]
      · exact .took object (BusCall.about_self call) slot
      · rfl
      · rfl
    · rw [Bus.view_armed_of_ne hij (BusCall.about_of_ne call hij) (BusCall.about_of_ne rfl hij)]
      exact .same
  | @spent k j o before object slot =>
    have call : (b.calls k).subject = some (j, .prompting) := by rw [before]; rfl
    by_cases hij : i = j
    · subst hij
      rw [Bus.view_setCall]
      refine .called (by simp [Bus.view, object]) ?_ rfl
      exact (congrArg PromptCall.light (BusCall.about_self call)).trans rfl
    · rw [Bus.view_setCall_of_none (BusCall.about_of_ne call hij) rfl]
      exact .same
  | @spawned k j action system before moved =>
    have call : (b.calls k).subject = some (j, .holding action) := by rw [before]; rfl
    by_cases hij : i = j
    · subst hij
      obtain ⟨o, object, kind⟩ := (sound.views i).holds k _ action (BusCall.about_self call) rfl
      have move := (LockSystem.step_inv moved).moves action.kind i
      rw [action.begin_label, action.begin_fileEvent, kind, ← Bus.view_state object] at move
      rw [Bus.view_driven object, Bus.events_spawn object (BusCall.about_self call)]
      exact .spawned object (BusCall.about_self call) move
    · rw [Bus.view_driven_of_ne (BusCall.about_of_ne call hij) rfl moved
        fun kind => action.begin_label_of_ne hij kind,
        Bus.events_of_none (BusCall.about_of_ne call hij) (.inl rfl)]
      exact .same
  | @disarmed k j o before object =>
    have call : (b.calls k).subject = some (j, .dismissing) := by rw [before]; rfl
    by_cases hij : i = j
    · subst hij
      rw [Bus.view_armed object, BusCall.about_self rfl]
      · exact .disarmed object (BusCall.about_self call)
      · rfl
      · rfl
    · rw [Bus.view_armed_of_ne hij (BusCall.about_of_ne call hij) (BusCall.about_of_ne rfl hij)]
      exact .same
  | @cancelled k j o system before object moved =>
    have call : (b.calls k).subject = some (j, .disarmed) := by rw [before]; rfl
    by_cases hij : i = j
    · subst hij
      rw [Bus.view_driven object, BusCall.about_self rfl]
      exact .cancelled object (BusCall.about_self call) (Bus.gate_move object moved)
    · rw [Bus.view_driven_of_ne (BusCall.about_of_ne call hij) (BusCall.about_of_ne rfl hij) moved
        fun kind => PromptKind.gate_label_of_ne _ kind hij _]
      exact .same
  | @claimed k j o system before object moved =>
    have call : (b.calls k).subject = some (j, .cancelled) := by rw [before]; rfl
    by_cases hij : i = j
    · subst hij
      have after : (if (b.system.gateOf o.kind i).committed = true then BusCall.returned
          else .won i).about i = if (b.view i).state.gate.committed then none else some .won := by
        rw [Bus.view_state object, LockSystem.taskState_gate]
        split
        · rfl
        · exact BusCall.about_self rfl
      rw [Bus.view_driven object, after]
      exact .claimed object (BusCall.about_self call) (Bus.gate_move object moved)
    · have after : (if (b.system.gateOf o.kind j).committed = true then BusCall.returned
          else .won j).about i = none := by
        split
        · rfl
        · exact BusCall.about_of_ne rfl hij
      rw [Bus.view_driven_of_ne (BusCall.about_of_ne call hij) after moved
        fun kind => PromptKind.gate_label_of_ne _ kind hij _]
      exact .same
  | @finished k j o system before object moved =>
    have call : (b.calls k).subject = some (j, .won) := by rw [before]; rfl
    by_cases hij : i = j
    · subst hij
      rw [Bus.view_driven object, Bus.events_finish object (BusCall.about_self call)]
      exact .finished object (BusCall.about_self call) (Bus.gate_move object moved)
    · rw [Bus.view_driven_of_ne (BusCall.about_of_ne call hij) rfl moved
        fun kind => PromptKind.gate_label_of_ne _ kind hij _,
        Bus.events_of_none (BusCall.about_of_ne call hij) (.inr rfl)]
      exact .same
  | @disconnect c left unprocessed =>
    exact Bus.view_disconnect sound rfl rfl rfl rfl

/-! ## Runs -/

theorem BusStep.fresh (sound : b.Sound) (step : BusStep x toml cfg idle b a b')
    (fresh : b'.objects i = none) (kind : PromptKind) :
    b.objects i = none ∧ ∃ label e, (label.inside = true ∨ label = .serves ∧ kind ≠ .unlock) ∧
      TaskMove kind label (b.system.taskState kind i) e (b'.system.taskState kind i) := by
  -- a step that leaves this prompt, whatever it does to another
  have left : ∀ {system : LockSystem ι ι}, b.objects i = none → system.taskState kind i = b.system.taskState kind i →
      b.objects i = none ∧ ∃ label e, (label.inside = true ∨ label = .serves ∧ kind ≠ .unlock) ∧
        TaskMove kind label (b.system.taskState kind i) e (system.taskState kind i) := by
    intro system before same
    exact ⟨before, .aside, none, .inl rfl, same ▸ .aside _⟩
  have other : ∀ {j : ι} {o : PromptObject}, b.objects j = some o → b.objects i = none → i ≠ j := by
    rintro j o object before rfl
    rw [before] at object
    cases object
  have armed : ∀ {j : ι} {o : PromptObject}, Function.update b.objects j (some o) i = none → b.objects i = none := by
    intro j o h
    rw [update_apply] at h
    split at h
    · cases h
    · exact h
  cases step with
  | inner free own moved =>
    exact ⟨fresh, _, _, LockAction.inside_or_serves free i kind, (LockSystem.step_inv moved).moves kind i⟩
  | issued before unused admitted quota | exported before object | withdrawn before object
  | took before object slot | disarmed before object => exact left (armed fresh) rfl
  | @spawned k j action system before moved =>
    have call : (b.calls k).about j = some (.holding action) := by
      rw [before]
      exact BusCall.about_self rfl
    obtain ⟨o, object, -⟩ := (sound.views j).holds k _ action call rfl
    exact left fresh (LockSystem.taskState_of_aside moved (action.begin_label_of_ne (other object fresh) kind))
  | cancelled before object moved | claimed before object moved | finished before object moved =>
    exact left fresh (LockSystem.taskState_of_aside moved
      (PromptKind.gate_label_of_ne _ kind (other object fresh) _))
  | disconnect hleft unprocessed => exact left fresh (Bus.foldl_reclaimOne_fresh fresh kind _ _)
  | _ => exact left fresh rfl

theorem BusStep.listed (step : BusStep x toml cfg idle b a b')
    (listed : ∀ i, b.objects i ≠ none → i ∈ b.issued) (h : b'.objects i ≠ none) :
    i ∈ b'.issued := by
  have armed : ∀ {j : ι} {o o' : PromptObject}, b.objects j = some o →
      Function.update b.objects j (some o') i ≠ none → i ∈ b.issued := by
    intro j o o' object h
    refine listed i ?_
    rw [update_apply] at h
    split at h
    next hij =>
      rw [hij, object]
      nofun
    · exact h
  cases step with
  | @issued k j c action before unused admitted quota =>
    by_cases hij : i = j
    · exact List.mem_append_right _ (List.mem_singleton.mpr hij)
    · refine List.mem_append_left _ (listed i ?_)
      exact fun none => h ((update_of_ne hij _ _).trans none)
  | exported before object | withdrawn before object | took before object slot
  | disarmed before object => exact armed object h
  | _ => exact listed i h

/-- Every step of the bus keeps it, whatever the clients and the daemon do. -/
theorem Bus.Sound.step (sound : b.Sound) (step : BusStep x toml cfg idle b a b') : b'.Sound where
  fresh i fresh kind := by
    obtain ⟨before, label, e, inside, move⟩ := step.fresh sound fresh kind
    exact move.free (sound.fresh i before kind) (inside.imp_right And.left)
  unlocks i fresh := by
    obtain ⟨before, label, e, inside, move⟩ := step.fresh sound fresh .unlock
    rw [sound.unlocks i before] at move
    exact move.new (inside.resolve_right fun h => h.2 rfl)
  listed _ h := step.listed sound.listed h
  views i := (sound.views i).move (step.view sound i)

omit [DecidableEq κ] in
theorem Bus.start_sound {daemon : Daemon ι} (booted : Booted x cfg daemon) :
    (Bus.start κ daemon).Sound where
  fresh i _ kind := by
    have free : (daemon.taskState i).Free :=
      ⟨booted.gates i, rfl, .inl (by simp [Daemon.taskState, booted.tasks i, Task.stage])⟩
    cases kind with
    | unlock => exact ⟨rfl, rfl, .inl rfl⟩
    | createCollection | deleteCollection => exact free
  unlocks i _ := rfl
  listed i h := absurd rfl h
  views i := ⟨fun _ _ => rfl, nofun, nofun⟩

/-- A log for each prompt, from what a step does for it and the view it leaves. -/
def Bus.record {L : Type} (note : PromptEvents → PromptView κ → L → L) (b : Bus ι κ)
    (a : BusAction ι κ) (b' : Bus ι κ) (log : ι → L) : ι → L :=
  fun i => note (b.events a b' i) (b'.view i) (log i)

/-- **The rule for prompts**: what every disciplined move of a view keeps holds of every prompt. -/
theorem Bus.views_of_reach {L : Type} {note : PromptEvents → PromptView κ → L → L}
    {ok : Bus ι κ × (ι → L) → BusAction ι κ → Prop} {p₀ p : Bus ι κ × (ι → L)}
    (Inv : PromptView κ → L → Prop) (sound : p₀.1.Sound) (start : ∀ i, Inv (p₀.1.view i) (p₀.2 i))
    (keep : ∀ {b : Bus ι κ} {log : ι → L} {a : BusAction ι κ} {b' : Bus ι κ} (i : ι), ok (b, log) a
      → b.Sound → BusStep x toml cfg idle b a b' → ViewMove (b.view i) (b.events a b' i) (b'.view i)
      → Inv (b.view i) (log i) → Inv (b'.view i) (note (b.events a b' i) (b'.view i) (log i)))
    (run : Reach (logged (Bus.step x toml cfg idle) (Bus.record note)) ok p₀ p) :
    p.1.Sound ∧ ∀ i, Inv (p.1.view i) (p.2 i) := by
  refine run.invariant (fun p => p.1.Sound ∧ ∀ i, Inv (p.1.view i) (p.2 i)) ⟨sound, start⟩ ?_
  rintro ⟨b, log⟩ a ⟨b', log'⟩ ⟨sound, inv⟩ hok hstep
  obtain ⟨hstep, hlog⟩ := logged_eq_some hstep
  have step := Bus.step_inv hstep
  refine ⟨sound.step step, fun i => ?_⟩
  obtain rfl : log' = Bus.record note b a b' log := hlog
  exact keep i hok sound step (step.view sound i) (inv i)

end

end SecretManager
