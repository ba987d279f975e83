import SecretManager.Laws.Dbus.Views

/-!
# What the moves of a prompt have in common

`ViewMove` lists what a step can do to a prompt; most results need less. Every move of a prompt that
was issued is a move of its task, and `ViewStep` says what goes with it: when the task begins or
finishes, when `Completed` is emitted, whose owner entry pays for it, and which calls have won the
gate. The other thing that is the same for all of them is where the prompt's action is.
-/

namespace SecretManager

open Function PromptView

variable {κ : Type} {v v' : PromptView κ}

/-! ## The task -/

section

variable {kind : PromptKind} {label : TaskLabel} {p p' : TaskState} {e : Option FileEvent}

theorem TaskStage.begun_cases {stage : TaskStage} (h : stage.begun kind = true) :
    stage = .asks ∨ stage = .failed ∨ stage = .unlocks ∧ kind = .unlock := by
  cases stage with
  | asks => exact .inl rfl
  | failed => exact .inr (.inl rfl)
  | unlocks => exact .inr (.inr ⟨rfl, of_decide_eq_true h⟩)
  | _ => cases h

theorem TaskMove.finishes_inv (move : TaskMove kind .finishes p e p') :
    (p.stage = .failed ∨ p.stage = .succeeded ∨ p.stage = .unlocks) ∧ e = none ∧
      p'.stage = .ended ∧ p'.gate.owned = false := by
  cases move with
  | finishes done => exact ⟨done, rfl, rfl, rfl⟩

theorem TaskMove.ends_inv (move : TaskMove kind (.gate .dismissFinish) p e p') :
    p'.gate.owned = false := by
  cases move
  rfl

theorem TaskMove.begins_inv (move : TaskMove kind .begins p e p') :
    p.stage = .idle ∧ p'.stage ≠ .idle := by
  cases move with
  | begins first =>
    refine ⟨rfl, ?_⟩
    rcases TaskStage.begun_cases first with rfl | rfl | ⟨rfl, -⟩
    · nofun
    · nofun
    · nofun

theorem TaskMove.idle_iff (move : TaskMove kind label p e p') (begins : label ≠ .begins)
    (serves : label ≠ .serves) : p'.stage = .idle ↔ p.stage = .idle := by
  cases move with
  | begins first => exact absurd rfl begins
  | serves after => exact absurd rfl serves
  | finishes done => rcases done with rfl | rfl | rfl <;> simp
  | dies aborted alive after =>
    rcases after with rfl | ⟨rfl, rfl⟩
    · refine ⟨nofun, ?_⟩
      rintro rfl
      cases alive
    · simp
  | _ => simp

theorem TaskMove.unlocks_inv (move : TaskMove kind label p e p') (h : p'.stage = .unlocks) :
    p.stage = .unlocks ∨ kind = .unlock := by
  cases move with
  | begins first =>
    rcases TaskStage.begun_cases first with rfl | rfl | ⟨rfl, unlock⟩
    · cases h
    · cases h
    · exact .inr unlock
  | serves after => rcases after with rfl | rfl <;> cases h
  | dies aborted alive after => rcases after with rfl | ⟨-, rfl⟩ <;> cases h
  | aside | stays | reclaimed owned kept | dismissed | claimed unclaimed | late claimed
  | ends dismissing | aborted aborting => exact .inl h
  | unlocks committed r' => exact .inl rfl
  | _ => cases h

theorem TaskMove.gate_stage {a : GateAction} (move : TaskMove kind (.gate a) p e p') :
    p'.stage = p.stage := by
  cases move <;> rfl

theorem TaskMove.gate_file {a : GateAction} (move : TaskMove kind (.gate a) p e p') : e = none := by
  cases move <;> rfl

theorem TaskMove.owned_of (move : TaskMove kind label p e p') (h : p'.gate.owned = true) :
    p.gate.owned = true := by
  cases move with
  | finishes done => cases h
  | reclaimed owned kept => exact owned
  | ends dismissing => cases h
  | _ => exact h

end

/-! ## Where the action is -/

section

/-- The action is in the slot, or in the hands of this call. -/
def PromptView.Arms (v : PromptView κ) : Option κ → Prop
  | none => ∃ o action, v.object = some o ∧ o.action = some action
  | some k => ∃ c action, v.calls k = some c ∧ c.action = some action

def PromptView.withdrawn (v : PromptView κ) : Bool := v.object.any (·.withdrawn)

/-- **The action is in one place**, and as long as it is anywhere it has not run. -/
structure PromptView.Slot (v : PromptView κ) : Prop where
  once : ∀ w w', v.Arms w → v.Arms w' → w = w'
  idle : ∀ w, v.Arms w → v.state.stage = .idle
  /-- The action of a prompt that was withdrawn is lost. -/
  lost : v.withdrawn = true → v.state.stage = .idle ∧ ∀ w, ¬ v.Arms w

theorem PromptView.Slot.sub (slot : v.Slot) (sub : ∀ w, v'.Arms w → v.Arms w)
    (stage : v.state.stage = .idle → v'.state.stage = .idle)
    (withdrawn : v'.withdrawn = v.withdrawn) : v'.Slot where
  once w w' hw hw' := slot.once w w' (sub w hw) (sub w' hw')
  idle w hw := stage (slot.idle w (sub w hw))
  lost h :=
    have lost := slot.lost (withdrawn.symm.trans h)
    ⟨stage lost.1, fun w hw => lost.2 w (sub w hw)⟩

/-- As long as there is an action the prompt is not withdrawn. -/
theorem PromptView.Slot.listed (slot : v.Slot) {w : Option κ} (held : v.Arms w) :
    v.withdrawn = false := by
  rw [Bool.eq_false_iff]
  exact fun h => (slot.lost h).2 w held

/-- The action goes from one place to another. -/
theorem PromptView.Slot.moved (slot : v.Slot) (w₀ w₁ : Option κ) (held : v.Arms w₀)
    (moved : ∀ w, v'.Arms w → w = w₁ ∨ w ≠ w₀ ∧ v.Arms w) (stage : v'.state.stage = v.state.stage)
    (withdrawn : v'.withdrawn = v.withdrawn) : v'.Slot := by
  have here : ∀ w, v'.Arms w → w = w₁ := by
    intro w hw
    rcases moved w hw with rfl | ⟨ne, hw⟩
    · rfl
    · exact absurd (slot.once w w₀ hw held) ne
  refine ⟨fun w w' hw hw' => (here w hw).trans (here w' hw').symm, fun w _ => ?_, fun h => ?_⟩
  · rw [stage]
    exact slot.idle w₀ held
  · rw [withdrawn, slot.listed held] at h
    cases h

theorem PromptView.Slot.spent (slot : v.Slot) (w₀ : Option κ) (held : v.Arms w₀)
    (spent : ∀ w, v'.Arms w → w ≠ w₀ ∧ v.Arms w)
    (lost : v'.withdrawn = v.withdrawn ∨ v'.state.stage = v.state.stage) : v'.Slot := by
  have nowhere : ∀ w, ¬ v'.Arms w := by
    intro w hw
    obtain ⟨ne, hw⟩ := spent w hw
    exact ne (slot.once w w₀ hw held)
  refine ⟨fun w _ hw => absurd hw (nowhere w), fun w hw => absurd hw (nowhere w), fun h => ?_⟩
  rcases lost with kept | stage
  · rw [kept, slot.listed held] at h
    cases h
  · exact ⟨stage.trans (slot.idle w₀ held), nowhere⟩

variable [DecidableEq κ]

theorem PromptView.arms_of_update (k : κ) (call : Option PromptCall)
    (calls : v'.calls = Function.update v.calls k call)
    (none : ∀ c, call = some c → c.action = none) {k' : κ} (arms : v'.Arms (some k')) :
    some k' ≠ some k ∧ v.Arms (some k') := by
  obtain ⟨c, action, hcall, haction⟩ := arms
  rw [calls, update_apply] at hcall
  split at hcall
  · rw [none c hcall] at haction
    cases haction
  next ne => exact ⟨fun h => ne (Option.some.inj h), c, action, hcall, haction⟩

theorem PromptCall.light_cases {call : Option PromptCall} (light : PromptCall.light call = true) :
    (∀ c, call = some c → c.action = none) ∧ call ≠ some .won := by
  refine ⟨?_, ?_⟩
  · rintro c rfl
    simp [PromptCall.light] at light
    exact light.1
  · rintro rfl
    simp [PromptCall.light] at light

end

/-! ## The step -/

section

/-- What goes with a move of the task of a prompt that was issued. -/
structure ViewStep (v : PromptView κ) (e : PromptEvents) (v' : PromptView κ) (o o' : PromptObject)
    (label : TaskLabel) : Prop where
  object : v'.object = some o'
  kind : o'.kind = o.kind
  task : TaskMove o.kind label v.state e.file v'.state
  serves : label ≠ .serves
  run : e.run = decide (label = .begins)
  claims : e.claims = decide (label = .claims)
  died : e.died = decide (label = .dies)
  begins : label = .begins → ∃ w, v.Arms w
  /-- Nothing gives a prompt its owner back, and what takes it away may complete the prompt. -/
  owner : v'.hasOwner = true → v.hasOwner = true ∧ e.completed = none
  emits : ∀ dismissed, e.completed = some dismissed → v.hasOwner = true ∧
    (label = .finishes ∧ (v.state.stage = .failed → dismissed = true) ∧
        (v.state.stage = .succeeded → dismissed = false) ∨
      label = .gate .dismissFinish ∧ dismissed = true)
  gone : v.gone = true → v'.gone = true
  reclaim : label = .gate .reclaim → v'.gone = true
  left : v'.gone = true → v.gone = true ∨ v'.hasOwner = false
  /-- Only a call that has won the gate finishes the prompt, and one wins by claiming it. -/
  ends : label = .gate .dismissFinish → ∃ k, v.calls k = some .won
  won : ∀ k, v'.calls k = some .won →
    v.calls k = some .won ∨ label = .gate .dismissClaim ∧ v.state.gate.committed = false
  wins : label = .gate .dismissClaim → v.state.gate.committed = false → ∃ k, v'.calls k = some .won
  keeps : ∀ k, v.calls k = some .won → v'.calls k = some .won ∨ label = .gate .dismissFinish

variable {e : PromptEvents} {o : PromptObject}

theorem PromptView.hasOwner_some (object : v.object = some o) :
    v.hasOwner = (!o.withdrawn && v.state.gate.owned) := by
  simp [hasOwner, object]

theorem ViewStep.still {o' : PromptObject} (object : v.object = some o)
    (object' : v'.object = some o') (kind : o'.kind = o.kind) (state : v'.state = v.state)
    (owner : o'.withdrawn = false → o.withdrawn = false) (gone : v.gone = true → v'.gone = true)
    (left : v'.gone = true → v.gone = true ∨ v'.hasOwner = false)
    (won : ∀ k, v'.calls k = some .won ↔ v.calls k = some .won) :
    ViewStep v .none v' o o' .aside where
  object := object'
  kind := kind
  task := by
    rw [state]
    exact .aside _
  serves := nofun
  begins := nofun
  run := rfl
  claims := rfl
  died := rfl
  owner h := by
    rw [hasOwner_some object', Bool.and_eq_true, Bool.not_eq_true', state] at h
    rw [hasOwner_some object, owner h.1, h.2]
    exact ⟨rfl, rfl⟩
  emits := nofun
  gone := gone
  reclaim := nofun
  left := left
  ends := nofun
  won k h := .inl ((won k).mp h)
  wins := nofun
  keeps k h := .inl ((won k).mpr h)

theorem PromptView.hasOwner_of {label : TaskLabel} {event : Option FileEvent}
    (h : v'.hasOwner = true) (object : v.object = some o) (object' : v'.object = some o)
    (move : TaskMove o.kind label v.state event v'.state) : v.hasOwner = true := by
  rw [hasOwner_some object', Bool.and_eq_true] at h
  rw [hasOwner_some object, Bool.and_eq_true]
  exact ⟨h.1, move.owned_of h.2⟩

theorem ViewStep.moved {label : TaskLabel} (object : v.object = some o)
    (object' : v'.object = some o) (move : TaskMove o.kind label v.state e.file v'.state)
    (serves : label ≠ .serves) (begins : label = .begins → ∃ w, v.Arms w)
    (run : e.run = decide (label = .begins)) (claims : e.claims = decide (label = .claims))
    (died : e.died = decide (label = .dies)) (completed : e.completed = none)
    (gone : v.gone = true → v'.gone = true) (reclaim : label = .gate .reclaim → v'.gone = true)
    (left : v'.gone = true → v.gone = true ∨ v'.hasOwner = false)
    (ends : label ≠ .gate .dismissFinish) (wins : label ≠ .gate .dismissClaim)
    (won : ∀ k, v'.calls k = some .won ↔ v.calls k = some .won) : ViewStep v e v' o o label where
  object := object'
  kind := rfl
  task := move
  serves := serves
  begins := begins
  run := run
  claims := claims
  died := died
  owner h := ⟨hasOwner_of h object object' move, completed⟩
  emits dismissed h := by
    rw [completed] at h
    cases h
  gone := gone
  reclaim := reclaim
  left := left
  ends h := absurd h ends
  won k h := .inl ((won k).mp h)
  wins h := absurd h wins
  keeps k h := .inl ((won k).mpr h)

theorem ViewStep.inner {label : TaskLabel} {event : Option FileEvent} {state : TaskState}
    {dismissed : Bool} (object : v.object = some o) (inside : label.inside = true)
    (move : TaskMove o.kind label v.state event state)
    (failed : v.state.stage = .failed → dismissed = true)
    (succeeded : v.state.stage = .succeeded → dismissed = false) : ViewStep v
      { run := false
        completed := if label = .finishes ∧ v.hasOwner = true then some dismissed else none
        file := event
        claims := decide (label = .claims)
        died := decide (label = .dies) }
      { v with state } o o label where
  object := object
  kind := rfl
  task := move
  serves := by
    rintro rfl
    cases inside
  begins := by
    rintro rfl
    cases inside
  run := by
    refine (decide_eq_false ?_).symm
    rintro rfl
    cases inside
  claims := rfl
  died := rfl
  owner h := by
    refine ⟨hasOwner_of h object object move, if_neg ?_⟩
    rintro ⟨rfl, -⟩
    simp [hasOwner, move.finishes_inv.2.2.2] at h
  emits dismissed' h := by
    obtain ⟨⟨finishes, owned⟩, rfl⟩ : (label = .finishes ∧ v.hasOwner = true) ∧ dismissed = dismissed' := by
      simpa using h
    exact ⟨owned, .inl ⟨finishes, failed, succeeded⟩⟩
  gone := id
  reclaim := by
    rintro rfl
    cases inside
  left := .inl
  ends := by
    rintro rfl
    cases inside
  won _ h := .inl h
  wins := by
    rintro rfl
    cases inside
  keeps _ h := .inl h

variable [DecidableEq κ]

theorem PromptView.won_update {k : κ} {call : Option PromptCall} (before : v.calls k ≠ some .won)
    (after : call ≠ some .won) (k' : κ) :
    Function.update v.calls k call k' = some .won ↔ v.calls k' = some .won := by
  rw [update_apply]
  split
  next hk =>
    rw [hk]
    exact ⟨fun h => absurd h after, fun h => absurd h before⟩
  · exact Iff.rfl

theorem ViewStep.claimed {k : κ} {state : TaskState} (object : v.object = some o)
    (call : v.calls k = some .cancelled)
    (move : TaskMove o.kind (.gate .dismissClaim) v.state none state) :
    ViewStep v .none { v.setCall k (if v.state.gate.committed then none else some .won) with state }
      o o (.gate .dismissClaim) where
  object := object
  kind := rfl
  task := move
  serves := nofun
  begins := nofun
  run := rfl
  claims := rfl
  died := rfl
  owner h := ⟨hasOwner_of h object object move, rfl⟩
  emits := nofun
  gone := id
  reclaim := nofun
  left := .inl
  ends := nofun
  won k' h := by
    simp only [setCall, update_apply] at h
    split at h
    · split at h
      · cases h
      next unclaimed => exact .inr ⟨rfl, by simpa using unclaimed⟩
    · exact .inl h
  wins _ unclaimed := ⟨k, by simp [setCall, unclaimed]⟩
  keeps k' h := by
    refine .inl ?_
    have ne : k' ≠ k := by
      rintro rfl
      rw [call] at h
      cases h
    exact (update_of_ne ne _ _).trans h

theorem ViewStep.finished {k : κ} {state : TaskState} (object : v.object = some o)
    (call : v.calls k = some .won)
    (move : TaskMove o.kind (.gate .dismissFinish) v.state none state) :
    ViewStep v { PromptEvents.none with completed := if v.hasOwner then some true else none }
      { v.setCall k none with state } o o (.gate .dismissFinish) where
  object := object
  kind := rfl
  task := move
  serves := nofun
  begins := nofun
  run := rfl
  claims := rfl
  died := rfl
  owner h := by simp [hasOwner, move.ends_inv] at h
  emits dismissed h := by
    obtain ⟨owned, rfl⟩ : v.hasOwner = true ∧ true = dismissed := by simpa using h
    exact ⟨owned, .inr ⟨rfl, rfl⟩⟩
  gone := id
  reclaim := nofun
  left := .inl
  ends _ := ⟨k, call⟩
  won k' h := by
    simp only [setCall, update_apply] at h
    split at h
    · cases h
    · exact .inl h
  wins := nofun
  keeps _ _ := .inr rfl

theorem ViewMove.viewStep (move : ViewMove v e v') (object : v.object = some o) :
    ∃ o' label, ViewStep v e v' o o' label := by
  have same : ∀ {o' : PromptObject}, v.object = some o' → o' = o := by
    intro o' object'
    exact Option.some.inj (object'.symm.trans object)
  cases move with
  | same => exact ⟨o, .aside, .still object object rfl rfl id id .inl fun _ => Iff.rfl⟩
  | issued fresh kind slot listed =>
    rw [fresh] at object
    cases object
  | @exported k o' action object' call | @took k o' action object' call slot
  | @disarmed k o' object' call =>
    obtain rfl := same object'
    exact ⟨_, .aside, .still object rfl rfl rfl id id .inl (won_update (by rw [call]; nofun) nofun)⟩
  | @withdrawn k o' action object' call =>
    obtain rfl := same object'
    exact ⟨_, .aside, .still object rfl rfl rfl nofun id .inl (won_update (by rw [call]; nofun) nofun)⟩
  | @called k call object' before after =>
    exact ⟨o, .aside, .still object object rfl rfl id id .inl
      (won_update (PromptCall.light_cases before).2 (PromptCall.light_cases after).2)⟩
  | @spawned k o' action state object' call move =>
    obtain rfl := same object'
    exact ⟨_, .begins, .moved object object move nofun (fun _ => ⟨some k, _, action, call, rfl⟩) rfl rfl rfl rfl id
      nofun .inl nofun nofun
      (won_update (by rw [call]; nofun) nofun)⟩
  | @cancelled k o' state object' call move =>
    obtain rfl := same object'
    exact ⟨_, .gate .dismiss, .moved object object move nofun nofun rfl rfl rfl rfl id nofun .inl nofun nofun
      (won_update (by rw [call]; nofun) nofun)⟩
  | @claimed k o' state object' call move =>
    obtain rfl := same object'
    exact ⟨_, _, .claimed object call move⟩
  | @finished k o' state object' call move =>
    obtain rfl := same object'
    exact ⟨_, _, .finished object call move⟩
  | @reclaimed o' state object' owned move =>
    obtain rfl := same object'
    refine ⟨_, .gate .reclaim, .moved object object move nofun nofun rfl rfl rfl rfl (fun _ => rfl)
      (fun _ => rfl) (fun _ => .inr ?_) nofun nofun fun _ => Iff.rfl⟩
    simp [hasOwner, move.reclaim_inv.2]
  | departed object' unowned =>
    exact ⟨o, .aside, .still object object rfl rfl id (fun _ => rfl) (fun _ => .inr unowned) fun _ => Iff.rfl⟩
  | @inner o' label event state dismissed object' inside move failed succeeded =>
    obtain rfl := same object'
    exact ⟨_, label, .inner object inside move failed succeeded⟩

theorem ViewMove.fresh (move : ViewMove v e v') (fresh : v.object = none) :
    e = .none ∧ (v' = v ∨ ∃ k o gone action, o.action = none ∧ o.withdrawn = false ∧
      v' = ⟨some o, .new, gone, Function.update v.calls k (some (.exporting action))⟩) := by
  cases move with
  | same => exact ⟨rfl, .inl rfl⟩
  | @issued k o gone action _ kind slot listed =>
    exact ⟨rfl, .inr ⟨k, o, gone, action, slot, listed, rfl⟩⟩
  | called object before after | departed object unowned =>
    rw [fresh] at object
    cases object
  | exported object call | withdrawn object call | took object call slot | disarmed object call
  | spawned object call move | cancelled object call move | claimed object call move
  | finished object call move | reclaimed object owned move
  | inner object inside move failed succeeded =>
    rw [fresh] at object
    cases object

end

/-! ## The action moves -/

section

variable {e : PromptEvents}

theorem PromptView.Slot.start (object : v.object = none) (calls : ∀ k, v.calls k = none) :
    v.Slot := by
  have nowhere : ∀ w, ¬ v.Arms w := by
    intro w hw
    cases w with
    | none =>
      obtain ⟨o, action, hobject, -⟩ := hw
      rw [object] at hobject
      cases hobject
    | some k =>
      obtain ⟨c, action, hcall, -⟩ := hw
      rw [calls] at hcall
      cases hcall
  refine ⟨fun w _ hw => absurd hw (nowhere w), fun w hw => absurd hw (nowhere w), fun h => ?_⟩
  simp [withdrawn, object] at h

theorem PromptView.arms_none {o : PromptObject} (object : v.object = some o)
    (slot : o.action = none) : ¬ v.Arms none := by
  rintro ⟨o', action, hobject, haction⟩
  rw [object] at hobject
  cases hobject
  rw [slot] at haction
  cases haction

variable [DecidableEq κ]

theorem PromptView.call_of_issued {calls : κ → Option PromptCall} (none : ∀ k, calls k = none)
    {k k' : κ} {call c : PromptCall} (h : Function.update calls k (some call) k' = some c) :
    k' = k ∧ c = call := by
  rw [update_apply] at h
  split at h
  next hk => exact ⟨hk, (Option.some.inj h).symm⟩
  · rw [none] at h
    cases h

theorem PromptView.Slot.move (sound : v.Sound) (slot : v.Slot) (move : ViewMove v e v') :
    v'.Slot := by
  -- a call goes on and holds no action
  have call_sub : ∀ {v' : PromptView κ} (k : κ) (call : Option PromptCall),
      v'.calls = Function.update v.calls k call → (∀ c, call = some c → c.action = none) →
      (v'.Arms none → v.Arms none) → ∀ w, v'.Arms w → v.Arms w := by
    intro v' k call calls down object w hw
    cases w with
    | none => exact object hw
    | some k' => exact (arms_of_update k call calls down hw).2
  cases move with
  | same => exact slot
  | @issued k o gone action fresh kind empty listed =>
    have here : ∀ w, PromptView.Arms ⟨some o, .new, gone,
        Function.update v.calls k (some (.exporting action))⟩ w → w = some k := by
      intro w hw
      cases w with
      | none => exact absurd hw (arms_none rfl empty)
      | some k' =>
        obtain ⟨c, action', hcall, -⟩ := hw
        exact congrArg some (call_of_issued (sound.fresh fresh) hcall).1
    refine ⟨fun w w' hw hw' => (here w hw).trans (here w' hw').symm, fun _ _ => rfl, fun h => ?_⟩
    exact absurd (h.symm.trans listed) nofun
  | @exported k o action object call =>
    refine slot.moved (some k) none ⟨_, action, call, rfl⟩ (fun w hw => ?_) rfl
      (by simp [withdrawn, object])
    cases w with
    | none => exact .inl rfl
    | some k' => exact .inr (arms_of_update k none rfl nofun hw)
  | @withdrawn k o action object call =>
    refine slot.spent (some k) ⟨_, action, call, rfl⟩ (fun w hw => ?_) (.inr rfl)
    cases w with
    | none =>
      obtain ⟨o', action', hobject, haction⟩ := hw
      cases hobject
      exact ⟨nofun, o, action', object, haction⟩
    | some k' => exact arms_of_update k none rfl nofun hw
  | @called k call object before after =>
    exact slot.sub (call_sub k call rfl (PromptCall.light_cases after).1 id) id rfl
  | @took k o action object call held =>
    refine slot.moved none (some k) ⟨o, action, object, held⟩ (fun w hw => ?_) rfl
      (by simp [withdrawn, object])
    cases w with
    | none => exact absurd hw (arms_none rfl rfl)
    | some k' =>
      by_cases hk : k' = k
      · exact .inl (congrArg some hk)
      · obtain ⟨c, action', hcall, haction⟩ := hw
        exact .inr ⟨nofun, c, action', (update_of_ne hk _ _).symm.trans hcall, haction⟩
  | @disarmed k o object call =>
    exact slot.sub (call_sub k (some .disarmed) rfl (by rintro c ⟨⟩; rfl)
      fun hw => absurd hw (arms_none rfl rfl)) id (by simp [withdrawn, object])
  | @spawned k o action state object call move =>
    refine slot.spent (some k) ⟨_, action, call, rfl⟩ (fun w hw => ?_) (.inl rfl)
    cases w with
    | none => exact ⟨nofun, hw⟩
    | some k' => exact arms_of_update k none rfl nofun hw
  | @cancelled k o state object call move =>
    exact slot.sub (call_sub k (some .cancelled) rfl (by rintro c ⟨⟩; rfl) id) move.gate_stage.trans rfl
  | @claimed k o state object call move =>
    refine slot.sub (call_sub k (if v.state.gate.committed then none else some .won) rfl (fun c hc => ?_) id)
      move.gate_stage.trans rfl
    split at hc
    · cases hc
    · cases hc
      rfl
  | @finished k o state object call move =>
    exact slot.sub (call_sub k none rfl nofun id) move.gate_stage.trans rfl
  | @reclaimed o state object owned move => exact slot.sub (fun _ hw => hw) move.gate_stage.trans rfl
  | departed object unowned => exact slot.sub (fun _ hw => hw) id rfl
  | @inner o label event state dismissed object inside move failed succeeded =>
    refine slot.sub (fun _ hw => hw) (move.idle_iff ?_ ?_).mpr rfl
    · rintro rfl
      cases inside
    · rintro rfl
      cases inside

end

end SecretManager
