import SecretManager.Laws.Dbus.Unlock
import SecretManager.Dbus.Reference

/-!
# What was opened for a client that has left is locked again

An Unlock prompt opens one collection after the other for its owner. When the owner leaves the bus,
the watcher takes the prompt's record and locks what it names, unless the task has won its gate and
is still there: then the task is to do it, when it looks for its owner at the end of its loop.
Between that look and the end of the prompt lies a wait for every object of the reply. A disconnect
that falls into it finds a task with its gate won, leaves everything to it, and the task is past its
look.

The other way to leave a vault open is an abort. It is decided while the gate is free, and the task
may win the gate and open a vault before it next waits.
-/

namespace SecretManager

open List Function LockSystem

variable {ι π : Type} {x : Externals} {toml : Toml} {cfg : Config} {idle : Nat}

/-! ## What is recorded -/

structure RelockLog (π : Type) where
  /-- What a prompt has decrypted and nobody has locked since, as long as it is in the map. -/
  due : π → List (String × Handle)
  /-- The disconnect of the prompt's owner has been processed, with the owner entry still there. -/
  left : π → Bool

def RelockLog.empty : RelockLog π := { due := fun _ => [], left := fun _ => false }

/-- The collection is in the map and open. -/
def LockSystem.isOpen (s : LockSystem ι π) (e : String × Handle) : Bool :=
  decide (s.daemon.service.collections[e.1]? = some e.2) && s.daemon.vaults[e.2]?.any fun v => !v.isLocked

section

variable [DecidableEq π]

/-- The locked vault that this step gives the prompt's key to. -/
def LockSystem.decrypts (s : LockSystem ι π) (a : LockAction ι π) (p : π) :
    List (String × Handle) :=
  match a with
  | .decrypt p' _ =>
    match (s.prompts p').task.phase with
    | .opening id h _ _ =>
      if p' = p && s.daemon.vaults[h]?.any (·.isLocked) then [(id, h)] else []
    | _ => []
  | _ => []

def LockAction.reclaims (a : LockAction ι π) (p : π) : Bool :=
  match a with
  | .gate p' .reclaim => decide (p' = p)
  | _ => false

def RelockLog.record (before : LockSystem ι π) (a : LockAction ι π) (after : LockSystem ι π)
    (log : RelockLog π) : RelockLog π where
  due p := (log.due p ++ before.decrypts a p).filter after.isOpen
  left p := log.left p || a.reclaims p

end

/-! ## The discipline -/

/-- The task has yet to look for its owner. -/
def UnlockStage.looks : UnlockStage → Bool
  | .walks | .peeks .. | .asks .. | .opens .. | .drops _ | .opened _ | .leaves => true
  | .idle | .collects | .relocks _ | .past | .ended => false

/-- A disconnect leaves what was opened to no task that has already looked for its owner; and no
abort takes effect, once the owner has left, in a task that has opened something the watcher does
not know of. -/
def handsOver (p : LockSystem ι π × RelockLog π) : LockAction ι π → Bool
  | .gate t .reclaim =>
    let prompt := p.1.prompts t
    !(prompt.gate.handle && (prompt.gate.shown && prompt.gate.committed)) ||
      prompt.task.phase.stage.looks || (p.2.due t).isEmpty
  | .unlock t .die =>
    !p.2.left t || (p.2.due t).all fun e => decide (some e.2 ∈ (p.1.prompts t).relocks)
  | _ => true

/-! ## The invariant -/

/-- The task is going to lock the vault. -/
def UnlockStage.locks (stage : UnlockStage) (h : Handle) : Prop :=
  match stage with
  | .collects => True
  | .relocks todo => some h ∈ todo
  | stage => stage.looks = true

/-- The collection the task is asking about, or has failed to open. -/
def UnlockStage.asked : UnlockStage → Option String
  | .asks id _ | .opens id _ | .drops id => some id
  | _ => none

/-- The stages in which the task knows everything it has opened. -/
def UnlockStage.settled : UnlockStage → Bool
  | .opened _ | .ended => false
  | _ => true

theorem UnlockStage.settled_of_underWay {stage : UnlockStage} (h : stage.underWay = true) :
    stage.settled = true := by
  cases stage with
  | opened | ended => cases h
  | _ => rfl

/-- Everything a prompt has open is known to whoever is to lock it. -/
structure Covers (stage : UnlockStage) (mine record : List String) (owned : Bool)
    (relocks : List (Option Handle)) (due : List (String × Handle)) (left : Bool) : Prop where
  kept : ∀ {id h}, (id, h) ∈ due → stage = .ended ∨ id ∈ mine ∨ stage = .opened id
  fresh : stage = .idle → mine = []
  asked : ∀ {id h}, stage.asked = some id → (id, h) ∉ due
  peeked : ∀ {id h h'}, stage = .peeks id h → (id, h') ∈ due → h' = h
  recorded : ∀ {id h}, owned = true → (id, h) ∈ due → id ∈ record
  opening : ∀ {id h}, owned = true → stage = .opens id h → id ∈ record
  collecting : stage = .collects → owned = false
  unowned : left = true → owned = false
  covered : ∀ {id h}, left = true → (id, h) ∈ due → some h ∈ relocks ∨ stage.locks h

/-- The same of a prompt. -/
abbrev UnlockPrompt.Covered (p : UnlockPrompt) : List (String × Handle) → Bool → Prop :=
  Covers p.task.phase.stage p.task.mine p.record p.gate.owned p.relocks

namespace Covers

variable {stage stage' : UnlockStage} {mine record : List String} {owned : Bool}
  {relocks : List (Option Handle)} {due due' : List (String × Handle)} {left : Bool}

theorem mono (covers : Covers stage mine record owned relocks due left) (sub : due' ⊆ due) :
    Covers stage mine record owned relocks due' left where
  kept hmem := covers.kept (sub hmem)
  fresh := covers.fresh
  asked hasked hmem := covers.asked hasked (sub hmem)
  peeked hpeeks hmem := covers.peeked hpeeks (sub hmem)
  recorded howned hmem := covers.recorded howned (sub hmem)
  opening := covers.opening
  collecting := covers.collecting
  unowned := covers.unowned
  covered hleft hmem := covers.covered hleft (sub hmem)

theorem mem_mine (covers : Covers stage mine record owned relocks due left)
    (settled : stage.settled = true) {id : String} {h : Handle} (hmem : (id, h) ∈ due) :
    id ∈ mine := by
  rcases covers.kept hmem with rfl | hmine | rfl
  · cases settled
  · exact hmine
  · cases settled

theorem due_idle (covers : Covers .idle mine record owned relocks due left) : due = [] := by
  rw [eq_nil_iff_forall_not_mem]
  rintro ⟨id, h⟩ hmem
  have := covers.mem_mine rfl hmem
  rw [covers.fresh rfl] at this
  cases this

theorem walk (covers : Covers stage mine record owned relocks due left)
    (settled : stage.settled = true) (walks : stage' = .walks ∨ stage' = .leaves) :
    Covers stage' mine record owned relocks due left := by
  have kept : ∀ {id h}, (id, h) ∈ due → stage' = .ended ∨ id ∈ mine ∨ stage' = .opened id :=
    fun hmem => .inr (.inl (covers.mem_mine settled hmem))
  rcases walks with rfl | rfl
  · exact ⟨kept, nofun, nofun, nofun, covers.recorded, nofun, nofun, covers.unowned, fun _ _ => .inr rfl⟩
  · exact ⟨kept, nofun, nofun, nofun, covers.recorded, nofun, nofun, covers.unowned, fun _ _ => .inr rfl⟩

theorem start (covers : Covers .idle mine record owned relocks due left) :
    Covers .walks [] record owned relocks due left := by
  obtain rfl := covers.due_idle
  exact ⟨nofun, nofun, nofun, nofun, nofun, nofun, nofun, covers.unowned, nofun⟩

theorem find (covers : Covers .walks mine record owned relocks due left) {id : String} {h : Handle}
    (mapped : ∀ {h'}, (id, h') ∈ due → h' = h) :
    Covers (.peeks id h) mine record owned relocks due left := by
  refine ⟨fun hmem => .inr (.inl (covers.mem_mine rfl hmem)), nofun, nofun, ?_, covers.recorded, nofun,
    nofun, covers.unowned, fun _ _ => .inr rfl⟩
  rintro id' h' h'' ⟨⟩ hmem
  exact mapped hmem

theorem ask {id : String} {h : Handle}
    (covers : Covers (.peeks id h) mine record owned relocks due left) (locked : (id, h) ∉ due) :
    Covers (.asks id h) mine record owned relocks due left := by
  refine ⟨fun hmem => .inr (.inl (covers.mem_mine rfl hmem)), nofun, ?_, nofun, covers.recorded, nofun,
    nofun, covers.unowned, fun _ _ => .inr rfl⟩
  rintro id' h' ⟨⟩ hmem
  obtain rfl := covers.peeked rfl hmem
  exact locked hmem

theorem recordId {id : String} {h : Handle}
    (covers : Covers (.asks id h) mine record owned relocks due left) :
    Covers (.opens id h) mine (record ++ [id]) owned relocks due left := by
  refine ⟨fun hmem => .inr (.inl (covers.mem_mine rfl hmem)), nofun, covers.asked, nofun,
    fun howned hmem => mem_append_left _ (covers.recorded howned hmem), ?_, nofun,
    covers.unowned, fun _ _ => .inr rfl⟩
  rintro id' h' - ⟨⟩
  simp

theorem refused {id : String} {h : Handle}
    (covers : Covers (.opens id h) mine record owned relocks due left) :
    Covers (.drops id) mine record owned relocks due left :=
  ⟨fun hmem => .inr (.inl (covers.mem_mine rfl hmem)), nofun, covers.asked, nofun, covers.recorded,
    nofun, nofun, covers.unowned, fun _ _ => .inr rfl⟩

theorem opened {id : String} {h : Handle}
    (covers : Covers (.opens id h) mine record owned relocks due left) :
    Covers (.opened id) mine record owned relocks (due ++ [(id, h)]) left := by
  have cases' : ∀ {id' h'}, (id', h') ∈ due ++ [(id, h)] → (id', h') ∈ due ∨ id' = id := by
    intro id' h' hmem
    rcases mem_append.mp hmem with hold | hnew
    · exact .inl hold
    · exact .inr (Prod.mk.inj (mem_singleton.mp hnew)).1
  refine ⟨?_, nofun, nofun, nofun, ?_, nofun, nofun, covers.unowned, fun _ _ => .inr rfl⟩
  · intro id' h' hmem
    rcases cases' hmem with hold | rfl
    · exact .inr (.inl (covers.mem_mine rfl hold))
    · exact .inr (.inr rfl)
  · intro id' h' howned hmem
    rcases cases' hmem with hold | rfl
    · exact covers.recorded howned hold
    · exact covers.opening howned rfl

theorem notify {id : String} (covers : Covers (.opened id) mine record owned relocks due left) :
    Covers .walks (mine ++ [id]) record owned relocks due left := by
  refine ⟨?_, nofun, nofun, nofun, covers.recorded, nofun, nofun, covers.unowned, fun _ _ => .inr rfl⟩
  intro id' h' hmem
  rcases covers.kept hmem with hended | hmine | hopened
  · cases hended
  · exact .inr (.inl (mem_append_left _ hmine))
  · cases hopened
    exact .inr (.inl (mem_append_right _ (mem_singleton.mpr rfl)))

theorem drop {id : String} (covers : Covers (.drops id) mine record owned relocks due left)
    (next : stage' = .walks ∨ ∃ h, stage' = .asks id h) :
    Covers stage' mine (dropLast id record) owned relocks due left := by
  have recorded : ∀ {id' h}, owned = true → (id', h) ∈ due → id' ∈ dropLast id record := by
    intro id' h howned hmem
    have hne : id' ≠ id := by
      rintro rfl
      exact covers.asked rfl hmem
    rw [dropLast, mem_reverse, mem_erase_of_ne hne, mem_reverse]
    exact covers.recorded howned hmem
  rcases next with rfl | ⟨h, rfl⟩
  · exact ⟨fun hmem => .inr (.inl (covers.mem_mine rfl hmem)), nofun, nofun, nofun, recorded, nofun,
      nofun, covers.unowned, fun _ _ => .inr rfl⟩
  · exact ⟨fun hmem => .inr (.inl (covers.mem_mine rfl hmem)), nofun, covers.asked, nofun, recorded,
      nofun, nofun, covers.unowned, fun _ _ => .inr rfl⟩

theorem gone (covers : Covers .leaves mine record owned relocks due left)
    (unowned : owned = false) : Covers .collects mine record owned relocks due left :=
  ⟨fun hmem => .inr (.inl (covers.mem_mine rfl hmem)), nofun, nofun, nofun, covers.recorded, nofun,
    fun _ => unowned, covers.unowned, fun _ _ => .inr trivial⟩

theorem collect (covers : Covers .collects mine record owned relocks due left)
    {collections : Std.ExtTreeMap String Handle}
    (mapped : ∀ {id h}, (id, h) ∈ due → collections[id]? = some h) :
    Covers (.relocks (mine.map fun id => collections[id]?)) mine [] owned relocks due left := by
  have unowned := covers.collecting rfl
  refine ⟨fun hmem => .inr (.inl (covers.mem_mine rfl hmem)), nofun, nofun, nofun, ?_, nofun, nofun,
    covers.unowned, fun _ hmem => .inr ?_⟩
  · rw [unowned]
    nofun
  · exact mem_map.mpr ⟨_, covers.mem_mine rfl hmem, mapped hmem⟩

theorem relock {found : Option Handle} {todo : List (Option Handle)}
    (covers : Covers (.relocks (found :: todo)) mine record owned relocks due left)
    (locked : ∀ {id h}, (id, h) ∈ due → found ≠ some h) :
    Covers (.relocks todo) mine record owned relocks due left := by
  refine ⟨fun hmem => .inr (.inl (covers.mem_mine rfl hmem)), nofun, nofun, nofun, covers.recorded,
    nofun, nofun, covers.unowned, fun hleft hmem => ?_⟩
  rcases covers.covered hleft hmem with hrelocks | htodo
  · exact .inl hrelocks
  · rcases mem_cons.mp htodo with hfound | htodo
    · exact absurd hfound.symm (locked hmem)
    · exact .inr htodo

section

variable (covers : Covers stage mine record owned relocks due left)
include covers

theorem rest (handed : left = true → ∀ {id h}, (id, h) ∈ due → some h ∈ relocks)
    (settled : stage.settled = true ∨ stage' = .ended) (rests : stage' = .past ∨ stage' = .ended) :
    Covers stage' mine record owned relocks due left := by
  have kept : ∀ {id h}, (id, h) ∈ due → stage' = .ended ∨ id ∈ mine ∨ stage' = .opened id := by
    intro id h hmem
    rcases settled with hsettled | hended
    · exact .inr (.inl (covers.mem_mine hsettled hmem))
    · exact .inl hended
  rcases rests with rfl | rfl
  · exact ⟨kept, nofun, nofun, nofun, covers.recorded, nofun, nofun, covers.unowned,
      fun hleft hmem => .inl (handed hleft hmem)⟩
  · exact ⟨kept, nofun, nofun, nofun, covers.recorded, nofun, nofun, covers.unowned,
      fun hleft hmem => .inl (handed hleft hmem)⟩

theorem handed (rests : ∀ h, ¬stage.locks h) (hleft : left = true) {id : String} {h : Handle}
    (hmem : (id, h) ∈ due) : some h ∈ relocks :=
  (covers.covered hleft hmem).resolve_right (rests h)

theorem forget : Covers stage mine [] false relocks due left :=
  ⟨covers.kept, covers.fresh, covers.asked, covers.peeked, nofun, nofun, fun _ => rfl, fun _ => rfl, covers.covered⟩

theorem leave (looks : stage.looks = true ∨ due = []) :
    Covers stage mine record false relocks due true := by
  refine ⟨covers.kept, covers.fresh, covers.asked, covers.peeked, nofun, nofun, fun _ => rfl,
    fun _ => rfl, fun _ hmem => .inr ?_⟩
  rcases looks with looks | rfl
  · unfold UnlockStage.locks
    split
    · trivial
    · cases looks
    · exact looks
  · cases hmem

end

theorem take (covers : Covers stage mine record true relocks due left)
    {collections : Std.ExtTreeMap String Handle}
    (mapped : ∀ {id h}, (id, h) ∈ due → collections[id]? = some h) :
    Covers stage mine [] false (relocks ++ record.map fun id => collections[id]?) due true := by
  refine ⟨covers.kept, covers.fresh, covers.asked, covers.peeked, nofun, nofun, fun _ => rfl,
    fun _ => rfl, fun _ hmem => .inl (mem_append_right _ ?_)⟩
  exact mem_map.mpr ⟨_, covers.recorded rfl hmem, mapped hmem⟩

theorem rewatch {found : Option Handle}
    (covers : Covers stage mine record owned (found :: relocks) due left)
    (locked : ∀ {id h}, (id, h) ∈ due → found ≠ some h) :
    Covers stage mine record owned relocks due left := by
  refine ⟨covers.kept, covers.fresh, covers.asked, covers.peeked, covers.recorded, covers.opening,
    covers.collecting, covers.unowned, fun hleft hmem => ?_⟩
  rcases covers.covered hleft hmem with hrelocks | hlocks
  · rcases mem_cons.mp hrelocks with hfound | hrest
    · exact absurd hfound.symm (locked hmem)
    · exact .inl hrest
  · exact .inr hlocks

theorem task {prompt : UnlockPrompt} (covers : prompt.Covered due left) {st : ServiceState}
    {vaults : List Vault} {a : UnlockAction} {task' : UnlockTask} {g' : Gate}
    (move : UnlockMove st vaults prompt.gate prompt.task a task' g')
    (mapped : ∀ {id h}, (id, h) ∈ due → st.collections[id]? = some h)
    (unlocked : ∀ {id h v}, (id, h) ∈ due → vaults[h]? = some v → v.isLocked = false)
    (handed : a = .die → left = true → ∀ {id h}, (id, h) ∈ due → some h ∈ prompt.relocks) :
    UnlockPrompt.Covered { prompt with task := task', gate := g' } due left := by
  unfold UnlockPrompt.Covered at covers ⊢
  cases move with
  | start rest phase =>
    rw [phase] at covers
    exact covers.start
  | finds phase found =>
    rw [phase] at covers
    exact covers.find fun hmem => Option.some.inj ((mapped hmem).symm.trans found)
  | asks phase found locked =>
    rw [phase] at covers
    refine covers.ask fun hmem => ?_
    have := unlocked hmem found
    rw [locked] at this
    cases this
  | @goes _ task' committed before after mine =>
    have settled := UnlockStage.settled_of_underWay before
    rw [mine]
    rcases after with same | walks
    · rw [same]
      exact covers
    · exact covers.walk settled walks
  | notify phase =>
    rw [phase] at covers
    exact covers.notify
  | gone phase left =>
    rw [phase] at covers
    exact covers.gone left
  | stays owned before after mine =>
    rw [after, mine]
    rcases before with leaves | past
    · -- the owner was there, so it has not left
      have present : left ≠ true := by
        intro hleft
        rw [covers.unowned hleft] at owned
        cases owned leaves
      exact covers.rest (fun hleft => absurd hleft present) (.inl (by rw [leaves]; rfl)) (.inl rfl)
    · rw [past] at covers
      exact covers
  | dies aborted awaits =>
    exact covers.rest (handed rfl) (.inr rfl) (.inr rfl)

end Covers

/-! ## One step -/

/-- What a prompt has opened is where the prompt, or the watcher after it, will find it; and it is
open. -/
structure RelockInv (s : LockSystem ι π) (log : RelockLog π) : Prop where
  covers : ∀ p, (s.prompts p).Covered (log.due p) (log.left p)
  isOpen : ∀ {p e}, e ∈ log.due p → s.isOpen e = true

theorem RelockInv.start (d : Daemon ι) : RelockInv (start π d) .empty := by
  refine ⟨fun p => ?_, nofun⟩
  exact ⟨nofun, fun _ => rfl, nofun, nofun, nofun, nofun, nofun, nofun, nofun⟩

theorem LockSystem.isOpen_iff {s : LockSystem ι π} {id : String} {h : Handle} :
    s.isOpen (id, h) = true ↔
      s.daemon.service.collections[id]? = some h ∧ ∃ v, s.daemon.vaults[h]? = some v ∧ v.isLocked = false := by
  simp [isOpen, Option.any_eq_true]

namespace RelockInv

variable {s s' : LockSystem ι π} {log : RelockLog π} {a : LockAction ι π} {p : π}
variable {h : Handle} {id : String}

theorem mapped (inv : RelockInv s log) (hmem : (id, h) ∈ log.due p) :
    s.daemon.service.collections[id]? = some h :=
  (isOpen_iff.mp (inv.isOpen hmem)).1

theorem unlocked (inv : RelockInv s log) {v : Vault} (hmem : (id, h) ∈ log.due p)
    (found : s.daemon.vaults[h]? = some v) : v.isLocked = false := by
  obtain ⟨-, v', found', unlocked⟩ := isOpen_iff.mp (inv.isOpen hmem)
  rw [found] at found'
  rw [Option.some.inj found', unlocked]

variable [DecidableEq π]

theorem mem_due {e : String × Handle} : e ∈ (RelockLog.record s a s' log).due p ↔
      (e ∈ log.due p ∨ e ∈ s.decrypts a p) ∧ s'.isOpen e = true := by
  simp only [RelockLog.record, mem_filter, mem_append]

theorem due_subset (none' : s.decrypts a p = []) :
    (RelockLog.record s a s' log).due p ⊆ log.due p := by
  intro e hmem
  rcases (mem_due.mp hmem).1 with hold | hnew
  · exact hold
  · rw [none'] at hnew
    cases hnew

theorem locked_of_modifyFound {found : Option Handle} {f : Vault → Vault}
    (locks : ∀ v, (f v).isLocked = true) (daemon : s'.daemon = s.daemon.modifyFound found f)
    (hmem : (id, h) ∈ (RelockLog.record s a s' log).due p) : found ≠ some h := by
  rintro rfl
  obtain ⟨-, v, hv, unlocked⟩ := isOpen_iff.mp (mem_due.mp hmem).2
  rw [daemon] at hv
  simp only [Daemon.modifyFound, Daemon.modifyVault, getElem?_modify, if_true] at hv
  obtain ⟨v₀, -, rfl⟩ := Option.map_eq_some_iff.mp hv
  rw [locks v₀] at unlocked
  cases unlocked

theorem after {prompt' : UnlockPrompt} {due' : List (String × Handle)} {left' : Bool}
    (prompt : s'.prompts p = prompt') (left : (log.left p || a.reclaims p) = left')
    (sub : (RelockLog.record s a s' log).due p ⊆ due') (covered : prompt'.Covered due' left') :
    (s'.prompts p).Covered ((RelockLog.record s a s' log).due p) ((RelockLog.record s a s' log).left p) := by
  subst prompt left
  exact covered.mono sub

theorem mem_decrypts {env : SaveEnv} {attempt : Nat} {key : Key} {v : Vault}
    (phase : (s.prompts p).task.phase = .opening id h attempt key)
    (found : s.daemon.vaults[h]? = some v) {e : String × Handle} :
    e ∈ s.decrypts (.decrypt p env) p ↔ e = (id, h) ∧ v.isLocked = true := by
  simp only [decrypts, phase, found]
  cases locked : v.isLocked
  · simp [locked]
  · simp [locked]

variable [DecidableEq ι]

theorem own (inv : RelockInv s log) (ok : handsOver (s, log) a = true)
    (step : LockStep x toml cfg idle s a s') (own : a.prompt = some p) :
    (s'.prompts p).Covered ((RelockLog.record s a s' log).due p) ((RelockLog.record s a s' log).left p) := by
  have covers := inv.covers p
  cases step with (cases own)
  | @gate p a prompt moved =>
    cases gateStep_move moved with
    | leaves owned running =>
      have looks : (s.prompts p).task.phase.stage.looks = true ∨ log.due p = [] := by
        simpa [handsOver, running] using ok
      exact after (update_self ..) (by simp [LockAction.reclaims]) (due_subset rfl) (covers.leave looks)
    | takes owned =>
      rw [UnlockPrompt.Covered, owned] at covers
      exact after (update_self ..) (by simp [LockAction.reclaims]) (due_subset rfl) (covers.take inv.mapped)
    | finishes dismissing =>
      exact after (update_self ..) (Bool.or_false _) (due_subset rfl) covers.forget
    | @flags _ gate other moved owned =>
      have covered : UnlockPrompt.Covered { s.prompts p with gate } (log.due p) (log.left p) := by
        rw [UnlockPrompt.Covered, owned]
        exact covers
      refine after (update_self ..) ?_ (due_subset rfl) covered
      cases a with
      | reclaim => exact absurd rfl other
      | _ => exact Bool.or_false _
  | @unlock p a task gate moved =>
    refine after (update_self ..) (Bool.or_false _) (due_subset rfl)
      (covers.task (advance_move moved) inv.mapped inv.unlocked ?_)
    rintro rfl hleft id h hmem
    simp only [handsOver, hleft, Bool.not_true, Bool.false_or, all_eq_true,
      decide_eq_true_eq] at ok
    exact ok _ hmem
  | @record p id h attempt key phase =>
    rw [UnlockPrompt.Covered, phase] at covers
    exact after (update_self ..) (Bool.or_false _) (due_subset rfl) covers.recordId
  | @decrypt p env id h attempt key w r w' phase world call =>
    rw [UnlockPrompt.Covered, phase] at covers
    obtain ⟨found, -⟩ := Daemon.world_some world
    rcases unlockWithKey_standing call with ⟨refused, rfl⟩ | ⟨rfl, -⟩
    · cases r with
      | ok => cases refused
      | error e =>
        refine after (update_self ..) (Bool.or_false _) ?_ covers.refused
        intro entry hmem
        obtain ⟨hold | hnew, isOpen⟩ := mem_due.mp hmem
        · exact hold
        · -- the vault is as it was: locked
          obtain ⟨rfl, locked⟩ := (mem_decrypts phase found).mp hnew
          obtain ⟨-, v', found', unlocked⟩ := isOpen_iff.mp isOpen
          rcases (getElem?_set_eq_some found).mp found' with ⟨-, rfl⟩ | ⟨hne, -⟩
          · rw [locked] at unlocked
            cases unlocked
          · exact absurd rfl hne
    · refine after (update_self ..) (Bool.or_false _) ?_ covers.opened
      intro entry hmem
      rcases (mem_due.mp hmem).1 with hold | hnew
      · exact mem_append_left _ hold
      · rw [((mem_decrypts phase found).mp hnew).1]
        exact mem_append_right _ (mem_singleton.mpr rfl)
  | @drop p id h attempt e phase =>
    rw [UnlockPrompt.Covered, phase] at covers
    exact after (update_self ..) (Bool.or_false _) (due_subset rfl)
      (covers.drop (afterRefusal_stage id h attempt e))
  | @touchUnlock p id phase =>
    rw [UnlockPrompt.Covered, phase] at covers
    exact after (update_self ..) (Bool.or_false _) (due_subset rfl) covers
  | @collect p phase =>
    rw [UnlockPrompt.Covered, phase] at covers
    exact after (update_self ..) (Bool.or_false _) (due_subset rfl) (covers.collect inv.mapped)
  | @relocked p phase =>
    rw [UnlockPrompt.Covered, phase] at covers
    exact after (update_self ..) (Bool.or_false _) (due_subset rfl)
      (covers.rest (covers.handed fun _ => not_mem_nil) (.inl rfl) (.inl rfl))
  | @relock p found todo phase =>
    rw [UnlockPrompt.Covered, phase] at covers
    exact after (update_self ..) (Bool.or_false _) (List.Subset.refl _)
      ((covers.mono (due_subset rfl)).relock (locked_of_modifyFound (fun _ => rfl) rfl))
  | @finish p dismissed phase =>
    rw [UnlockPrompt.Covered, phase] at covers
    exact after (update_self ..) (Bool.or_false _) (due_subset rfl)
      (covers.rest (covers.handed fun _ => nofun) (.inl rfl) (.inr rfl)).forget
  | @rewatch p found relocks todo =>
    rw [UnlockPrompt.Covered, todo] at covers
    exact after (update_self ..) (Bool.or_false _) (List.Subset.refl _)
      ((covers.mono (due_subset rfl)).rewatch (locked_of_modifyFound Vault.lockOpen_isLocked rfl))

theorem other (inv : RelockInv s log) (step : LockStep x toml cfg idle s a s')
    (other : a.prompt ≠ some p) :
    (s'.prompts p).Covered ((RelockLog.record s a s' log).due p) ((RelockLog.record s a s' log).left p) := by
  have none' : s.decrypts a p = [] := by
    cases a with
    | decrypt p' env =>
      have hne : p' ≠ p := fun h => other (congrArg some h)
      simp only [decrypts, hne]
      split
      · rfl
      · rfl
    | _ => rfl
  have left : (log.left p || a.reclaims p) = log.left p := by
    cases a with
    | gate p' a =>
      have hne : p' ≠ p := fun h => other (congrArg some h)
      cases a with
      | reclaim => simp [LockAction.reclaims, hne]
      | _ => exact Bool.or_false _
    | _ => exact Bool.or_false _
  exact after (step.prompts_of_ne other) left (due_subset none') (inv.covers p)

theorem step (inv : RelockInv s log) (ok : handsOver (s, log) a = true)
    (moved : s.step x toml cfg idle a = some s') : RelockInv s' (RelockLog.record s a s' log) := by
  refine ⟨fun p => ?_, fun hmem => (mem_due.mp hmem).2⟩
  by_cases own : a.prompt = some p
  · exact inv.own ok (step_inv moved) own
  · exact inv.other (step_inv moved) own

end RelockInv

/-! ## Every run -/

/-- **What was opened for a client that has left is locked again**, or has left the map, once the
task has ended and the watcher is done with the prompt, in every run that hands everything over. -/
theorem opened_is_relocked [DecidableEq ι] [DecidableEq π] (d : Daemon ι) {s : LockSystem ι π}
    {log : RelockLog π}
    (run : Reach (logged (LockSystem.step x toml cfg idle) RelockLog.record)
      (fun p a => handsOver p a = true) (LockSystem.start π d, .empty) (s, log)) {p : π}
    (left : log.left p = true)
    (ended : (s.prompts p).task.phase.stage = .idle ∨ (s.prompts p).task.phase.stage = .ended)
    (done : (s.prompts p).relocks = []) : log.due p = [] := by
  have inv := run.logged_invariant RelockInv (.start d) fun inv ok step => inv.step ok step
  rw [eq_nil_iff_forall_not_mem]
  rintro ⟨id, h⟩ hmem
  rcases (inv.covers p).covered left hmem with hrelocks | hlocks
  · rw [done] at hrelocks
    cases hrelocks
  · rcases ended with hidle | hended
    · rw [hidle] at hlocks
      cases hlocks
    · rw [hended] at hlocks
      cases hlocks

section

open Reference

variable {κ : Type} [∀ n, OfNat ι n] [∀ n, OfNat κ n]

/-- A prompt walks two collections. Its owner leaves when the first is open and the dialog for the
second is up: the watcher locks the first, and the task is aborted. -/
def leaveSteps : List (LockAction ι κ) :=
  lockedSteps 0 1 "Login" "login" ++ lockedSteps 2 3 "Work" "work" ++
    [startUnlock 0 ["login", "work"]] ++ askUnlock 0 ++ deriveUnlock 0 ++ openUnlock 0 ++
    askUnlock 0 ++
    [LockAction.gate 0 .reclaim, .gate 0 .abort, .unlock 0 .claim, .unlock 0 .die, .rewatch 0]

theorem opened_is_relocked_by_watcher : ∃ d s log, emptyBoot 4 = some d ∧
      Reach (logged lockStep RelockLog.record) (fun p a => handsOver p a = true)
        (LockSystem.start (Fin 1) d, .empty) (s, log) ∧
      log.left 0 = true ∧ (s.prompts 0).task.mine = ["login"] ∧ log.due 0 = [] := by
  refine Reach.exists_run_pair leaveSteps (fun s log => log.left 0 = true ∧
      (s.prompts 0).task.mine = ["login"] ∧ (s.prompts 0).task.phase.stage = .ended ∧
      (s.prompts 0).relocks = []) (by decide +kernel) ?_
  rintro d s log - run ⟨left, mine, ended, done⟩
  exact ⟨left, mine, opened_is_relocked d run left (.inr ended) done⟩

/-- **Without the discipline** the owner leaves after the task has looked for it and before the task
has finished the prompt: nobody locks the vault. -/
theorem opened_stays_open :
    ∃ d s log, emptyBoot 2 = some d ∧ Reach (logged lockStep RelockLog.record) (fun _ _ => True)
        (LockSystem.start (Fin 1) d, .empty) (s, log) ∧
      log.left 0 = true ∧ (s.prompts 0).task.phase.stage = .ended ∧ (s.prompts 0).relocks = [] ∧
      log.due 0 = [("login", 0)] := by
  exact Reach.exists_run_pair (lockedSteps 0 1 "Login" "login" ++ [startUnlock 0 ["login"]] ++
    askUnlock 0 ++ deriveUnlock 0 ++ openUnlock 0 ++ [LockAction.unlock 0 .turn, .unlock 0 .leave,
      .gate 0 .reclaim, .unlock 0 .report, .finish 0]) _ (by decide +kernel) fun _ _ passed => passed

end

end SecretManager
