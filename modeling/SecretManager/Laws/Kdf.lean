import SecretManager.Kdf
import SecretManager.Lib.Run

/-!
# At most two derivations at a time

A slot belongs to the call from the moment it is handed over, and to the closure from the moment it
is spawned. Whatever happens to the caller then, the slot comes back when the closure ends and not
before. So the slots that are free, those of calls that have not spawned yet and those of closures
that have not ended are always two together: no more closures than slots can execute, and no slot is
lost.
-/

namespace SecretManager.Kdf

open Function

/-! ## Who has a slot -/

/-- The closure is spawned and has not ended. -/
def Call.live : Call → Bool
  | .spawned .queued _ | .spawned .running _ => true
  | _ => false

def Call.executes : Call → Bool
  | .spawned .running _ => true
  | _ => false

/-- The call or its closure has a slot. -/
def Call.holds (c : Call) : Bool := decide (c = .granted) || c.live

section

variable {ι : Type} {s s' : Slots ι} {held : Finset ι} {i : ι}

/-- **Every slot is accounted for**, and the queue is made of those who wait. -/
structure Slots.Balanced (s : Slots ι) (held : Finset ι) : Prop where
  accounts : s.semaphore.Accounts maxConcurrent held
  holders : ∀ i, i ∈ held ↔ (s.calls i).holds = true
  waiters : ∀ i, i ∈ s.semaphore.queue ↔ s.calls i = .waiting

theorem Slots.start_balanced : (Slots.start ι).Balanced ∅ where
  accounts := Semaphore.new_accounts _
  holders _ := ⟨nofun, nofun⟩
  waiters _ := ⟨nofun, nofun⟩

variable [DecidableEq ι]

section

variable (balanced : s.Balanced held)
include balanced

theorem Slots.Balanced.set {call : Call} (holds : call.holds = (s.calls i).holds)
    (before : s.calls i ≠ .waiting) (after : call ≠ .waiting) : (s.set i call).Balanced held where
  accounts := balanced.accounts
  holders j := by
    rw [balanced.holders j]
    change _ ↔ (Function.update s.calls i call j).holds = true
    rw [update_apply]
    split
    next same => rw [same, holds]
    · rfl
  waiters j := by
    change j ∈ s.semaphore.queue ↔ Function.update s.calls i call j = .waiting
    rw [balanced.waiters j, update_apply]
    split
    next same =>
      rw [same]
      exact ⟨fun h => absurd h before, fun h => absurd h after⟩
    · rfl

theorem Slots.Balanced.release {call : Call} (holds : (s.calls i).holds = true)
    (done : call.holds = false) (after : call ≠ .waiting) :
    ∃ held', ((s.set i call).release).Balanced held' := by
  have mem : i ∈ held := (balanced.holders i).mpr holds
  have idle : i ∉ s.semaphore.queue := fun waits => balanced.accounts.apart i waits mem
  unfold Slots.release
  rcases released : (s.set i call).semaphore.release with ⟨_ | j, semaphore⟩
  · -- nobody waits, and the slot is free
    refine ⟨held.erase i, balanced.accounts.freed released mem, fun k => ?_, fun k => ?_⟩
    · change _ ↔ (Function.update s.calls i call k).holds = true
      rw [Finset.mem_erase, update_apply, balanced.holders k]
      split
      next same => simp [same, done]
      next other => simp [other]
    · obtain ⟨empty, rfl⟩ := Semaphore.release_free released
      change k ∈ s.semaphore.queue ↔ Function.update s.calls i call k = .waiting
      rw [balanced.waiters k, update_apply]
      split
      next same =>
        rw [same, ← balanced.waiters i]
        exact ⟨fun h => absurd h idle, fun h => absurd h after⟩
      · rfl
  · -- the first waiter has it now
    obtain ⟨queue, -⟩ := Semaphore.release_handed released
    have queue : s.semaphore.queue = j :: semaphore.queue := queue
    have other : j ≠ i := by
      rintro rfl
      exact idle (queue ▸ List.mem_cons_self)
    have nodup := balanced.accounts.nodup
    rw [queue] at nodup
    refine ⟨insert j (held.erase i), balanced.accounts.handed released mem, fun k => ?_, fun k => ?_⟩
    · change _ ↔ (Function.update (Function.update s.calls i call) j .granted k).holds = true
      rw [Finset.mem_insert, Finset.mem_erase, update_apply, update_apply, balanced.holders k]
      split
      next same => simp [same, Call.holds]
      next unlike =>
        split
        next same => simp [same, done, other.symm]
        next another => simp [unlike, another]
    · change k ∈ semaphore.queue ↔ Function.update (Function.update s.calls i call) j .granted k = .waiting
      have before := balanced.waiters k
      rw [queue, List.mem_cons] at before
      rw [update_apply, update_apply]
      split
      next same =>
        rw [same]
        exact ⟨fun h => absurd h (List.nodup_cons.mp nodup).1, nofun⟩
      next unlike =>
        rw [or_iff_right unlike] at before
        split
        next same =>
          rw [same] at before ⊢
          refine ⟨fun h => absurd (queue ▸ List.mem_cons_of_mem j h) idle, fun h => absurd h after⟩
        · exact before

theorem Slots.Balanced.acquire (idle : s.calls i = .idle) {taken : Bool} {semaphore : Semaphore ι}
    (acquired : s.semaphore.acquire i = (taken, semaphore)) :
    ∃ held', ({ s.set i (if taken then .granted else .waiting) with semaphore } : Slots ι).Balanced held' := by
  have new : i ∉ held := by
    rw [balanced.holders i, idle]
    nofun
  have early : i ∉ s.semaphore.queue := by
    rw [balanced.waiters i, idle]
    nofun
  cases taken with
  | true =>
    obtain ⟨-, queue⟩ := Semaphore.acquire_taken acquired
    refine ⟨insert i held, balanced.accounts.taken acquired new early, fun k => ?_, fun k => ?_⟩
    · change _ ↔ (Function.update s.calls i .granted k).holds = true
      rw [Finset.mem_insert, update_apply, balanced.holders k]
      split
      next same => simp [same, Call.holds]
      next other => simp [other]
    · change k ∈ semaphore.queue ↔ Function.update s.calls i .granted k = .waiting
      rw [queue, balanced.waiters k, update_apply]
      split
      next same => simp [same, idle]
      · rfl
  | false =>
    have accounts := balanced.accounts.queued acquired new early
    obtain rfl := Semaphore.acquire_queued acquired
    refine ⟨held, accounts, fun k => ?_, fun k => ?_⟩
    · change _ ↔ (Function.update s.calls i .waiting k).holds = true
      rw [update_apply, balanced.holders k]
      split
      next same => simp [same, idle, Call.holds, Call.live]
      · rfl
    · change k ∈ s.semaphore.queue ++ [i] ↔ Function.update s.calls i .waiting k = .waiting
      rw [List.mem_append, List.mem_singleton, balanced.waiters k, update_apply]
      split
      next same => simp [same]
      next other => simp [other]

theorem Slots.Balanced.leave (waits : s.calls i = .waiting) :
    ({ s.set i .dropped with semaphore := s.semaphore.leave i } : Slots ι).Balanced held where
  accounts := balanced.accounts.left i
  holders k := by
    change _ ↔ (Function.update s.calls i .dropped k).holds = true
    rw [update_apply, balanced.holders k]
    split
    next same => simp [same, waits, Call.holds, Call.live]
    · rfl
  waiters k := by
    change k ∈ s.semaphore.queue.erase i ↔ Function.update s.calls i .dropped k = .waiting
    rw [balanced.accounts.nodup.mem_erase_iff, balanced.waiters k, update_apply]
    split
    next same => simp [same]
    next other => simp [other]

/-- Every step keeps the slots balanced. The job of a cancelled caller still holds its slot. -/
theorem Slots.Balanced.step {a : Action ι} (moved : s.step a = some s') :
    ∃ held', s'.Balanced held' := by
  cases a with (simp only [Slots.step] at moved)
  | acquire i =>
    split at moved
    next idle =>
      split at moved
      next semaphore acquired =>
        cases moved
        exact balanced.acquire idle acquired
      next semaphore acquired =>
        cases moved
        exact balanced.acquire idle acquired
    · cases moved
  | spawn i =>
    split at moved
    next granted =>
      cases moved
      exact ⟨held, balanced.set (by rw [granted]; rfl) (by rw [granted]; nofun) nofun⟩
    · cases moved
  | run i =>
    split at moved
    next caller queued =>
      cases moved
      exact ⟨held, balanced.set (by rw [queued]; rfl) (by rw [queued]; nofun) nofun⟩
    · cases moved
  | finish i =>
    split at moved
    next caller running =>
      cases moved
      exact balanced.release (by rw [running]; rfl) rfl nofun
    · cases moved
  | join i =>
    split at moved
    next finished =>
      cases moved
      exact ⟨held, balanced.set (by rw [finished]; rfl) (by rw [finished]; nofun) nofun⟩
    · cases moved
  | cancel i =>
    split at moved
    next idle =>
      cases moved
      exact ⟨held, balanced.set (by rw [idle]; rfl) (by rw [idle]; nofun) nofun⟩
    next waits =>
      cases moved
      exact ⟨held, balanced.leave waits⟩
    next granted =>
      cases moved
      exact balanced.release (by rw [granted]; rfl) rfl nofun
    next job spawned =>
      cases moved
      refine ⟨held, balanced.set ?_ (by rw [spawned]; nofun) nofun⟩
      rw [spawned]
      cases job <;> rfl
    · cases moved

end

end

/-! ## Every run -/

section

variable {ι : Type} [DecidableEq ι] {s : Slots ι}

/-- **Derivations are bounded and no slot is lost**, in every run of any number of calls, wherever
their callers are cancelled: at most two closures execute; and once no closure is left that was
spawned, every slot is free again or in the hand of a call that is about to spawn its own. -/
theorem derivations_are_bounded (run : Reach Slots.step (fun _ _ => True) (Slots.start ι) s) :
    (∀ executing : Finset ι, (∀ i ∈ executing, (s.calls i).executes = true) → executing.card ≤ maxConcurrent) ∧
    ((∀ i, (s.calls i).live = false) → ∃ granted : Finset ι, (∀ i, i ∈ granted ↔ s.calls i = .granted) ∧
      s.semaphore.free + granted.card = maxConcurrent) ∧
    ((∀ i, (s.calls i).live = false ∧ s.calls i ≠ .granted) → s.semaphore.free = maxConcurrent) := by
  obtain ⟨held, balanced⟩ : ∃ held, s.Balanced held :=
    run.invariant (fun s => ∃ held, s.Balanced held) ⟨∅, Slots.start_balanced⟩
      fun ⟨_, balanced⟩ _ moved => balanced.step moved
  refine ⟨fun executing all => ?_, fun ended => ⟨held, fun i => ?_, balanced.accounts.balance⟩, fun ended => ?_⟩
  · refine (Finset.card_le_card fun i mem => ?_).trans balanced.accounts.card_le
    rw [balanced.holders i]
    have executes := all i mem
    cases call : s.calls i with
    | spawned job caller =>
      rw [call] at executes
      cases job with
      | running => rfl
      | queued | finished => cases executes
    | _ =>
      rw [call] at executes
      cases executes
  · rw [balanced.holders i, Call.holds, ended i, Bool.or_false, decide_eq_true_eq]
  · have none : held = ∅ := by
      rw [Finset.eq_empty_iff_forall_notMem]
      intro i mem
      rw [balanced.holders i, Call.holds, (ended i).1, Bool.or_false, decide_eq_true_eq] at mem
      exact (ended i).2 mem
    have balance := balanced.accounts.balance
    rwa [none] at balance

/-- Three calls: two closures run, the third call waits and is cancelled, the caller of the first
closure is cancelled too, and both closures end. -/
def cancelled {ι : Type} [∀ n, OfNat ι n] : List (Action ι) :=
  [.acquire 0, .acquire 1, .spawn 0, .run 0, .acquire 2, .spawn 1, .run 1, .cancel 0, .cancel 2,
    .finish 1, .join 1, .finish 0]

theorem derivations_are_bounded_cancelled :
    ∃ s : Slots (Fin 3), Reach Slots.step (fun _ _ => True) (Slots.start (Fin 3)) s ∧
      (∀ i, (s.calls i).live = false ∧ s.calls i ≠ .granted) ∧ s.semaphore.free = maxConcurrent := by
  exact Reach.exists_run cancelled (fun s => ∀ i, (s.calls i).live = false ∧ s.calls i ≠ .granted)
    (by decide) fun run ended => ⟨ended, (derivations_are_bounded run).2.2 ended⟩

end

end SecretManager.Kdf
