import Mathlib

/-!
# Counting semaphores

A semaphore has free permits and a queue of waiters. A permit that comes back goes to the first
waiter, and is free only when nobody waits; a waiter can leave the queue. Who holds a permit is not
written down in the semaphore, so the account is kept beside it: `Accounts s permits held` says that
the free permits and the holders make up all the permits there are, and that no holder waits.
-/

universe u

structure Semaphore (ι : Type u) where
  free : Nat
  queue : List ι

namespace Semaphore

variable {ι : Type u}

def new (permits : Nat) : Semaphore ι := { free := permits, queue := [] }

def acquire (s : Semaphore ι) (i : ι) : Bool × Semaphore ι :=
  match s.free with
  | n + 1 => (true, { s with free := n })
  | 0 => (false, { s with queue := s.queue ++ [i] })

/-- A permit comes back, and goes to the first waiter. -/
def release (s : Semaphore ι) : Option ι × Semaphore ι :=
  match s.queue with
  | i :: queue => (some i, { s with queue })
  | [] => (none, { s with free := s.free + 1 })

def leave [DecidableEq ι] (s : Semaphore ι) (i : ι) : Semaphore ι :=
    { s with queue := s.queue.erase i }

/-- **The account**: free permits and holders make up all permits, and nobody is in the queue twice
or while holding one. -/
structure Accounts (s : Semaphore ι) (permits : Nat) (held : Finset ι) : Prop where
  balance : s.free + held.card = permits
  nodup : s.queue.Nodup
  apart : ∀ i ∈ s.queue, i ∉ held

variable {s s' : Semaphore ι} {permits : Nat} {held : Finset ι} {i j : ι}

theorem new_accounts (permits : Nat) : (new permits : Semaphore ι).Accounts permits ∅ :=
  ⟨rfl, List.nodup_nil, nofun⟩

theorem acquire_queued (h : s.acquire i = (false, s')) :
    s' = { s with queue := s.queue ++ [i] } := by
  unfold acquire at h
  split at h
  · cases h
  · cases h
    rfl

theorem acquire_taken (h : s.acquire i = (true, s')) :
    s.free = s'.free + 1 ∧ s'.queue = s.queue := by
  unfold acquire at h
  split at h
  next n free =>
    cases h
    exact ⟨free, rfl⟩
  · cases h

theorem release_free (h : s.release = (none, s')) :
    s.queue = [] ∧ s' = { s with free := s.free + 1 } := by
  unfold release at h
  split at h
  · cases h
  next empty =>
    cases h
    exact ⟨empty, rfl⟩

theorem release_handed (h : s.release = (some j, s')) :
    s.queue = j :: s'.queue ∧ s'.free = s.free := by
  unfold release at h
  split at h
  next first queue waits =>
    cases h
    exact ⟨waits, rfl⟩
  · cases h

namespace Accounts

variable [DecidableEq ι]

theorem taken (accounts : s.Accounts permits held) (h : s.acquire i = (true, s')) (new : i ∉ held)
    (idle : i ∉ s.queue) : s'.Accounts permits (insert i held) := by
  obtain ⟨free, queue⟩ := acquire_taken h
  refine ⟨?_, queue ▸ accounts.nodup, ?_⟩
  · have balance := accounts.balance
    rw [Finset.card_insert_of_notMem new]
    omega
  · intro j waits
    rw [queue] at waits
    rw [Finset.mem_insert, not_or]
    refine ⟨?_, accounts.apart j waits⟩
    rintro rfl
    exact idle waits

section

variable (accounts : s.Accounts permits held)
include accounts

omit [DecidableEq ι] in
theorem queued (h : s.acquire i = (false, s')) (new : i ∉ held) (idle : i ∉ s.queue) :
    s'.Accounts permits held := by
  obtain rfl := acquire_queued h
  refine ⟨accounts.balance, ?_, ?_⟩
  · exact List.nodup_append.mpr ⟨accounts.nodup, List.nodup_singleton i,
      fun a mem b single => by rintro rfl; exact idle (List.mem_singleton.mp single ▸ mem)⟩
  · intro j waits
    rcases List.mem_append.mp waits with old | single
    · exact accounts.apart j old
    · exact List.mem_singleton.mp single ▸ new

theorem freed (h : s.release = (none, s')) (holds : i ∈ held) :
    s'.Accounts permits (held.erase i) := by
  obtain ⟨empty, rfl⟩ := release_free h
  refine ⟨?_, accounts.nodup, fun j waits mem => ?_⟩
  · have balance := accounts.balance
    have positive := Finset.card_pos.mpr ⟨i, holds⟩
    have erased := Finset.card_erase_of_mem holds
    change s.free + 1 + (held.erase i).card = permits
    omega
  · exact accounts.apart j waits (Finset.mem_of_mem_erase mem)

theorem handed (h : s.release = (some j, s')) (holds : i ∈ held) :
    s'.Accounts permits (insert j (held.erase i)) := by
  obtain ⟨queue, free⟩ := release_handed h
  have apart := accounts.apart
  have nodup := accounts.nodup
  rw [queue] at apart nodup
  have new : j ∉ held.erase i := fun mem => apart j List.mem_cons_self (Finset.mem_of_mem_erase mem)
  refine ⟨?_, nodup.of_cons, fun k waits mem => ?_⟩
  · have balance := accounts.balance
    have positive := Finset.card_pos.mpr ⟨i, holds⟩
    have erased := Finset.card_erase_of_mem holds
    rw [Finset.card_insert_of_notMem new]
    omega
  · rcases Finset.mem_insert.mp mem with rfl | old
    · exact (List.nodup_cons.mp nodup).1 waits
    · exact apart k (List.mem_cons_of_mem _ waits) (Finset.mem_of_mem_erase old)

theorem left (i : ι) : (s.leave i).Accounts permits held :=
  ⟨accounts.balance, accounts.nodup.erase i, fun j waits =>
    accounts.apart j (List.mem_of_mem_erase waits)⟩

end

omit [DecidableEq ι] in
theorem card_le (accounts : s.Accounts permits held) : held.card ≤ permits := by
  have balance := accounts.balance
  omega

end Accounts

end Semaphore
