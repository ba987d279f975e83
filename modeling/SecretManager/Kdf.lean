import SecretManager.Lib.Semaphore

/-!
# Bounded key derivations

`run_bounded` of `src/kdf.rs`. A call acquires a slot, hands it to a blocking closure that it
spawns, and waits for the closure. It can be cancelled at either wait: then the future is dropped,
with what it holds. The closure is not part of the future; it goes on until it ends, and its slot
ends with it.

A waiter whose turn it is holds its slot from the moment it is handed over, whether or not it has
been polled since.
-/

namespace SecretManager.Kdf

def maxConcurrent : Nat := 2

inductive Job where
  /-- It waits for a thread of the blocking pool. -/
  | queued
  | running
  /-- It has returned or panicked, and its slot is dropped. -/
  | finished
  deriving DecidableEq

/-- Where a call of `run_bounded` stands. -/
inductive Call where
  | idle
  /-- In the queue of the semaphore. -/
  | waiting
  /-- It has a slot, and has not spawned its closure. -/
  | granted
  /-- The closure has the slot; `caller` says whether somebody still waits for it. -/
  | spawned (job : Job) (caller : Bool)
  | returned
  /-- Cancelled before it spawned anything. -/
  | dropped
  deriving DecidableEq

structure Slots (ι : Type) where
  semaphore : Semaphore ι
  calls : ι → Call

def Slots.start (ι : Type) : Slots ι := { semaphore := .new maxConcurrent, calls := fun _ => .idle }

inductive Action (ι : Type) where
  /-- A call comes to `acquire`. -/
  | acquire (i : ι)
  /-- It goes on with its slot to `spawn_blocking`. -/
  | spawn (i : ι)
  /-- A thread takes the closure up. -/
  | run (i : ι)
  /-- The closure ends. -/
  | finish (i : ι)
  /-- The call receives what its closure returned. -/
  | join (i : ι)
  /-- The caller is cancelled. -/
  | cancel (i : ι)

section

variable {ι : Type} [DecidableEq ι]

def Slots.set (s : Slots ι) (i : ι) (call : Call) : Slots ι :=
  { s with calls := Function.update s.calls i call }

/-- A slot is dropped: the first waiter has it now, or it is free. -/
def Slots.release (s : Slots ι) : Slots ι :=
  match s.semaphore.release with
  | (none, semaphore) => { s with semaphore }
  | (some j, semaphore) => { s.set j .granted with semaphore }

def Slots.step (s : Slots ι) : Action ι → Option (Slots ι)
  | .acquire i =>
    match s.calls i with
    | .idle =>
      match s.semaphore.acquire i with
      | (true, semaphore) => some { s.set i .granted with semaphore }
      | (false, semaphore) => some { s.set i .waiting with semaphore }
    | _ => none
  | .spawn i =>
    match s.calls i with
    | .granted => some (s.set i (.spawned .queued true))
    | _ => none
  | .run i =>
    match s.calls i with
    | .spawned .queued caller => some (s.set i (.spawned .running caller))
    | _ => none
  | .finish i =>
    match s.calls i with
    | .spawned .running caller => some (s.set i (.spawned .finished caller)).release
    | _ => none
  | .join i =>
    match s.calls i with
    | .spawned .finished true => some (s.set i .returned)
    | _ => none
  | .cancel i =>
    match s.calls i with
    | .idle => some (s.set i .dropped)
    | .waiting => some { s.set i .dropped with semaphore := s.semaphore.leave i }
    | .granted => some (s.set i .dropped).release
    -- the handle is dropped, and the closure runs on
    | .spawned job true => some (s.set i (.spawned job false))
    | _ => none

end

end SecretManager.Kdf
