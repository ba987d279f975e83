import Mathlib

/-!
# Calls that may fail

A machine answers each call with a state and with whether the call succeeded. A specification says
when a call can succeed and what a success does. Where the machine keeps to it, and a failure
changes nothing that the specification sees, the calls that succeeded are a run of the
specification.
-/

namespace Calls

variable {S A B : Type*}

/-- The calls that succeeded, in order, and the state after all of them. -/
def completed (call : S → A → Bool × S) : S → List A → List A × S
  | s, [] => ([], s)
  | s, a :: as =>
    let later := completed call (call s a).2 as
    (if (call s a).1 then a :: later.1 else later.1, later.2)

/-- **The calls that succeeded are a run of the specification**, which ends in what the machine
holds. -/
theorem simulates {call : S → A → Bool × S} {spec : B → A → Option B} {Holds : S → B → Prop}
    (done : ∀ {s b a}, Holds s b → (call s a).1 = true → ∃ b', spec b a = some b' ∧ Holds
      (call s a).2 b') (failed : ∀ {s b a}, Holds s b → (call s a).1 = false → Holds (call s a).2 b)
    (as : List A) : ∀ {s b}, Holds s b →
      ∃ b', (completed call s as).1.foldlM spec b = some b' ∧ Holds (completed call s as).2 b' := by
  induction as with
  | nil =>
    intro s b holds
    exact ⟨b, rfl, holds⟩
  | cons a as ih =>
    intro s b holds
    cases success : (call s a).1 with
    | true =>
      obtain ⟨b', allowed, next⟩ := done holds success
      obtain ⟨b'', run, last⟩ := ih next
      exact ⟨b'', by simpa [completed, success, allowed] using run, last⟩
    | false =>
      obtain ⟨b', run, last⟩ := ih (failed holds success)
      exact ⟨b', by simpa [completed, success] using run, last⟩

end Calls
