import Mathlib

/-!
# Computations that keep their state when they fail

`ExceptT ε (StateM σ)`: a failure ends the computation and not the state. `Std.Do` has the triples
of such computations. Here is the rule for a part that does not touch the state, and what a triple
says of a run.
-/

namespace Attempt

open Std.Do

universe u v

variable {ε σ α : Type u}

@[spec]
theorem lift_eq {m : Type u → Type v} [Monad m] (x : Except ε α) :
    (MonadLift.monadLift x : ExceptT ε m α) =
      match x with
      | .ok a => pure a
      | .error e => throw e := by
  cases x with
  | ok a => rfl
  | error e => rfl

theorem run_of_triple {m : ExceptT ε (StateM σ) α} {P : σ → Prop} {Q : α → σ → Prop}
    {F : ε → σ → Prop} (spec : ⦃fun s => ⌜P s⌝⦄ m ⦃post⟨fun a s => ⌜Q a s⌝, fun e s => ⌜F e s⌝⟩⦄)
    {s s' : σ} {r : Except ε α} (pre : P s) (run : m.run.run s = (r, s')) : match r with
    | .ok a => Q a s'
    | .error e => F e s' := by
  have post := Triple.iff.mp spec s pre
  simp only [WP.wp, PredTrans.apply_pushExcept, PredTrans.apply_pushArg, run] at post
  cases r with
  | ok a => exact post
  | error e => exact post

end Attempt
