import Mathlib

/-!
# Taking elements out of a list and putting them back

A batch removal that records each removed element with the index it held, and the insertion loop
that undoes it. `putBack_pullOut` is the inverse law: reinserting in ascending order of the original
indices gives the original list, since an index is right again once everything before it is back.
-/

namespace Delta

variable {α : Type*}

/-- One pass over a list whose first element sits at `i`: the elements kept, and the elements that
`p` selects, each with its index. -/
def pullOut (p : α → Bool) : Nat → List α → List α × List (Nat × α)
  | _, [] => ([], [])
  | i, a :: rest =>
    let (kept, removed) := pullOut p (i + 1) rest
    if p a then (kept, (i, a) :: removed) else (a :: kept, removed)

/-- The insertion loop: each recorded element goes back at its index, if the list reaches it. -/
def putBack (l : List α) (removed : List (Nat × α)) : List α :=
  removed.foldl (fun l e => if e.1 ≤ l.length then l.insertIdx e.1 e.2 else l) l

theorem insertIdx_length_append (a : α) : ∀ (done rest : List α),
    (done ++ rest).insertIdx done.length a = done ++ a :: rest
  | [], _ => rfl
  | b :: done, rest => by
    simp only [List.cons_append, List.length_cons, List.insertIdx_succ_cons, insertIdx_length_append a done rest]

/-- The loop's invariant: what stands before the pass is already complete. -/
theorem putBack_pullOut_from (p : α → Bool) (l : List α) : ∀ done : List α,
    putBack (done ++ (pullOut p done.length l).1) (pullOut p done.length l).2 = done ++ l := by
  induction l with
  | nil => intro done; rfl
  | cons a rest ih =>
    intro done
    have next := ih (done ++ [a])
    rw [List.length_append, List.length_singleton] at next
    simp only [List.append_assoc, List.singleton_append] at next
    simp only [pullOut]
    by_cases hp : p a = true
    · -- the element went out: the loop's first insertion puts it after `done`
      simp only [hp, if_true, putBack, List.foldl_cons, List.length_append, Nat.le_add_right, insertIdx_length_append]
      exact next
    · simp only [hp, Bool.false_eq_true, if_false]
      exact next

/-- **Putting back inverts pulling out.** -/
theorem putBack_pullOut (p : α → Bool) (l : List α) :
    putBack (pullOut p 0 l).1 (pullOut p 0 l).2 = l :=
  putBack_pullOut_from p l []

end Delta
