import Mathlib

/-!
# Binary search as slices do it

`slice::binary_search_by`: the window is halved until one element is left, and only that element is
compared for equality. A probe `cmp` says how an element stands to what is looked for. On a list
that is ordered by its probe the search finds an equal element whenever there is one.
-/

namespace Bisect

variable {α : Type*}

/-- The loop: where the window of `size` elements from `base` ends up. Every turn takes the upper
half unless its first element is too large. The fuel bounds the number of turns. -/
def loop (cmp : α → Ordering) (xs : List α) : Nat → Nat → Nat → Nat
  | 0, base, _ => base
  | fuel + 1, base, size =>
    if size ≤ 1 then base
    else
      let half := size / 2
      let mid := base + half
      if (xs[mid]?).any fun a => cmp a == .gt then loop cmp xs fuel base (size - half)
      else loop cmp xs fuel mid (size - half)

/-- `binary_search_by(..).is_ok()`. -/
def found (cmp : α → Ordering) (xs : List α) : Bool :=
  (xs[loop cmp xs xs.length 0 xs.length]?).any fun a => cmp a == .eq

/-- From the first element that is not too small, none is; and past the first that is too large, all
are. -/
def Ordered (cmp : α → Ordering) (xs : List α) : Prop :=
  xs.Pairwise fun a b => (cmp a = .eq → cmp b ≠ .lt) ∧ (cmp a = .gt → cmp b = .gt)

variable {cmp : α → Ordering} {xs : List α}

section

variable (ordered : Ordered cmp xs)
include ordered

theorem Ordered.gt_of_le {i j : Nat} {a b : α} (hi : xs[i]? = some a) (hj : xs[j]? = some b)
    (le : i ≤ j) (gt : cmp a = .gt) : cmp b = .gt := by
  rcases Nat.eq_or_lt_of_le le with rfl | lt
  · rw [hi] at hj
    cases hj
    exact gt
  · obtain ⟨inside, rfl⟩ := List.getElem?_eq_some_iff.mp hi
    obtain ⟨inside', rfl⟩ := List.getElem?_eq_some_iff.mp hj
    exact (List.pairwise_iff_getElem.mp ordered i j inside inside' lt).2 gt

theorem Ordered.not_lt_of_le {i j : Nat} {a b : α} (hi : xs[i]? = some a) (hj : xs[j]? = some b)
    (le : i ≤ j) (eq : cmp a = .eq) : cmp b ≠ .lt := by
  rcases Nat.eq_or_lt_of_le le with rfl | lt
  · rw [hi] at hj
    cases hj
    rw [eq]
    nofun
  · obtain ⟨inside, rfl⟩ := List.getElem?_eq_some_iff.mp hi
    obtain ⟨inside', rfl⟩ := List.getElem?_eq_some_iff.mp hj
    exact (List.pairwise_iff_getElem.mp ordered i j inside inside' lt).1 eq

/-- **Where the loop ends**: in the window, at its first element or at one that is not too large,
with nothing but too large elements after it. -/
theorem loop_spec : ∀ fuel base size, 0 < size → size ≤ fuel + 1 → base + size ≤ xs.length →
    loop cmp xs fuel base size < base + size ∧ (loop cmp xs fuel base size = base ∨
        ∀ a, xs[loop cmp xs fuel base size]? = some a → cmp a ≠ .gt) ∧
      ∀ i a, loop cmp xs fuel base size < i → i < base + size → xs[i]? = some a → cmp a = .gt := by
  intro fuel
  induction fuel with
  | zero =>
    intro base size pos enough bound
    refine ⟨by simp only [loop]; omega, .inl rfl, fun i a lt lt' _ => ?_⟩
    simp only [loop] at lt
    omega
  | succ fuel ih =>
    intro base size pos enough bound
    unfold loop
    by_cases small : size ≤ 1
    · rw [if_pos small]
      refine ⟨by omega, .inl rfl, fun i a lt lt' _ => ?_⟩
      omega
    · rw [if_neg small]
      have inside : base + size / 2 < xs.length := by omega
      have mid : xs[base + size / 2]? = some xs[base + size / 2] := List.getElem?_eq_getElem inside
      have spec := ih base (size - size / 2) (by omega) (by omega) (by omega)
      have spec' := ih (base + size / 2) (size - size / 2) (by omega) (by omega) (by omega)
      simp only [mid, Option.any_some, beq_iff_eq]
      by_cases gt : cmp xs[base + size / 2] = .gt
      · -- the upper half is too large, since its first element is
        rw [if_pos gt]
        refine ⟨by omega, spec.2.1, fun i a lt lt' hi => ?_⟩
        by_cases low : i < base + (size - size / 2)
        · exact spec.2.2 i a lt low hi
        · exact ordered.gt_of_le mid hi (by omega) gt
      · rw [if_neg gt]
        refine ⟨by omega, .inr fun a ha => ?_, fun i a lt lt' hi => spec'.2.2 i a lt (by omega) hi⟩
        rcases spec'.2.1 with here | low
        · rw [here, mid] at ha
          cases ha
          exact gt
        · exact low a ha

/-- **The search is right** on an ordered list. -/
theorem found_iff : found cmp xs = true ↔ ∃ a ∈ xs, cmp a = .eq := by
  rw [found, Option.any_eq_true]
  constructor
  · rintro ⟨a, ha, eq⟩
    exact ⟨a, List.mem_of_getElem? ha, beq_iff_eq.mp eq⟩
  · rintro ⟨a, mem, eq⟩
    obtain ⟨i, hi⟩ := List.getElem?_of_mem mem
    have lt : i < xs.length := (List.getElem?_eq_some_iff.mp hi).1
    obtain ⟨inside, low, high⟩ := loop_spec ordered xs.length 0 xs.length (by omega) (by omega) (by omega)
    obtain ⟨b, here⟩ : ∃ b, xs[loop cmp xs xs.length 0 xs.length]? = some b :=
      ⟨_, List.getElem?_eq_getElem (by omega)⟩
    refine ⟨b, here, beq_iff_eq.mpr ?_⟩
    -- the equal element is not past the end of the loop
    have le : i ≤ loop cmp xs xs.length 0 xs.length := by
      by_contra past
      have gt := high i a (by omega) (by omega) hi
      rw [eq] at gt
      cases gt
    have not_lt := ordered.not_lt_of_le hi here le eq
    have not_gt : cmp b ≠ .gt := by
      rcases low with first | low
      · rw [first, Nat.le_zero] at le
        rw [first, ← le, hi] at here
        cases here
        rw [eq]
        nofun
      · exact low b here
    cases hcmp : cmp b with
    | lt => exact absurd hcmp not_lt
    | eq => rfl
    | gt => exact absurd hcmp not_gt

end

end Bisect
