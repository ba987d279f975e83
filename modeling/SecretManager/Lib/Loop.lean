import Mathlib

/-!
# Loops that may fail

A `for` loop over a list whose body may return early with an error is `List.foldlM` in `Except`. The
rule for such a loop: what the body extends by one element, the loop extends by all of them. A loop
that checks each element and keeps it is `List.mapM`; it succeeds when every check does.
-/

namespace Loop

universe u v w

variable {ε : Type u} {σ : Type v} {α : Type w} {f : σ → α → Except ε σ}

theorem bind_eq_ok {β γ : Type v} {r : Except ε γ} {k : γ → Except ε β} {b : β} :
    (r >>= k) = .ok b ↔ ∃ a, r = .ok a ∧ k a = .ok b := by
  cases r with
  | error e =>
    constructor
    · intro h
      cases h
    · rintro ⟨_, h, -⟩
      cases h
  | ok a =>
    constructor
    · intro h
      exact ⟨a, rfl, h⟩
    · rintro ⟨_, ⟨⟩, h⟩
      exact h

theorem map_eq_ok {α β : Type v} {r : Except ε α} {k : α → β} {b : β} :
    r.map k = .ok b ↔ ∃ a, r = .ok a ∧ k a = b := by
  cases r with
  | error e => exact ⟨nofun, nofun⟩
  | ok a => simp [Except.map]

theorem mapError_eq_ok {ε' : Type u} {r : Except ε α} {k : ε → ε'} {a : α} :
    r.mapError k = .ok a ↔ r = .ok a := by
  cases r with
  | error e => exact ⟨nofun, nofun⟩
  | ok a => simp [Except.mapError]

/-- **A check of every element.** Where a check that passes gives its element back, a loop of checks
gives the list back or fails, and it fails if one of them does. -/
theorem mapM_eq_ok {α : Type v} {check : α → Except ε α} {l r : List α}
    (keeps : ∀ a ∈ l, ∀ b, check a = .ok b → b = a) :
    l.mapM check = .ok r ↔ r = l ∧ ∀ a ∈ l, check a = .ok a := by
  induction l generalizing r with
  | nil =>
    constructor
    · intro done
      cases done
      exact ⟨rfl, nofun⟩
    · rintro ⟨rfl, -⟩
      rfl
  | cons a l ih =>
    have rest {r : List α} := ih (r := r) fun b mem => keeps b (List.mem_cons_of_mem a mem)
    rw [List.mapM_cons]
    constructor
    · intro run
      obtain ⟨b, first, run⟩ := bind_eq_ok.mp run
      obtain ⟨bs, later, run⟩ := bind_eq_ok.mp run
      cases run
      obtain rfl := keeps a List.mem_cons_self b first
      obtain ⟨rfl, each⟩ := rest.mp later
      exact ⟨rfl, List.forall_mem_cons.mpr ⟨first, each⟩⟩
    · rintro ⟨rfl, each⟩
      obtain ⟨first, each⟩ := List.forall_mem_cons.mp each
      rw [first, rest.mpr ⟨rfl, each⟩]
      rfl

/-- **The loop rule.** The invariant speaks about the elements that were visited. -/
theorem invariant {I : List α → σ → Prop}
    (step : ∀ done a s s', I done s → f s a = .ok s' → I (done ++ [a]) s') :
    ∀ {l done : List α} {s s' : σ}, I done s → l.foldlM f s = .ok s' → I (done ++ l) s' := by
  intro l
  induction l with
  | nil =>
    intro done s s' start run
    cases run
    rwa [List.append_nil]
  | cons a l ih =>
    intro done s s' start run
    obtain ⟨s₁, first, rest⟩ := bind_eq_ok.mp run
    have next := ih (step done a s s₁ start first) rest
    rwa [List.append_assoc] at next

end Loop
