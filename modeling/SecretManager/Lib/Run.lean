import Mathlib

/-!
# Runs of a transition function under a discipline

A system is a partial transition function `step : S → A → Option S`; an action that is not enabled
gives `none`. A run is a finite sequence of actions. `Reach step ok s₀ s` says that some run leads
from `s₀` to `s` and that each of its steps met the discipline `ok`, a condition on the action and
the state it is taken in. The unrestricted system is the one whose discipline always holds.

`Reach.invariant` is the induction rule. `exec` runs a list of actions, checking the discipline at
each, so a run on fixed inputs can be shown by evaluation. `logged` puts a log beside the state:
what a run has done and the system itself does not store. No transition looks at it.
-/

universe u v

variable {S : Type u} {A : Type v}

/-- The states that runs reach when every step meets `ok`. -/
inductive Reach (step : S → A → Option S) (ok : S → A → Prop) (s₀ : S) : S → Prop
  | init : Reach step ok s₀ s₀
  | next {s s' : S} (a : A) : Reach step ok s₀ s → ok s a → step s a = some s' →
      Reach step ok s₀ s'

namespace Reach

variable {step : S → A → Option S} {ok : S → A → Prop} {s₀ s : S}

/-- **The invariant rule**: what holds at the start and is kept by every disciplined step holds in
every state reached. -/
theorem invariant (Inv : S → Prop) (start : Inv s₀)
    (keep : ∀ {s a s'}, Inv s → ok s a → step s a = some s' → Inv s') (h : Reach step ok s₀ s) :
    Inv s := by
  induction h with
  | init => exact start
  | next a _ hok hstep ih => exact keep ih hok hstep

theorem trans {s' : S} (h : Reach step ok s₀ s) (h' : Reach step ok s s') :
    Reach step ok s₀ s' := by
  induction h' with
  | init => exact h
  | next a _ hok hstep ih => exact .next a ih hok hstep

theorem mono {ok' : S → A → Prop} (weaker : ∀ {s a}, ok s a → ok' s a) (h : Reach step ok s₀ s) :
    Reach step ok' s₀ s := by
  induction h with
  | init => exact .init
  | next a _ hok hstep ih => exact .next a ih (weaker hok) hstep

/-- Run a list of actions, stopping at the first that is not enabled or breaks the discipline. -/
def exec (step : S → A → Option S) (ok : S → A → Prop) [∀ s a, Decidable (ok s a)] : S → List A →
    Option S
  | s, [] => some s
  | s, a :: as => if ok s a then (step s a).bind fun s' => exec step ok s' as else none

theorem of_exec [∀ s a, Decidable (ok s a)] {as : List A} : ∀ {s},
    Reach step ok s₀ s → ∀ {s'}, exec step ok s as = some s' → Reach step ok s₀ s' := by
  induction as with
  | nil =>
    intro s h s' hexec
    cases hexec
    exact h
  | cons a as ih =>
    intro s h s' hexec
    unfold exec at hexec
    split at hexec
    next hok =>
      obtain ⟨t, hstep, hrest⟩ := Option.bind_eq_some_iff.mp hexec
      exact ih (.next a h hok hstep) hrest
    · cases hexec

/-- A run whose last state passes a test shows that a state passing it is reached. -/
theorem exists_of_exec (step : S → A → Option S) (ok : S → A → Prop) [∀ s a, Decidable (ok s a)]
    (s₀ : S) (as : List A) (test : S → Bool) (h : (exec step ok s₀ as).any test = true) :
    ∃ s, Reach step ok s₀ s ∧ test s = true := by
  cases hexec : exec step ok s₀ as with
  | none => simp [hexec] at h
  | some s => exact ⟨s, of_exec .init hexec, by simpa [hexec] using h⟩

theorem exists_of_exec_from {S₀ : Type*} (step : S → A → Option S) (ok : S → A → Prop)
    [∀ s a, Decidable (ok s a)] (init : Option S₀) (start : S₀ → S) (as : List A) (test : S → Bool)
    (h : (init.bind fun s₀ => exec step ok (start s₀) as).any test = true) :
    ∃ s₀ s, init = some s₀ ∧ Reach step ok (start s₀) s ∧ test s = true := by
  cases init with
  | none => cases h
  | some s₀ =>
    obtain ⟨s, run, htest⟩ := exists_of_exec step ok (start s₀) as test h
    exact ⟨s₀, s, rfl, run, htest⟩

/-- **A run settles what is stated to be reached**: its last state passes the test `P`, from which
`Q` follows. -/
theorem exists_run [∀ s a, Decidable (ok s a)] {Q : S → Prop} (as : List A) (P : S → Prop)
    [DecidablePred P] (h : (exec step ok s₀ as).any (P ·) = true)
    (conclude : ∀ {s}, Reach step ok s₀ s → P s → Q s) : ∃ s, Reach step ok s₀ s ∧ Q s := by
  obtain ⟨s, run, passed⟩ := exists_of_exec step ok s₀ as _ h
  exact ⟨s, run, conclude run (of_decide_eq_true passed)⟩

theorem exists_run_from [∀ s a, Decidable (ok s a)] {S₀ : Type*} {init : Option S₀} {start : S₀ → S}
    {Q : S₀ → S → Prop} (as : List A) (P : S → Prop) [DecidablePred P]
    (h : (init.bind fun s₀ => exec step ok (start s₀) as).any (P ·) = true)
    (conclude : ∀ {s₀ s}, init = some s₀ → Reach step ok (start s₀) s → P s → Q s₀ s) :
    ∃ s₀ s, init = some s₀ ∧ Reach step ok (start s₀) s ∧ Q s₀ s := by
  obtain ⟨s₀, s, begun, run, passed⟩ := exists_of_exec_from step ok init start as _ h
  exact ⟨s₀, s, begun, run, conclude begun run (of_decide_eq_true passed)⟩

theorem exists_run_pair {L : Type*} {step : S × L → A → Option (S × L)} {ok : S × L → A → Prop}
    [∀ p a, Decidable (ok p a)] {S₀ : Type*} {init : Option S₀} {start : S₀ → S × L}
    {Q : S₀ → S → L → Prop} (as : List A) (P : S → L → Prop) [∀ s l, Decidable (P s l)]
    (h : (init.bind fun s₀ => exec step ok (start s₀) as).any (fun p => P p.1 p.2) = true)
    (conclude : ∀ {s₀ s l}, init = some s₀ → Reach step ok (start s₀) (s, l) → P s l → Q s₀ s l) :
    ∃ s₀ s l, init = some s₀ ∧ Reach step ok (start s₀) (s, l) ∧ Q s₀ s l := by
  obtain ⟨s₀, ⟨s, l⟩, begun, run, passed⟩ := exists_of_exec_from step ok init start as _ h
  exact ⟨s₀, s, l, begun, run, conclude begun run (of_decide_eq_true passed)⟩

end Reach

/-! ## Logs -/

/-- The system with a log that `record` extends at each step, from the state before, the action and
the state after. -/
def logged {L : Type*} (step : S → A → Option S) (record : S → A → S → L → L) (p : S × L) (a : A) :
    Option (S × L) :=
  (step p.1 a).map fun s => (s, record p.1 a s p.2)

theorem logged_eq_some {L : Type*} {step : S → A → Option S} {record : S → A → S → L → L}
    {p p' : S × L} {a : A} (h : logged step record p a = some p') :
    step p.1 a = some p'.1 ∧ p'.2 = record p.1 a p'.1 p.2 := by
  obtain ⟨s, hs, rfl⟩ := Option.map_eq_some_iff.mp h
  exact ⟨hs, rfl⟩

theorem Reach.logged_invariant {L : Type*} {step : S → A → Option S} {record : S → A → S → L → L}
    {ok : S × L → A → Prop} {s₀ s : S} {l₀ l : L}
    (run : Reach (logged step record) ok (s₀, l₀) (s, l)) (Inv : S → L → Prop) (start : Inv s₀ l₀)
    (keep : ∀ {s l a s'}, Inv s l → ok (s, l) a → step s a = some s' → Inv s' (record s a s' l)) :
    Inv s l := by
  refine run.invariant (fun p => Inv p.1 p.2) start fun inv hok hstep => ?_
  obtain ⟨hstep, hlog⟩ := logged_eq_some hstep
  rw [hlog]
  exact keep inv hok hstep
