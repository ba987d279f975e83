import Mathlib

/-!
# The first of each class

`firsts r l` are the elements of `l` that no element before them is related to, `repeats r l` the
others, both in order. A loop that keeps an element unless it is related to one it has kept computes
the two, if the relation is transitive: `any_firsts` is why, and the `concat` rules are its step.
-/

variable {α : Type*} (r : α → α → Bool) (l : List α) (a : α)

def firsts : List α := (l.zipIdx.filter fun p => !(l.take p.2).any (r · p.1)).map Prod.fst

def repeats : List α := (l.zipIdx.filter fun p => (l.take p.2).any (r · p.1)).map Prod.fst

theorem zipIdx_filter_concat (keep : List α → α → Bool) :
    (((l ++ [a]).zipIdx.filter fun p => keep ((l ++ [a]).take p.2) p.1).map Prod.fst) =
      ((l.zipIdx.filter fun p => keep (l.take p.2) p.1).map Prod.fst) ++ [a].filter (keep l) := by
  have before : (l.zipIdx.filter fun p => keep ((l ++ [a]).take p.2) p.1) =
      l.zipIdx.filter fun p => keep (l.take p.2) p.1 := by
    refine List.filter_congr fun p mem => ?_
    rw [List.take_append_of_le_length]
    exact (List.mem_zipIdx mem).2.1.le.trans (by omega)
  cases h : keep l a <;> simp [List.zipIdx_append, before, h]

theorem firsts_concat : firsts r (l ++ [a]) = firsts r l ++ if l.any (r · a) then [] else [a] := by
  rw [firsts, zipIdx_filter_concat l a fun before a => !before.any (r · a)]
  cases h : l.any (r · a) <;> simp [firsts, h]

theorem repeats_concat :
    repeats r (l ++ [a]) = repeats r l ++ if l.any (r · a) then [a] else [] := by
  rw [repeats, zipIdx_filter_concat l a fun before a => before.any (r · a)]
  cases h : l.any (r · a) <;> simp [repeats, h]

variable {r l a}

theorem mem_of_mem_firsts (h : a ∈ firsts r l) : a ∈ l := by
  obtain ⟨p, mem, rfl⟩ := List.mem_map.mp h
  exact List.fst_mem_of_mem_zipIdx (List.mem_filter.mp mem).1

theorem any_firsts (trans : ∀ {a b c}, r a b = true → r b c = true → r a c = true) :
    (firsts r l).any (r · a) = l.any (r · a) := by
  induction l using List.reverseRecOn with
  | nil => rfl
  | append_singleton l b ih =>
    rw [firsts_concat, List.any_append, List.any_append, ih]
    cases seen : l.any (r · b) with
    | false => rfl
    | true =>
      obtain ⟨c, mem, rel⟩ := List.any_eq_true.mp seen
      cases related : r b a with
      | false => simp [related]
      | true =>
        have : l.any (r · a) = true := List.any_eq_true.mpr ⟨c, mem, trans rel related⟩
        simp [this]

theorem firsts_pairwise : (firsts r l).Pairwise fun a b => r a b = false := by
  induction l using List.reverseRecOn with
  | nil => exact .nil
  | append_singleton l b ih =>
    rw [firsts_concat]
    cases seen : l.any (r · b) with
    | true => simpa using ih
    | false =>
      refine List.pairwise_append.mpr ⟨ih, List.pairwise_singleton .., fun c mem d only => ?_⟩
      obtain rfl := List.mem_singleton.mp only
      simpa using List.any_eq_false.mp seen c (mem_of_mem_firsts mem)
