import Mathlib

/-!
# Buckets of a list

`buckets` puts the positions of a list into one bucket for each key, in one pass that finds the
bucket of a key in an index. `buckets_eq` says what comes out: the keys in the order of their first
appearance, each with its positions in order. So a loop over the buckets, and over the positions in
each, meets every position, and what it writes there does not depend on how the list was cut up.
-/

universe u v w

variable {α : Type u} {β : Type v} {K : Type w}

/-! ## Distinct elements -/

section

variable [BEq K] [LawfulBEq K]

theorem eraseDups_concat (ks : List K) (k : K) :
    (ks ++ [k]).eraseDups = if ks.contains k then ks.eraseDups else ks.eraseDups ++ [k] := by
  rw [List.eraseDups_append]
  by_cases known : k ∈ ks
  · simp [List.removeAll, known]
  · simp [List.removeAll, known, List.eraseDups_cons]

/-- **Each element once**, in the order of the first appearances. -/
theorem eraseDups_pairwise_idxOf (ks : List K) :
    ks.eraseDups.Pairwise fun a b => ks.idxOf a < ks.idxOf b := by
  induction ks using List.reverseRecOn with
  | nil => exact .nil
  | append_singleton ks k ih =>
    have old : ks.eraseDups.Pairwise fun a b => (ks ++ [k]).idxOf a < (ks ++ [k]).idxOf b := by
      refine ih.imp_of_mem fun {a b} ha hb lt => ?_
      rw [List.idxOf_append_of_mem (List.mem_eraseDups.mp ha), List.idxOf_append_of_mem (List.mem_eraseDups.mp hb)]
      exact lt
    rw [eraseDups_concat]
    split
    · exact old
    next new =>
      rw [List.contains_iff_mem] at new
      refine List.pairwise_append.mpr ⟨old, List.pairwise_singleton _ _, ?_⟩
      intro a ha b hb
      obtain rfl := List.mem_singleton.mp hb
      have ha := List.mem_eraseDups.mp ha
      rw [List.idxOf_append_of_mem ha, List.idxOf_append_of_notMem new]
      have := List.idxOf_lt_length_of_mem ha
      omega

theorem eraseDups_nodup (ks : List K) : ks.eraseDups.Nodup :=
  (eraseDups_pairwise_idxOf ks).imp fun lt eq => by
    subst eq
    exact Nat.lt_irrefl _ lt

end

/-! ## Sets of what was seen -/

section

variable [Ord K] [Std.TransOrd K] [Std.LawfulEqOrd K]

/-- The set has the elements of the list. -/
def Records (seen : Std.ExtTreeSet K) (ks : List K) : Prop := ∀ k, seen.contains k = true ↔ k ∈ ks

omit [Std.LawfulEqOrd K] in
theorem Records.empty : Records (∅ : Std.ExtTreeSet K) [] := fun k => by simp

theorem Records.insert {seen : Std.ExtTreeSet K} {ks : List K} (records : Records seen ks) (k : K) :
    Records (seen.insert k) (ks ++ [k]) := by
  intro k'
  rw [Std.ExtTreeSet.contains_insert, Bool.or_eq_true, records, List.mem_append, List.mem_singleton,
    beq_iff_eq, Std.LawfulEqCmp.compare_eq_iff_eq, or_comm, eq_comm]

end

/-! ## Positions -/

section

variable [DecidableEq K]

def positions (key : α → K) (xs : List α) (k : K) : List Nat :=
  (List.range xs.length).filter fun i => decide (xs[i]?.map key = some k)

variable {key : α → K} {xs : List α} {k : K} {i : Nat}

theorem mem_positions : i ∈ positions key xs k ↔ ∃ x, xs[i]? = some x ∧ key x = k := by
  rw [positions, List.mem_filter, List.mem_range, decide_eq_true_eq, Option.map_eq_some_iff]
  constructor
  · rintro ⟨-, found⟩
    exact found
  · rintro ⟨x, found, hk⟩
    exact ⟨(List.getElem?_eq_some_iff.mp found).1, x, found, hk⟩

theorem positions_concat (x : α) : positions key (xs ++ [x]) k =
    positions key xs k ++ if key x = k then [xs.length] else [] := by
  have old : (List.range xs.length).filter (fun i => decide ((xs ++ [x])[i]?.map key = some k)) =
      positions key xs k := by
    refine List.filter_congr fun i mem => ?_
    rw [List.getElem?_append_left (List.mem_range.mp mem)]
  rw [positions, List.length_append, List.length_singleton, List.range_succ,
    List.filter_append, old]
  by_cases hk : key x = k
  · simp [hk]
  · simp [hk]

theorem positions_eq_nil (unknown : k ∉ xs.map key) : positions key xs k = [] := by
  refine List.eq_nil_iff_forall_not_mem.mpr fun i mem => ?_
  obtain ⟨x, found, rfl⟩ := mem_positions.mp mem
  exact unknown (List.mem_map_of_mem (List.mem_of_getElem? found))

end

/-! ## Buckets -/

section

variable [Ord K]

/-- The buckets so far, and where the bucket of each key stands. -/
structure Grouping (K : Type w) [Ord K] where
  groups : List (K × List Nat)
  slots : Std.ExtTreeMap K Nat

def Grouping.push [Std.TransOrd K] (g : Grouping K) (k : K) (i : Nat) : Grouping K :=
  match g.slots[k]? with
  | some slot => { g with groups := g.groups.modify slot fun group => (group.1, group.2 ++ [i]) }
  | none => { groups := g.groups ++ [(k, [i])], slots := g.slots.insert k g.groups.length }

def Grouping.empty (K : Type w) [Ord K] : Grouping K := { groups := [], slots := ∅ }

def buckets [Std.TransOrd K] (key : α → K) (xs : List α) : List (K × List Nat) :=
  (xs.zipIdx.foldl (fun g e => Grouping.push g (key e.1) e.2) (.empty K)).groups

variable [Std.TransOrd K] [Std.LawfulEqOrd K] [DecidableEq K] (key : α → K)

/-- The buckets of what was read, and an index that leads to each. -/
structure Grouping.Holds (g : Grouping K) (xs : List α) : Prop where
  groups : g.groups = (xs.map key).eraseDups.map fun k => (k, positions key xs k)
  slots : ∀ k, g.slots[k]? = if k ∈ xs.map key then some ((xs.map key).eraseDups.idxOf k) else none

variable {key}

theorem Grouping.Holds.push {g : Grouping K} {xs : List α} (holds : g.Holds key xs) (x : α) :
    (g.push (key x) xs.length).Holds key (xs ++ [x]) := by
  have keys : (xs ++ [x]).map key = xs.map key ++ [key x] := by simp
  have dups := eraseDups_concat (xs.map key) (key x)
  unfold Grouping.push
  rw [holds.slots]
  by_cases known : key x ∈ xs.map key
  · -- the position goes to the end of its bucket, and the other buckets stay
    rw [if_pos known]
    rw [if_pos (List.contains_iff_mem.mpr known)] at dups
    refine ⟨?_, fun k => ?_⟩
    · dsimp only
      rw [keys, dups, holds.groups]
      refine List.ext_getElem (by simp) fun j hj hj' => ?_
      have lt : j < (xs.map key).eraseDups.length := by simpa using hj'
      have here : (xs.map key).eraseDups.idxOf (key x) = j ↔ key x = (xs.map key).eraseDups[j] := by
        constructor
        · rintro rfl
          exact (List.getElem_idxOf lt).symm
        · intro eq
          rw [eq]
          exact (eraseDups_nodup _).idxOf_getElem j lt
      rw [List.getElem_modify, List.getElem_map, List.getElem_map, positions_concat]
      split
      next at_ => rw [if_pos (here.mp at_)]
      next other => rw [if_neg fun eq => other (here.mpr eq), List.append_nil]
    · rw [holds.slots, keys, dups]
      refine if_congr ?_ rfl rfl
      rw [List.mem_append, List.mem_singleton]
      refine ⟨.inl, ?_⟩
      rintro (mem | rfl)
      · exact mem
      · exact known
  · rw [if_neg known]
    rw [if_neg fun h => known (List.contains_iff_mem.mp h)] at dups
    refine ⟨?_, fun k => ?_⟩
    · dsimp only
      rw [keys, dups, holds.groups, List.map_append]
      congr 1
      · refine List.map_congr_left fun k mem => ?_
        have ne : key x ≠ k := by
          rintro rfl
          exact known (List.mem_eraseDups.mp mem)
        rw [positions_concat, if_neg ne, List.append_nil]
      · simp [positions_concat, positions_eq_nil known]
    · dsimp only
      have length : g.groups.length = (xs.map key).eraseDups.length := by
        rw [holds.groups, List.length_map]
      rw [Std.ExtTreeMap.getElem?_insert, keys, dups, holds.slots, length]
      by_cases same : key x = k
      · subst same
        have new : key x ∉ (xs.map key).eraseDups := fun mem => known (List.mem_eraseDups.mp mem)
        simp [List.idxOf_append_of_notMem new]
      · have old : (k ∈ xs.map key ++ [key x]) ↔ k ∈ xs.map key := by simp [Ne.symm same]
        rw [if_neg (by simpa using same)]
        refine if_ctx_congr old.symm (fun mem => ?_) fun _ => rfl
        rw [List.idxOf_append_of_mem (List.mem_eraseDups.mpr (old.mp mem))]

/-- **What the pass gives**: a bucket for each key, in the order of the first appearances, with the
positions of the key in order. -/
theorem buckets_eq (key : α → K) (xs : List α) :
    buckets key xs = (xs.map key).eraseDups.map fun k => (k, positions key xs k) := by
  suffices h : (xs.zipIdx.foldl (fun g e => Grouping.push g (key e.1) e.2) (.empty K)).Holds key xs
    from h.groups
  induction xs using List.reverseRecOn with
  | nil => exact ⟨rfl, fun k => by simp [Grouping.empty]⟩
  | append_singleton xs x ih =>
    rw [List.zipIdx_append]
    simpa using ih.push x

variable {xs : List α}

theorem mem_buckets {group : K × List Nat} (mem : group ∈ buckets key xs) :
    (∀ i, i ∈ group.2 ↔ ∃ x, xs[i]? = some x ∧ key x = group.1) ∧ group.2 ≠ [] := by
  rw [buckets_eq] at mem
  obtain ⟨k, known, rfl⟩ := List.mem_map.mp mem
  refine ⟨fun i => mem_positions, fun (none : positions key xs k = []) => ?_⟩
  obtain ⟨x, listed, rfl⟩ := List.mem_map.mp (List.mem_eraseDups.mp known)
  obtain ⟨i, found⟩ := List.mem_iff_getElem?.mp listed
  have listed : i ∈ positions key xs (key x) := mem_positions.mpr ⟨x, found, rfl⟩
  rw [none] at listed
  cases listed

variable (key) in
theorem exists_bucket {i : Nat} {x : α} (found : xs[i]? = some x) :
    ∃ idxs, (key x, idxs) ∈ buckets key xs ∧ i ∈ idxs := by
  refine ⟨positions key xs (key x), ?_, mem_positions.mpr ⟨x, found, rfl⟩⟩
  rw [buckets_eq]
  exact List.mem_map.mpr
    ⟨key x, List.mem_eraseDups.mpr (List.mem_map_of_mem (List.mem_of_getElem? found)), rfl⟩

end

/-! ## Loops over positions -/

/-- **Writing some positions of a vector**, each with a value of its own. -/
theorem getElem?_foldl_set (wanted : Nat → Bool) (value : Nat → β) (idxs : List Nat) (vec : List β)
    (j : Nat) : (idxs.foldl (fun vec i => if wanted i then vec.set i (value i) else vec) vec)[j]? =
      if j ∈ idxs ∧ wanted j = true then vec[j]?.map fun _ => value j else vec[j]? := by
  induction idxs generalizing vec with
  | nil => simp
  | cons i idxs ih =>
    rw [List.foldl_cons, ih]
    by_cases here : i = j
    · subst here
      by_cases hi : wanted i = true
      · by_cases lt : i < vec.length
        · simp [hi, lt]
        · simp [hi, lt]
      · simp [hi]
    · have same : (if wanted i then vec.set i (value i) else vec)[j]? = vec[j]? := by
        split
        · exact List.getElem?_set_ne here
        · rfl
      rw [same]
      simp [Ne.symm here]

/-- **Writing every position, bucket by bucket**, is mapping the list. -/
theorem foldl_set_buckets [Ord K] [Std.TransOrd K] [Std.LawfulEqOrd K] [DecidableEq K] (key : α → K)
    (xs : List α) {wanted : Nat → Bool} {value : Nat → β} {init : β} {f : α → β}
    (each : ∀ i x, xs[i]? = some x → (if wanted i then value i else init) = f x) :
    ((buckets key xs).flatMap Prod.snd).foldl
        (fun vec i => if wanted i then vec.set i (value i) else vec) (List.replicate xs.length init) =
      xs.map f := by
  refine List.ext_getElem? fun j => ?_
  rw [getElem?_foldl_set, List.getElem?_map]
  cases found : xs[j]? with
  | none =>
    have out := List.getElem?_eq_none_iff.mp found
    simp [Nat.not_lt.mpr out]
  | some x =>
    have lt := (List.getElem?_eq_some_iff.mp found).1
    obtain ⟨idxs, mem, hj⟩ := exists_bucket key found
    have met : j ∈ (buckets key xs).flatMap Prod.snd := List.mem_flatMap.mpr ⟨_, mem, hj⟩
    rw [Option.map_some, ← each j x found]
    cases want : wanted j with
    | false => simp [lt]
    | true => simp [lt, met]

theorem foldl_set_unwanted {wanted : Nat → Bool} (value : Nat → β) {idxs : List Nat}
    (unwanted : ∀ i ∈ idxs, wanted i = false) (vec : List β) :
    idxs.foldl (fun vec i => if wanted i then vec.set i (value i) else vec) vec = vec := by
  induction idxs with
  | nil => rfl
  | cons i idxs ih =>
    rw [List.foldl_cons, unwanted i List.mem_cons_self]
    exact ih fun j hj => unwanted j (List.mem_cons_of_mem _ hj)

/-- **Changing some positions**, where once is as good as often. -/
theorem getElem?_foldl_modify {f : β → β} (idem : ∀ b, f (f b) = f b) (idxs : List Nat)
    (vec : List β) (j : Nat) : (idxs.foldl (fun vec i => vec.modify i f) vec)[j]? =
      if j ∈ idxs then vec[j]?.map f else vec[j]? := by
  induction idxs generalizing vec with
  | nil => simp
  | cons i idxs ih =>
    rw [List.foldl_cons, ih, List.getElem?_modify]
    by_cases here : i = j
    · subst here
      cases vec[i]? with
      | none => simp
      | some b => simp [idem]
    · cases vec[j]? with
      | none => simp
      | some b => simp [here, Ne.symm here]
