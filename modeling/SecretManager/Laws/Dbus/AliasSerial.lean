import SecretManager.Laws.Dbus.Aliases
import SecretManager.Dbus.Reference

/-!
# Alias updates are serializable in memory

The compare-and-swap of `update_aliases` compares table values, not versions, and its last attempt
commits whatever it finds. With at most eight calls neither matters: a call is made stale only by a
table change of another call, each other call changes the table at most once, so the eighth attempt
finds at most seven changes behind it and none since it began. A table that has changed and changed
back is no harm: the edit is redone against equal contents.
-/

namespace SecretManager

open List Reference

variable {ι σ ε : Type} [DecidableEq ι]

def NoReload (_ : AliasState ι ε) : AliasAction ι σ → Prop
  | .reloadStat _ => False
  | .reloadRead _ => False
  | .merge => False
  | _ => True

instance (s : AliasState ι ε) : (a : AliasAction ι σ) → Decidable (NoReload s a)
  | .reloadStat _ | .reloadRead _ | .merge => .isFalse id
  | .edit .. | .save .. | .commit _ | .external _ => .isTrue trivial

/-- The call has changed the table: it committed, or its write failed and its policy keeps the edit
in memory. -/
def AliasCall.tookEffect (call : AliasCall σ ε) : CallPhase ε → Bool
  | .done .committed => true
  | .done (.notWritten _) => decide (call.onWriteError = .keep)
  | _ => false

/-- The views of the rest of the state that the calls have seen in a run. -/
def recordViews (_ : AliasState ι ε) : AliasAction ι σ → AliasState ι ε → List (ι × σ) →
    List (ι × σ)
  | .edit c view, _, seen => (c, view) :: seen
  | _, _, seen => seen

/-- Apply edits one after the other, each with a view of the rest of the state. -/
def replay (prog : ι → AliasCall σ ε) (m : AliasMap) : List (ι × σ) → Except ε AliasMap
  | [] => .ok m
  | (c, view) :: rest =>
    match (prog c).edit view m with
    | .error e => .error e
    | .ok next => replay prog next rest

variable {c : ι}

omit [DecidableEq ι] in
theorem replay_append {prog : ι → AliasCall σ ε} {view : σ} {m' next : AliasMap}
    (hedit : (prog c).edit view m' = .ok next) : ∀ {order : List (ι × σ)} {m : AliasMap},
    replay prog m order = .ok m' → replay prog m (order ++ [(c, view)]) = .ok next := by
  intro order
  induction order with
  | nil =>
    intro m h
    cases h
    simp only [nil_append, replay, hedit]
  | cons entry order ih =>
    intro m h
    obtain ⟨d, w⟩ := entry
    simp only [cons_append, replay] at h ⊢
    cases hd : (prog d).edit w m with
    | error e => simp only [hd, reduceCtorEq] at h
    | ok n =>
      simp only [hd] at h ⊢
      exact ih h

/-- How an attempt relates to the changes made so far: it has one behind it for each attempt before,
one more if the table is not the one it started from, and its edit is the call's own, with a view
that the call has seen. -/
def Counted (call : AliasCall σ ε) (saw : σ → Prop) (table : AliasTable) (changes : Nat) :
    CallPhase ε → Prop
  | .ready attempt => attempt ≤ changes + 1
  | .edited attempt base next | .written attempt base next _ =>
    attempt ≤ changes + 1 ∧ (table ≠ .usable base → attempt ≤ changes) ∧
      ∃ view, saw view ∧ call.edit view base = .ok next
  | .done _ => True

/-- The invariant: the table is the result of the effective calls in the order they took effect. -/
structure Serial (prog : ι → AliasCall σ ε) (m₀ : AliasMap) (s : AliasState ι ε)
    (seen order : List (ι × σ)) : Prop where
  nodup : (order.map Prod.fst).Nodup
  effective : ∀ c, c ∈ order.map Prod.fst ↔ (prog c).tookEffect (s.calls c) = true
  result : replay prog m₀ order = .ok s.table.known
  views : order ⊆ seen
  counted : ∀ c, Counted (prog c) (fun view => (c, view) ∈ seen) s.table order.length (s.calls c)

variable {toml : Toml} {prog : ι → AliasCall σ ε} {m₀ : AliasMap} {s : AliasState ι ε}
  {seen order : List (ι × σ)}

theorem Serial.move (h : Serial prog m₀ s seen order) (phase : CallPhase ε)
    (before : (prog c).tookEffect (s.calls c) = false) (after : (prog c).tookEffect phase = false)
    (counted : Counted (prog c) (fun view => (c, view) ∈ seen) s.table order.length phase) :
    Serial prog m₀ (s.at c phase) seen order := by
  refine ⟨h.nodup, ?_, h.result, h.views, ?_⟩
  · intro d
    by_cases hd : d = c
    · subst hd
      rw [h.effective d, AliasState.at_self, before, after]
    · rw [h.effective d, AliasState.at_other hd]
  · intro d
    by_cases hd : d = c
    · subst hd
      rw [AliasState.at_self]
      exact counted
    · rw [AliasState.at_other hd]
      exact h.counted d

theorem Counted.succ {call : AliasCall σ ε} {saw : σ → Prop} {table table' : AliasTable}
    {changes : Nat} {phase : CallPhase ε} (h : Counted call saw table changes phase) :
    Counted call saw table' (changes + 1) phase := by
  cases phase with
  | ready attempt =>
    simp only [Counted] at h ⊢
    omega
  | edited attempt base next | written attempt base next result =>
    obtain ⟨hattempt, -, hview⟩ := h
    exact ⟨by omega, fun _ => hattempt, hview⟩
  | done outcome => trivial

omit [DecidableEq ι] in
/-- A call that looks at the state has seen one view more. -/
theorem Serial.see (h : Serial prog m₀ s seen order) (entry : ι × σ) :
    Serial prog m₀ s (entry :: seen) order := by
  refine ⟨h.nodup, h.effective, h.result, fun e mem => mem_cons_of_mem _ (h.views mem), fun c => ?_⟩
  have counted := h.counted c
  generalize s.calls c = phase at counted
  cases phase with
  | ready attempt => exact counted
  | edited attempt base next | written attempt base next result =>
    obtain ⟨few, stale, view, saw, edit⟩ := counted
    exact ⟨few, stale, view, mem_cons_of_mem _ saw, edit⟩
  | done outcome => trivial

theorem Serial.effect [Fintype ι] (few : Fintype.card ι ≤ aliasUpdateAttempts)
    (h : Serial prog m₀ s seen order) {attempt : Nat} {base next current : AliasMap}
    {result : Except IoError Unit} (phase : s.calls c = .written attempt base next result)
    (table : s.table = .usable current) (fresh : ¬(current ≠ base ∧ attempt < aliasUpdateAttempts))
    (outcome : AliasUpdate ε) (effective : (prog c).tookEffect (.done outcome) = true) :
    ∃ view, Serial prog m₀ { s.at c (.done outcome) with table := .usable next } seen (order ++ [(c, view)]) := by
  have hcounted := h.counted c
  rw [phase] at hcounted
  obtain ⟨-, hstale, view, saw, hedit⟩ := hcounted
  have habsent : c ∉ order.map Prod.fst := by
    rw [h.effective c, phase]
    exact Bool.false_ne_true
  have hsame : current = base := by
    by_contra hne
    -- eight changes by seven other calls
    have hlast : aliasUpdateAttempts ≤ attempt := by
      by_contra hlt
      exact fresh ⟨hne, by omega⟩
    have hmany : attempt ≤ order.length := by
      apply hstale
      rw [table]
      intro heq
      exact hne (AliasTable.usable.inj heq)
    have hnodup : (c :: order.map Prod.fst).Nodup := nodup_cons.mpr ⟨habsent, h.nodup⟩
    have hcard := hnodup.length_le_card
    rw [length_cons, length_map] at hcard
    omega
  subst hsame
  refine ⟨view, ?_, ?_, ?_, ?_, ?_⟩
  · rw [map_append, nodup_append]
    refine ⟨h.nodup, nodup_singleton c, ?_⟩
    intro d hd e he
    rw [map_singleton, mem_singleton] at he
    obtain rfl : e = c := he
    rintro rfl
    exact habsent hd
  · intro d
    rw [map_append, mem_append, map_singleton, mem_singleton, h.effective d]
    by_cases hd : d = c
    · subst hd
      simp only [AliasState.at_self, effective, or_true]
    · simp only [AliasState.at_other hd, hd, or_false]
  · have hresult := h.result
    rw [table] at hresult
    exact replay_append hedit hresult
  · exact append_subset.mpr ⟨h.views, by simpa using saw⟩
  · intro d
    rw [length_append]
    by_cases hd : d = c
    · subst hd
      simp only [AliasState.at_self]
      trivial
    · simp only [AliasState.at_other hd]
      exact (h.counted d).succ

/-- **One step of the serial order**: a call that takes effect is put at its end, and any other step
leaves it as it is. With no more callers than attempts, nobody runs out of them. -/
theorem Serial.step [Fintype ι] (few : Fintype.card ι ≤ aliasUpdateAttempts)
    (h : Serial prog m₀ s seen order) {a : AliasAction ι σ} {s' : AliasState ι ε}
    (ok : NoReload s a) (hstep : AliasStep toml prog s a s') :
    ∃ order', Serial prog m₀ s' (recordViews s a s' seen) order' := by
  cases hstep with
  | unusable phase table | rejected phase table edit =>
    exact ⟨order, (h.see _).move _ (by rw [phase]; rfl) rfl trivial⟩
  | degraded phase table => exact ⟨order, h.move _ (by rw [phase]; rfl) rfl trivial⟩
  | @edited c view attempt base next phase table edit =>
    have hcounted := h.counted c
    rw [phase] at hcounted
    exact ⟨order, (h.see _).move _ (by rw [phase]; rfl) rfl
      ⟨hcounted, fun hne => absurd table hne, view, mem_cons_self, edit⟩⟩
  | @saved c env attempt base next text phase printed =>
    have hcounted := h.counted c
    rw [phase] at hcounted
    have hmoved := h.move (.written attempt base next (.ok ())) (by rw [phase]; rfl) rfl hcounted
    exact ⟨order, hmoved.nodup, hmoved.effective, hmoved.result, hmoved.views, hmoved.counted⟩
  | @saveFailed c env attempt base next e phase =>
    have hcounted := h.counted c
    rw [phase] at hcounted
    exact ⟨order, h.move _ (by rw [phase]; rfl) rfl hcounted⟩
  | @retry c attempt base next result current phase table stale more =>
    have hcounted := h.counted c
    rw [phase] at hcounted
    have hmany : attempt ≤ order.length := by
      apply hcounted.2.1
      rw [table]
      intro heq
      exact stale (AliasTable.usable.inj heq)
    exact ⟨order, h.move _ (by rw [phase]; rfl) rfl (Nat.succ_le_succ hmany)⟩
  | committed phase table fresh =>
    obtain ⟨view, hserial⟩ := h.effect few phase table fresh .committed rfl
    exact ⟨_, hserial⟩
  | @kept c attempt base next current e phase table fresh policy =>
    obtain ⟨view, hserial⟩ := h.effect few phase table fresh (.notWritten e) (decide_eq_true policy)
    exact ⟨_, hserial⟩
  | @refused c attempt base next current e phase table fresh policy =>
    refine ⟨order, h.move _ (by rw [phase]; rfl) ?_ trivial⟩
    simp only [AliasCall.tookEffect, policy, reduceCtorEq, decide_false]
  | statted | statScanned | statFailed | readScanned | readFailed | merged => exact ok.elim
  | replaced file => exact ⟨order, h.nodup, h.effective, h.result, h.views, h.counted⟩

/-- **At most eight alias updates are serializable in memory**: whatever is written or not, the
table is the result of applying, one after the other and once each, the edits of exactly the calls
that committed or kept an unwritten edit, each with a view that the call has seen. -/
theorem alias_updates_serializable [Fintype ι] (few : Fintype.card ι ≤ aliasUpdateAttempts)
    {t₀ : AliasTable} {file₀ : Option Bytes}
    (h : Reach (logged (AliasState.step toml prog) recordViews) (fun p => NoReload p.1)
      (.start t₀ file₀, []) (s, seen)) : ∃ order : List (ι × σ), (order.map Prod.fst).Nodup ∧
      (∀ c, c ∈ order.map Prod.fst ↔ (prog c).tookEffect (s.calls c) = true) ∧ order ⊆ seen ∧
      replay prog t₀.known order = .ok s.table.known := by
  have hserial : ∃ order, Serial prog t₀.known s seen order := by
    refine h.logged_invariant (fun s seen => ∃ order, Serial prog t₀.known s seen order)
      ⟨[], nodup_nil, ?_, rfl, nil_subset _, ?_⟩ ?_
    · intro c
      simp [AliasState.start, AliasCall.tookEffect]
    · intro c
      exact Nat.le_refl 1
    · rintro s seen a s' ⟨order, hserial⟩ ok hstep
      exact hserial.step few ok (AliasState.step_inv hstep)
  obtain ⟨order, hserial⟩ := hserial
  exact ⟨order, hserial.nodup, hserial.effective, hserial.views, hserial.result⟩

/-- Two clients race, and both edits are in the table. -/
theorem alias_updates_serializable_two : ∃ p, Reach (logged (AliasState.step twoToml twoClients)
        recordViews) (fun p => NoReload p.1) (.start (.usable ∅) none, []) p ∧
      p.1.table = .usable aliasAB ∧
      ∃ order : List (Fin 2 × ServiceView), (order.map Prod.fst).Nodup ∧
        (∀ c, c ∈ order.map Prod.fst ↔ (twoClients c).tookEffect (p.1.calls c) = true) ∧
        order ⊆ p.2 ∧ replay twoClients ∅ order = .ok p.1.table.known := by
  refine Reach.exists_run [.edit 0 view, .edit 1 view,
    .save 0 aliasWrite, .save 1 aliasWrite, .commit 0, .commit 1,
    .edit 1 view, .save 1 aliasWrite, .commit 1]
    (fun p => p.1.table = .usable aliasAB) (by decide) fun run table => ?_
  exact ⟨table, alias_updates_serializable (by decide) run⟩

end SecretManager
