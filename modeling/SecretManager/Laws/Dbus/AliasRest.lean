import SecretManager.Laws.Dbus.Aliases
import SecretManager.Dbus.Reference

/-!
# The alias file and the table at rest

`update_aliases` writes the file outside the state guard and before its compare-and-swap, so a stale
attempt has already replaced the file when it finds out. As long as the call goes on to write again
and commit, no harm is done. Two things break the agreement of file and memory at rest: a call that
wrote last and ends without committing, because its retry is rejected or cannot be written; and a
commit of an attempt whose bytes a finished call has replaced. In every run without these two, file
and table agree whenever no call is in flight.
-/

namespace SecretManager

open Reference

variable {ι σ ε : Type} [DecidableEq ι]

/-- The discipline: no Reload and no other program takes part; a call commits in memory only while
the bytes in the file are its own or those of a call still in flight; and a call whose bytes are in
the file does not end by a rejected edit or a failed write. -/
def writesInOrder (prog : ι → AliasCall σ ε) (s : AliasSystem ι ε) : AliasAction ι σ → Bool
  | .edit c view =>
    match s.state.table with
    | .usable base =>
      match (prog c).edit view base with
      | .ok _ => true
      | .error _ => decide (s.log.writer ≠ some c)
    | .degraded .. => true
  | .save _ _ => true
  | .commit c =>
    match s.state.calls c with
    | .written _ _ _ (.ok ()) =>
      !(s.state.calls c).goesThrough s.state.table ||
        s.log.writer.all fun d => decide (d = c) || (s.state.calls d).inFlight
    | .written _ _ _ (.error _) =>
      !(s.state.calls c).goesThrough s.state.table || decide (s.log.writer ≠ some c)
    | _ => true
  | .reloadStat _ => false
  | .reloadRead _ => false
  | .merge => false
  | .external _ => false

/-- What the invariant says of one call: it is at its first attempt or later, and if its write was
made and no one has written since, the file holds the table it is about to commit. -/
def RestCall (toml : Toml) (file : Option Bytes) (writer : Option ι) (c : ι) : CallPhase ε → Prop
  | .ready attempt => 1 ≤ attempt
  | .edited attempt _ _ => 1 ≤ attempt
  | .written attempt _ _ (.error _) => 1 ≤ attempt
  | .written attempt _ next (.ok ()) => 1 ≤ attempt ∧ writer ≠ none ∧
      (writer = some c → readAliases toml none file = .ok next)
  | .done _ => True

/-- The invariant: file and table agree, or the call that wrote last is still in flight. -/
structure RestInv (toml : Toml) (s : AliasState ι ε) (writer : Option ι) (m : AliasMap) : Prop where
  table : s.table = .usable m
  call : ∀ c, RestCall toml s.file writer c (s.calls c)
  agree : readAliases toml none s.file = .ok m ∨ ∃ d, writer = some d ∧ (s.calls d).inFlight = true

variable {toml : Toml} {prog : ι → AliasCall σ ε} {s : AliasState ι ε} {writer : Option ι}
  {m : AliasMap}

theorem RestInv.move (h : RestInv toml s writer m) (c : ι) {phase : CallPhase ε}
    (call : RestCall toml s.file writer c phase) (ends : phase.inFlight = true ∨ writer ≠ some c) :
    RestInv toml (s.at c phase) writer m := by
  refine ⟨h.table, AliasState.forall_at call fun d _ => h.call d, ?_⟩
  rcases h.agree with hagree | ⟨d, hwriter, hflight⟩
  · exact .inl hagree
  · refine .inr ⟨d, hwriter, ?_⟩
    by_cases hd : d = c
    · subst hd
      rw [AliasState.at_self]
      exact ends.resolve_right (not_not.mpr hwriter)
    · rw [AliasState.at_other hd]
      exact hflight

theorem RestInv.save (ht : toml.Lawful) (h : RestInv toml s writer m) {c : ι} {attempt : Nat}
    {base next : AliasMap} {text : String} (phase : s.calls c = .edited attempt base next)
    (printed : toml.toString next = .ok text) :
    RestInv toml { s.at c (.written attempt base next (.ok ())) with file := some (utf8 text) } (some c) m := by
  have hattempt := h.call c
  rw [phase] at hattempt
  refine ⟨h.table, ?_, ?_⟩
  · refine AliasState.forall_at ⟨hattempt, nofun, fun _ => readAliases_utf8 ht printed⟩ ?_
    -- the others are no longer the last writer
    intro d hd
    have hother : some c ≠ some d := fun heq => hd (Option.some.inj heq).symm
    have hcall := h.call d
    match hphase : s.calls d with
    | .ready _ | .edited _ _ _ | .done _ | .written _ _ _ (.error _) =>
      rw [hphase] at hcall
      exact hcall
    | .written _ _ _ (.ok ()) =>
      rw [hphase] at hcall
      exact ⟨hcall.1, nofun, fun heq => absurd heq hother⟩
  · refine .inr ⟨c, rfl, ?_⟩
    simp only [AliasState.at_self]
    rfl

theorem RestInv.commit (h : RestInv toml s writer m) {c : ι} {attempt : Nat} {base next : AliasMap}
    (phase : s.calls c = .written attempt base next (.ok ()))
    (order : ∀ d, writer = some d → d = c ∨ (s.calls d).inFlight = true) :
    RestInv toml { s.at c (.done .committed) with table := .usable next } writer next := by
  have hcall := h.call c
  rw [phase] at hcall
  obtain ⟨-, hsome, hholds⟩ := hcall
  refine ⟨rfl, AliasState.forall_at trivial fun d _ => h.call d, ?_⟩
  obtain ⟨d, hd⟩ := Option.ne_none_iff_exists'.mp hsome
  by_cases hdc : d = c
  · exact .inl (hholds (hdc ▸ hd))
  · refine .inr ⟨d, hd, ?_⟩
    simp only [AliasState.at_other hdc]
    exact (order d hd).resolve_left hdc

theorem RestInv.step (ht : toml.Lawful) (refuse : ∀ c, (prog c).onWriteError = .refuse)
    {s s' : AliasSystem ι ε} {a : AliasAction ι σ} (h : RestInv toml s.state s.log.writer m)
    (ok : writesInOrder prog s a = true) (hstep : s.step toml prog a = some s') :
    ∃ m', RestInv toml s'.state s'.log.writer m' := by
  obtain ⟨hcases, hlog⟩ := AliasSystem.step_inv hstep
  rw [hlog]
  obtain ⟨after, log⟩ := s'
  dsimp only at hcases ⊢
  cases hcases with
  | unusable phase table | degraded phase table =>
    rw [h.table] at table
    cases table
  | @rejected c view attempt base e phase table edit =>
    have hother : s.log.writer ≠ some c := by
      simpa only [writesInOrder, table, edit, decide_eq_true_eq] using ok
    exact ⟨m, h.move c trivial (.inr hother)⟩
  | @edited c view attempt base next phase table edit =>
    have hattempt := h.call c
    rw [phase] at hattempt
    exact ⟨m, h.move c hattempt (.inl rfl)⟩
  | @saved c env attempt base next text phase printed =>
    simp only [AliasLog.record, AliasState.at_self]
    exact ⟨m, h.save ht phase printed⟩
  | @saveFailed c env attempt base next e phase =>
    have hattempt := h.call c
    rw [phase] at hattempt
    simp only [AliasLog.record, AliasState.at_self]
    exact ⟨m, h.move c hattempt (.inl rfl)⟩
  | @retry c attempt base next result current phase table stale more =>
    have hattempt : 1 ≤ attempt := by
      have hcall := h.call c
      rw [phase] at hcall
      cases result with
      | ok u => exact hcall.1
      | error e => exact hcall
    have hflight : (CallPhase.ready (attempt + 1) : CallPhase ε).inFlight = true := by
      simp only [CallPhase.inFlight, bne_iff_ne]
      omega
    simp only [AliasLog.record, AliasLog.writer, AliasState.at_self, phase, settle_writer]
    exact ⟨m, h.move c (Nat.le_succ_of_le hattempt) (.inl hflight)⟩
  | @committed c attempt base next current phase table fresh =>
    have order : ∀ d, s.log.writer = some d → d = c ∨ (s.state.calls d).inFlight = true := by
      intro d hd
      simpa only [writesInOrder, phase, table, CallPhase.goesThrough_of_fresh fresh, Bool.not_true,
        Bool.false_or, hd, Option.all_some, Bool.or_eq_true, decide_eq_true_eq] using ok
    simp only [AliasLog.record, AliasLog.writer, AliasState.at_self, phase, settle_writer]
    exact ⟨next, h.commit phase order⟩
  | @kept c attempt base next current e phase table fresh policy =>
    rw [refuse c] at policy
    cases policy
  | @refused c attempt base next current e phase table fresh policy =>
    have hother : s.log.writer ≠ some c := by
      simpa only [writesInOrder, phase, table, CallPhase.goesThrough_of_fresh fresh, Bool.not_true,
        Bool.false_or, decide_eq_true_eq] using ok
    simp only [AliasLog.record, AliasLog.writer, AliasState.at_self, phase, settle_writer]
    exact ⟨m, h.move c trivial (.inr hother)⟩
  | statted | statScanned | statFailed | readScanned | readFailed | merged | replaced file =>
    cases ok

/-- **File and table agree at rest**, in every run of the discipline: when no call is in flight,
`aliases.toml` reads as the table in memory. -/
theorem alias_file_agrees_at_rest (ht : toml.Lawful) (refuse : ∀ c, (prog c).onWriteError = .refuse)
    {m₀ : AliasMap} {file₀ : Option Bytes} (same : readAliases toml none file₀ = .ok m₀)
    {s : AliasSystem ι ε}
    (h : Reach (AliasSystem.step toml prog) (fun s a => writesInOrder prog s a = true)
      (.start (.usable m₀) file₀) s) (rest : ∀ c, (s.state.calls c).inFlight = false) :
    ∃ m, s.state.table = .usable m ∧ readAliases toml none s.state.file = .ok m := by
  have hinv : ∃ m, RestInv toml s.state s.log.writer m := by
    refine h.invariant (fun s => ∃ m, RestInv toml s.state s.log.writer m) ?_ ?_
    · exact ⟨m₀, rfl, fun _ => Nat.le_refl 1, .inl same⟩
    · rintro s a s' ⟨m, hm⟩ ok hstep
      exact hm.step ht refuse ok hstep
  obtain ⟨m, hm⟩ := hinv
  rcases hm.agree with hagree | ⟨d, -, hflight⟩
  · exact ⟨m, hm.table, hagree⟩
  · rw [rest d] at hflight
    cases hflight

/-- Two clients write over each other; the one that finds itself stale writes again and commits. -/
theorem alias_file_agrees_after_retry : ∃ s, Reach aliasStep
        (fun s a => writesInOrder twoClients s a = true) aliasStart s ∧
      (∀ c, (s.state.calls c).inFlight = false) ∧
      ∃ m, s.state.table = .usable m ∧ readAliases twoToml none s.state.file = .ok m := by
  refine Reach.exists_run [.edit 0 view, .edit 1 view,
    .save 0 aliasWrite, .save 1 aliasWrite, .commit 0, .commit 1,
    .edit 1 view, .save 1 aliasWrite, .commit 1]
    (fun s => ∀ c, (s.state.calls c).inFlight = false) (by decide) fun run rest => ?_
  exact ⟨rest, alias_file_agrees_at_rest twoToml_lawful (by decide) rfl run rest⟩

/-- **The disagreement.** Both clients write, the first commits, the second finds itself stale and
its second write fails: it reports the failure, and the file keeps the bytes of its first attempt,
which lack the alias that was committed. -/
theorem alias_file_disagrees_at_rest : ∃ s, Reach aliasStep (fun _ _ => True) aliasStart s ∧
      (∀ c, (s.state.calls c).inFlight = false) ∧
      s.state.table = .usable aliasA ∧
      readAliases twoToml none s.state.file = .ok aliasB ∧
      aliasA ≠ aliasB := by
  exact Reach.exists_run [.edit 0 view, .edit 1 view,
    .save 0 aliasWrite, .save 1 aliasWrite, .commit 0, .commit 1,
    .edit 1 view, .save 1 aliasWriteFails, .commit 1] _ (by decide)
    fun _ passed => passed

end SecretManager
