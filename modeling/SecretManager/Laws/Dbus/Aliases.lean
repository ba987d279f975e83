import SecretManager.Dbus.AliasSystem

/-!
# What one alias step can do

`AliasStep` lists every way a step of the alias system can end, with what it read and what it left;
`step_inv` says that the transition function does nothing else. The results on interleavings are
proved by cases on it and never unfold the code again.
-/

namespace SecretManager

/-- A file write that reports success has put the whole table at the path; one that reports an error
has left the file alone. -/
theorem saveAliasesTo_cases (toml : Toml) (env : AliasWriteEnv) (aliases : AliasMap)
    (file : Option Bytes) :
    (∃ text, toml.toString aliases = .ok text ∧ saveAliasesTo toml env aliases file = (.ok (), some (utf8 text))) ∨
      ∃ e, saveAliasesTo toml env aliases file = (.error e, file) := by
  unfold saveAliasesTo
  cases env.ensureDir with
  | error e => exact .inr ⟨e, rfl⟩
  | ok u =>
    cases htext : toml.toString aliases with
    | error e => exact .inr ⟨_, rfl⟩
    | ok text =>
      rcases writeAtomic_cases env.write (utf8 text) file with h | ⟨e, h⟩
      · exact .inl ⟨text, rfl, h⟩
      · exact .inr ⟨e, h⟩

variable {m : AliasMap} {toml : Toml}

theorem readAliases_utf8 (ht : toml.Lawful) {text : String} (h : toml.toString m = .ok text) :
    readAliases toml none (some (utf8 text)) = .ok m := by
  simp only [readAliases, parseAliases, ofUtf8_utf8, ht.fromStr_toString h]

theorem statAliases_ok {fault : Option Fault} {file : Option Bytes}
    (h : statAliases fault file = some (.ok m)) : readAliases toml none file = .ok m := by
  unfold statAliases at h
  split at h
  · cases h
  · cases h
    rfl
  · split at h
    · cases h
    · cases h

theorem readAliases_ok {fault : Option Fault} {file : Option Bytes}
    (h : readAliases toml fault file = .ok m) : readAliases toml none file = .ok m := by
  cases fault with
  | none => exact h
  | some f => cases h

theorem scanAliases_ok {answer : Except IoError AliasMap} (h : scanAliases answer = some (.ok m)) :
    answer = .ok m := by
  cases answer with
  | ok aliases =>
    cases h
    rfl
  | error e =>
    simp only [scanAliases] at h
    split at h
    · cases h
    · cases h

variable {ι σ ε : Type} [DecidableEq ι]

/-! ## The two critical sections -/

/-- The table that an update is about to write, or has written and not yet installed. -/
def CallPhase.pending {ε : Type} : CallPhase ε → Option AliasMap
  | .edited _ _ next | .written _ _ next _ => some next
  | .ready _ | .done _ => none

theorem beginAttempt_degraded (call : AliasCall σ ε) (view : σ) (attempt : Nat)
    (reason : AliasError) (known : AliasMap) :
    beginAttempt call view (.degraded reason known) attempt = .done (.unusable reason) := rfl

variable {base : AliasMap}

theorem beginAttempt_rejected {call : AliasCall σ ε} {view : σ} (attempt : Nat) {e : ε}
    (h : call.edit view base = .error e) :
    beginAttempt call view (.usable base) attempt = .done (.rejected e) := by
  simp only [beginAttempt, AliasTable.writable, h]

theorem beginAttempt_edited {call : AliasCall σ ε} {view : σ} (attempt : Nat) {next : AliasMap}
    (h : call.edit view base = .ok next) :
    beginAttempt call view (.usable base) attempt = .edited attempt base next := by
  simp only [beginAttempt, AliasTable.writable, h]

theorem finishAttempt_degraded (call : AliasCall σ ε) (attempt : Nat) (base next : AliasMap)
    (result : Except IoError Unit) (reason : AliasError) (known : AliasMap) :
    finishAttempt call (.degraded reason known) attempt base next result =
      (.degraded reason known, .done (.unusable reason)) := rfl

variable {attempt : Nat} {current : AliasMap}

section

variable (call : AliasCall σ ε) (next : AliasMap)
include call next

theorem finishAttempt_retry (result : Except IoError Unit)
    (h : current ≠ base ∧ attempt < aliasUpdateAttempts) :
    finishAttempt call (.usable current) attempt base next result = (.usable current, .ready (attempt + 1)) := by
  simp only [finishAttempt, AliasTable.writable, if_pos h]

theorem finishAttempt_committed (h : ¬(current ≠ base ∧ attempt < aliasUpdateAttempts)) :
    finishAttempt call (.usable current) attempt base next (.ok ()) = (.usable next, .done .committed) := by
  simp only [finishAttempt, AliasTable.writable, if_neg h]

theorem finishAttempt_notWritten (e : IoError)
    (h : ¬(current ≠ base ∧ attempt < aliasUpdateAttempts)) :
    finishAttempt call (.usable current) attempt base next (.error e) =
      (if call.onWriteError = .keep then .usable next else .usable current, .done (.notWritten e)) := by
  simp only [finishAttempt, AliasTable.writable, if_neg h]

end

/-- The second critical section of this call would go through: its table is still there, or it is
the last attempt. -/
def CallPhase.goesThrough (table : AliasTable) : CallPhase ε → Bool
  | .written attempt base _ _ =>
    match table with
    | .usable current => !decide (current ≠ base ∧ attempt < aliasUpdateAttempts)
    | .degraded .. => false
  | _ => false

theorem CallPhase.goesThrough_of_fresh {next : AliasMap} {result : Except IoError Unit}
    (fresh : ¬(current ≠ base ∧ attempt < aliasUpdateAttempts)) :
    (CallPhase.written attempt base next result : CallPhase ε).goesThrough (.usable current) =
      true := by
  simp only [CallPhase.goesThrough, decide_eq_false fresh, Bool.not_false]

/-! ## The steps -/

/-- The state with one call moved to a new phase. -/
def AliasState.at (s : AliasState ι ε) (c : ι) (phase : CallPhase ε) : AliasState ι ε :=
  { s with calls := Function.update s.calls c phase }

@[simp] theorem AliasState.at_self (s : AliasState ι ε) (c : ι) (phase : CallPhase ε) :
    (s.at c phase).calls c = phase := Function.update_self ..

variable {s : AliasState ι ε}

theorem AliasState.at_other {c d : ι} (h : d ≠ c) (phase : CallPhase ε) :
    (s.at c phase).calls d = s.calls d := Function.update_of_ne h ..

theorem AliasState.forall_at {P : ι → CallPhase ε → Prop} {c : ι} {phase : CallPhase ε}
    (moved : P c phase) (others : ∀ d, d ≠ c → P d (s.calls d)) :
    ∀ d, P d ((s.at c phase).calls d) := by
  intro d
  by_cases hd : d = c
  · subst hd
    rw [AliasState.at_self]
    exact moved
  · rw [AliasState.at_other hd]
    exact others d hd

/-- Every way one step can end. -/
inductive AliasStep (toml : Toml) (prog : ι → AliasCall σ ε) (s : AliasState ι ε) :
    AliasAction ι σ → AliasState ι ε → Prop
  | unusable {c view attempt reason known} (phase : s.calls c = .ready attempt)
      (table : s.table = .degraded reason known) :
      AliasStep toml prog s (.edit c view) (s.at c (.done (.unusable reason)))
  | rejected {c view attempt base e} (phase : s.calls c = .ready attempt)
      (table : s.table = .usable base) (edit : (prog c).edit view base = .error e) :
      AliasStep toml prog s (.edit c view) (s.at c (.done (.rejected e)))
  | edited {c view attempt base next} (phase : s.calls c = .ready attempt)
      (table : s.table = .usable base) (edit : (prog c).edit view base = .ok next) :
      AliasStep toml prog s (.edit c view) (s.at c (.edited attempt base next))
  | saved {c env attempt base next text} (phase : s.calls c = .edited attempt base next)
      (printed : toml.toString next = .ok text) :
      AliasStep toml prog s (.save c env)
        { s.at c (.written attempt base next (.ok ())) with file := some (utf8 text) }
  | saveFailed {c env attempt base next e} (phase : s.calls c = .edited attempt base next) :
      AliasStep toml prog s (.save c env) (s.at c (.written attempt base next (.error e)))
  | degraded {c attempt base next result reason known}
      (phase : s.calls c = .written attempt base next result)
      (table : s.table = .degraded reason known) :
      AliasStep toml prog s (.commit c) (s.at c (.done (.unusable reason)))
  | retry {c attempt base next result current}
      (phase : s.calls c = .written attempt base next result) (table : s.table = .usable current)
      (stale : current ≠ base) (more : attempt < aliasUpdateAttempts) :
      AliasStep toml prog s (.commit c) (s.at c (.ready (attempt + 1)))
  | committed {c attempt base next current}
      (phase : s.calls c = .written attempt base next (.ok ()))
      (table : s.table = .usable current)
      (fresh : ¬(current ≠ base ∧ attempt < aliasUpdateAttempts)) :
      AliasStep toml prog s (.commit c) { s.at c (.done .committed) with table := .usable next }
  | kept {c attempt base next current e}
      (phase : s.calls c = .written attempt base next (.error e))
      (table : s.table = .usable current)
      (fresh : ¬(current ≠ base ∧ attempt < aliasUpdateAttempts))
      (policy : (prog c).onWriteError = .keep) :
      AliasStep toml prog s (.commit c)
        { s.at c (.done (.notWritten e)) with table := .usable next }
  | refused {c attempt base next current e}
      (phase : s.calls c = .written attempt base next (.error e))
      (table : s.table = .usable current)
      (fresh : ¬(current ≠ base ∧ attempt < aliasUpdateAttempts))
      (policy : (prog c).onWriteError = .refuse) :
      AliasStep toml prog s (.commit c) (s.at c (.done (.notWritten e)))
  | statted {fault} (idle : s.reload = .idle) :
      AliasStep toml prog s (.reloadStat fault) { s with reload := .statted }
  | statScanned {fault aliases} (idle : s.reload = .idle)
      (contents : ∀ m, aliases = .ok m → readAliases toml none s.file = .ok m) :
      AliasStep toml prog s (.reloadStat fault) { s with reload := .scanned aliases }
  | statFailed {fault} (idle : s.reload = .idle) :
      AliasStep toml prog s (.reloadStat fault) { s with reload := .idle }
  | readScanned {fault aliases} (statted : s.reload = .statted)
      (contents : ∀ m, aliases = .ok m → readAliases toml none s.file = .ok m) :
      AliasStep toml prog s (.reloadRead fault) { s with reload := .scanned aliases }
  | readFailed {fault} (statted : s.reload = .statted) :
      AliasStep toml prog s (.reloadRead fault) { s with reload := .idle }
  | merged {aliases} (scanned : s.reload = .scanned aliases) :
      AliasStep toml prog s .merge { s with table := s.table.merge aliases, reload := .idle }
  | replaced (file : Option Bytes) : AliasStep toml prog s (.external file) { s with file }

theorem ReloadPhase.afterLoad_cases (answer : Except IoError AliasMap) :
    (∃ aliases, ReloadPhase.afterLoad answer = .scanned aliases ∧ ∀ m, aliases = .ok m → answer = .ok m) ∨
      ReloadPhase.afterLoad answer = .idle := by
  unfold ReloadPhase.afterLoad
  cases h : scanAliases answer with
  | none => exact .inr rfl
  | some aliases =>
    refine .inl ⟨aliases, rfl, ?_⟩
    rintro m rfl
    exact scanAliases_ok h

/-- Each step of the alias table is one of the listed changes. -/
theorem AliasState.step_inv {prog : ι → AliasCall σ ε} {s' : AliasState ι ε} {a : AliasAction ι σ}
    (h : s.step toml prog a = some s') : AliasStep toml prog s a s' := by
  cases a with (simp only [AliasState.step] at h)
  | edit c view =>
    split at h
    next attempt phase =>
      cases h
      obtain ⟨table, file, calls, reload⟩ := s
      cases table with
      | degraded reason known => exact .unusable phase rfl
      | usable base =>
        cases hedit : (prog c).edit view base with
        | error e =>
          rw [beginAttempt_rejected attempt hedit]
          exact .rejected phase rfl hedit
        | ok next =>
          rw [beginAttempt_edited attempt hedit]
          exact .edited phase rfl hedit
    · cases h
  | save c env =>
    split at h
    next attempt base next phase =>
      cases h
      rcases saveAliasesTo_cases toml env next s.file with ⟨text, htext, hsave⟩ | ⟨e, hsave⟩
      · rw [hsave]
        exact .saved phase htext
      · rw [hsave]
        exact .saveFailed phase
    · cases h
  | commit c =>
    split at h
    next attempt base next result phase =>
      cases h
      obtain ⟨table, file, calls, reload⟩ := s
      cases table with
      | degraded reason known => exact .degraded phase rfl
      | usable current =>
        by_cases hretry : current ≠ base ∧ attempt < aliasUpdateAttempts
        · rw [finishAttempt_retry (prog c) next result hretry]
          exact .retry phase rfl hretry.1 hretry.2
        · cases result with
          | ok u =>
            rw [finishAttempt_committed (prog c) next hretry]
            exact .committed phase rfl hretry
          | error e =>
            rw [finishAttempt_notWritten (prog c) next e hretry]
            cases hpolicy : (prog c).onWriteError with
            | keep =>
              simp only [if_true]
              exact .kept phase rfl hretry hpolicy
            | refuse =>
              simp only [reduceCtorEq, if_false]
              exact .refused phase rfl hretry hpolicy
    · cases h
  | reloadStat fault =>
    split at h
    next idle =>
      split at h
      next answer hstat =>
        cases h
        rcases ReloadPhase.afterLoad_cases answer with ⟨aliases, hphase, hok⟩ | hphase
        · rw [hphase]
          refine .statScanned idle ?_
          intro m hm
          rw [hok m hm] at hstat
          exact statAliases_ok hstat
        · rw [hphase]
          exact .statFailed idle
      · cases h
        exact .statted idle
    · cases h
  | reloadRead fault =>
    split at h
    next statted =>
      cases h
      rcases ReloadPhase.afterLoad_cases (readAliases toml fault s.file) with
        ⟨aliases, hphase, hok⟩ | hphase
      · rw [hphase]
        exact .readScanned statted fun m hm => readAliases_ok (hok m hm)
      · rw [hphase]
        exact .readFailed statted
    · cases h
  | merge =>
    split at h
    next aliases scanned =>
      cases h
      exact .merged scanned
    · cases h
  | external file =>
    cases h
    exact .replaced file

theorem settle_writer (c : ι) (status : WriteStatus) (bytes : Option (ι × WriteStatus)) :
    (settle c status bytes).map Prod.fst = bytes.map Prod.fst := by
  unfold settle
  split
  · split
    · rfl
    · rfl
  · rfl

theorem AliasSystem.step_inv {prog : ι → AliasCall σ ε} {s s' : AliasSystem ι ε}
    {a : AliasAction ι σ} (h : s.step toml prog a = some s') :
    AliasStep toml prog s.state a s'.state ∧ s'.log = s.log.record toml prog s.state a s'.state := by
  obtain ⟨after, hstep, rfl⟩ := Option.map_eq_some_iff.mp h
  exact ⟨AliasState.step_inv hstep, rfl⟩

end SecretManager
