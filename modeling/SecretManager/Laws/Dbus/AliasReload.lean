import SecretManager.Laws.Dbus.Aliases
import SecretManager.Dbus.Reference

/-!
# Alias updates against a Reload

A Reload reads `aliases.toml` with no lock held and later overwrites the table with what it read.
Two guarantees are at stake. A committed edit should survive the merge (`promised_edit_survives`):
it does in every run where the bytes a Reload merges are those of the latest commit, and no call
commits bytes that a committed call has already replaced. An unreadable file should not be
overwritten (`unreadable_file_is_kept`): it is not, in every run where no call stands between its
look at the table and its write at the moment a merge degrades the table.
-/

namespace SecretManager

open Reference AliasState

variable {ι σ ε : Type} [DecidableEq ι]

/-! ## Promises -/

/-- A table says of every promised name what was promised. -/
def Keeps (m : AliasMap) (promised : String → Option (Option String)) : Prop :=
  ∀ name value, promised name = some value → m[name]? = value

variable {base next : AliasMap} {promised : String → Option (Option String)}

theorem promisesAfter_keeps {kept : Bool} {current : AliasMap} (h : Keeps current promised) :
    Keeps next (promisesAfter kept current base next promised) := by
  intro name value hname
  unfold promisesAfter at hname
  split at hname
  · split at hname
    · exact Option.some.inj hname
    · cases hname
  · split at hname
    · cases hname
    next hsame =>
      rw [← not_not.mp hsame]
      exact h name value hname

variable {m : AliasMap}

theorem promisesAfter_sub {current : AliasMap} (h : Keeps m promised) :
    Keeps m (promisesAfter false current base next promised) := by
  intro name value hname
  unfold promisesAfter at hname
  split at hname
  · cases hname
  · split at hname
    · cases hname
    · exact h name value hname

theorem promisesIn_keeps {toml : Toml} {file : Option Bytes}
    (h : readAliases toml none file = .ok m) : Keeps m (promisesIn toml file promised) := by
  intro name value hname
  simp only [promisesIn, h, Option.filter_eq_some_iff, decide_eq_true_eq] at hname
  exact hname.2

theorem promisesIn_sub {toml : Toml} {file : Option Bytes} (h : Keeps m promised) :
    Keeps m (promisesIn toml file promised) := by
  intro name value hname
  unfold promisesIn at hname
  split at hname
  · exact h name value (Option.filter_eq_some_iff.mp hname).1
  · exact h name value hname

/-! ## What became of some bytes -/

/-- The bytes were there from the start, come from another program, or were committed. -/
def Closed (bytes : Option (ι × WriteStatus)) : Prop :=
  ∀ d status, bytes = some (d, status) → status = .committed

variable {bytes : Option (ι × WriteStatus)} {c : ι}

theorem settle_pending {d : ι} (status : WriteStatus) (hstatus : status ≠ .pending)
    (h : settle c status bytes = some (d, .pending)) : d ≠ c ∧ bytes = some (d, .pending) := by
  unfold settle at h
  split at h
  next e =>
    split at h
    · cases h
      exact absurd rfl hstatus
    next hne =>
      cases h
      exact ⟨hne, rfl⟩
  next hother => exact absurd h (hother d)

theorem settle_abandoned_closed (h : Closed (settle c .abandoned bytes)) : Closed bytes := by
  intro d status hbytes
  subst hbytes
  cases status with
  | pending =>
    by_cases hd : d = c
    · cases h d .abandoned (by simp only [settle, hd, if_true])
    · cases h d .pending (by simp only [settle, hd, if_false])
  | committed => rfl
  | abandoned => cases h d .abandoned rfl

theorem settle_committed_closed (h : Closed (settle c .committed bytes)) :
    Closed bytes ∨ bytes = some (c, .pending) := by
  cases bytes with
  | none => exact .inl h
  | some p =>
    obtain ⟨d, status⟩ := p
    cases status with
    | pending =>
      by_cases hd : d = c
      · exact .inr (by rw [hd])
      · cases h d .pending (by simp only [settle, hd, if_false])
    | committed => exact .inl h
    | abandoned => exact .inl h

/-! ## The discipline and the invariant -/

/-- The discipline: a call commits only if the file's bytes are not those of a call that has
committed already, and a Reload merges a table it read only if the bytes it read were there from the
start, come from another program, or have been committed, and no other call has committed since. -/
def mergesInOrder (s : AliasSystem ι ε) : AliasAction ι σ → Bool
  | .commit c =>
    match s.state.calls c with
    | .written _ _ _ (.ok ()) =>
      !(s.state.calls c).goesThrough s.state.table ||
        s.log.held.all fun bytes => decide (bytes.2 ≠ .committed)
    | _ => true
  | .merge =>
    match s.state.reload with
    | .scanned (.ok _) =>
      (s.log.source.all fun bytes => decide (bytes.2 = .committed)) && !s.log.raced
    | _ => true
  | _ => true

/-- Every table that can come to stand for the promises keeps them: the one in memory, the one in
the file once its bytes are closed, and the one a Reload is about to merge. -/
structure PromiseInv (toml : Toml) (s : AliasState ι ε) (log : AliasLog ι) : Prop where
  kept : Keeps s.table.known log.promised
  pending : ∀ {d}, log.held = some (d, .pending) → ∃ attempt base next,
    s.calls d = .written attempt base next (.ok ()) ∧ readAliases toml none s.file = .ok next
  filed : Closed log.held → ∀ {m}, readAliases toml none s.file = .ok m → Keeps m log.promised
  reading : ∀ {m d}, s.reload = .scanned (.ok m) → log.source = some (d, .pending) →
    ∃ attempt base, s.calls d = .written attempt base m (.ok ())
  read : ∀ {m}, s.reload = .scanned (.ok m) → Closed log.source → log.raced = false → Keeps m log.promised

variable {toml : Toml} {prog : ι → AliasCall σ ε} {s : AliasState ι ε} {log : AliasLog ι}

theorem PromiseInv.move (h : PromiseInv toml s log)
    (unwritten : ∀ attempt base next, s.calls c ≠ .written attempt base next (.ok ()))
    (phase : CallPhase ε) : PromiseInv toml (s.at c phase) log := by
  refine ⟨h.kept, ?_, h.filed, ?_, h.read⟩
  · intro d hd
    obtain ⟨attempt, base, next, hphase, hread⟩ := h.pending hd
    have hne : d ≠ c := by
      rintro rfl
      exact unwritten _ _ _ hphase
    exact ⟨attempt, base, next, by rw [at_other hne, hphase], hread⟩
  · intro m d hscanned hd
    obtain ⟨attempt, base, hphase⟩ := h.reading hscanned hd
    have hne : d ≠ c := by
      rintro rfl
      exact unwritten _ _ _ hphase
    exact ⟨attempt, base, by rw [at_other hne, hphase]⟩

theorem PromiseInv.save (ht : toml.Lawful) (h : PromiseInv toml s log) {attempt : Nat}
    {text : String} (phase : s.calls c = .edited attempt base next)
    (printed : toml.toString next = .ok text) (overwritten : Bool) : PromiseInv toml
      { s.at c (.written attempt base next (.ok ())) with file := some (utf8 text) }
      { log with held := some (c, .pending), overwritten } := by
  have hmoved := h.move (by rw [phase]; exact nofun) (.written attempt base next (.ok ()))
  refine ⟨h.kept, ?_, ?_, hmoved.reading, h.read⟩
  · intro d hd
    cases hd
    exact ⟨attempt, base, next, at_self s c _, readAliases_utf8 ht printed⟩
  · intro hclosed
    cases hclosed c .pending rfl

/-- An attempt ends without a commit. The table is what it was, or an edit is kept in memory and
takes promises back. -/
theorem PromiseInv.abandon (h : PromiseInv toml s log) (phase : CallPhase ε) {table : AliasTable}
    (kept : Keeps table.known promised) (fewer : ∀ {m}, Keeps m log.promised → Keeps m promised) :
    PromiseInv toml { s.at c phase with table }
      { log with
        held := settle c .abandoned log.held
        source := settle c .abandoned log.source
        promised } := by
  refine ⟨kept, ?_, ?_, ?_, ?_⟩
  · intro d hd
    obtain ⟨hne, hheld⟩ := settle_pending .abandoned nofun hd
    obtain ⟨attempt, base, next, hphase, hread⟩ := h.pending hheld
    exact ⟨attempt, base, next, (at_other hne phase).trans hphase, hread⟩
  · intro hclosed m hread
    exact fewer (h.filed (settle_abandoned_closed hclosed) hread)
  · intro m d hscanned hd
    obtain ⟨hne, hsource⟩ := settle_pending .abandoned nofun hd
    obtain ⟨attempt, base, hphase⟩ := h.reading hscanned hsource
    exact ⟨attempt, base, (at_other hne phase).trans hphase⟩
  · intro m hscanned hclosed hraced
    exact fewer (h.read hscanned (settle_abandoned_closed hclosed) hraced)

theorem PromiseInv.commit (h : PromiseInv toml s log) {attempt : Nat}
    (phase : s.calls c = .written attempt base next (.ok ()))
    (order : ∀ d status, log.held = some (d, status) → status ≠ .committed) :
    PromiseInv toml { s.at c (.done .committed) with table := .usable next }
      { log with
        held := settle c .committed log.held
        source := settle c .committed log.source
        raced := log.raced || decide (log.source ≠ some (c, .pending))
        promised := promisesAfter log.held.isSome s.table.known base next log.promised } := by
  have hnext : Keeps next
      (promisesAfter log.held.isSome s.table.known base next log.promised) :=
    promisesAfter_keeps h.kept
  refine ⟨hnext, ?_, ?_, ?_, ?_⟩
  · intro d hd
    obtain ⟨hne, hheld⟩ := settle_pending .committed nofun hd
    obtain ⟨attempt, base, next, hphase, hread⟩ := h.pending hheld
    exact ⟨attempt, base, next, (at_other hne _).trans hphase, hread⟩
  · intro hclosed m hread
    rcases settle_committed_closed hclosed with hbefore | hmine
    · cases hheld : log.held with
      | none =>
        -- another program has replaced the bytes: the commit promises nothing
        exact promisesAfter_sub (h.filed hbefore hread)
      | some p =>
        obtain ⟨d, status⟩ := p
        exact absurd (hbefore d status hheld) (order d status hheld)
    · -- the file holds the very table that is committed
      obtain ⟨attempt', base', next', hphase, hread'⟩ := h.pending hmine
      rw [phase] at hphase
      cases hphase
      have hsame : next = m := Except.ok.inj (hread'.symm.trans hread)
      exact hsame ▸ hnext
  · intro m d hscanned hd
    obtain ⟨hne, hsource⟩ := settle_pending .committed nofun hd
    obtain ⟨attempt', base', hphase⟩ := h.reading hscanned hsource
    exact ⟨attempt', base', (at_other hne _).trans hphase⟩
  · intro m hscanned hclosed hraced
    obtain ⟨-, hsource⟩ := Bool.or_eq_false_iff.mp hraced
    have hmine : log.source = some (c, .pending) := not_not.mp (of_decide_eq_false hsource)
    obtain ⟨attempt', base', hphase⟩ := h.reading hscanned hmine
    rw [phase] at hphase
    cases hphase
    exact hnext

omit [DecidableEq ι] in
theorem PromiseInv.scan (h : PromiseInv toml s log) {aliases : Except AliasError AliasMap}
    (contents : ∀ m, aliases = .ok m → readAliases toml none s.file = .ok m) (unreadable : Bool) :
    PromiseInv toml { s with reload := .scanned aliases }
      { log with source := log.held, raced := false, unreadable } := by
  refine ⟨h.kept, h.pending, h.filed, ?_, ?_⟩
  · intro m d hscanned hd
    cases hscanned
    obtain ⟨attempt, base, next, hphase, hread⟩ := h.pending hd
    rw [contents m rfl] at hread
    cases hread
    exact ⟨attempt, base, hphase⟩
  · intro m hscanned hclosed _
    cases hscanned
    exact h.filed hclosed (contents m rfl)

omit [DecidableEq ι] in
theorem PromiseInv.noScan (h : PromiseInv toml s log) {reload : ReloadPhase}
    (none : ∀ m, reload ≠ .scanned (.ok m)) : PromiseInv toml { s with reload } log :=
  ⟨h.kept, h.pending, h.filed, fun hscanned => absurd hscanned (none _), fun hscanned => absurd hscanned (none _)⟩

omit [DecidableEq ι] in
theorem PromiseInv.merge (h : PromiseInv toml s log) {aliases : Except AliasError AliasMap}
    (good : ∀ m, aliases = .ok m → Keeps m log.promised) (unreadable : Bool) :
    PromiseInv toml { s with table := s.table.merge aliases, reload := .idle }
      { log with unreadable } := by
  refine ⟨?_, h.pending, h.filed, nofun, nofun⟩
  cases aliases with
  | ok m => exact good m rfl
  | error reason => exact h.kept

omit [DecidableEq ι] in
theorem PromiseInv.replace (h : PromiseInv toml s log) (file : Option Bytes) :
    PromiseInv toml { s with file }
      { log with held := none, promised := promisesIn toml file log.promised } :=
  ⟨promisesIn_sub h.kept, nofun, fun _ _ hread => promisesIn_keeps hread, h.reading,
    fun hscanned hclosed hraced => promisesIn_sub (h.read hscanned hclosed hraced)⟩

/-- A step within the discipline keeps the promises. -/
theorem PromiseInv.step (ht : toml.Lawful) {s s' : AliasSystem ι ε} {a : AliasAction ι σ}
    (h : PromiseInv toml s.state s.log) (ok : mergesInOrder s a = true)
    (hstep : s.step toml prog a = some s') : PromiseInv toml s'.state s'.log := by
  obtain ⟨hcases, hlog⟩ := AliasSystem.step_inv hstep
  rw [hlog]
  obtain ⟨after, log⟩ := s'
  dsimp only at hcases ⊢
  cases hcases with
  | unusable phase table | rejected phase table edit | edited phase table edit =>
    exact h.move (by rw [phase]; exact nofun) _
  | @saved c env attempt base next text phase printed =>
    simp only [AliasLog.record, at_self]
    exact h.save ht phase printed _
  | @saveFailed c env attempt base next e phase =>
    simp only [AliasLog.record, at_self]
    exact h.move (by rw [phase]; exact nofun) _
  | @degraded c attempt base next result reason known phase table
  | @retry c attempt base next result current phase table stale more =>
    simp only [AliasLog.record, at_self, phase]
    exact h.abandon _ h.kept fun hm => hm
  | @committed c attempt base next current phase table fresh =>
    have order : ∀ d status, s.log.held = some (d, status) → status ≠ .committed := by
      intro d status hd
      simpa only [mergesInOrder, phase, table, CallPhase.goesThrough_of_fresh fresh, Bool.not_true,
        Bool.false_or, hd, Option.all_some, decide_eq_true_eq] using ok
    simp only [AliasLog.record, at_self, phase]
    exact h.commit phase order
  | @kept c attempt base next current e phase table fresh policy =>
    simp only [AliasLog.record, at_self, phase, policy, if_true]
    refine h.abandon _ ?_ promisesAfter_sub
    exact promisesAfter_keeps h.kept
  | @refused c attempt base next current e phase table fresh policy =>
    simp only [AliasLog.record, at_self, phase, policy, reduceCtorEq, if_false]
    exact h.abandon _ h.kept fun hm => hm
  | statted | statFailed | readFailed => exact h.noScan nofun
  | @statScanned fault aliases idle contents | @readScanned fault aliases statted contents =>
    cases aliases with
    | ok m => exact h.scan contents false
    | error reason => exact h.noScan nofun
  | @merged aliases scanned =>
    have good : ∀ m, aliases = .ok m → Keeps m s.log.promised := by
      rintro m rfl
      simp only [mergesInOrder, scanned, Bool.and_eq_true, Bool.not_eq_true'] at ok
      refine h.read scanned ?_ ok.2
      intro d status hd
      simpa only [hd, Option.all_some, decide_eq_true_eq] using ok.1
    cases aliases with
    | ok m =>
      simp only [AliasLog.record, scanned]
      exact h.merge good s.log.unreadable
    | error reason =>
      simp only [AliasLog.record, scanned]
      exact h.merge good true
  | replaced file => exact h.replace file

/-- **A committed edit survives a Reload**, in every run of the discipline: in every state reached,
after a merge as at any other time, the table says of every name what the last committed edit of it
said, unless a later edit or another program has taken that back. -/
theorem promised_edit_survives (ht : toml.Lawful) {t₀ : AliasTable} {file₀ : Option Bytes}
    {s : AliasSystem ι ε}
    (h : Reach (AliasSystem.step toml prog) (fun s a => mergesInOrder s a = true) (.start t₀ file₀)
      s) {name : String} {value : Option String} (promised : s.log.promised name = some value) :
    s.state.table.known[name]? = value := by
  have hinv : PromiseInv toml s.state s.log := by
    refine h.invariant (fun s => PromiseInv toml s.state s.log) ?_ ?_
    · exact ⟨nofun, nofun, fun _ _ _ => nofun, nofun, fun _ _ _ => nofun⟩
    · intro s a s' hs ok hstep
      exact hs.step ht ok hstep
  exact hinv.kept name value promised

/-- A client commits an alias, and a Reload then reads and merges the file. -/
theorem promised_edit_survives_merge :
    ∃ s, Reach aliasStep (fun s a => mergesInOrder s a = true) aliasStart s ∧
      s.log.promised "a" = some (some "login") ∧ s.state.table.known["a"]? = some "login" := by
  refine Reach.exists_run [.edit 0 view, .save 0 aliasWrite, .commit 0,
    .reloadStat none, .reloadRead none, .merge]
    (fun s => s.log.promised "a" = some (some "login")) (by decide) fun run promised => ?_
  exact ⟨promised, promised_edit_survives twoToml_lawful run promised⟩

/-- **The lost edit.** A Reload finds no alias file, a client sets an alias and is told that it is
committed, and the merge then puts back the empty table that the Reload read. -/
theorem reload_discards_committed_edit : ∃ s, Reach aliasStep (fun _ _ => True) aliasStart s ∧
      s.log.promised "a" = some (some "login") ∧ s.state.table.known["a"]? = none ∧
      readAliases twoToml none s.state.file = .ok aliasA := by
  exact Reach.exists_run [.reloadStat none, .edit 0 view, .save 0 aliasWrite,
    .commit 0, .merge] _ (by decide) fun _ passed => passed

/-! ## A file that cannot be read -/

/-- The discipline: no call stands between its look at the table and its write of the file when a
merge degrades the table. -/
def degradesAlone (s : AliasSystem ι ε) (a : AliasAction ι σ) : Prop :=
  match a, s.state.reload with
  | .merge, .scanned (.error _) => ∀ c, (s.state.calls c).isEdited = false
  | _, _ => True

instance [Fintype ι] (s : AliasSystem ι ε) (a : AliasAction ι σ) :
    Decidable (degradesAlone s a) := by
  unfold degradesAlone
  split <;> infer_instance

/-- While the file is unreadable the table is degraded and no call is about to write. -/
structure UnreadableInv (s : AliasState ι ε) (log : AliasLog ι) : Prop where
  quiet : log.unreadable = true → (∃ reason known, s.table = .degraded reason known) ∧ ∀ c, (s.calls c).isEdited = false
  /-- A scan that has read the file has cleared the mark. -/
  cleared : ∀ {m}, s.reload = .scanned (.ok m) → log.unreadable = false
  kept : log.overwritten = false

omit [DecidableEq ι] in
theorem UnreadableInv.usable (h : UnreadableInv s log) (table : s.table = .usable m) :
    log.unreadable = false := by
  cases hmark : log.unreadable with
  | false => rfl
  | true =>
    obtain ⟨⟨reason, known, hdegraded⟩, -⟩ := h.quiet hmark
    rw [table] at hdegraded
    cases hdegraded

theorem UnreadableInv.move (h : UnreadableInv s log) (c : ι) {phase : CallPhase ε}
    (past : phase.isEdited = false) {log' : AliasLog ι} (mark : log'.unreadable = log.unreadable)
    (kept : log'.overwritten = log.overwritten) : UnreadableInv (s.at c phase) log' := by
  refine ⟨?_, fun hscanned => mark ▸ h.cleared hscanned, kept ▸ h.kept⟩
  intro hmark
  obtain ⟨hdegraded, hquiet⟩ := h.quiet (mark ▸ hmark)
  have hall : ∀ d, ((s.at c phase).calls d).isEdited = false :=
    forall_at (P := fun _ p => p.isEdited = false) past fun d _ => hquiet d
  exact ⟨hdegraded, hall⟩

omit [DecidableEq ι] in
theorem UnreadableInv.unmarked {s' : AliasState ι ε} {log' : AliasLog ι}
    (mark : log'.unreadable = false) (kept : log'.overwritten = false) : UnreadableInv s' log' :=
  ⟨fun hmark => absurd (mark.symm.trans hmark) Bool.false_ne_true, fun _ => mark, kept⟩

omit [DecidableEq ι] in
theorem UnreadableInv.noScan (h : UnreadableInv s log) {reload : ReloadPhase}
    (none : ∀ m, reload ≠ .scanned (.ok m)) : UnreadableInv { s with reload } log :=
  ⟨h.quiet, fun hscanned => absurd hscanned (none _), h.kept⟩

theorem UnreadableInv.step {s s' : AliasSystem ι ε} {a : AliasAction ι σ}
    (h : UnreadableInv s.state s.log) (ok : degradesAlone s a)
    (hstep : s.step toml prog a = some s') : UnreadableInv s'.state s'.log := by
  obtain ⟨hcases, hlog⟩ := AliasSystem.step_inv hstep
  rw [hlog]
  obtain ⟨after, log⟩ := s'
  dsimp only at hcases ⊢
  cases hcases with
  | unusable phase table | rejected phase table edit => exact h.move _ rfl rfl rfl
  | edited phase table edit => exact .unmarked (h.usable table) h.kept
  | @saved c env attempt base next text phase printed =>
    have hmark : s.log.unreadable = false := by
      cases hmark : s.log.unreadable with
      | false => rfl
      | true =>
        have hquiet := (h.quiet hmark).2 c
        rw [phase] at hquiet
        cases hquiet
    simp only [AliasLog.record, at_self]
    exact .unmarked hmark (by rw [h.kept, hmark]; rfl)
  | saveFailed phase =>
    simp only [AliasLog.record, at_self]
    exact h.move _ rfl rfl rfl
  | degraded phase table | retry phase table stale more | refused phase table fresh policy =>
    simp only [AliasLog.record, at_self, phase]
    exact h.move _ rfl rfl rfl
  | committed phase table fresh | kept phase table fresh policy =>
    simp only [AliasLog.record, at_self, phase]
    exact .unmarked (h.usable table) h.kept
  | statted | statFailed | readFailed => exact h.noScan nofun
  | @statScanned fault aliases idle contents | @readScanned fault aliases statted contents =>
    cases aliases with
    | ok m => exact .unmarked rfl h.kept
    | error reason => exact h.noScan nofun
  | @merged aliases scanned =>
    cases aliases with
    | ok m =>
      simp only [AliasLog.record, scanned]
      exact .unmarked (h.cleared scanned) h.kept
    | error reason =>
      simp only [degradesAlone, scanned] at ok
      simp only [AliasLog.record, scanned]
      exact ⟨fun _ => ⟨⟨reason, _, rfl⟩, ok⟩, nofun, h.kept⟩
  | replaced file => exact ⟨h.quiet, h.cleared, h.kept⟩

/-- **An unreadable file is never overwritten**, in every run of the discipline: from the merge that
degraded the table to the scan that reads the file again, no alias update replaces it. -/
theorem unreadable_file_is_kept {t₀ : AliasTable} {file₀ : Option Bytes} {s : AliasSystem ι ε}
    (h : Reach (AliasSystem.step toml prog) degradesAlone (.start t₀ file₀) s) :
    s.log.overwritten = false := by
  have hinv : UnreadableInv s.state s.log := by
    refine h.invariant (fun s => UnreadableInv s.state s.log) ?_ ?_
    · cases t₀ with
      | usable m => exact .unmarked rfl rfl
      | degraded reason known =>
        exact ⟨fun _ => ⟨⟨reason, known, rfl⟩, fun _ => rfl⟩, nofun, rfl⟩
    · intro s a s' hs ok hstep
      exact hs.step ok hstep
  exact hinv.kept

/-- Another program damages the file, a Reload degrades the table, and a client is refused. -/
theorem unreadable_file_is_kept_from_client : ∃ s, Reach aliasStep degradesAlone aliasStart s ∧
      s.log.unreadable = true ∧ s.state.file = some [255] ∧ s.log.overwritten = false := by
  refine Reach.exists_run [.external (some [255]), .reloadStat none, .reloadRead none, .merge,
    .edit 0 view] (fun s => s.log.unreadable = true ∧ s.state.file = some [255])
    (by decide) fun run passed => ?_
  exact ⟨passed.1, passed.2, unreadable_file_is_kept run⟩

/-- **The overwritten file.** A client has looked at the table and not yet written when another
program damages the file and a Reload degrades the table: the client's write replaces the file that
was to be left for repair, and only then is the client refused. -/
theorem unreadable_file_is_overwritten : ∃ s, Reach aliasStep (fun _ _ => True) aliasStart s ∧
      s.log.unreadable = true ∧ s.log.overwritten = true ∧
      readAliases twoToml none s.state.file = .ok aliasA := by
  exact Reach.exists_run [.edit 0 view, .external (some [255]), .reloadStat none,
    .reloadRead none, .merge, .save 0 aliasWrite, .commit 0] _ (by decide)
    fun _ passed => passed

end SecretManager
