import SecretManager.Import.Report
import SecretManager.Lib.Loop
import SecretManager.Laws.Import.Decommission

/-!
# A report and its reader

The reader recomputes the tally and the epoch count from the rows and refuses a report that
disagrees. A tally is the number of rows in each class (`Tally.of_classes`), and the verdict of the
probes moves a row from one class to another (`class_downgrade`), in the rows and in the tally
alike. So **the probed report agrees with its rows**, whatever was pushed and whatever the probes
found.

The file of `--report` does not hold the epoch count, which the reader then takes for zero: **a file
with a row that counts is refused.** The reader also refuses a name that is longer than the caps
allow, and the verdict reaches the outcome of a refused row, where there is one. These rows are all
the exceptions (`written_report_readable`).

The premise is `ReportJson.Lawful`: nothing is said about the text that is written, nor about what
the reader makes of a text that nobody wrote.
-/

namespace SecretManager.Import

open List

/-! ## What is written is read -/

section

variable {name : String} {names keys : List String} {row row' : ReportRow}

theorem attributeName_eq_ok {s : String} :
    attributeName name = .ok s ↔ s = name ∧ (utf8 name).length ≤ maxAttributeKey := by
  unfold attributeName
  split
  next long => exact ⟨nofun, fun ⟨_, short⟩ => absurd long (Nat.not_lt.mpr short)⟩
  next short =>
    rw [Except.ok.injEq, eq_comm]
    exact (and_iff_left (Nat.not_lt.mp short)).symm

theorem AttributeKeys.deserialize_eq_ok : AttributeKeys.deserialize names = .ok keys ↔
    keys = AttributeKeys.fromNames names ∧ ∀ name ∈ names, (utf8 name).length ≤ maxAttributeKey := by
  have keeps : ∀ name ∈ names, ∀ s, attributeName name = .ok s → s = name :=
    fun _ _ _ read => (attributeName_eq_ok.mp read).1
  have fits : (∀ name ∈ names, attributeName name = .ok name) ↔
      ∀ name ∈ names, (utf8 name).length ≤ maxAttributeKey :=
    forall₂_congr fun _ _ => attributeName_eq_ok.trans (and_iff_right rfl)
  rw [AttributeKeys.deserialize, Loop.map_eq_ok]
  constructor
  · rintro ⟨_, read, rfl⟩
    obtain ⟨rfl, each⟩ := (Loop.mapM_eq_ok keeps).mp read
    exact ⟨rfl, fits.mp each⟩
  · rintro ⟨rfl, each⟩
    exact ⟨names, (Loop.mapM_eq_ok keeps).mpr ⟨rfl, fits.mpr each⟩, rfl⟩

/-- **A row is read as it stands**, when its names are within the cap; its keys are a set. -/
theorem ReportRow.deserialize_eq_ok
    (set : AttributeKeys.fromNames row.attributeKeys = row.attributeKeys) :
    row.deserialize = .ok row' ↔
      row' = row ∧ ∀ name ∈ row.attributeKeys, (utf8 name).length ≤ maxAttributeKey := by
  rw [ReportRow.deserialize, Loop.map_eq_ok]
  constructor
  · rintro ⟨keys, read, rfl⟩
    obtain ⟨rfl, each⟩ := AttributeKeys.deserialize_eq_ok.mp read
    exact ⟨by rw [set], each⟩
  · rintro ⟨rfl, each⟩
    exact ⟨_, AttributeKeys.deserialize_eq_ok.mpr ⟨rfl, each⟩, by rw [set]⟩

end

theorem iterate_recordOutcome (o : Outcome) (n : Nat) (t : Tally) :
    (Tally.recordOutcome · o)^[n] t =
    { t with
      fullyPortable := t.fullyPortable + if o = .fullyPortable then n else 0
      attributesPreserved := t.attributesPreserved + if o = .attributesPreserved then n else 0
      preservedOnly := t.preservedOnly + if o = .preservedOnly then n else 0 } := by
  induction n with
  | zero => cases o <;> rfl
  | succ n ih =>
    rw [Function.iterate_succ_apply', ih]
    cases o <;> rfl

theorem iterate_recordRefused (n : Nat) (t : Tally) :
    Tally.recordRefused^[n] t = { t with refused := t.refused + n } := by
  induction n with
  | zero => rfl
  | succ n ih =>
    rw [Function.iterate_succ_apply', ih]
    rfl

theorem Tally.deserialize_eq (t : Tally) : t.deserialize = t := by
  simp [Tally.deserialize, iterate_recordOutcome, iterate_recordRefused]

/-- **What the reader admits**: the report as it stands, if its names are within the cap and its
totals are those of its rows. -/
theorem ReportRepr.check_eq_ok (repr : ReportRepr) {r : Report}
    (sets : ∀ row ∈ repr.items, AttributeKeys.fromNames row.attributeKeys = row.attributeKeys) :
    repr.check = .ok r ↔ r = repr ∧
      (∀ row ∈ repr.items, ∀ name ∈ row.attributeKeys, (utf8 name).length ≤ maxAttributeKey) ∧
      Report.recomputedTally repr.items = repr.tally ∧
      Report.recomputedEpochStamped repr.items = repr.epochStampedItems := by
  have keeps : ∀ row ∈ repr.items, ∀ row', row.deserialize = .ok row' → row' = row :=
    fun row mem _ read => ((ReportRow.deserialize_eq_ok (sets row mem)).mp read).1
  have named : (∀ row ∈ repr.items, row.deserialize = .ok row) ↔
      ∀ row ∈ repr.items, ∀ name ∈ row.attributeKeys, (utf8 name).length ≤ maxAttributeKey :=
    forall₂_congr fun row mem => (ReportRow.deserialize_eq_ok (sets row mem)).trans (and_iff_right rfl)
  rw [ReportRepr.check, Loop.bind_eq_ok, Tally.deserialize_eq]
  constructor
  · rintro ⟨items, read, admitted⟩
    obtain ⟨rfl, each⟩ := (Loop.mapM_eq_ok keeps).mp (Loop.mapError_eq_ok.mp read)
    dsimp only at admitted
    split at admitted
    next => cases admitted
    next tally =>
      split at admitted
      next => cases admitted
      next epoch =>
        cases admitted
        exact ⟨rfl, named.mp each, not_not.mp tally, not_not.mp epoch⟩
  · rintro ⟨rfl, each, tally, epoch⟩
    refine ⟨r.items, Loop.mapError_eq_ok.mpr ((Loop.mapM_eq_ok keeps).mpr ⟨rfl, named.mpr each⟩), ?_⟩
    rw [if_neg (not_not.mpr tally), if_neg (not_not.mpr epoch)]

/-! ## Classes -/

/-- The class a row is counted in: an outcome, or refused. -/
def ReportRow.class (row : ReportRow) : Option Outcome :=
    if row.isRefused then none else row.outcome

def rowsIn (items : List ReportRow) (c : Option Outcome) : Nat := items.countP fun row =>
    row.class = c

theorem Tally.record_class (t : Tally) (row : ReportRow) : t.record row.toItemReport =
    match row.class with
    | some outcome => t.recordOutcome outcome
    | none => t.recordRefused := by
  unfold Tally.record ReportRow.class
  split
  · rfl
  · rfl

/-- **A tally is the number of rows in each class.** -/
theorem recomputedTally_eq (items : List ReportRow) : Report.recomputedTally items =
    ⟨rowsIn items (some .fullyPortable), rowsIn items (some .attributesPreserved),
      rowsIn items (some .preservedOnly), rowsIn items none⟩ := by
  induction items using reverseRecOn with
  | nil => rfl
  | append_singleton items row ih =>
    rw [Report.recomputedTally, foldl_append]
    change (Report.recomputedTally items).record row.toItemReport = _
    rw [ih, Tally.record_class]
    simp only [rowsIn, countP_append, countP_singleton]
    cases row.class with
    | none => simp [Tally.recordRefused]
    | some o => cases o <;> simp [Tally.recordOutcome]

/-! ## The verdict of the probes -/

section

variable (failed : List AttributeKeys) (row : ReportRow)

theorem downgradeOutcome_idem (o : Option Outcome) (d : Bool) :
    downgradeOutcome (downgradeOutcome o d) d = downgradeOutcome o d := by
  cases o with
  | none => cases d <;> rfl
  | some o => cases o <;> cases d <;> rfl

theorem ReportRow.downgrade_idem :
    (row.downgrade failed).downgrade failed = row.downgrade failed := by
  unfold ReportRow.downgrade
  rw [downgradeOutcome_idem]

theorem ReportRow.downgrade_cases : row.downgrade failed = row ∨
    row.outcome = some .fullyPortable ∧ row.attributeKeys ∈ failed ∧
      row.downgrade failed = { row with outcome := some .attributesPreserved } := by
  unfold ReportRow.downgrade downgradeOutcome
  split
  next portable failing => exact .inr ⟨portable, contains_iff_mem.mp failing, rfl⟩
  next => exact .inl rfl

theorem ReportRow.class_downgrade :
    (row.downgrade failed).class = downgradeOutcome row.class (failed.contains row.attributeKeys) := by
  unfold ReportRow.class
  change (if row.isRefused then none else downgradeOutcome row.outcome _) = _
  split
  · cases failed.contains row.attributeKeys <;> rfl
  · rfl

end

section

variable (items : List ReportRow) (probes : List ProbeResult)

theorem downgradeItems_idem :
    downgradeItems (downgradeItems items probes) probes = downgradeItems items probes := by
  unfold downgradeItems
  rw [map_map]
  exact map_congr_left fun row _ => row.downgrade_idem _

theorem tallyWithProbes_eq :
    tallyWithProbes items probes = Report.recomputedTally (downgradeItems items probes) := by
  unfold tallyWithProbes Report.recomputedTally downgradeItems
  rw [foldl_map]
  rfl

/-- **The tally that is written is the one that is recomputed**: the verdict is applied to the rows
first, and a second time changes nothing. -/
theorem probed_tally : tallyWithProbes (downgradeItems items probes) probes =
    Report.recomputedTally (downgradeItems items probes) := by
  rw [tallyWithProbes_eq, downgradeItems_idem]

theorem probed_epoch :
    Report.recomputedEpochStamped (downgradeItems items probes) = Report.recomputedEpochStamped items := by
  unfold Report.recomputedEpochStamped downgradeItems
  rw [filter_map, length_map]
  rfl

theorem rowsIn_downgradeItems (c : Option Outcome) : rowsIn (downgradeItems items probes) c =
    items.countP fun row => downgradeOutcome row.class ((downgradedKeys probes).contains row.attributeKeys) = c := by
  unfold rowsIn downgradeItems
  rw [countP_map]
  simp only [Function.comp_def, ReportRow.class_downgrade]

theorem rowsIn_downgradeItems_of_ne {c : Option Outcome} (portable : c ≠ some .fullyPortable)
    (preserved : c ≠ some .attributesPreserved) :
    rowsIn (downgradeItems items probes) c = rowsIn items c := by
  rw [rowsIn_downgradeItems]
  refine countP_congr fun row _ => ?_
  rw [decide_eq_true_eq, decide_eq_true_eq]
  unfold downgradeOutcome
  split
  next same _ =>
    rw [same]
    exact ⟨fun h => absurd h.symm preserved, fun h => absurd h.symm portable⟩
  next => exact Iff.rfl

theorem rowsIn_downgradeItems_le :
    rowsIn (downgradeItems items probes) (some .fullyPortable) ≤ rowsIn items (some .fullyPortable) := by
  rw [rowsIn_downgradeItems]
  refine countP_mono_left fun row _ => ?_
  unfold downgradeOutcome
  split
  next => exact nofun
  next => exact id

end

theorem seen_recomputedTally (items : List ReportRow) :
    (Report.recomputedTally items).seen = items.length := by
  induction items using reverseRecOn with
  | nil => rfl
  | append_singleton items row ih =>
    rw [Report.recomputedTally, foldl_append]
    change ((Report.recomputedTally items).record row.toItemReport).seen = _
    rw [Tally.seen_record, ih, length_append, length_singleton]

/-! ## Pushed rows -/

/-- The report after these rows were pushed. -/
def Report.pushed (source : Source) (collection : String) (emptyFolders : Nat)
    (headerItemCount : Option Nat) (rows : List ReportRow) : Report :=
  rows.foldl Report.push { Report.new source collection with emptyFolders, headerItemCount }

/-- What `sm import` makes of a report when the probes are in. -/
def Report.probed (r : Report) (probes : List ProbeResult) : Report :=
  { r with
    items := downgradeItems r.items probes
    tally := tallyWithProbes (downgradeItems r.items probes) probes }

theorem Report.pushed_eq (source : Source) (collection : String) (emptyFolders : Nat)
    (headerItemCount : Option Nat) (rows : List ReportRow) :
    Report.pushed source collection emptyFolders headerItemCount rows =
      { source, collection, emptyFolders, headerItemCount, items := rows
        tally := Report.recomputedTally rows, epochStampedItems := Report.recomputedEpochStamped rows } := by
  induction rows using reverseRecOn with
  | nil => rfl
  | append_singleton rows row ih =>
    rw [Report.pushed, foldl_append]
    change (Report.pushed source collection emptyFolders headerItemCount rows).push row = _
    rw [ih]
    simp only [Report.push, Report.recomputedTally, Report.recomputedEpochStamped,
      foldl_append, filter_append, length_append, filter_singleton]
    cases Report.countsEpoch row <;> rfl

theorem recomputedEpochStamped_eq_zero {rows : List ReportRow} :
    Report.recomputedEpochStamped rows = 0 ↔
    ∀ row ∈ rows, row.refusals = [] → row.epochStamped = false := by
  rw [Report.recomputedEpochStamped, length_eq_zero_iff, filter_eq_nil_iff]
  refine forall₂_congr fun row _ => ?_
  simp [Report.countsEpoch, ItemReport.isRefused]

theorem ReportRow.downgrade_eq_self {failed : List AttributeKeys} {row : ReportRow} :
    row.downgrade failed = row ↔ (row.outcome = some .fullyPortable → row.attributeKeys ∉ failed) := by
  constructor
  · intro same portable failing
    have moved : (row.downgrade failed).outcome = some .attributesPreserved := by
      simp only [ReportRow.downgrade, portable, contains_iff_mem.mpr failing, downgradeOutcome]
    rw [same, portable] at moved
    cases moved
  · intro kept
    rcases row.downgrade_cases failed with same | ⟨portable, failing, -⟩
    · exact same
    · exact absurd failing (kept portable)

/-! ## Reading -/

/-- The file that `sm import` writes of a report when the probes are in. -/
def Report.written (report : Report) (probes : List ProbeResult) (verification : Verification)
    (notMigrated : List NotMigrated) (notes : List String) (disposition : Disposition)
    (moved : Bool) : ReportFile :=
  .new report (report.probed probes).tally (report.probed probes).items verification notMigrated notes
    disposition moved

/-- What the reader and the verdict ask of a row: it is not a written row with zero timestamps, its
names are within the cap, and if it is refused with a portable outcome no failed probe has its
keys. -/
structure ReportRow.Plain (probes : List ProbeResult) (row : ReportRow) : Prop where
  timed : row.refusals = [] → row.epochStamped = false
  named : ∀ name ∈ row.attributeKeys, (utf8 name).length ≤ maxAttributeKey
  refused : row.refusals ≠ [] → row.outcome = some .fullyPortable →
    ∀ probe ∈ probes, probe.failed = true → probe.attributeKeys ≠ row.attributeKeys

theorem ReportRow.downgrade_refused {probes : List ProbeResult} {row : ReportRow} :
    (row.isRefused = true → row.downgrade (downgradedKeys probes) = row) ↔
      (row.refusals ≠ [] → row.outcome = some .fullyPortable →
        ∀ probe ∈ probes, probe.failed = true → probe.attributeKeys ≠ row.attributeKeys) := by
  have refused : row.isRefused = true ↔ row.refusals ≠ [] := by simp [ItemReport.isRefused]
  have failing : row.attributeKeys ∉ downgradedKeys probes ↔
      ∀ probe ∈ probes, probe.failed = true → probe.attributeKeys ≠ row.attributeKeys := by
    simp only [downgradedKeys, mem_map, mem_filter, not_exists, not_and, and_imp]
  rw [refused, ReportRow.downgrade_eq_self, failing]

section

variable {Text : Type} {json : ReportJson Text} {report : Report} (probes : List ProbeResult)
variable {source : Source} {collection : String} {emptyFolders : Nat} {headerItemCount : Option Nat}
variable {rows : List ReportRow}

section

variable (pushed : report = .pushed source collection emptyFolders headerItemCount rows)
include pushed

/-- The totals of a probed report are those of its rows. -/
theorem Report.probed_totals :
    (report.probed probes).tally = Report.recomputedTally (report.probed probes).items ∧
    (report.probed probes).epochStampedItems =
      Report.recomputedEpochStamped (report.probed probes).items := by
  rw [Report.pushed_eq] at pushed
  subst pushed
  exact ⟨probed_tally rows probes, (probed_epoch rows probes).symm⟩

/-- What the verdict does to the totals. -/
theorem Report.seen_probed : (report.probed probes).tally.seen = report.tally.seen ∧
      (report.probed probes).tally.refused = report.tally.refused ∧
      (report.probed probes).tally.preservedOnly = report.tally.preservedOnly ∧
      (report.probed probes).tally.fullyPortable ≤ report.tally.fullyPortable := by
  rw [(Report.probed_totals probes pushed).1]
  rw [Report.pushed_eq] at pushed
  subst pushed
  refine ⟨?_, ?_, ?_, ?_⟩
  · simp only [Report.probed, seen_recomputedTally, downgradeItems, length_map]
  · simp only [Report.probed, recomputedTally_eq]
    exact rowsIn_downgradeItems_of_ne rows probes nofun nofun
  · simp only [Report.probed, recomputedTally_eq]
    exact rowsIn_downgradeItems_of_ne rows probes nofun nofun
  · simp only [Report.probed, recomputedTally_eq]
    exact rowsIn_downgradeItems_le rows probes

theorem Report.sets_probed
    (sets : ∀ row ∈ rows, AttributeKeys.fromNames row.attributeKeys = row.attributeKeys) :
    ∀ row ∈ (report.probed probes).items, AttributeKeys.fromNames row.attributeKeys = row.attributeKeys := by
  rw [Report.pushed_eq] at pushed
  subst pushed
  intro row mem
  obtain ⟨before, pushed, rfl⟩ := mem_map.mp mem
  exact sets before pushed

theorem Report.named_probed : (∀ row ∈ (report.probed probes).items, ∀ name ∈ row.attributeKeys,
      (utf8 name).length ≤ maxAttributeKey) ↔
    ∀ row ∈ rows, ∀ name ∈ row.attributeKeys, (utf8 name).length ≤ maxAttributeKey := by
  rw [Report.pushed_eq] at pushed
  subst pushed
  exact forall_mem_map

end

section

variable (lawful : json.Lawful) (pushed : report = .pushed source collection emptyFolders headerItemCount rows) (sets : ∀ row ∈ rows, AttributeKeys.fromNames row.attributeKeys = row.attributeKeys)
include lawful pushed sets

/-- **When the report in memory is readable**: as soon as the names of its rows are. -/
theorem Report.deserialize_report :
    Report.deserialize json (json.report (report.probed probes)) = .ok (report.probed probes) ↔
      ∀ row ∈ rows, ∀ name ∈ row.attributeKeys, (utf8 name).length ≤ maxAttributeKey := by
  obtain ⟨tally, epoch⟩ := Report.probed_totals probes pushed
  rw [Report.deserialize, lawful.read_report]
  refine (ReportRepr.check_eq_ok _ (Report.sets_probed probes pushed sets)).trans ?_
  rw [Report.named_probed probes pushed]
  exact ⟨fun h => h.2.1, fun h => ⟨rfl, h, tally.symm, epoch.symm⟩⟩

/-- **When the file is readable**: when moreover no written row has zero timestamps. -/
theorem Report.deserialize_file (verification : Verification) (notMigrated : List NotMigrated)
    (notes : List String) (disposition : Disposition) (moved : Bool) :
    Report.deserialize json (json.file (report.written probes verification notMigrated notes disposition
      moved)) = .ok (report.probed probes) ↔
      (∀ row ∈ rows, ∀ name ∈ row.attributeKeys, (utf8 name).length ≤ maxAttributeKey) ∧
      ∀ row ∈ rows, row.refusals = [] → row.epochStamped = false := by
  have epoch : (report.probed probes).epochStampedItems = Report.recomputedEpochStamped rows := by
    rw [pushed, Report.pushed_eq]
    rfl
  obtain ⟨tally, counted⟩ := Report.probed_totals probes pushed
  rw [Report.deserialize, lawful.read_file, ← recomputedEpochStamped_eq_zero, ← epoch]
  refine (ReportRepr.check_eq_ok (report.written probes verification notMigrated notes disposition
    moved).repr (Report.sets_probed probes pushed sets)).trans ?_
  constructor
  · rintro ⟨same, named, -, -⟩
    exact ⟨(Report.named_probed probes pushed).mp named, congrArg Report.epochStampedItems same⟩
  · rintro ⟨named, zero⟩
    refine ⟨?_, (Report.named_probed probes pushed).mpr named, tally.symm, counted.symm.trans zero⟩
    -- the two differ in the epoch count alone
    change report.probed probes = { report.probed probes with epochStampedItems := 0 }
    rw [← zero]

end

end

/-- **A written report is readable by its own reader, exactly if its rows are plain.** The left side
is all that is asked of it. The tally of the probed report is the one its rows add up to, and so is
its epoch count; the report and the file that is written are accepted and read as that report. The
verdict leaves the refused rows and the number of rows alone, moves rows from the portable class to
the preserved one only, and does it once. The keys of a row are a set. -/
theorem written_report_readable {Text : Type} {json : ReportJson Text} (lawful : json.Lawful)
    (source : Source) (collection : String) (emptyFolders : Nat) (headerItemCount : Option Nat)
    (rows : List ReportRow) (probes : List ProbeResult) (verification : Verification)
    (notMigrated : List NotMigrated) (notes : List String) (disposition : Disposition)
    (moved : Bool)
    (sets : ∀ row ∈ rows, AttributeKeys.fromNames row.attributeKeys = row.attributeKeys)
    {report : Report}
    (pushed : report = .pushed source collection emptyFolders headerItemCount rows) :
    ((report.probed probes).tally = Report.recomputedTally (report.probed probes).items ∧
      (report.probed probes).epochStampedItems =
        Report.recomputedEpochStamped (report.probed probes).items ∧
      Report.deserialize json (json.report (report.probed probes)) = .ok (report.probed probes) ∧
      Report.deserialize json (json.file (report.written probes verification notMigrated notes disposition
        moved)) = .ok (report.probed probes) ∧
      (∀ row ∈ report.items, row.isRefused = true → row.downgrade (downgradedKeys probes) = row) ∧
      (∀ row ∈ report.items, row.downgrade (downgradedKeys probes) = row ∨
        row.outcome = some .fullyPortable ∧
        row.downgrade (downgradedKeys probes) = { row with outcome := some .attributesPreserved }) ∧
      ((report.probed probes).tally.seen = report.tally.seen ∧
        (report.probed probes).tally.refused = report.tally.refused ∧
        (report.probed probes).tally.preservedOnly = report.tally.preservedOnly ∧
        (report.probed probes).tally.fullyPortable ≤ report.tally.fullyPortable) ∧
      (report.probed probes).probed probes = report.probed probes) ↔
    ∀ row ∈ rows, row.Plain probes := by
  have inMemory := Report.deserialize_report probes lawful pushed sets
  have onDisk := Report.deserialize_file probes lawful pushed sets verification notMigrated notes
    disposition moved
  have totals := Report.probed_totals probes pushed
  have items : report.items = rows := by rw [pushed, Report.pushed_eq]
  have refused : (∀ row ∈ report.items, row.isRefused = true → row.downgrade (downgradedKeys probes) = row) ↔
      ∀ row ∈ rows, row.refusals ≠ [] → row.outcome = some .fullyPortable →
        ∀ probe ∈ probes, probe.failed = true → probe.attributeKeys ≠ row.attributeKeys := by
    rw [items]
    exact forall₂_congr fun _ _ => ReportRow.downgrade_refused
  rw [inMemory, onDisk, refused]
  constructor
  · rintro ⟨-, -, named, ⟨-, timed⟩, kept, -⟩ row mem
    exact ⟨timed row mem, named row mem, kept row mem⟩
  · intro plain
    have named := fun row mem => (plain row mem).named
    refine ⟨totals.1, totals.2, named, ⟨named, fun row mem => (plain row mem).timed⟩,
      fun row mem => (plain row mem).refused, fun row mem => ?_, Report.seen_probed probes pushed, ?_⟩
    · rcases row.downgrade_cases (downgradedKeys probes) with same | ⟨portable, -, moved⟩
      · exact .inl same
      · exact .inr ⟨portable, moved⟩
    · unfold Report.probed
      rw [downgradeItems_idem]

/-- A portable row, with these keys and both timestamps. -/
def portableRow (keys : AttributeKeys) : ReportRow :=
  { ReportRow.imported Reference.plainEntry with attributeKeys := keys, outcome := some .fullyPortable }

/-- A probe of these keys that found nothing. -/
def missedProbe (keys : AttributeKeys) : ProbeResult :=
    { attributeKeys := keys, expected := 1, found := some 0 }

namespace Reference

/-- A text that is the value it was written of. -/
def reportJson : ReportJson (Report ⊕ ReportFile) where
  report := .inl
  file := .inr
  read
    | .inl r => some r
    | .inr f => some f.repr

theorem reportJson_lawful : reportJson.Lawful := ⟨fun _ => rfl, fun _ => rfl⟩

/-- The report of a wallet with these rows. -/
def walletReport (rows : List ReportRow) : Report := .pushed .kwallet "kdewallet" 0 none rows

/-- A verification that could compare nothing. -/
def unverified : Verification :=
  { count := { headerItemCount := none, walked := 0, unlisted := 0 }
    fingerprintMismatches := [], fingerprintsCompared := none, hashTableMisses := [], unlisted := []
    hashTableChecked := none, probes := {}, failedProbes := [], sourceLengths := .new
    destinationLengths := none, lengthDifferences := [] }

/-- What the reader makes of the file that is written for these rows, when these probes are in. -/
def readBack (rows : List ReportRow) (probes : List ProbeResult) : Except ReportError Report :=
  Report.deserialize reportJson (reportJson.file
    ((walletReport rows).written probes unverified [] [] .kept false))

/-- A row whose probe missed, and a refused row. -/
def missedRows : List ReportRow :=
  [portableRow ["user"], .refused (.kwallet "kdewallet" "Passwords" "wifi") "wifi" .unreadableAttributes]

theorem missedRows_plain : ∀ row ∈ missedRows, row.Plain [missedProbe ["user"]] := by
  intro row mem
  rcases mem_cons.mp mem with rfl | mem
  · exact ⟨by decide, by decide, by decide⟩
  · obtain rfl := mem_singleton.mp mem
    exact ⟨by decide, by decide, by decide⟩

end Reference

open Import.Reference

/-- A written row with zero timestamps makes a file that is refused, and so does a name over the
cap; and a row that is refused and has an outcome is changed. -/
theorem written_report_refused :
    readBack [.imported { Reference.plainEntry with created := 0, modified := 0 }] [] =
      .error (.epochDisagrees 0 1 1) ∧
    readBack [portableRow [String.ofList (replicate 257 'k')]] [] =
      .error (.attributeName ⟨257, 256⟩) ∧
    downgradeItems [{ portableRow ["user"] with refusals := [.unreadableAttributes] }]
      [missedProbe ["user"]] ≠ [{ portableRow ["user"] with refusals := [.unreadableAttributes] }] := by
  decide +kernel

theorem written_report_readable_missed : readBack missedRows [missedProbe ["user"]] =
    .ok ((walletReport missedRows).probed [missedProbe ["user"]]) :=
  ((written_report_readable reportJson_lawful .kwallet "kdewallet" 0 none missedRows
    [missedProbe ["user"]] unverified [] [] .kept false (by decide) rfl).mpr
      missedRows_plain).2.2.2.1

end SecretManager.Import
