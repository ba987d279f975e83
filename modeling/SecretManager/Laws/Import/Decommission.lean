import SecretManager.Laws.Import.Run
import SecretManager.Laws.Import.Fingerprints

/-!
# When the advice to decommission is right

A refused entry and a skipped one are walked: they were in the file, so the count check adds them up
and the index check takes them off the unlisted set. Nothing else in the gate asks after them, so
**a run that left entries behind gives the advice all the same**.

What the advice rests on is said on the source, on what its provider handed over, and on what the
machine and the daemon answered (`ImportJob.Proved`): a run gives it exactly if all of that holds.
It is withheld, then, by a dry run, a count that does not add up, an entry that was not listed or is
not in the index, a copy that was not read back or differs, and by a probe that was not answered or
found something else; and if nothing withholds it, it is right exactly if the source lost nothing. A
wallet's index proves by itself that what was not refused or skipped was handed over. A keyring has
numbers and no index, so there its provider has to be trusted to list each of them.
-/

namespace SecretManager.Import

open List SecretManager.Reference

variable {cfg : Config} {e : Evidence} {job : ImportJob} {toml : Toml} {x : Externals}

variable {disk : Disk}

/-! ## What the count adds up -/

theorem Tally.seen_record (t : Tally) (r : ItemReport) : (t.record r).seen = t.seen + 1 := by
  unfold Tally.record
  split
  · simp only [Tally.seen, Tally.imported, Tally.recordRefused]
    omega
  split
  next outcome _ =>
    cases outcome <;> simp only [Tally.seen, Tally.imported, Tally.recordOutcome] <;> omega
  · simp only [Tally.seen, Tally.imported, Tally.recordRefused]
    omega

theorem ImportReport.foldl_push : ∀ (rows : List ItemReport) (r : ImportReport),
    (rows.foldl ImportReport.push r).items = r.items ++ rows ∧
      (rows.foldl ImportReport.push r).tally.seen = r.tally.seen + rows.length := by
  intro rows
  induction rows with
  | nil =>
    intro r
    exact ⟨(append_nil r.items).symm, rfl⟩
  | cons row rows ih =>
    intro r
    obtain ⟨items, seen⟩ := ih (r.push row)
    rw [foldl_cons, items, seen]
    refine ⟨append_assoc r.items [row] rows, ?_⟩
    rw [ImportReport.push, Tally.seen_record, length_cons]
    omega

theorem Extraction.report_items (e : Extraction) :
    e.report.items = e.refusals ++ e.items.map ItemReport.imported :=
  (ImportReport.foldl_push _ _).1.trans (nil_append _)

theorem Extraction.walked_eq (e : Extraction) :
    e.walked = e.refusals.length + e.items.length + e.skipped.length := by
  have seen := (ImportReport.foldl_push (e.refusals ++ e.items.map ItemReport.imported) {}).2
  rw [Extraction.walked, Extraction.report, seen, length_append, length_map]
  simp only [Tally.seen, Tally.imported, Nat.zero_add]

theorem Extraction.accounted_nil {e : Extraction} (refusals : e.refusals = [])
    (skipped : e.skipped = []) : accountedProvenances e.report e.skipped = [] := by
  have kept : (e.report.items.filter (·.isRefused)) = [] := by
    rw [e.report_items, refusals, filter_eq_nil_iff]
    intro row mem
    obtain ⟨item, -, rfl⟩ := mem_map.mp mem
    exact Bool.false_ne_true
  rw [accountedProvenances, kept, skipped, map_nil, map_nil, append_nil]

/-! ## What the probes add up -/

namespace ProbeSummary

theorem total_record (s : ProbeSummary) (r : ProbeResult) : (s.record r).total = s.total + 1 := by
  unfold record
  split
  · rfl
  split
  · simp only [total]
    omega
  · simp only [total]
    omega

/-- No probe has failed, and none was left out. -/
def clean (s : ProbeSummary) : Prop := s.failed = 0 ∧ s.notIssued = 0

theorem clean_record (s : ProbeSummary) (r : ProbeResult) :
    (s.record r).clean ↔ s.clean ∧ r.passed = true := by
  unfold record
  cases answer : r.found with
  | none => simp [clean, ProbeResult.passed, answer]
  | some n =>
    dsimp only
    split
    next passed => simp [clean, passed]
    next failed => simp [clean, failed]

theorem foldl_record : ∀ (results : List ProbeResult) (s : ProbeSummary),
    (results.foldl record s).total = s.total + results.length ∧
      ((results.foldl record s).clean ↔ s.clean ∧ ∀ r ∈ results, r.passed = true) := by
  intro results
  induction results with
  | nil => simp
  | cons r results ih =>
    intro s
    obtain ⟨total, clean⟩ := ih (s.record r)
    rw [foldl_cons, total, clean, total_record, clean_record, forall_mem_cons, length_cons]
    exact ⟨by omega, and_assoc⟩

theorem total_of (results : List ProbeResult) : (of results).total = results.length :=
  (foldl_record results {}).1.trans (Nat.zero_add _)

theorem clean_of (results : List ProbeResult) :
    (of results).clean ↔ ∀ r ∈ results, r.passed = true :=
  (foldl_record results {}).2.trans (and_iff_right ⟨rfl, rfl⟩)

end ProbeSummary

/-- The probes of a plan found what they expect: the header is indexed, and the daemon answered
each. -/
theorem runProbes_passed {plan : List ProbeQuery} {indexed : Bool} {found : Nat → Option Nat}
    (planned : plan ≠ []) : (∀ r ∈ runProbes plan indexed found, r.passed = true) ↔
      indexed = true ∧ ∀ i query, plan[i]? = some query → found i = some query.expected := by
  cases indexed with
  | false =>
    obtain ⟨query, mem⟩ := exists_mem_of_ne_nil plan planned
    refine ⟨fun all => absurd (all (.notIssued query) (mem_map_of_mem mem)) nofun, nofun⟩
  | true =>
    simp only [runProbes, if_true, mem_mapIdx, true_and]
    constructor
    · intro all i query here
      obtain ⟨bound, rfl⟩ := List.getElem?_eq_some_iff.mp here
      have passed := all _ ⟨i, bound, rfl⟩
      cases answer : found i with
      | none => simp [answer, ProbeResult.passed, ProbeResult.notIssued] at passed
      | some n => simpa [answer, ProbeResult.passed, ProbeResult.new] using passed
    · rintro all r ⟨i, bound, rfl⟩
      simp [all i _ (getElem?_eq_getElem bound), ProbeResult.passed, ProbeResult.new]

/-! ## What the other checks find -/

theorem Histogram.rows_getElem? (h : Histogram) {i : Nat} (bound : i < 8) :
    h.rows[i]?.elim 0 (·.2) = h.counts[i] := by
  have labels : (labelsFrom 0 bucketBounds).length = 8 := rfl
  rw [rows, getElem?_eq_getElem (by simp [labels, bound])]
  simp

theorem compareHistograms_nil {a b : Histogram} : compareHistograms a b = [] ↔ a = b := by
  have length (h : Histogram) : h.rows.length = 8 := by
    simp [Histogram.rows, Histogram.labelsFrom, bucketBounds]
  simp only [compareHistograms, length, filterMap_eq_nil_iff, mem_range]
  constructor
  · intro none
    obtain ⟨a⟩ := a
    obtain ⟨b⟩ := b
    refine congrArg Histogram.mk (Vector.ext fun i bound => ?_)
    have same := none i bound
    rw [Histogram.rows_getElem? _ bound, Histogram.rows_getElem? _ bound] at same
    by_contra differs
    rw [if_neg differs] at same
    cases same
  · rintro rfl i -
    exact if_pos rfl

theorem unlistedWalletEntries_nil {w : WalletInventory} {items : List SourceItem}
    {accounted : List Provenance} {sidecarKeys : List String} :
    unlistedWalletEntries w items accounted sidecarKeys = [] ↔
      ∀ pair ∈ w.pairs, ∃ p ∈ items.map (·.provenance) ++ accounted, p.pair = some pair := by
  rw [unlistedWalletEntries, map_eq_nil_iff, filter_eq_nil_iff]
  refine forall₂_congr fun pair _ => ?_
  rw [Bool.not_eq_true, Bool.not_eq_false', contains_iff_mem, mem_filterMap]

theorem checkWalletHashTable_nil {w : WalletInventory} {items : List SourceItem} :
    checkWalletHashTable w items = [] ↔
      ∀ item ∈ items, ∀ pair ∈ item.provenance.pair, pair ∈ w.pairs := by
  simp only [checkWalletHashTable, filterMap_eq_nil_iff, mem_filterMap]
  constructor
  · intro none item mem pair named
    by_contra missing
    have := none pair ⟨item, mem, named⟩
    rw [if_neg (mt contains_iff_mem.mp missing)] at this
    cases this
  · rintro all pair ⟨item, mem, named⟩
    exact if_pos (contains_iff_mem.mpr (all item mem pair named))

/-! ## What the advice rests on -/

namespace ImportJob

section

variable (x : Externals) (job : ImportJob) (e : Evidence)

/-- What was read back, as the verification takes it. -/
def destination : Option Destination :=
  e.readBack.bind fun (items, indexed) => Destination.of x job.id items indexed

def results : List ProbeResult :=
  match e.daemon with
  | none => (probePlan job.extraction.items).map .notIssued
  | some found => runProbes (probePlan job.extraction.items) ((job.destination x e).any (·.indexed)) found

/-- The verification that the evidence gives. -/
def verification : Verification :=
  (job.extraction.verify x job.file (job.destination x e)).probed (job.results x e)

end

/-- **What the advice rests on.** The run is a real one. The header counts what was handed over,
refused and skipped. Every pair of a wallet's index is that of such an entry, and every item with
both names is in the index. What was read back is indexed, has the fingerprints of what was handed
over and, in each bucket, as many lengths. The daemon has reloaded, and there are probes and each
found what it expects. -/
structure Proved (x : Externals) (job : ImportJob) (e : Evidence) : Prop where
  real : job.dryRun = false
  counted : job.file.headerItemCount = some job.extraction.walked
  fits : job.extraction.walked < 2 ^ 64
  listed : ∀ w, job.file.inventory = .wallet w → ∀ pair ∈ w.pairs, ∃ p ∈
    job.extraction.items.map (·.provenance) ++ accountedProvenances job.extraction.report job.extraction.skipped,
      p.pair = some pair
  indexed : ∀ w, job.file.inventory = .wallet w →
    ∀ item ∈ job.extraction.items, ∀ pair ∈ item.provenance.pair, pair ∈ w.pairs
  copied : ∃ items, e.readBack = some (items, true) ∧
    ((job.extraction.items.map SourceItem.content).map (Content.fingerprint x)).Perm
      ((items.map itemContent).map (Content.fingerprint x)) ∧
    Histogram.ofLengths (job.extraction.items.map (·.secret.length)) = .ofLengths (items.map (·.secret.length))
  probed : probePlan job.extraction.items ≠ [] ∧ ∃ found, e.daemon = some found ∧
    ∀ i query, (probePlan job.extraction.items)[i]? = some query → found i = some query.expected

end ImportJob

variable {v : Verification}

theorem Verification.unproved_nil : v.unproved = [] ↔ v.count.made = true ∧ v.unlisted = [] ∧
    v.fingerprintsCompared.isSome = true ∧ v.probes.total ≠ 0 ∧ v.probes.notIssued = 0 := by
  simp only [unproved, List.append_eq_nil_iff, ite_eq_left_iff, List.cons_ne_nil, imp_false, not_not,
    List.isEmpty_iff, and_assoc]
  refine and_congr_right' (and_congr_right' (and_congr_right' ?_))
  by_cases none : v.probes.total = 0
  · simp [none]
  · simp [none]

/-- The gate: every check was made, and passed. -/
theorem Verification.maySuggestDecommission_iff : v.maySuggestDecommission = true ↔
    (v.count.made = true ∧ v.count.passed = true) ∧ v.unlisted = [] ∧ v.hashTableMisses = [] ∧
      (v.fingerprintsCompared.isSome = true ∧ v.fingerprintMismatches = [] ∧ v.lengthDifferences = []) ∧
      v.probes.total ≠ 0 ∧ v.probes.clean := by
  simp only [maySuggestDecommission, passed, Bool.and_eq_true, List.isEmpty_iff, unproved_nil,
    beq_iff_eq, ProbeSummary.clean]
  tauto

namespace ImportJob

theorem unlisted_nil : unlistedEntries job.file job.extraction.items
      (accountedProvenances job.extraction.report job.extraction.skipped) job.extraction.unresolvedSidecarRows = [] ↔
    ∀ w, job.file.inventory = .wallet w → ∀ pair ∈ w.pairs, ∃ p ∈ job.extraction.items.map (·.provenance) ++
      accountedProvenances job.extraction.report job.extraction.skipped, p.pair = some pair := by
  unfold unlistedEntries
  cases job.file.inventory with
  | keyring k => simp
  | wallet w => simp [unlistedWalletEntries_nil]

theorem misses_nil : (hashTableCheck job.file.inventory job.extraction.items).1 = [] ↔
    ∀ w, job.file.inventory = .wallet w →
      ∀ item ∈ job.extraction.items, ∀ pair ∈ item.provenance.pair, pair ∈ w.pairs := by
  unfold hashTableCheck
  cases job.file.inventory with
  | keyring k => simp
  | wallet w => simp [checkWalletHashTable_nil]

/-- The probes that the evidence decides: there are some, and each found what it expects. -/
theorem results_clean :
    (ProbeSummary.of (job.results x e)).total ≠ 0 ∧ (ProbeSummary.of (job.results x e)).clean ↔
    (job.destination x e).any (·.indexed) = true ∧ probePlan job.extraction.items ≠ [] ∧
      ∃ found, e.daemon = some found ∧
        ∀ i query, (probePlan job.extraction.items)[i]? = some query → found i = some query.expected := by
  have length : (job.results x e).length = (probePlan job.extraction.items).length := by
    unfold results runProbes
    split
    · exact length_map _
    · split
      · exact length_mapIdx
      · exact length_map _
  rw [ProbeSummary.total_of, ProbeSummary.clean_of, length]
  by_cases planned : probePlan job.extraction.items = []
  · simp [planned]
  · unfold results
    cases e.daemon with
    | none =>
      obtain ⟨query, mem⟩ := exists_mem_of_ne_nil _ planned
      refine ⟨fun all => absurd (all.2 (.notIssued query) (mem_map_of_mem mem)) nofun, ?_⟩
      rintro ⟨-, -, found, none, -⟩
      cases none
    | some found => simp [runProbes_passed planned, planned]

theorem destination_eq {dest : Destination} (read : job.destination x e = some dest) :
    ∃ items, e.readBack = some (items, dest.indexed) ∧ Destination.of x job.id items dest.indexed = some dest ∧
      dest.lengths = .ofLengths (items.map (·.secret.length)) := by
  obtain ⟨⟨items, indexed⟩, back, made⟩ := Option.bind_eq_some_iff.mp read
  obtain ⟨entries, mapped, rfl⟩ := Option.map_eq_some_iff.mp made
  exact ⟨items, back, made, rfl⟩

theorem counted_iff {n : Option Nat} {walked : Nat} :
    ((⟨n, walked, 0⟩ : CountCheck).made = true ∧ (⟨n, walked, 0⟩ : CountCheck).passed = true) ↔
      n = some walked ∧ walked < 2 ^ 64 := by
  cases n with
  | none => exact ⟨fun h => absurd h.1 nofun, fun h => absurd h.1 nofun⟩
  | some n =>
    simp only [CountCheck.made, CountCheck.passed, Option.isSome_some, true_and, Nat.add_zero,
      Bool.and_eq_true, decide_eq_true_eq, beq_iff_eq, Option.some.injEq]
    rw [and_comm, eq_comm]

/-- The copy is faithful as far as fingerprints and lengths tell. -/
theorem copied_iff {dest : Destination} {items : List Item} (read : job.destination x e = some dest)
    (made : Destination.of x job.id items dest.indexed = some dest)
    (histogram : dest.lengths = .ofLengths (items.map (·.secret.length))) :
    ((job.verification x e).fingerprintsCompared.isSome = true ∧ (job.verification x e).fingerprintMismatches = [] ∧
      (job.verification x e).lengthDifferences = []) ↔
    ((job.extraction.items.map SourceItem.content).map (Content.fingerprint x)).Perm
        ((items.map itemContent).map (Content.fingerprint x)) ∧
      Histogram.ofLengths (job.extraction.items.map (·.secret.length)) =
        .ofLengths (items.map (·.secret.length)) := by
  simp only [verification, Verification.probed, Extraction.verify, verifyImport, read, Option.map_some,
    Option.isSome_some, true_and, compareFingerprints_nil, digests_source, digests_destination made,
    compareHistograms_nil, histogram]

/-- **A run gives the advice exactly if what it rests on holds**, where what was read back could be
taken for a destination. -/
theorem advises_iff (named : e.readBack.isSome = true → (job.destination x e).isSome = true) :
    job.advises (job.verification x e) = true ↔ job.Proved x e := by
  rw [advises, Bool.and_eq_true, Bool.not_eq_true', Verification.maySuggestDecommission_iff]
  cases read : job.destination x e with
  | none =>
    constructor
    · rintro ⟨-, -, -, -, ⟨compared, -⟩, -⟩
      have compared : ((job.destination x e).map fun dest => dest.fingerprints.length).isSome = true := compared
      rw [read] at compared
      cases compared
    · rintro ⟨-, -, -, -, -, ⟨items, back, -⟩, -⟩
      have missing := named (by rw [back]; rfl)
      rw [read] at missing
      cases missing
  | some dest =>
    obtain ⟨items, back, made, histogram⟩ := destination_eq read
    rw [copied_iff read made histogram]
    have unlisted : (job.verification x e).unlisted = [] ↔ _ := unlisted_nil
    have misses : (job.verification x e).hashTableMisses = [] ↔ _ := misses_nil
    have probes : (job.verification x e).probes.total ≠ 0 ∧ (job.verification x e).probes.clean ↔ _ := results_clean
    have count (none : (job.verification x e).unlisted = []) : (job.verification x e).count =
        ⟨job.file.headerItemCount, job.extraction.walked, 0⟩ :=
      congrArg (fun l => CountCheck.mk job.file.headerItemCount job.extraction.walked (length l)) none
    rw [probes, read]
    constructor
    · rintro ⟨real, counted, none, present, copied, indexed, probed⟩
      rw [count none, counted_iff] at counted
      exact ⟨real, counted.1, counted.2, unlisted.mp none, misses.mp present, ⟨items, indexed ▸ back, copied⟩, probed⟩
    · rintro ⟨real, counted, fits, listed, present, ⟨items', back', copied⟩, probed⟩
      rw [back] at back'
      obtain ⟨rfl, indexed⟩ := Prod.mk.inj (Option.some.inj back')
      have none := unlisted.mpr listed
      refine ⟨real, ?_, none, misses.mpr present, copied, indexed, probed⟩
      rw [count none, counted_iff]
      exact ⟨counted, fits⟩

/-! ## What a run carries along -/

/-- The extraction's items are what the collection was given, in order. -/
def Wrote (job : ImportJob) (written : List Item) : Prop :=
  written.map itemContent = job.extraction.items.map SourceItem.content

/-- The verification is the one of the evidence, and what was read back can be taken for a
destination and was written before. -/
structure Reported (x : Externals) (job : ImportJob) (e : Evidence) (v : Verification) : Prop where
  verified : v = job.verification x e
  named : e.readBack.isSome = true → (job.destination x e).isSome = true
  wrote : e.readBack.isSome = true → job.Wrote e.written

/-- What is known of the evidence at each point of a run. -/
def Knows (x : Externals) (job : ImportJob) (e : Evidence) : ImportPhase → Prop
  | .checking | .creating => e = {}
  | .publishing v _ _ | .importing v => v.items = .ok [] ∧ e = {}
  | .reopening => job.Wrote e.written ∧ e.readBack = none ∧ e.daemon = none
  | .reporting v _ | .statingAliases v | .readingAliases v | .savingAliases v _ => job.Reported x e v
  | .notifying v indexed | .waiting v indexed | .probing v indexed _ =>
    job.Reported x e v ∧ indexed = (job.destination x e).any (·.indexed)
  | .unlinking _ | .ended _ | .crashed => True

theorem reported_of_unread (unread : e.readBack = none) (unasked : e.daemon = none) :
    job.Reported x e (job.extraction.verify x job.file none) := by
  have nothing : ¬e.readBack.isSome = true := by
    rw [unread]
    nofun
  refine ⟨?_, fun some => absurd some nothing, fun some => absurd some nothing⟩
  simp only [verification, destination, results, unread, unasked]
  rfl

theorem knows_verified
    (reported : job.Reported x e (job.extraction.verify x job.file (job.destination x e))) :
    job.Knows x e (job.verified x (job.destination x e)) := by
  simp only [verified]
  split
  · exact reported
  split
  · exact reported
  · exact ⟨reported, rfl⟩

theorem knows_published {v : Vault} {call : PublishCall} (items : v.items = .ok [])
    (phase : PublishPhase) : job.Knows x {} (job.published x v call phase) := by
  unfold published
  split
  · exact ⟨items, rfl⟩
  · exact reported_of_unread rfl rfl
  · exact ⟨items, rfl⟩

theorem knows_reopened (answer : Except VaultError (List Item × Bool)) (wrote : job.Wrote e.written)
    (unasked : e.daemon = none) :
    job.Knows x { e with readBack := answer.toOption } (job.reopened x answer) := by
  unfold reopened
  split
  · exact reported_of_unread rfl unasked
  next items indexed =>
    split
    · trivial
    next dest read =>
      have found : job.destination x { e with readBack := some (items, indexed) } = some dest := read
      rw [← found]
      refine knows_verified ⟨?_, fun _ => congrArg Option.isSome found, fun _ => wrote⟩
      simp only [unasked]
      rfl

theorem knows_probed (reported : job.Reported x e v) : job.Knows x e (job.probed v) := by
  unfold probed
  split
  · exact reported
  split
  · exact reported
  · exact reported

/-- What the daemon answers is put into the verification as it is put into the evidence. -/
theorem Reported.probed {indexed : Bool} (h : job.Reported x e v)
    (read : indexed = (job.destination x e).any (·.indexed)) (reloaded : Bool)
    (found : Nat → Option Nat) :
    job.Reported x { e with daemon := if reloaded then some found else none }
      (v.probed (job.probeResults indexed reloaded found)) := by
  refine ⟨?_, h.named, h.wrote⟩
  rw [h.verified, read]
  cases reloaded with
  | true => rfl
  | false => rfl

theorem knows_aliasesLoaded (answer : Except IoError AliasMap) (reported : job.Reported x e v) :
    job.Knows x e (job.aliasesLoaded v answer) := by
  cases answer with
  | error e => exact reported
  | ok aliases => exact reported

theorem knows_afterReport (next : AfterReport) : job.Knows x e (afterReport next) := by
  cases next <;> trivial

theorem knows_unlinked (error : ImportError) (answer : Except IoError Unit) :
    job.Knows x e (unlinked error answer) := by
  unfold unlinked
  split
  · trivial
  split <;> trivial

theorem wrote_batch (uuid : Nat → String) :
    job.Wrote (job.batch.mapIdx fun i item => World.ofImport (uuid i) item) := by
  apply ext_getElem?
  intro i
  simp only [batch, getElem?_map, getElem?_mapIdx]
  cases job.extraction.items[i]? <;> rfl

end ImportJob

/-- **One step keeps what is known.** -/
theorem ImportStep.knows {disk' : Disk} {phase phase' : ImportPhase} {a : ImportAction}
    (step : ImportStep x toml cfg job disk phase a phase' disk') (known : job.Knows x e phase) :
    job.Knows x (ImportSystem.record x cfg job ⟨phase, disk⟩ (.run a) ⟨phase', disk'⟩ e) phase' := by
  cases step with
  | rehearses dry =>
    obtain rfl : e = {} := known
    exact ImportJob.knows_verified (e := {}) (ImportJob.reported_of_unread rfl rfl)
  | refuses => trivial
  | begins => exact known
  | unprepared =>
    cases known
    exact ImportJob.reported_of_unread rfl rfl
  | statFails =>
    cases known.2
    exact ImportJob.reported_of_unread rfl rfl
  | importFails result =>
    cases known.2
    simp only [ImportSystem.record, result]
    exact ImportJob.reported_of_unread rfl rfl
  | prepared ready => exact ⟨prepareCreate_items ready, known⟩
  | publishes =>
    obtain ⟨items, rfl⟩ := known
    exact ImportJob.knows_published items _
  | @imports v env uuid w result =>
    obtain ⟨empty, rfl⟩ := known
    have items := importItems_ok (w := ⟨v, _⟩) empty result
    simp only [ImportSystem.record, result, items]
    exact ⟨ImportJob.wrote_batch uuid, rfl, rfl⟩
  | reopens result =>
    obtain ⟨wrote, -, unasked⟩ := known
    simp only [ImportSystem.record, result]
    exact ImportJob.knows_reopened _ wrote unasked
  | sends | answered | statted => exact known
  | probes =>
    obtain ⟨reported, read⟩ := known
    exact ImportJob.knows_probed (reported.probed read _ _)
  | stats | reads => exact ImportJob.knows_aliasesLoaded _ known
  | reports | writesReport => exact ImportJob.knows_afterReport _
  | unlinks => exact ImportJob.knows_unlinked _ _
  | saves | saveFails => exact known

theorem ImportSystem.record_elsewhere (x : Externals) (cfg : Config) (job : ImportJob)
    (before after : ImportSystem) (disk : Disk) (e : Evidence) :
    ImportSystem.record x cfg job before (.elsewhere disk) after e = e := by
  unfold ImportSystem.record
  split
  next clash => cases clash
  next clash => cases clash
  next clash => cases clash
  · rfl

/-- **The run lemma**: in every phase a run has reached, the evidence recorded is the phase's own.
-/
theorem ImportSystem.knows_of_reach {ok : ImportSystem × Evidence → SystemAction → Prop}
    {s : ImportSystem}
    (run : Reach (logged (ImportSystem.step x toml cfg job) (ImportSystem.record x cfg job)) ok
      (⟨.checking, disk⟩, {}) (s, e)) : job.Knows x e s.phase := by
  have start : job.Knows x {} .checking := rfl
  refine run.logged_invariant (fun s e => job.Knows x e s.phase) start ?_
  intro s e a s' known _ moved
  cases a with
  | elsewhere disk =>
    rw [← Option.some.inj moved, ImportSystem.record_elsewhere]
    exact known
  | run a =>
    obtain ⟨next, taken, arrived⟩ := Option.map_eq_some_iff.mp moved
    rw [← arrived]
    exact (ImportJob.step_inv taken).knows known

/-! ## The advice -/

/-- Nothing was refused and nothing skipped; and of a keyring, every number that the header counts
was handed over. -/
def ImportJob.Lossless (job : ImportJob) : Prop :=
  job.extraction.refusals = [] ∧ job.extraction.skipped = [] ∧
    match job.file.inventory with
    | .wallet _ => True
    | .keyring k => ∀ entry ∈ k.items, some entry.id ∈ job.extraction.items.map (·.provenance.itemId)

/-- Every entry the source counts is in the collection, under its name in a wallet's index or its
number in a keyring's header. -/
def ImportJob.Migrated (job : ImportJob) (written : List Item) : Prop :=
  match job.file.inventory with
  | .wallet w => ∀ pair ∈ w.pairs, ∃ item ∈ job.extraction.items,
      item.provenance.pair = some pair ∧ item.content ∈ written.map itemContent
  | .keyring k => ∀ entry ∈ k.items, ∃ item ∈ job.extraction.items,
      item.provenance.itemId = some entry.id ∧ item.content ∈ written.map itemContent

/-- **A run whose advice is due has migrated every entry** exactly if the source lost nothing. -/
theorem ImportJob.Proved.migrated_iff (proved : job.Proved x e) (wrote : job.Wrote e.written) :
    (job.Migrated e.written ∧ job.extraction.refusals = [] ∧ job.extraction.skipped = []) ↔ job.Lossless := by
  have stored : ∀ item ∈ job.extraction.items, item.content ∈ e.written.map itemContent := by
    intro item mem
    rw [wrote]
    exact mem_map_of_mem mem
  unfold Migrated Lossless
  constructor
  · rintro ⟨migrated, refusals, skipped⟩
    refine ⟨refusals, skipped, ?_⟩
    cases kind : job.file.inventory with
    | wallet w => trivial
    | keyring k =>
      rw [kind] at migrated
      intro entry mem
      obtain ⟨item, inItems, same, -⟩ := migrated entry mem
      exact mem_map.mpr ⟨item, inItems, same⟩
  · rintro ⟨refusals, skipped, handed⟩
    refine ⟨?_, refusals, skipped⟩
    cases kind : job.file.inventory with
    | wallet w =>
      intro pair mem
      obtain ⟨p, walked, named⟩ := proved.listed w kind pair mem
      rw [Extraction.accounted_nil refusals skipped, append_nil] at walked
      obtain ⟨item, inItems, rfl⟩ := mem_map.mp walked
      exact ⟨item, inItems, named, stored item inItems⟩
    | keyring k =>
      rw [kind] at handed
      intro entry mem
      obtain ⟨item, inItems, same⟩ := mem_map.mp (handed entry mem)
      exact ⟨item, inItems, same, stored item inItems⟩

/-- **When the advice to decommission is sound.** In every run, whatever the kernel, the provider
and the daemon answer and whatever happens to the files meanwhile: a report that gives the advice
comes after every entry the source counts was written, with nothing refused, skipped or unlisted,
exactly if something withholds the advice or the source lost nothing. -/
theorem decommission_advice_is_sound {s : ImportSystem} {v : Verification} {next : AfterReport}
    (run : Reach (logged (ImportSystem.step x toml cfg job) (ImportSystem.record x cfg job))
      (fun _ _ => True) (⟨.checking, disk⟩, {}) (s, e)) (reporting : s.phase = .reporting v next) :
    (job.advises v = true → job.Migrated e.written ∧ job.extraction.refusals = [] ∧
        job.extraction.skipped = [] ∧ v.unlisted = []) ↔
      ¬job.Proved x e ∨ job.Lossless := by
  have known := ImportSystem.knows_of_reach run
  rw [reporting] at known
  obtain ⟨verified, named, wrote⟩ := known
  rw [verified, ImportJob.advises_iff named, ← imp_iff_not_or]
  refine imp_congr_right fun proved => ?_
  obtain ⟨items, back, -⟩ := proved.copied
  have unlisted : (job.verification x e).unlisted = [] := ImportJob.unlisted_nil.mpr proved.listed
  rw [← proved.migrated_iff (wrote (by rw [back]; rfl))]
  simp only [unlisted, and_true]

/-- A state of the job, with the evidence so far, in a run that begins with an empty directory. -/
abbrev ImportJob.Reaches (job : ImportJob) (s : ImportSystem × Evidence) : Prop :=
  Reach (logged (ImportSystem.step hashing daemonToml config job) (ImportSystem.record hashing config job))
    (fun _ _ => True) (⟨.checking, ⟨∅, none⟩⟩, {}) s

/-- The phase is a report that advises to decommission. -/
def ImportJob.advisesIn (job : ImportJob) : ImportPhase → Bool
  | .reporting v _ => job.advises v
  | _ => false

theorem ImportJob.exists_advice (job : ImportJob)
    (test : (Reach.exec (logged (ImportSystem.step hashing daemonToml config job)
      (ImportSystem.record hashing config job)) (fun _ _ => True) (⟨.checking, ⟨∅, none⟩⟩, {})
      ((offlineSteps ++ onlineSteps).map .run)).any (fun s => job.advisesIn s.1.phase) = true) :
    ∃ s v next, job.Reaches s ∧ s.1.phase = .reporting v next ∧ job.advises v = true := by
  obtain ⟨s, run, advises⟩ := Reach.exists_of_exec _ _ _ _ _ test
  cases phase : s.1.phase with
  | reporting v next =>
    rw [phase] at advises
    exact ⟨s, v, next, run, phase, advises⟩
  | _ => rw [phase] at advises; cases advises

/-- A wallet of two entries, both handed over. -/
theorem decommission_advice_is_sound_wallet :
    let job := importJob ["mail", "router"] (fullExtraction [mailEntry, routerEntry])
    ∃ s v next, job.Reaches s ∧
      s.1.phase = .reporting v next ∧ job.advises v = true ∧ job.Migrated s.2.written := by
  intro job
  obtain ⟨s, v, next, run, phase, test⟩ := job.exists_advice (by decide +kernel)
  exact ⟨s, v, next, run, phase, test, ((decommission_advice_is_sound run phase).mpr (.inr ⟨rfl, rfl, trivial⟩) test).1⟩

/-- **A refused entry does not withhold the advice**: the wallet counts two entries, one is over a
limit and is refused, the other is written, and the run ends by advising to decommission. -/
theorem refused_entry_is_decommissioned :
    let refusal := ItemReport.refused routerEntry.provenance
      (.capViolation .secret (maxItemSecret + 1) maxItemSecret)
    let job := importJob ["mail", "router"] { fullExtraction [mailEntry] with refusals := [refusal] }
    ∃ s v next, job.Reaches s ∧
      s.1.phase = .reporting v next ∧ job.advises v = true ∧ ¬ job.Migrated s.2.written := by
  intro refusal job
  obtain ⟨s, v, next, run, phase, test⟩ := job.exists_advice (by decide +kernel)
  have missing : ¬ job.Migrated s.2.written := by
    intro migrated
    obtain ⟨item, mem, named, -⟩ := migrated (namePair "Passwords" "router") (by decide +kernel)
    rw [mem_singleton.mp mem] at named
    revert named
    decide +kernel
  exact ⟨s, v, next, run, phase, test, missing⟩

end SecretManager.Import
