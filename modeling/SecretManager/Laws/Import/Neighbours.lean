import SecretManager.Import.Reference
import SecretManager.Laws.Import.Run
import SecretManager.Laws.Dbus.Daemon

/-!
# What an import run does to files that are not its own

The run looks whether its name is free, and creates the file exclusively only later. Its clean-up
removes whatever is at the path, so **a run that loses the race for its name removes the winner's
vault**. Away from its own path a run changes no vault file. On it, the directory is kept beside the
one without the run: as long as nobody else makes a call on the path between the run's check and its
end, the file there is the run's own, and once the clean-up has been made the two directories agree.
-/

namespace SecretManager.Import

open Function SecretManager.Reference

variable {dir : Dir} {disk : Disk} {statFails : Bool} {toml : Toml} {x : Externals}

variable {name : String} {phase : PublishPhase}

/-! ## Names -/

theorem collectionIdFromLabel_ne (label : String) : collectionIdFromLabel label ≠ "" := by
  unfold collectionIdFromLabel
  dsimp only
  split
  · decide
  next nonempty =>
    intro empty
    apply nonempty
    have chars := congrArg String.toList empty
    rw [String.toList_ofList] at chars
    rw [chars]
    rfl

theorem ImportJob.path_vaultFile (cfg : Config) (job : ImportJob) :
    (vaultStem (job.path cfg).name).isSome = true := by
  have suffixed : ".vault".toList.isSuffixOf (job.id ++ ".vault").toList = true := by
    rw [List.isSuffixOf_iff_suffix, String.toList_append]
    exact List.suffix_append _ _
  have named : job.id ++ ".vault" ≠ ".vault" := by
    intro same
    have chars := congrArg String.toList same
    rw [String.toList_append] at chars
    have empty : job.id.toList = "".toList := List.append_cancel_right chars
    exact collectionIdFromLabel_ne job.label (String.toList_inj.mp empty)
  simp only [vaultStem, ImportJob.path, Config.path, suffixed, Bool.true_and, bne_iff_ne, named,
    ne_eq, not_false_eq_true, if_true, Option.isSome_some]

/-- The report, if it is written into the directory, is not written over a vault or the aliases. -/
def ImportJob.ReportsElsewhere (job : ImportJob) : Prop :=
  ∀ name, job.report = some name → vaultStem name = none ∧ name ≠ SecretManager.aliasFile

/-! ## What a step does to the files -/

section

variable {cfg : Config} {job : ImportJob} {disk' : Disk} {phase phase' : ImportPhase}
variable {a : ImportAction}

theorem Disk.write_dir {d : Disk} {n : String} {bytes : Bytes} (other : n ≠ name) :
    (d.write name bytes).dir[n]? = d.dir[n]? := by
  unfold Disk.write
  split
  · rfl
  · rw [Dir.getElem?_put, if_neg other]

theorem Disk.put_dir {d : Disk} {path : VaultPath} {file : Option Bytes} {n : String}
    (other : n ≠ path.name) : (d.put path file).dir[n]? = d.dir[n]? := by
  rw [Disk.put, Dir.getElem?_put, if_neg other]

theorem Disk.put_dir_self (d : Disk) (path : VaultPath) (file : Option Bytes) :
    (d.put path file).dir[path.name]? = file := by
  rw [Disk.put, Dir.getElem?_put, if_pos rfl]

/-- **A run changes no vault file but the one at its path.** -/
theorem ImportStep.frame (elsewhere : job.ReportsElsewhere)
    (step : ImportStep x toml cfg job disk phase a phase' disk')
    (vaultFile : (vaultStem name).isSome = true) (other : name ≠ (job.path cfg).name) :
    disk'.dir[name]? = disk.dir[name]? := by
  cases step with
  | publishes | importFails | imports | reopens | unlinks => exact Disk.put_dir other
  | writesReport asked =>
    refine Disk.write_dir fun same => ?_
    rw [same, (elsewhere _ asked).1] at vaultFile
    cases vaultFile
  | _ => rfl

end

theorem Creator.next_frame {c : Creator} {phase' : PublishPhase} {dir' : Dir}
    (h : c.next statFails phase dir = some (phase', dir')) (other : name ≠ c.path.name) :
    dir'[name]? = dir[name]? := by
  unfold Creator.next at h
  split at h
  · cases h
  · cases h; rfl
  · cases h; rfl
  · cases h
  · cases h
    rw [Dir.getElem?_put, if_neg other]

theorem Creator.next_congr (c : Creator) (statFails : Bool) (phase : PublishPhase) {dir₁ : Dir}
    (same : dir[c.path.name]? = dir₁[c.path.name]?) {phase' : PublishPhase} {dir' : Dir}
    (h : c.next statFails phase dir = some (phase', dir')) :
    ∃ dir₁', c.next statFails phase dir₁ = some (phase', dir₁') ∧ dir'[c.path.name]? = dir₁'[c.path.name]? := by
  unfold Creator.next at h ⊢
  split at h
  · cases h
  · cases h; exact ⟨dir₁, rfl, same⟩
  · cases h; exact ⟨dir₁, rfl, same⟩
  · cases h
  · cases h
    rw [same]
    refine ⟨_, rfl, ?_⟩
    rw [Dir.getElem?_put, Dir.getElem?_put, if_pos rfl, if_pos rfl]

/-! ## The directory with the run and the one without -/

/-- The run has not looked yet, or is over. -/
def ImportPhase.outside : ImportPhase → Bool
  | .checking | .ended _ | .crashed => true
  | _ => false

section

variable {ι : Type} (cfg : Config) (job : ImportJob) (creators : ι → Creator)

/-- Both directories agree at the run's path, and so do those who create there and the aliases. -/
structure Synced (s : Neighbours ι) (w : Without ι) : Prop where
  file : s.disk.dir[(job.path cfg).name]? = w.disk.dir[(job.path cfg).name]?
  aliases : s.disk.aliasFile = w.disk.aliasFile
  others : ∀ i, (creators i).path.name = (job.path cfg).name → s.others i = w.others i

/-- The path is the run's: without it there would be no file, and one that is there is its own. -/
structure Private (s : Neighbours ι) (w : Without ι) : Prop where
  real : job.dryRun = false
  absent : w.disk.dir[(job.path cfg).name]? = none
  own : s.disk.dir[(job.path cfg).name]?.isSome = true → w.own = true
  aliases : s.disk.aliasFile = w.disk.aliasFile
  others : ∀ i, (creators i).path.name = (job.path cfg).name → s.others i = w.others i

/-- What is known at the run's path at each point. -/
def Stands (s : Neighbours ι) (w : Without ι) : ImportPhase → Prop
  | .checking => Synced cfg job creators s w
  | .creating | .publishing .. | .importing _ | .reopening | .unlinking _
  | .reporting _ (.unlink _) => Private cfg job creators s w
  | .reporting _ (.fail e) | .ended (.error e) =>
    e.beforePublication = true → Synced cfg job creators s w
  | _ => True

/-- The two runs, with the import and without it, agree on all that is not at the import's path. -/
structure Apart (s : Neighbours ι) (w : Without ι) : Prop where
  files : ∀ name, (vaultStem name).isSome = true → name ≠ (job.path cfg).name → s.disk.dir[name]? = w.disk.dir[name]?
  others : ∀ i, (creators i).path.name ≠ (job.path cfg).name → s.others i = w.others i
  stands : Stands cfg job creators s w s.run

variable {cfg job creators} {s : Neighbours ι} {w : Without ι}

theorem Stands.imp {s' : Neighbours ι} {w' : Without ι}
    (synced : Synced cfg job creators s w → Synced cfg job creators s' w')
    (kept : Private cfg job creators s w → Private cfg job creators s' w') {run : ImportPhase}
    (h : Stands cfg job creators s w run) : Stands cfg job creators s' w' run := by
  cases run with
  | checking => exact synced h
  | creating | publishing | importing | reopening | unlinking => exact kept h
  | reporting v next =>
    cases next with
    | unlink e => exact kept h
    | fail e => exact fun before => synced (h before)
    | finish moved => trivial
  | ended result =>
    cases result with
    | error e => exact fun before => synced (h before)
    | ok moved => trivial
  | _ => trivial

theorem Private.run (h : Private cfg job creators s w) (run : ImportPhase)
    (aliases : disk.aliasFile = s.disk.aliasFile) : Private cfg job creators { s with run, disk }
      (w.afterRun s.disk.dir[(job.path cfg).name]? disk.dir[(job.path cfg).name]?) where
  real := h.real
  absent := h.absent
  own := by
    intro present
    simp only [Without.afterRun, Bool.and_eq_true, Bool.or_eq_true]
    refine ⟨present, ?_⟩
    cases before : s.disk.dir[(job.path cfg).name]? with
    | none => exact .inl rfl
    | some bytes => exact .inr (h.own (by rw [before]; rfl))
  aliases := aliases.trans h.aliases
  others := h.others

theorem Synced.run (h : Synced cfg job creators s w) (run : ImportPhase) (after : Option Bytes) :
    Synced cfg job creators { s with run } (w.afterRun s.disk.dir[(job.path cfg).name]? after) where
  file := h.file
  aliases := h.aliases
  others := h.others

/-! ### Steps of the run -/

theorem stands_published (h : Private cfg job creators s w) (v : Vault) (call : PublishCall)
    (phase : PublishPhase) : Stands cfg job creators s w (job.published x v call phase) := by
  unfold ImportJob.published
  split <;> exact h

theorem stands_verified (h : Private cfg job creators s w) (dest : Option Destination) :
    Stands cfg job creators s w (job.verified x dest) := by
  simp only [ImportJob.verified, h.real]
  split
  · exact h
  · trivial

theorem stands_reopened (h : Private cfg job creators s w)
    (answer : Except VaultError (List Item × Bool)) :
    Stands cfg job creators s w (job.reopened x answer) := by
  unfold ImportJob.reopened
  split
  · exact h
  split
  · trivial
  · exact stands_verified h _

theorem stands_rehearsal (h : Synced cfg job creators s w) (dry : job.dryRun = true) :
    Stands cfg job creators s w (job.verified x none) := by
  simp only [ImportJob.verified]
  split
  · exact fun _ => h
  · trivial

theorem stands_probed (v : Verification) : Stands cfg job creators s w (job.probed v) := by
  unfold ImportJob.probed
  split
  · exact fun h => absurd h Bool.false_ne_true
  split <;> trivial

theorem stands_aliasesLoaded (v : Verification) (answer : Except IoError AliasMap) :
    Stands cfg job creators s w (job.aliasesLoaded v answer) := by
  cases answer <;> trivial

theorem stands_afterReport {v : Verification} {next : AfterReport}
    (h : Stands cfg job creators s w (.reporting v next)) :
    Stands cfg job creators s w (ImportJob.afterReport next) := by
  cases next with
  | unlink e => exact h
  | fail e => exact h
  | finish moved => trivial

theorem stands_unlinked (h : Synced cfg job creators s w) (e : ImportError)
    (answer : Except IoError Unit) : Stands cfg job creators s w (ImportJob.unlinked e answer) := by
  unfold ImportJob.unlinked
  split
  · exact fun _ => h
  split <;> exact fun _ => h

theorem removeFile_none_file (file : Option Bytes) : (removeFile none file).2 = none := by
  cases file <;> rfl

/-- The kernel answers the run's look at its path, and does not refuse the removal. -/
def ImportAction.served : ImportAction → Bool
  | .look fails => !fails
  | .unlink fault => fault.isNone
  | _ => true

theorem Stands.reported (elsewhere : job.ReportsElsewhere) {v : Verification} {next : AfterReport}
    {run : ImportPhase} {bytes : Bytes} (asked : job.report = some name)
    (h : Stands cfg job creators s w (.reporting v next)) :
    Stands cfg job creators { s with run, disk := s.disk.write name bytes } (w.afterRun s.disk.dir[(job.path cfg).name]?
        (s.disk.write name bytes).dir[(job.path cfg).name]?) (.reporting v next) := by
  obtain ⟨notVault, notAliases⟩ := elsewhere name asked
  have file : (s.disk.write name bytes).dir[(job.path cfg).name]? = s.disk.dir[(job.path cfg).name]? := by
    refine Disk.write_dir fun same => ?_
    have vaultFile := job.path_vaultFile cfg
    rw [same, notVault] at vaultFile
    cases vaultFile
  have aliases : (s.disk.write name bytes).aliasFile = s.disk.aliasFile := by
    rw [Disk.write, if_neg notAliases]
  refine h.imp (fun synced => ?_) fun kept => kept.run run aliases
  exact ⟨file.trans synced.file, aliases.trans synced.aliases, synced.others⟩

theorem Apart.run (elsewhere : job.ReportsElsewhere) (h : Apart cfg job creators s w)
    {a : ImportAction} {phase : ImportPhase} (served : a.served = true)
    (step : ImportStep x toml cfg job s.disk s.run a phase disk) :
    Apart cfg job creators { s with run := phase, disk }
      (w.afterRun s.disk.dir[(job.path cfg).name]? disk.dir[(job.path cfg).name]?) := by
  refine ⟨fun name vaultFile other => ?_, h.others, ?_⟩
  · exact (step.frame elsewhere vaultFile other).trans (h.files name vaultFile other)
  obtain ⟨-, -, stands⟩ := h
  obtain ⟨before, run, others⟩ := s
  cases step with
  | rehearses dry => exact stands_rehearsal (Synced.run stands _ _) dry
  | refuses => exact fun h => absurd h Bool.false_ne_true
  | begins real absent =>
    rcases absent with fails | absent
    · rw [fails] at served
      cases served
    have synced : Synced cfg job creators _ w := stands
    refine ⟨real, synced.file.symm.trans absent, ?_, synced.aliases, synced.others⟩
    intro present
    rw [absent] at present
    cases present
  | unprepared e | prepared ready | statFails e asks | importFails result | imports result =>
    exact Private.run stands _ rfl
  | publishes next =>
    apply stands_published
    exact Private.run stands _ rfl
  | reopens result =>
    apply stands_reopened
    exact Private.run stands _ rfl
  | reports =>
    apply stands_afterReport
    exact Stands.imp (fun synced => synced.run _ _) (fun kept => kept.run _ rfl) stands
  | writesReport asked => exact stands_afterReport (Stands.reported elsewhere asked stands)
  | @unlinks e fault answer file result =>
    have kept : Private cfg job creators _ w := stands
    rw [ImportAction.served, Option.isNone_iff_eq_none] at served
    have gone : file = none := by
      have files := congrArg Prod.snd result
      rw [served, removeFile_none_file] at files
      exact files.symm
    apply stands_unlinked
    exact ⟨(Disk.put_dir_self _ _ _).trans (gone.trans kept.absent.symm), kept.aliases, kept.others⟩
  | sends | answered | statted | saves | saveFails => trivial
  | probes => exact stands_probed _
  | stats | reads => exact stands_aliasesLoaded _ _

theorem Apart.changed (elsewhere : job.ReportsElsewhere) (h : Apart cfg job creators s w)
    {a : ImportAction} {phase : ImportPhase}
    (step : ImportStep x toml cfg job s.disk s.run a phase disk)
    (vaultFile : (vaultStem name).isSome = true) (present : s.disk.dir[name]?.isSome = true)
    (changed : disk.dir[name]? ≠ s.disk.dir[name]?) :
    name = (job.path cfg).name ∧ w.own = true := by
  by_cases other : name ≠ (job.path cfg).name
  · exact absurd (step.frame elsewhere vaultFile other) changed
  rw [not_not] at other
  refine ⟨other, ?_⟩
  subst other
  obtain ⟨-, -, stands⟩ := h
  obtain ⟨before, run, others⟩ := s
  cases step with
  | publishes | importFails | imports | reopens | unlinks => exact Private.own stands present
  | @writesReport _ _ name bytes asked =>
    refine absurd (Disk.write_dir fun same => ?_) changed
    rw [same, (elsewhere _ asked).1] at vaultFile
    cases vaultFile
  | _ => exact absurd rfl changed

/-! ### Steps of the others -/

variable [DecidableEq ι]

section

variable (creators : ι → Creator) (w : Without ι) (i : ι) (statFails : Bool)
  (before after : Option Bytes)

theorem Without.afterOther_frame (other : name ≠ (creators i).path.name) :
    (w.afterOther creators i statFails before after).disk.dir[name]? = w.disk.dir[name]? := by
  unfold Without.afterOther
  split
  · rfl
  next phase dir moved => exact Creator.next_frame moved other

theorem Without.afterOther_aliases :
    (w.afterOther creators i statFails before after).disk.aliasFile = w.disk.aliasFile := by
  unfold Without.afterOther
  split <;> rfl

theorem Without.afterOther_others {j : ι} (other : j ≠ i) :
    (w.afterOther creators i statFails before after).others j = w.others j := by
  unfold Without.afterOther
  split
  · rfl
  · exact update_of_ne other _ _

end

theorem Without.afterOther_same {i : ι} (before after : Option Bytes)
    (phases : s.others i = w.others i)
    (file : s.disk.dir[(creators i).path.name]? = w.disk.dir[(creators i).path.name]?)
    (moved : (creators i).next statFails (s.others i) s.disk.dir = some (phase, dir)) :
    (w.afterOther creators i statFails before after).others i = phase ∧ dir[(creators i).path.name]? =
        (w.afterOther creators i statFails before after).disk.dir[(creators i).path.name]? := by
  obtain ⟨dir', moved', same⟩ := (creators i).next_congr statFails (s.others i) file moved
  rw [phases] at moved'
  simp only [Without.afterOther, moved', update_self]
  exact ⟨trivial, same⟩

theorem Without.afterOther_own (creators : ι → Creator) (w : Without ι) (i : ι) (statFails : Bool)
    (before after : Option Bytes) :
    (w.afterOther creators i statFails before after).own = (w.own && before == after) := by
  unfold Without.afterOther
  split <;> rfl

/-- The state after another process has made its next call. -/
def Neighbours.moved (s : Neighbours ι) (i : ι) (phase : PublishPhase) (dir : Dir) : Neighbours ι :=
  { s with others := Function.update s.others i phase, disk := { s.disk with dir } }

section

variable {i : ι} {before after : Option Bytes}
variable (moved : (creators i).next statFails (s.others i) s.disk.dir = some (phase, dir))

include moved in
theorem others_moved (phases : s.others i = w.others i)
    (file : s.disk.dir[(creators i).path.name]? = w.disk.dir[(creators i).path.name]?) {j : ι}
    (agree : s.others j = w.others j) :
    (s.moved i phase dir).others j = (w.afterOther creators i statFails before after).others j := by
  by_cases same : j = i
  · subst same
    rw [(Without.afterOther_same before after phases file moved).1]
    exact update_self _ _ _
  · rw [Without.afterOther_others creators w i statFails before after same, ← agree]
    exact update_of_ne same _ _

include moved in
theorem Synced.other (h : Synced cfg job creators s w)
    (here : (creators i).path.name = (job.path cfg).name) :
    Synced cfg job creators (s.moved i phase dir) (w.afterOther creators i statFails before after) := by
  have file := h.file
  rw [← here] at file
  refine ⟨?_, ?_, fun j at_ => others_moved moved (h.others i here) file (h.others j at_)⟩
  · rw [← here]
    exact (Without.afterOther_same before after (h.others i here) file moved).2
  · rw [Without.afterOther_aliases]
    exact h.aliases

include moved in
theorem dir_moved (there : (creators i).path.name ≠ (job.path cfg).name) :
    (s.moved i phase dir).disk.dir[(job.path cfg).name]? = s.disk.dir[(job.path cfg).name]? :=
  Creator.next_frame moved there.symm

theorem others_unmoved (there : (creators i).path.name ≠ (job.path cfg).name)
    (agree : ∀ j, (creators j).path.name = (job.path cfg).name → s.others j = w.others j) (j : ι)
    (here : (creators j).path.name = (job.path cfg).name) :
    (s.moved i phase dir).others j = (w.afterOther creators i statFails before after).others j := by
  have distinct : j ≠ i := fun same => there (same ▸ here)
  rw [Without.afterOther_others creators w i statFails before after distinct, ← agree j here]
  exact update_of_ne distinct _ _

include moved in
theorem Stands.other (there : (creators i).path.name ≠ (job.path cfg).name) {run : ImportPhase}
    (unchanged : before = after) (h : Stands cfg job creators s w run) :
    Stands cfg job creators (s.moved i phase dir) (w.afterOther creators i statFails before after) run := by
  have synced (h : Synced cfg job creators s w) : Synced cfg job creators (s.moved i phase dir)
      (w.afterOther creators i statFails before after) := by
    refine ⟨?_, ?_, others_unmoved there h.others⟩
    · rw [dir_moved moved there, Without.afterOther_frame creators w i _ _ _ there.symm]
      exact h.file
    · rw [Without.afterOther_aliases]
      exact h.aliases
  have kept (h : Private cfg job creators s w) : Private cfg job creators (s.moved i phase dir)
      (w.afterOther creators i statFails before after) := by
    refine ⟨h.real, ?_, ?_, ?_, others_unmoved there h.others⟩
    · rw [Without.afterOther_frame creators w i _ _ _ there.symm]
      exact h.absent
    · intro present
      rw [dir_moved moved there] at present
      rw [Without.afterOther_own, h.own present, unchanged, beq_self_eq_true]
      rfl
    · rw [Without.afterOther_aliases]
      exact h.aliases
  exact h.imp synced kept

end

/-- **One step of another process**, which is on the run's path only while the run is outside. -/
theorem Apart.other (h : Apart cfg job creators s w) {i : ι}
    (moved : (creators i).next statFails (s.others i) s.disk.dir = some (phase, dir))
    (away : s.run.outside = true ∨ (creators i).path.name ≠ (job.path cfg).name) :
    Apart cfg job creators (s.moved i phase dir) (w.afterOther creators i statFails s.disk.dir[(job.path cfg).name]?
        (s.moved i phase dir).disk.dir[(job.path cfg).name]?) := by
  have apart : ∀ name, (vaultStem name).isSome = true → name ≠ (job.path cfg).name → name ≠ (creators i).path.name →
      dir[name]? = (w.afterOther creators i statFails s.disk.dir[(job.path cfg).name]?
        (s.moved i phase dir).disk.dir[(job.path cfg).name]?).disk.dir[name]? := by
    intro name vaultFile other distinct
    rw [Creator.next_frame moved distinct, Without.afterOther_frame creators w i _ _ _ distinct]
    exact h.files name vaultFile other
  by_cases here : (creators i).path.name = (job.path cfg).name
  · refine ⟨fun name vaultFile other => apart name vaultFile other (here ▸ other), ?_, ?_⟩
    · intro j there
      have distinct : j ≠ i := fun same => there (same ▸ here)
      rw [Without.afterOther_others creators w i _ _ _ distinct, ← h.others j there]
      exact update_of_ne distinct _ _
    · -- the run is outside, so its path is claimed to be in step only where the others are too
      have outside := away.resolve_right fun there => there here
      have stands := h.stands
      show Stands cfg job creators _ _ s.run
      cases run : s.run with
      | checking =>
        rw [run] at stands
        exact Synced.other moved stands here
      | ended result =>
        rw [run] at stands
        cases result with
        | error e => exact fun before => Synced.other moved (stands before) here
        | ok aliasMoved => trivial
      | crashed => trivial
      | _ =>
        rw [run] at outside
        cases outside
  · have phases := h.others i here
    have file := h.files _ (creators i).vaultFile here
    refine ⟨fun name vaultFile other => ?_, fun j there => ?_, ?_⟩
    · by_cases same : name = (creators i).path.name
      · rw [same]
        exact (Without.afterOther_same _ _ phases file moved).2
      · exact apart name vaultFile other same
    · exact others_moved moved phases file (h.others j there)
    · exact Stands.other moved here (dir_moved moved here).symm h.stands

/-! ## Whole runs -/

/-- Nobody else makes a call on the run's path between its look and its end, and the kernel answers
that look and does not refuse the removal. -/
def alone (cfg : Config) (job : ImportJob) (creators : ι → Creator) (p : Neighbours ι × Without ι) :
    NeighbourAction ι → Prop
  | .run a => a.served = true
  | .other i _ => p.1.run.outside = true ∨ (creators i).path.name ≠ (job.path cfg).name

instance (cfg : Config) (job : ImportJob) (creators : ι → Creator) (p : Neighbours ι × Without ι)
    (a : NeighbourAction ι) : Decidable (alone cfg job creators p a) := by
  cases a with
  | run a => exact inferInstanceAs (Decidable (a.served = true))
  | other i statFails =>
    exact inferInstanceAs (Decidable (p.1.run.outside = true ∨ (creators i).path.name ≠ _))

theorem Apart.of_reach {p : Neighbours ι × Without ι} (elsewhere : job.ReportsElsewhere)
    (run : Reach (logged (Neighbours.step x toml cfg job creators)
      (Neighbours.record cfg job creators)) (alone cfg job creators) (Neighbours.start disk) p) :
    Apart cfg job creators p.1 p.2 := by
  have start : Apart cfg job creators (Neighbours.start disk).1 (Neighbours.start (ι := ι) disk).2 :=
    ⟨fun _ _ _ => rfl, fun _ _ => rfl, rfl, rfl, fun _ _ => rfl⟩
  refine run.invariant (fun p : Neighbours ι × Without ι => Apart cfg job creators p.1 p.2) start ?_
  intro p a p' apart ok h
  obtain ⟨moved, recorded⟩ := logged_eq_some h
  rw [recorded]
  cases a with
  | run a =>
    obtain ⟨next, taken, arrived⟩ := Option.map_eq_some_iff.mp moved
    rw [← arrived]
    exact apart.run elsewhere ok (ImportJob.step_inv taken)
  | other i statFails =>
    obtain ⟨next, taken, arrived⟩ := Option.map_eq_some_iff.mp moved
    rw [← arrived]
    exact apart.other taken ok

/-- **An import run touches only its own vault**, as long as it is alone at its path. Whatever the
directory held and whoever creates vaults in it: no step of the run removes or replaces a vault file
that the run did not create, and a run that ended with a failed write or a failed offline
verification leaves every vault file and the aliases as they would be without it. -/
theorem import_touches_only_its_own_vault {p : Neighbours ι × Without ι}
    (elsewhere : job.ReportsElsewhere)
    (run : Reach (logged (Neighbours.step x toml cfg job creators)
      (Neighbours.record cfg job creators)) (alone cfg job creators) (Neighbours.start disk) p) :
    (∀ a s', Neighbours.step x toml cfg job creators p.1 (.run a) = some s' → ∀ name,
      (vaultStem name).isSome = true → p.1.disk.dir[name]?.isSome = true →
      s'.disk.dir[name]? ≠ p.1.disk.dir[name]? → name = (job.path cfg).name ∧ p.2.own = true) ∧
    (∀ e, p.1.run = .ended (.error e) → e.beforePublication = true →
      (∀ name, (vaultStem name).isSome = true → p.1.disk.dir[name]? = p.2.disk.dir[name]?) ∧
        p.1.disk.aliasFile = p.2.disk.aliasFile) := by
  have apart := Apart.of_reach elsewhere run
  constructor
  · intro a s' moved name vaultFile present changed
    obtain ⟨next, taken, arrived⟩ := Option.map_eq_some_iff.mp moved
    rw [← arrived] at changed
    exact apart.changed elsewhere (ImportJob.step_inv taken) vaultFile present changed
  · intro e ended before
    have stands := apart.stands
    rw [ended] at stands
    have synced : Synced cfg job creators p.1 p.2 := stands before
    refine ⟨fun name vaultFile => ?_, synced.aliases⟩
    by_cases here : name = (job.path cfg).name
    · rw [here]
      exact synced.file
    · exact apart.files name vaultFile here

end

/-! ### Two runs -/

/-- A run whose verification fails, beside a process that creates another vault. -/
theorem import_touches_only_its_own_vault_failed : ∃ p,
    Reach (logged (Neighbours.step hashing daemonToml config
        mangledJob besides)
      (Neighbours.record config mangledJob besides))
      (alone config mangledJob besides)
      (Neighbours.start ⟨∅, none⟩) p ∧
    p.1.run = .ended (.error .verification) ∧ p.1.disk.dir["other.vault"]? = some [9] ∧
    ∀ name, (vaultStem name).isSome = true → p.1.disk.dir[name]? = p.2.disk.dir[name]? := by
  refine Reach.exists_run (offlineSteps.map NeighbourAction.run ++
      [NeighbourAction.other 0 false, .other 0 false, .run (.report none), .run (.unlink none)])
    (fun p => p.1.run.result = some (.error .verification) ∧ p.1.disk.dir["other.vault"]? = some [9])
    (by decide +kernel) fun run passed => ?_
  have ended := ImportPhase.result_eq_some.mp passed.1
  have elsewhere : mangledJob.ReportsElsewhere := by
    intro name asked
    cases asked
  exact ⟨ended, passed.2, ((import_touches_only_its_own_vault elsewhere run).2 .verification ended rfl).1⟩

/-- **The clean-up removes another process's vault**: it was created after the run had looked and
before the run's own creation, which therefore failed. -/
theorem import_cleanup_removes_rival : ∃ p e,
    Reach (logged (Neighbours.step hashing daemonToml config
        mangledJob rival)
      (Neighbours.record config mangledJob rival))
      (fun _ _ => True) (Neighbours.start ⟨∅, none⟩) p ∧
    p.1.run = .ended (.error e) ∧ e.beforePublication = true ∧
    p.1.disk.dir["kdewallet.vault"]? = none ∧ p.2.disk.dir["kdewallet.vault"]? = some [9] := by
  obtain ⟨p, run, test⟩ := Reach.exists_of_exec
    (logged (Neighbours.step hashing daemonToml config
        mangledJob rival)
      (Neighbours.record config mangledJob rival))
    (fun _ _ => True) (Neighbours.start ⟨∅, none⟩)
    [.run (.look false), .other 0 false, .other 0 false, .run (.create createEnv),
      .run (.publish false), .run (.publish false), .run (.publish false), .run (.report none),
      .run (.unlink none)]
    (fun p => decide (p.1.run.result =
        some (.error (.vault (.alreadyExists (mangledJob.path config)))) ∧
      p.1.disk.dir["kdewallet.vault"]? = none ∧ p.2.disk.dir["kdewallet.vault"]? = some [9]))
    (by decide +kernel)
  obtain ⟨result, gone, there⟩ := of_decide_eq_true test
  exact ⟨p, _, run, ImportPhase.result_eq_some.mp result, rfl, gone, there⟩

end SecretManager.Import
