import SecretManager.Vault.Publish
import SecretManager.Laws.Vault.Identity
import SecretManager.Lib.Run

/-!
# One creator wins

A caller alone makes the calls of `publishNew` and gets its answer. Beside others, a caller holds
the path from its reservation to the rename over it, and for good once it has succeeded. With
`RENAME_NOREPLACE` everywhere nobody else can come in between. Without it the reservation is an
empty file, and a caller that finds an empty file takes it for a dead reservation and removes it, so
that two callers can both succeed.
-/

namespace SecretManager

open Function PublishPhase

variable {phase : PublishPhase} {file : Option Bytes}

variable {ι : Type} {path : VaultPath} {calls : ι → PublishCall}

/-! ## Alone -/

section

variable {call : PublishCall} {answer : Except VaultError Unit × Option Bytes}

/-- A caller nobody interferes with comes to this answer and leaves this file. -/
def PublishPhase.Ends (path : VaultPath) (call : PublishCall) (phase : PublishPhase)
    (file : Option Bytes) (answer : Except VaultError Unit × Option Bytes) : Prop :=
  ∃ n, (fun p => next path call p.1 p.2)^[n] (phase, file) = (.done answer.1, answer.2)

theorem PublishPhase.Ends.done (result : Except VaultError Unit) :
    Ends path call (.done result) file (result, file) := ⟨0, rfl⟩

theorem PublishPhase.Ends.of_next
    (rest : Ends path call (phase.next path call file).1 (phase.next path call file).2 answer) :
    Ends path call phase file answer := by
  obtain ⟨n, hn⟩ := rest
  exact ⟨n + 1, by rw [iterate_succ_apply]; exact hn⟩

theorem replacing_ends : PublishPhase.Ends path call .replacing file
      (renameOverReservation call.env path call.bytes file) := by
  apply PublishPhase.Ends.of_next
  unfold renameOverReservation
  dsimp only [next]
  cases call.env.renameOver with
  | none => exact .done _
  | some e => exact .of_next (.done _)

theorem reserving_ends : PublishPhase.Ends path call .reserving file
      (publishNewViaReservation call.env path call.bytes file) := by
  apply PublishPhase.Ends.of_next
  unfold publishNewViaReservation
  dsimp only [next]
  cases createNew call.env.reserve file with
  | mk reserved file₁ =>
    cases reserved with
    | ok _ => exact replacing_ends
    | error e =>
      dsimp only
      split
      · apply PublishPhase.Ends.of_next
        dsimp only [next]
        split
        · apply PublishPhase.Ends.of_next
          dsimp only [next]
          cases removeFile call.env.removeReserved file₁ with
          | mk removed file₂ =>
            cases removed with
            | error _ => exact .done _
            | ok _ =>
              apply PublishPhase.Ends.of_next
              dsimp only [next]
              cases createNew call.env.reserveAgain file₂ with
              | mk again file₃ =>
                cases again with
                | error _ => exact .done _
                | ok _ => exact replacing_ends
        · exact .done _
      · exact .done _

/-- **A caller alone does what `publishNew` does.** -/
theorem publishNew_ends :
    PublishPhase.Ends path call .writing file (publishNew call.env path call.bytes file) := by
  apply PublishPhase.Ends.of_next
  unfold publishNew
  dsimp only [next]
  cases writeTemp call.env path with
  | error e => exact .done _
  | ok _ =>
    apply PublishPhase.Ends.of_next
    dsimp only [next]
    cases renameNoreplace call.env.rename call.bytes file with
    | mk linked file₁ =>
      cases linked with
      | ok _ => exact .done _
      | error e =>
        dsimp only
        split
        · apply PublishPhase.Ends.of_next
          dsimp only [next]
          split
          · apply PublishPhase.Ends.of_next
            dsimp only [next]
            cases removeFile call.env.removeEmpty file₁ with
            | mk removed file₂ =>
              cases removed with
              | error _ => exact .done _
              | ok _ =>
                apply PublishPhase.Ends.of_next
                dsimp only [next]
                cases renameNoreplace call.env.renameAgain call.bytes file₂ with
                | mk again file₃ =>
                  cases again with
                  | ok _ => exact .done _
                  | error _ =>
                    dsimp only
                    split
                    · exact .done _
                    · exact .done _
          · exact .done _
        · split
          · exact reserving_ends
          · exact .done _

end

/-! ## Beside others -/

/-- The caller has reserved the name and not yet renamed over the reservation or given it up. -/
def PublishPhase.holds : PublishPhase → Bool
  | .replacing | .cleaning _ => true
  | _ => false

def PublishPhase.succeeded : PublishPhase → Bool
  | .done (.ok ()) => true
  | _ => false

/-- The path is the caller's. -/
def PublishPhase.claims (phase : PublishPhase) : Bool := phase.holds || phase.succeeded

/-- The caller is about to remove a file that it has found empty. -/
def PublishPhase.removes (call : PublishCall) : PublishPhase → Bool
  | .clearing => call.env.removeEmpty.isNone
  | .emptying => call.env.removeReserved.isNone
  | _ => false

/-- **The discipline**: nobody removes the file from a path that is someone else's. -/
def removesDead (calls : ι → PublishCall) (s : Publishers ι) : PublishAction ι → Prop
  | .run t => (s.phases t).removes (calls t) = true → s.file.isSome = true →
      ∀ t', (s.phases t').claims = false
  | .statFails _ => True

/-- Every way one call of a caller can end. -/
inductive PublishStep (call : PublishCall) (phase : PublishPhase) (file : Option Bytes) :
    PublishPhase → Option Bytes → Prop
  | other {phase'} (before : phase.claims = false) (after : phase'.claims = false) :
      PublishStep call phase file phase' file
  | link (free : file = none) :
      PublishStep call phase file (.done (.ok ())) (some call.bytes)
  | reserve (free : file = none) : PublishStep call phase file .replacing (some [])
  | remove {phase'} (removes : phase.removes call = true) (present : file.isSome = true)
      (after : phase'.claims = false) : PublishStep call phase file phase' none
  | rename (held : phase = .replacing) :
      PublishStep call phase file (.done (.ok ())) (some call.bytes)
  | renameFails (e : IoError) (held : phase = .replacing) :
      PublishStep call phase file (.cleaning e) file
  | giveUp {e file'} (result : VaultError) (held : phase = .cleaning e) :
      PublishStep call phase file (.done (.error result)) file'

theorem renameNoreplace_cases (fault : Option IoError) (bytes : Bytes) (file : Option Bytes) :
    (file = none ∧ renameNoreplace fault bytes file = (.ok (), some bytes)) ∨
      ∃ e, renameNoreplace fault bytes file = (.error e, file) := by
  unfold renameNoreplace
  split
  · exact .inr ⟨_, rfl⟩
  · exact .inr ⟨_, rfl⟩
  · exact .inl ⟨rfl, rfl⟩

theorem createNew_cases (fault : Option IoError) (file : Option Bytes) :
    (file = none ∧ createNew fault file = (.ok (), some [])) ∨ ∃ e, createNew fault file = (.error e, file) := by
  unfold createNew
  split
  · exact .inr ⟨_, rfl⟩
  · exact .inr ⟨_, rfl⟩
  · exact .inl ⟨rfl, rfl⟩

theorem next_inv (path : VaultPath) (call : PublishCall) (file : Option Bytes)
    (running : ∀ result, phase ≠ .done result) :
    PublishStep call phase file (phase.next path call file).1 (phase.next path call file).2 := by
  cases phase with (dsimp only [next])
  | writing | looking | checking =>
    split
    · exact .other rfl rfl
    · exact .other rfl rfl
  | linking =>
    rcases renameNoreplace_cases call.env.rename call.bytes file with ⟨free, heq⟩ | ⟨e, heq⟩
    · rw [heq]
      exact .link free
    · rw [heq]
      dsimp only
      split
      · exact .other rfl rfl
      · split
        · exact .other rfl rfl
        · exact .other rfl rfl
  | clearing =>
    rcases removeFile_cases call.env.removeEmpty file with ⟨e, -, heq⟩ | ⟨bytes, fault, rfl, heq⟩
    · rw [heq]
      exact .other rfl rfl
    · rw [heq]
      exact .remove (by simp [removes, fault]) rfl rfl
  | relinking =>
    rcases renameNoreplace_cases call.env.renameAgain call.bytes file with ⟨free, heq⟩ | ⟨e, heq⟩
    · rw [heq]
      exact .link free
    · rw [heq]
      dsimp only
      split
      · exact .other rfl rfl
      · exact .other rfl rfl
  | reserving =>
    rcases createNew_cases call.env.reserve file with ⟨free, heq⟩ | ⟨e, heq⟩
    · rw [heq]
      exact .reserve free
    · rw [heq]
      dsimp only
      split
      · exact .other rfl rfl
      · exact .other rfl rfl
  | emptying =>
    rcases removeFile_cases call.env.removeReserved file with
      ⟨e, -, heq⟩ | ⟨bytes, fault, rfl, heq⟩
    · rw [heq]
      exact .other rfl rfl
    · rw [heq]
      exact .remove (by simp [removes, fault]) rfl rfl
  | reservingAgain =>
    rcases createNew_cases call.env.reserveAgain file with ⟨free, heq⟩ | ⟨e, heq⟩
    · rw [heq]
      exact .reserve free
    · rw [heq]
      exact .other rfl rfl
  | replacing =>
    split
    · exact .rename rfl
    next e _ => exact .renameFails e rfl
  | cleaning e => exact .giveUp _ rfl
  | done result => exact absurd rfl (running result)

/-! ## The invariant -/

/-- Whose the path is decides what is there. -/
structure OneClaim (calls : ι → PublishCall) (file : Option Bytes) (phases : ι → PublishPhase) :
    Prop where
  unique : ∀ {t t'}, (phases t).claims = true → (phases t').claims = true → t = t'
  held : ∀ {t}, (phases t).holds = true → file = some []
  published : ∀ {t}, (phases t).succeeded = true → file = some (calls t).bytes

namespace OneClaim

variable {file' : Option Bytes} {phases : ι → PublishPhase}

theorem start : OneClaim calls (Publishers.start ι).file (Publishers.start ι).phases where
  unique h := absurd h Bool.false_ne_true
  held h := absurd h Bool.false_ne_true
  published h := absurd h Bool.false_ne_true

theorem free (inv : OneClaim calls file phases) (absent : file = none) (t : ι) :
    (phases t).claims = false := by
  rw [claims, Bool.or_eq_false_iff]
  constructor
  · by_contra held
    rw [inv.held (by simpa using held)] at absent
    cases absent
  · by_contra succeeded
    rw [inv.published (by simpa using succeeded)] at absent
    cases absent

variable {t : ι}

theorem others (inv : OneClaim calls file phases) {t' : ι} (mine : (phases t).claims = true)
    (hne : t' ≠ t) : (phases t').claims = false := by
  by_contra theirs
  exact hne (inv.unique (by simpa using theirs) mine)

variable [DecidableEq ι]

/-- One caller moves and nobody else has a claim: all that counts is whether what it comes to agrees
with the file. -/
theorem of_mover (others : ∀ t', t' ≠ t → (phases t').claims = false)
    (held : phase.holds = true → file' = some [])
    (published : phase.succeeded = true → file' = some (calls t).bytes) :
    OneClaim calls file' (Function.update phases t phase) := by
  have only : ∀ {t'}, (Function.update phases t phase t').claims = true → t' = t := by
    intro t' claims
    by_contra hne
    rw [update_of_ne hne, others t' hne] at claims
    cases claims
  refine ⟨fun h h' => (only h).trans (only h').symm, ?_, ?_⟩
  · intro t' h
    obtain rfl := only (by rw [claims, h, Bool.true_or])
    rw [update_self] at h
    exact held h
  · intro t' h
    obtain rfl := only (by rw [claims, h, Bool.or_true])
    rw [update_self] at h
    exact published h

theorem of_bystander (inv : OneClaim calls file phases) (before : (phases t).claims = false)
    (after : phase.claims = false) : OneClaim calls file (Function.update phases t phase) := by
  have same : ∀ {t'}, (Function.update phases t phase t').claims = true →
      Function.update phases t phase t' = phases t' := by
    intro t' claims
    by_cases ht : t' = t
    · subst ht
      rw [update_self, after] at claims
      cases claims
    · exact update_of_ne ht _ _
  refine ⟨?_, ?_, ?_⟩
  · intro t' t'' h h'
    rw [same h] at h
    rw [same h'] at h'
    exact inv.unique h h'
  · intro t' h
    rw [same (by rw [claims, h, Bool.true_or])] at h
    exact inv.held h
  · intro t' h
    rw [same (by rw [claims, h, Bool.or_true])] at h
    exact inv.published h

theorem run (inv : OneClaim calls file phases) (ok : removesDead calls ⟨file, phases⟩ (.run t))
    (h : PublishStep (calls t) (phases t) file phase file') :
    OneClaim calls file' (Function.update phases t phase) := by
  cases h with
  | other before after => exact inv.of_bystander before after
  | link free => exact of_mover (fun t' _ => inv.free free t') nofun (fun _ => rfl)
  | reserve free => exact of_mover (fun t' _ => inv.free free t') (fun _ => rfl) nofun
  | remove removes present after =>
    rw [claims, Bool.or_eq_false_iff] at after
    refine of_mover (fun t' _ => ok removes present t') ?_ ?_
    · intro held
      rw [after.1] at held
      cases held
    · intro succeeded
      rw [after.2] at succeeded
      cases succeeded
  | rename held =>
    exact of_mover (fun t' hne => inv.others (by rw [held]; rfl) hne) nofun (fun _ => rfl)
  | renameFails e held =>
    refine of_mover (fun t' hne => inv.others (by rw [held]; rfl) hne) ?_ nofun
    exact fun _ => inv.held (t := t) (by rw [held]; rfl)
  | giveUp result held =>
    exact of_mover (fun t' hne => inv.others (by rw [held]; rfl) hne) nofun nofun

theorem step {s s' : Publishers ι} (inv : OneClaim calls s.file s.phases) {a : PublishAction ι}
    (ok : removesDead calls s a) (h : s.step path calls a = some s') :
    OneClaim calls s'.file s'.phases := by
  cases a with
  | run t =>
    simp only [Publishers.step] at h
    split at h
    · cases h
    next running =>
      cases h
      exact inv.run ok (next_inv path (calls t) s.file running)
  | statFails t =>
    simp only [Publishers.step] at h
    split at h
    next looking =>
      cases h
      exact inv.of_bystander (by rw [looking]; rfl) rfl
    next checking =>
      cases h
      exact inv.of_bystander (by rw [checking]; rfl) rfl
    · cases h

end OneClaim

variable [DecidableEq ι]

/-- **Exactly one creator wins**, from a free name, in every run in which nobody removes the file
from a path that is someone else's: at most one caller succeeds, and from then on its bytes are
there. -/
theorem one_publisher_succeeds {s : Publishers ι}
    (run : Reach (Publishers.step path calls) (removesDead calls) (.start ι) s) :
    (∀ t t', (s.phases t).succeeded = true → (s.phases t').succeeded = true → t = t') ∧
      ∀ t, (s.phases t).succeeded = true → s.file = some (calls t).bytes := by
  have inv : OneClaim calls s.file s.phases :=
    run.invariant (fun s => OneClaim calls s.file s.phases) OneClaim.start
      (fun inv ok h => inv.step ok h)
  constructor
  · intro t t' h h'
    exact inv.unique (by rw [claims, h, Bool.or_true]) (by rw [claims, h', Bool.or_true])
  · exact fun t h => inv.published h

section

open Reference

instance {n : Nat} (calls : Fin n → PublishCall) (s : Publishers (Fin n)) :
    ∀ a, Decidable (removesDead calls s a)
  | .run t => inferInstanceAs (Decidable ((s.phases t).removes (calls t) = true →
      s.file.isSome = true → ∀ t', (s.phases t').claims = false))
  | .statFails _ => .isTrue trivial

/-- A kernel without `renameat2`. -/
def oldKernel : PublishEnv :=
  { publishEnv with
    rename := some { kind := .other, rawOs := some .enosys, message := "Function not implemented" } }

/-- Two creators of one file; the first has no `RENAME_NOREPLACE`. -/
def twoCreators : Fin 2 → PublishCall
  | 0 => { bytes := [1], env := oldKernel }
  | 1 => { bytes := [2], env := publishEnv }

/-- The first is done before the second looks; the second finds a vault and is refused. -/
theorem one_publisher_succeeds_first :
    ∃ s, Reach (Publishers.step Reference.path twoCreators) (removesDead twoCreators)
        (.start (Fin 2)) s ∧
      (s.phases 0).succeeded = true ∧ (s.phases 1).succeeded = false ∧ s.file = some [1] := by
  refine Reach.exists_run [.run 0, .run 0, .run 0, .run 1, .run 0, .run 1, .run 1]
    (fun s => (s.phases 0).succeeded = true ∧ (s.phases 1).succeeded = false) (by decide)
    fun run passed => ?_
  exact ⟨passed.1, passed.2, (one_publisher_succeeds run).2 0 passed.1⟩

/-- **Without the discipline** the second takes the first's reservation for a dead one and publishes
in its place; the first renames over it, and both have succeeded. -/
theorem two_publishers_succeed :
    ∃ s, Reach (Publishers.step Reference.path twoCreators) (fun _ _ => True) (.start (Fin 2)) s ∧
      ((s.phases 0).succeeded = true ∧ (s.phases 1).succeeded = true) ∧ s.file = some [1] := by
  exact Reach.exists_run [.run 0, .run 0, .run 0, .run 1, .run 1, .run 1, .run 1, .run 1, .run 0] _
    (by decide) fun _ passed => passed

end

end SecretManager
