import SecretManager.Vault.Store

/-!
# Concurrent creations of one file

`publish_new` of `src/vault/store.rs` cut at its calls to the kernel, so that any number of callers
can run against one path at once. Each call on the path is atomic and does what POSIX says: `O_EXCL`
and `RENAME_NOREPLACE` refuse a name that is taken, `rename` replaces whatever is there, `unlink`
takes it away. What happens between two calls of one caller is up to the others.
-/

namespace SecretManager

/-- Where one `publish_new` stands: the call it makes next, or its answer. -/
inductive PublishPhase where
  | writing
  | linking
  /-- The name is taken; `is_empty_file` is next, -/
  | looking
  /-- then the removal of an empty file, -/
  | clearing
  /-- then the second try. -/
  | relinking
  /-- No `RENAME_NOREPLACE` here; the `O_EXCL` reservation is next. -/
  | reserving
  | checking
  | emptying
  | reservingAgain
  /-- The name is reserved; the rename over the reservation is next. -/
  | replacing
  /-- That rename failed; the removal of the reservation is next. -/
  | cleaning (e : IoError)
  | done (result : Except VaultError Unit)

/-- What one caller asks for, and what the kernel answers it where the path does not decide. -/
structure PublishCall where
  bytes : Bytes
  env : PublishEnv

/-- The next call of one caller, against what is at the path now. -/
def PublishPhase.next (path : VaultPath) (call : PublishCall) :
    PublishPhase → Option Bytes → PublishPhase × Option Bytes
  | .writing, file =>
    match writeTemp call.env path with
    | .error e => (.done (.error e), file)
    | .ok () => (.linking, file)
  | .linking, file =>
    match renameNoreplace call.env.rename call.bytes file with
    | (.ok (), file) => (.done (.ok ()), file)
    | (.error e, file) =>
      if e.kind = .alreadyExists then (.looking, file)
      else if e.rawOs.isSome then (.reserving, file)
      else (.done (.error (.io path.display e)), file)
  | .looking, file =>
    (if isEmptyFile file then .clearing else .done (.error (.alreadyExists path)), file)
  | .clearing, file =>
    match removeFile call.env.removeEmpty file with
    | (.error _, file) => (.done (.error (.alreadyExists path)), file)
    | (.ok (), file) => (.relinking, file)
  | .relinking, file =>
    match renameNoreplace call.env.renameAgain call.bytes file with
    | (.ok (), file) => (.done (.ok ()), file)
    | (.error e, file) =>
      if e.kind = .alreadyExists then (.done (.error (.alreadyExists path)), file)
      else (.done (.error (.io path.display e)), file)
  | .reserving, file =>
    match createNew call.env.reserve file with
    | (.ok (), file) => (.replacing, file)
    | (.error e, file) =>
      if e.kind = .alreadyExists then (.checking, file)
      else (.done (.error (.io path.display e)), file)
  | .checking, file =>
    (if isEmptyFile file then .emptying else .done (.error (.alreadyExists path)), file)
  | .emptying, file =>
    match removeFile call.env.removeReserved file with
    | (.error _, file) => (.done (.error (.alreadyExists path)), file)
    | (.ok (), file) => (.reservingAgain, file)
  | .reservingAgain, file =>
    match createNew call.env.reserveAgain file with
    | (.error _, file) => (.done (.error (.alreadyExists path)), file)
    | (.ok (), file) => (.replacing, file)
  | .replacing, file =>
    match call.env.renameOver with
    | none => (.done (.ok ()), some call.bytes)
    | some e => (.cleaning e, file)
  | .cleaning e, file =>
    (.done (.error (.io path.display e)), (removeFile call.env.removeAfter file).2)
  | .done result, file => (.done result, file)

structure Publishers (ι : Type) where
  file : Option Bytes
  phases : ι → PublishPhase

inductive PublishAction (ι : Type) where
  /-- A caller makes its next call, -/
  | run (t : ι)
  /-- and this one is `is_empty_file`, whose `stat` fails, which counts as not empty. -/
  | statFails (t : ι)

def Publishers.step {ι : Type} [DecidableEq ι] (path : VaultPath) (calls : ι → PublishCall)
    (s : Publishers ι) : PublishAction ι → Option (Publishers ι)
  | .run t =>
    match s.phases t with
    | .done _ => none
    | phase =>
      let (phase', file) := phase.next path (calls t) s.file
      some { file, phases := Function.update s.phases t phase' }
  | .statFails t =>
    match s.phases t with
    | .looking | .checking =>
      some { s with phases := Function.update s.phases t (.done (.error (.alreadyExists path))) }
    | _ => none

/-- Nobody has begun and the name is free. -/
def Publishers.start (ι : Type) : Publishers ι := { file := none, phases := fun _ => .writing }

end SecretManager
