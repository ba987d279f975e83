import Mathlib

/-!
# One atomic file write

The shared writer of `src/atomic.rs`: a fresh temp file beside the target, `fsync`, then one
`rename` over the target. A vault save and the alias file both publish through it.

What the kernel and the random generator answer is an argument (`WriteEnv`), one field for each
call that can fail, so a caller's theorem quantifies over a failure at every stage. The file itself
is `Option Bytes`: absent, or present with its bytes. Temp files live under other names and carry no
field here: nothing modelled reads one back.
-/

namespace SecretManager

/-- A byte string: `Vec<u8>` and `&[u8]`. -/
abbrev Bytes := List UInt8

/-- The `std::io::ErrorKind`s the code tells apart. -/
inductive ErrorKind where
  | notFound
  | alreadyExists
  | invalidData
  | resourceBusy
  | other
  deriving DecidableEq, Repr

/-- The raw errno values `publish_new` tells apart. -/
inductive Errno where
  | enosys
  | einval
  | eopnotsupp
  | eperm
  deriving DecidableEq, Repr

/-- `std::io::Error`: its kind, the raw errno when it is one the code looks at, and its text. -/
structure IoError where
  kind : ErrorKind
  rawOs : Option Errno := none
  message : String
  deriving DecidableEq, Repr

/-- `EEXIST`, as `open` with `O_EXCL` and `RENAME_NOREPLACE` report it. -/
def IoError.eexist : IoError := { kind := .alreadyExists, message := "File exists (os error 17)" }

def IoError.enoent : IoError :=
  { kind := .notFound, message := "No such file or directory (os error 2)" }

/-- What each fallible call of one `write_atomic` answers, in the order it is made. -/
structure WriteEnv where
  suffix : Except String (Vector UInt8 8)
  openTemp : Except IoError Unit
  writeAll : Except IoError Unit
  syncAll : Except IoError Unit
  rename : Except IoError Unit

/-- The closure of `write_atomic`: open, write and sync the temp file, then rename it over the
target. Only the rename touches the target. -/
def writeTempAndRename (env : WriteEnv) (bytes : Bytes) (file : Option Bytes) :
    Except IoError Unit × Option Bytes :=
  match env.openTemp with
  | .error e => (.error e, file)
  | .ok () =>
    match env.writeAll with
    | .error e => (.error e, file)
    | .ok () =>
      match env.syncAll with
      | .error e => (.error e, file)
      | .ok () =>
        match env.rename with
        | .error e => (.error e, file)
        | .ok () => (.ok (), some bytes)

/-- `atomic::write_atomic`. The directory `fsync` after the rename is best effort, and a failed
write removes its temp file; neither changes the answer or the target. -/
def writeAtomic (env : WriteEnv) (bytes : Bytes) (file : Option Bytes) :
    Except IoError Unit × Option Bytes :=
  match env.suffix with
  | .error e =>
    (.error { kind := .resourceBusy, message := s!"the system RNG is unavailable: {e}" }, file)
  | .ok _ => writeTempAndRename env bytes file

/-- **One write is all or nothing**: the target holds the new bytes and the call reports success,
or the target is what it was and the call reports an error. -/
theorem writeAtomic_cases (env : WriteEnv) (bytes : Bytes) (file : Option Bytes) :
    writeAtomic env bytes file = (.ok (), some bytes) ∨ ∃ e, writeAtomic env bytes file = (.error e, file) := by
  unfold writeAtomic
  split
  · exact .inr ⟨_, rfl⟩
  · unfold writeTempAndRename
    split
    · exact .inr ⟨_, rfl⟩
    · split
      · exact .inr ⟨_, rfl⟩
      · split
        · exact .inr ⟨_, rfl⟩
        · split
          · exact .inr ⟨_, rfl⟩
          · exact .inl rfl

end SecretManager
