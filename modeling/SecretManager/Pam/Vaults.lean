import SecretManager.Dbus.Collections

/-!
# The vault directory as a login sees it

The part of `src/pam/mod.rs` that reads a user's vault directory: which names it takes for
collections, and what it accepts of a vault file before it hashes the login password under the
file's parameters.

The daemon reads a file by its name and follows links; the hooks run as root in someone else's
directory, so they look at the name itself and at who owns what. An entry therefore has more here
than its bytes. What is logged is left out.
-/

namespace SecretManager.Pam

/-! ## Directories -/

inductive FileType where
  | regular
  | symlink
  | directory
  /-- A FIFO, a socket or a device. -/
  | other
  deriving DecidableEq, Repr

/-- One entry: the type, owner and permissions of the name itself, and the bytes that a reader gets
who follows links. -/
structure DirEntry where
  fileType : FileType
  uid : UInt32
  mode : UInt32
  contents : Option Bytes

abbrev VaultDir := Std.ExtTreeMap String DirEntry

/-- What `read_dir` and its entries answer: an entry may fail to come, and its type to be read. A
name that is not UTF-8 is skipped by both readers and left out. -/
abbrev ReadDir := Except IoError (List (Except IoError (String × Except IoError FileType)))

/-- One scan of the daemon over a directory that does not change meanwhile. -/
def scanDir (x : Externals) (cfg : Config) (loaded : List String) (dir : VaultDir) :
    VaultScan × List Vault :=
  dir.toList.foldl (fun acc entry => scanEntry x cfg loaded entry.1 entry.2.contents acc.1 acc.2)
    (.empty, [])

/-! ## Names -/

def maxCollectionLen : Nat := 64

def collectionIsValid (v : String) : Bool :=
  !v.isEmpty && decide (v.utf8ByteSize ≤ maxCollectionLen) && (utf8 v).all Paths.isSegmentByte

/-- `name.strip_suffix(".vault")`. -/
def stripVault (name : String) : Option String :=
  if ".vault".toList.isSuffixOf name.toList then
    some (String.ofList (name.toList.take (name.toList.length - 6)))
  else none

/-- One turn of the loop of `list_vault_collections`. -/
def listedId : Except IoError (String × Except IoError FileType) → Option String
  | .error _ => none
  | .ok (name, fileType) =>
    match fileType with
    | .ok .regular => (stripVault name).filter collectionIsValid
    | _ => none

/-- `list_vault_collections`: the ids in order; none if the directory cannot be listed. -/
def listVaultCollections (listing : ReadDir) : List String :=
  match listing with
  | .error _ => []
  | .ok entries => (entries.filterMap listedId).insertionSort (· ≤ ·)

/-- `all_vault_ids`: everything listed and the configured collection. -/
def allVaultIds (listing : ReadDir) (configured : String) : List String :=
  let ids := listVaultCollections listing
  if ids.contains configured then ids else (ids ++ [configured]).insertionSort (· ≤ ·)

/-! ## Headers -/

/-- `kdf_acceptable_for_login`: not below the floor and not above the ceilings of a login. -/
def kdfAcceptableForLogin (kdf : KdfParams) : Bool :=
  kdf.unsafeReason.isNone && decide (19 * 1024 ≤ kdf.mCostKib) && decide (2 ≤ kdf.tCost) &&
    decide (kdf.mCostKib ≤ 64 * 1024) && decide (kdf.tCost ≤ 4) && decide (kdf.pCost ≤ 2) &&
    decide (kdf.mCostKib.toNat * kdf.tCost.toNat ≤ 64 * 1024 * 4)

/-- The bytes of a header read piece by piece, as `vault_header` reads them. -/
def readHeader (x : Externals) (bytes : Bytes) : Option Header :=
  -- each read wants its bytes exactly, and fails at the end of the file
  if bytes.length < prefixLen then none
  else
    match headerPrefixLen (bytes.take prefixLen) with
    | .error _ => none
    | .ok need =>
      if bytes.length < need then none else (decodeHeader x (bytes.take need)).toOption

/-- `vault_header`: the salt and the parameters of a vault file, if everything about the file is
suitable. `readable` is false when a call on the file fails, or does not come to an end in time. -/
def vaultHeader (x : Externals) (entry : Option DirEntry) (uid : UInt32) (readable : Bool) :
    Option (Salt × KdfParams) :=
  match entry with
  | none => none
  | some e =>
    -- `O_NOFOLLOW` refuses a link, and the type check everything else
    if e.fileType ≠ .regular then none
    else if e.uid ≠ uid then none
    else if e.mode &&& 0o022 ≠ 0 then none
    else if !readable then none
    else
      match e.contents.bind (readHeader x) with
      | none => none
      | some header =>
        if kdfAcceptableForLogin header.kdf then some (header.salt, header.kdf) else none

end SecretManager.Pam
