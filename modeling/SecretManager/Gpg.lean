import SecretManager.Vault.Format

/-!
# Signing keys and their enrolled passphrases

`src/gpg.rs`: the listing of `gpg -K --with-keygrip --with-colons`, the key ids a user may give, and
the passphrases that are collected from the unlocked vaults. A text is worked on as its characters;
the lengths the source takes in bytes are those of hex digits only.
-/

namespace SecretManager.Gpg

def gpgSchema : String := "org.secret-manager.gpg"

def isHexDigit (c : Char) : Bool :=
  ('0' ≤ c && c ≤ '9') || ('a' ≤ c && c ≤ 'f') || ('A' ≤ c && c ≤ 'F')

/-- A fingerprint or a keygrip: forty hex digits. -/
def isHex40 (s : List Char) : Bool := s.length == 40 && s.all isHexDigit

/-- `str::to_uppercase`. Outside ASCII one character becomes hex digits, the ligature `ff`; what the
others become is never a hex digit, and they are left as they are. -/
def toUppercase (s : List Char) : List Char :=
  s.flatMap fun c => if c = 'ﬀ' then ['F', 'F'] else [c.toUpper]

/-! ## The listing -/

/-- One secret key with sign capability. -/
structure SecretKey where
  fpr : List Char
  grip : List Char
  deriving DecidableEq, Repr

/-- `str::lines`: a line ends at `\n` or `\r\n`. What follows the last one is a line too, unless it
is empty, and keeps its `\r`. -/
def lines (text : List Char) : List (List Char) :=
  let pieces := text.splitOn '\n'
  let ended := pieces.dropLast.map fun l => if l.getLast? = some '\r' then l.dropLast else l
  ended ++ pieces.getLast?.toList.filter (!·.isEmpty)

/-- The kind of a line: its first field, as far as the parser tells kinds apart. -/
inductive Kind where
  | key
  | fpr
  | grp
  | other
  deriving DecidableEq, Repr

def kind (line : List Char) : Kind :=
  match (line.splitOn ':').head?.map String.ofList with
  | some "sec" | some "ssb" => .key
  | some "fpr" => .fpr
  | some "grp" => .grp
  | _ => .other

/-- `F_VALIDITY` and `F_CAPABILITY`: neither expired nor revoked, and able to sign. -/
def signs (line : List Char) : Bool :=
  let f := line.splitOn ':'
  !(f[1]? == some ['e'] || f[1]? == some ['r']) && f[11]?.any (·.contains 's')

def value (line : List Char) : Option (List Char) := (line.splitOn ':')[9]?

/-- The variables of `parse_colons`. -/
structure Scan where
  out : List SecretKey
  sign : Bool
  fpr : Option (List Char)

def Scan.line (s : Scan) (line : List Char) : Scan :=
  match kind line with
  | .key => { s with sign := signs line, fpr := none }
  | .fpr => { s with fpr := s.fpr.or (((value line).filter isHex40).map toUppercase) }
  | .grp =>
    let grip := (value line).getD []
    match s.fpr with
    | some fpr => { out := if s.sign && isHex40 grip then s.out ++ [⟨fpr, toUppercase grip⟩] else s.out,
                    sign := false, fpr := none }
    | none => { s with sign := false, fpr := none }
  | .other => s

def parseColons (text : List Char) : List SecretKey :=
  ((lines text).foldl Scan.line ⟨[], false, none⟩).out

/-! ## Key ids -/

/-- The id without its `0x` or `0X`, in upper case. -/
def upperId (input : List Char) : List Char :=
  toUppercase (match input with
    | '0' :: 'x' :: rest | '0' :: 'X' :: rest => rest
    | _ => input)

def normalizeId (input : List Char) : Option (List Char) :=
  let norm := upperId input
  if !norm.all isHexDigit then none
  else if norm.length = 40 then some (norm.drop 24)
  else if norm.length = 16 then some norm
  else none

def keyidMatches (input fpr : List Char) : Bool :=
  (normalizeId input).any fun norm => norm.isSuffixOf (toUppercase fpr)

def keyAllowed (filter : List String) (longid : String) : Bool :=
  filter.isEmpty || (normalizeId longid.toList).any fun want =>
    (filter.filterMap fun s => normalizeId s.toList).any (· == want)

/-! ## Enrolled passphrases -/

def sameEnrollment (a b : String) : Bool :=
  match normalizeId a.toList, normalizeId b.toList with
  | some x, some y => x == y
  | _, _ => a == b

/-- The checks that an item passes silently or not at all: the id and the secret it enrolls. -/
def enrolled (filter : List String) (item : Item) : Option (String × Bytes) :=
  if item.attributes["xdg:schema"]? ≠ some gpgSchema then none
  else match item.attributes["keyid"]? with
    | none => none
    | some keyid => if !keyAllowed filter keyid || item.secret.isEmpty then none else some (keyid, item.secret)

def enrolledTwice (keyid : String) : String := s!"{keyid} enrolled twice; using the first"

/-- The pairs so far, and the warnings. -/
abbrev Enrollments := List (String × Bytes) × List String

/-- One pass of the loop of `collect_enrolled`. -/
def enroll (filter : List String) (e : Enrollments) (item : Item) : Enrollments :=
  match enrolled filter item with
  | none => e
  | some p =>
    if e.1.any fun q => sameEnrollment q.1 p.1 then (e.1, e.2 ++ [enrolledTwice p.1])
    else (e.1 ++ [p], e.2)

/-- `collect_enrolled`: the pairs it leaves in `pairs` and the warnings it returns. -/
def collectEnrolled (items : List Item) (filter : List String) (pairs : List (String × Bytes)) :
    Enrollments :=
  items.foldl (enroll filter) (pairs, [])

/-- The walk over the collections, which logs the warnings of each. -/
def collectAll (collections : List (List Item)) (filter : List String) : Enrollments :=
  collections.foldl (fun e items => ((collectEnrolled items filter e.1).1,
    e.2 ++ (collectEnrolled items filter e.1).2)) ([], [])

end SecretManager.Gpg
