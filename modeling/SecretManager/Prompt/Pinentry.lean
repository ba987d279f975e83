import SecretManager.Vault.Format

/-!
# Talking to pinentry

`src/prompt/pinentry.rs`: the Assuan escapes, and the commands that set a dialog up. Starting the
process, its terminal options, the queue for the one dialog and the time limits are not modelled.
-/

namespace SecretManager.Pinentry

/-- `PinentryError`, as the protocol raises it. -/
inductive PinentryError where
  | io (text : String)
  | protocol (text : String)
  | assuan (code : Nat) (message : String)
  deriving DecidableEq

/-! ## Escapes -/

def escapeChar (c : Char) : List Char :=
  if c = '%' then ['%', '2', '5']
  else if c.toNat < 0x20 ∨ c.toNat = 0x7f then
    ['%', (Nat.digitChar (c.toNat / 16)).toUpper, (Nat.digitChar (c.toNat % 16)).toUpper]
  else [c]

/-- `escape`: the percent sign and what an Assuan line cannot hold, as `%XX`. -/
def escape (s : String) : String := String.ofList (s.toList.flatMap escapeChar)

/-- `to_digit(16)`. -/
def hexDigit (b : UInt8) : Option UInt8 :=
  if 0x30 ≤ b ∧ b ≤ 0x39 then some (b - 0x30)
  else if 0x41 ≤ b ∧ b ≤ 0x46 then some (b - 0x37)
  else if 0x61 ≤ b ∧ b ≤ 0x66 then some (b - 0x57)
  else none

/-- Two hexadecimal digits. -/
def hexPair (h l : UInt8) : Option UInt8 :=
  (hexDigit h).bind fun h => (hexDigit l).map fun l => 16 * h + l

/-- `u8::from_str_radix(_, 16)` on two bytes: the first may be a plus sign. -/
def fromStrRadix (h l : UInt8) : Option UInt8 := if h = 0x2b then hexDigit l else hexPair h l

/-- The loop of `unescape`. -/
def decode : Bytes → Except PinentryError Bytes
  | [] => .ok []
  | b :: rest =>
    if b = 0x25 then
      match rest with
      | h :: l :: rest =>
        match ofUtf8 [h, l], fromStrRadix h l with
        | none, _ => .error (.protocol "bad escape")
        | some hex, none => .error (.protocol ("bad escape %" ++ hex))
        | some _, some v => (decode rest).map (v :: ·)
      | _ => .error (.protocol "truncated escape")
    else (decode rest).map (b :: ·)

def unescape (s : String) : Except PinentryError String :=
  (decode (utf8 s)).bind fun out => (ofUtf8 out).elim (.error (.protocol "pin is not utf-8")) .ok

/-! ## Setting a dialog up -/

/-- The fields of `PinRequest` that `setup` reads. -/
structure PinRequest where
  title : String
  description : String
  prompt : String
  error : Option String

/-- The commands of `setup`, each with whether an `ERR` reply to it is let pass. -/
def setupCommands (req : PinRequest) : List (String × Bool) :=
  (if req.title.isEmpty then [] else [("SETTITLE " ++ escape req.title, true)]) ++
    [("SETDESC " ++ escape req.description, false), ("SETPROMPT " ++ escape req.prompt, false)] ++
    req.error.elim [] fun e => [("SETERROR " ++ escape e, true)]

def send (line : String) : Bytes := utf8 line ++ [0x0a]

/-- `command`, or `command_lenient`, which lets an `ERR` reply pass. -/
def goesOn (lenient : Bool) : Except PinentryError Unit → Bool
  | .ok () => true
  | .error (.assuan _ _) => lenient
  | .error _ => false

/-- The commands one after another, from the `n`-th on: what is sent, and how it ends. `answer` is
how each `command` is answered; a write that fails may have sent less of its line. -/
def issue (answer : Nat → Except PinentryError Unit) :
    Nat → List (String × Bool) → List Bytes × Except PinentryError Unit
  | _, [] => ([], .ok ())
  | n, (line, lenient) :: rest =>
    if goesOn lenient (answer n) then
      let later := issue answer (n + 1) rest
      (send line :: later.1, later.2)
    else ([send line], answer n)

def setup (answer : Nat → Except PinentryError Unit) (req : PinRequest) :
    List Bytes × Except PinentryError Unit :=
  issue answer 0 (setupCommands req)

end SecretManager.Pinentry
