import Mathlib

/-!
# Peer text, rendered inert

`src/sanitize.rs`: the table of invisible formatters and the terminal escaper. The vault uses the
escaper for the label that an import refusal carries. `display_label` of `src/dbus/prompt.rs` shares
the table: it renders a label for a dialog.
-/

namespace SecretManager

/-- `is_invisible_format`: characters that are neither `char::is_control` nor visible. -/
def isInvisibleFormat (c : Char) : Bool :=
  let n := c.toNat
  n == 0x00AD ||
  (0x0600 ≤ n && n ≤ 0x0605) ||
  n == 0x061C ||
  n == 0x06DD ||
  n == 0x070F ||
  n == 0x08E2 ||
  n == 0x180E ||
  (0x200B ≤ n && n ≤ 0x200F) ||
  (0x2028 ≤ n && n ≤ 0x202E) ||
  (0x2060 ≤ n && n ≤ 0x2064) ||
  (0x2066 ≤ n && n ≤ 0x206F) ||
  (0xE000 ≤ n && n ≤ 0xF8FF) ||
  n == 0xFEFF ||
  (0xFFF9 ≤ n && n ≤ 0xFFFB) ||
  n == 0x110BD ||
  n == 0x110CD ||
  (0x1D173 ≤ n && n ≤ 0x1D17A) ||
  n == 0xE0001 ||
  (0xE0020 ≤ n && n ≤ 0xE007F) ||
  (0xF0000 ≤ n && n ≤ 0xFFFFD) ||
  (0x100000 ≤ n && n ≤ 0x10FFFD)

/-- `char::is_control`: general category `Cc`. -/
def isControl (c : Char) : Bool :=
  c.toNat ≤ 0x1F || (0x7F ≤ c.toNat && c.toNat ≤ 0x9F)

/-- One byte as two lowercase hex digits, `{b:02x}`. -/
def hexByte (b : UInt8) : List Char :=
  [Nat.digitChar (b.toNat / 16), Nat.digitChar (b.toNat % 16)]

def escapeByte (b : UInt8) : List Char := "\\x".toList ++ hexByte b

/-- `escape_control`: every control character and every invisible formatter becomes `\xNN` for each
of its UTF-8 bytes; every other character stays. -/
def escapeControl (s : String) : String :=
  String.ofList <| s.toList.flatMap fun c =>
    if isControl c || isInvisibleFormat c then (String.utf8EncodeChar c).flatMap escapeByte
    else [c]

/-- `char::is_whitespace`: the property `White_Space`. -/
def isWhitespace (c : Char) : Bool :=
  let n := c.toNat
  (0x09 ≤ n && n ≤ 0x0D) ||
  n == 0x20 ||
  n == 0x85 ||
  n == 0xA0 ||
  n == 0x1680 ||
  (0x2000 ≤ n && n ≤ 0x200A) ||
  n == 0x2028 ||
  n == 0x2029 ||
  n == 0x202F ||
  n == 0x205F ||
  n == 0x3000

def splitWhitespace (s : List Char) : List (List Char) :=
  (s.splitOnP isWhitespace).filter fun w => !w.isEmpty

/-- `display_label`: formatters are dropped, control characters and the daemon's own punctuation
become spaces, runs of white space become one space, and what is longer than 64 characters is
cut. -/
def displayLabel (label : String) : String :=
  let cleaned := (label.toList.filter fun c => !isInvisibleFormat c).map fun c =>
    if isControl c || c == '"' || c == '(' || c == ')' then ' ' else c
  let collapsed := [' '].intercalate (splitWhitespace cleaned)
  String.ofList (if 64 < collapsed.length then collapsed.take 64 ++ ['…'] else collapsed)

end SecretManager
