import SecretManager.Prompt.Pinentry
import SecretManager.Laws.Utf8

/-!
# What passes between the daemon and pinentry

`Escaped` says which bytes an escaped text stands for, given how an escape is read. `unescape` reads
it with the integer parser, which takes a plus sign for the first digit: **`%+f` is an escape to
it**. All other texts are read as two hexadecimal digits ask.

What `escape` writes is read back, and stays on one line.
-/

namespace SecretManager.Pinentry

variable {bs out : Bytes}

open String (utf8EncodeChar)

/-! ## Escaped text -/

/-- The bytes that some escaped bytes stand for; `read` gives the byte of an escape. -/
inductive Escaped (read : UInt8 → UInt8 → Option UInt8) : Bytes → Bytes → Prop where
  | nil : Escaped read [] []
  | plain {b bs out} (other : b ≠ 0x25) (rest : Escaped read bs out) : Escaped read (b :: bs) (b :: out)
  | escape {h l v bs out} (value : read h l = some v) (rest : Escaped read bs out) :
      Escaped read (0x25 :: h :: l :: bs) (v :: out)

/-- Some escape, scanned from the left, is a plus sign and a digit. -/
def signed : Bytes → Bool
  | [] => false
  | b :: rest =>
    if b = 0x25 then
      match rest with
      | h :: l :: rest => (h == 0x2b && (hexDigit l).isSome) || signed rest
      | _ => false
    else signed rest

/-- Every escape is two digits or a plus sign and a digit, one of the latter is there, and the bytes
are those of a text. -/
def Signed (s : String) : Prop :=
  signed (utf8 s) = true ∧ ∃ t, Escaped fromStrRadix (utf8 s) (utf8 t)

theorem hexDigit_ascii {b v : UInt8} (h : hexDigit b = some v) : b.toNat < 128 := by
  unfold hexDigit at h
  repeat' split at h
  all_goals simp_all [UInt8.le_iff_toNat_le]
  all_goals omega

theorem fromStrRadix_of_ne {h l : UInt8} (plus : h ≠ 0x2b) :
    fromStrRadix h l = hexPair h l := if_neg plus

theorem hexPair_plus (l : UInt8) : hexPair 0x2b l = none := rfl

theorem fromStrRadix_utf8 {h l v : UInt8} (read : fromStrRadix h l = some v) :
    ∃ hex, ofUtf8 [h, l] = some hex := by
  have ascii : h.toNat < 128 ∧ l.toNat < 128 := by
    unfold fromStrRadix hexPair at read
    split at read
    next plus => exact ⟨by rw [plus]; decide, hexDigit_ascii read⟩
    next =>
      obtain ⟨x, high, read⟩ := Option.bind_eq_some_iff.mp read
      obtain ⟨y, low, -⟩ := Option.map_eq_some_iff.mp read
      exact ⟨hexDigit_ascii high, hexDigit_ascii low⟩
  have byte : ∀ b : UInt8, b.toNat < 128 → utf8EncodeChar (Char.ofNat b.toNat) = [b] := by
    intro b small
    have back : (Char.ofNat b.toNat).toNat = b.toNat := by
      rw [Char.toNat_ofNat, if_pos (.inl (by omega))]
    rw [utf8EncodeChar_ascii (by rw [back]; exact small), back, UInt8.ofNat_toNat]
  refine ⟨String.ofList [Char.ofNat h.toNat, Char.ofNat l.toNat], ?_⟩
  rw [← ofUtf8_utf8 (String.ofList _), utf8_ofList]
  simp [byte, ascii]

/-- **The loop reads escaped bytes**, with its own reading of an escape. -/
theorem decode_eq_ok : decode bs = .ok out ↔ Escaped fromStrRadix bs out := by
  constructor
  · intro run
    fun_induction decode bs generalizing out with
    | case1 => cases run; exact .nil
    | case2 | case3 | case5 => cases run
    | case4 h l rest hex v value text ih =>
      cases later : decode rest with
      | error e => rw [later] at run; cases run
      | ok out => rw [later] at run; cases run; exact .escape value (ih later)
    | case6 b rest other ih =>
      cases later : decode rest with
      | error e => rw [later] at run; cases run
      | ok out => rw [later] at run; cases run; exact .plain other (ih later)
  · intro escaped
    induction escaped with
    | nil => rfl
    | plain other rest ih => rw [decode.eq_def]; simp [other, ih, Except.map]
    | escape value rest ih =>
      obtain ⟨hex, text⟩ := fromStrRadix_utf8 value
      simp [decode, text, value, ih, Except.map]

theorem unescape_eq_ok {s t : String} :
    unescape s = .ok t ↔ Escaped fromStrRadix (utf8 s) (utf8 t) := by
  rw [← decode_eq_ok, unescape]
  cases decode (utf8 s) with
  | error e => simp [Except.bind]
  | ok out =>
    cases text : ofUtf8 out with
    | none =>
      refine ⟨fun h => ?_, fun h => ?_⟩
      · simp [Except.bind, text] at h
      · cases h
        rw [ofUtf8_utf8] at text
        cases text
    | some u =>
      obtain rfl := utf8_ofUtf8 text
      simp only [Except.bind, ofUtf8_utf8, Option.elim_some, Except.ok.injEq]
      exact ⟨congrArg utf8, fun h => utf8_inj h⟩

theorem Escaped.strict_iff (escaped : Escaped fromStrRadix bs out) :
    Escaped hexPair bs out ↔ signed bs = false := by
  induction escaped with
  | nil => simp [signed, Escaped.nil]
  | @plain b bs out other rest ih =>
    rw [signed.eq_def]
    simp only [if_neg other, ← ih]
    refine ⟨fun h => ?_, .plain other⟩
    cases h with
    | plain _ rest => exact rest
    | escape => exact absurd rfl other
  | @escape h l v bs out value rest ih =>
    have strict : Escaped hexPair (0x25 :: h :: l :: bs) (v :: out) ↔ hexPair h l = some v ∧ Escaped hexPair bs out := by
      refine ⟨fun e => ?_, fun e => .escape e.1 e.2⟩
      cases e with
      | plain other => exact absurd rfl other
      | escape value rest => exact ⟨value, rest⟩
    rw [strict, ih]
    by_cases plus : h = 0x2b
    · subst plus
      have digit : hexDigit l = some v := value
      simp [signed, hexPair_plus, digit]
    · rw [fromStrRadix_of_ne plus] at value
      simp [signed, plus, value]

theorem Escaped.loosen (escaped : Escaped hexPair bs out) : Escaped fromStrRadix bs out := by
  induction escaped with
  | nil => exact .nil
  | plain other rest ih => exact .plain other ih
  | @escape h l v bs out value rest ih =>
    have plus : h ≠ 0x2b := by
      rintro rfl
      cases value
    exact .escape ((fromStrRadix_of_ne plus).trans value) ih

/-- **`unescape` accepts the texts whose escapes are two hexadecimal digits** and that stand for a
text, which it returns, unless a plus sign stands where a first digit should. -/
theorem unescape_exact (s : String) :
    (∀ t, unescape s = .ok t ↔ Escaped hexPair (utf8 s) (utf8 t)) ↔ ¬Signed s := by
  constructor
  · rintro exact ⟨plus, t, read⟩
    have strict := read.strict_iff.mp ((exact t).mp (unescape_eq_ok.mpr read))
    rw [plus] at strict
    cases strict
  · intro unsigned t
    rw [unescape_eq_ok]
    refine ⟨fun read => read.strict_iff.mpr ?_, .loosen⟩
    rw [Bool.eq_false_iff]
    exact fun plus => unsigned ⟨plus, t, read⟩

/-- **A plus sign is taken for a digit.** -/
theorem unescape_reads_sign :
    unescape "%+f" = .ok "\x0f" ∧ ¬Escaped hexPair (utf8 "%+f") (utf8 "\x0f") := by
  have bytes : utf8 "%+f" = [0x25, 0x2b, 0x66] ∧ utf8 "\x0f" = [0x0f] := by decide
  have read : Escaped fromStrRadix [0x25, 0x2b, 0x66] [0x0f] := .escape rfl .nil
  rw [unescape_eq_ok]
  refine ⟨read, fun strict => ?_⟩
  cases read.strict_iff.mp strict

/-! ## Commands -/

/-- A byte that an Assuan line can hold. -/
abbrev Clean (b : UInt8) : Prop := 0x20 ≤ b ∧ b ≠ 0x7f

theorem Escaped.append {read : UInt8 → UInt8 → Option UInt8} {a b x y : Bytes}
    (first : Escaped read a x) (second : Escaped read b y) : Escaped read (a ++ b) (x ++ y) := by
  induction first with
  | nil => exact second
  | plain other rest ih => exact .plain other ih
  | escape value rest ih => exact .escape value ih

theorem Escaped.of_plain {read : UInt8 → UInt8 → Option UInt8} (other : ∀ b ∈ bs, b ≠ 0x25) :
    Escaped read bs bs := by
  induction bs with
  | nil => exact .nil
  | cons b bs ih => exact .plain (other b (by simp)) (ih fun b mem => other b (by simp [mem]))

/-- One character: it is read back, and no byte of it would end or disturb a line. -/
theorem escapeChar_spec (c : Char) :
    Escaped fromStrRadix ((escapeChar c).flatMap utf8EncodeChar) (utf8EncodeChar c) ∧
      ∀ b ∈ (escapeChar c).flatMap utf8EncodeChar, Clean b := by
  unfold escapeChar
  split
  next percent =>
    subst percent
    have bytes : ['%', '2', '5'].flatMap utf8EncodeChar = [0x25, 0x32, 0x35] := by decide
    rw [bytes]
    exact ⟨.escape rfl .nil, by simp [Clean, UInt8.le_iff_toNat_le]⟩
  next other =>
    split
    next control =>
      have digits : ∀ n < 128, n < 0x20 ∨ n = 0x7f →
          let h := UInt8.ofNat (Nat.digitChar (n / 16)).toUpper.toNat
          let l := UInt8.ofNat (Nat.digitChar (n % 16)).toUpper.toNat
          ['%', (Nat.digitChar (n / 16)).toUpper, (Nat.digitChar (n % 16)).toUpper].flatMap utf8EncodeChar =
              [0x25, h, l] ∧ fromStrRadix h l = some (UInt8.ofNat n) ∧ Clean h ∧ Clean l := by decide
      have ascii : c.toNat < 128 := by omega
      obtain ⟨bytes, value, high, low⟩ := digits c.toNat ascii control
      rw [bytes, utf8EncodeChar_ascii ascii]
      exact ⟨.escape value .nil, by simp [high, low, Clean]⟩
    next plain =>
      have clean : ∀ b ∈ utf8EncodeChar c, b ≠ 0x25 ∧ Clean b := by
        intro b mem
        by_cases ascii : c.toNat < 128
        · rw [utf8EncodeChar_ascii ascii, List.mem_singleton] at mem
          have percent : c.toNat ≠ 0x25 := fun h => other (Char.toNat_inj.mp h)
          have back : b.toNat = c.toNat := by rw [mem, UInt8.toNat_ofNat', Nat.mod_eq_of_lt (by omega)]
          simp only [Clean, UInt8.le_iff_toNat_le, ne_eq, ← UInt8.toNat_inj, back]
          exact ⟨percent, by simpa using plain⟩
        · have wide := utf8EncodeChar_wide (Nat.not_lt.mp ascii) b mem
          simp only [Clean, UInt8.le_iff_toNat_le, ne_eq, ← UInt8.toNat_inj]
          exact ⟨by simp; omega, by simp; omega, by simp; omega⟩
      rw [List.flatMap_singleton]
      exact ⟨.of_plain fun b mem => (clean b mem).1, fun b mem => (clean b mem).2⟩

theorem escape_spec (s : String) :
    Escaped fromStrRadix (utf8 (escape s)) (utf8 s) ∧ ∀ b ∈ utf8 (escape s), Clean b := by
  rw [escape, utf8_ofList, utf8_eq s]
  induction s.toList with
  | nil => exact ⟨.nil, by simp⟩
  | cons c cs ih =>
    obtain ⟨read, clean⟩ := escapeChar_spec c
    simp only [List.flatMap_cons, List.flatMap_append, List.mem_append]
    exact ⟨read.append ih.1, fun b mem => mem.elim (clean b) (ih.2 b)⟩

/-- The verb of a line. -/
def verb (line : Bytes) : Bytes := line.takeWhile (· ≠ 0x20)

/-- What is sent depends on the lines and on how errors are taken, one by one. -/
theorem issue_verbs (answer : Nat → Except PinentryError Unit) {cs cs' : List (String × Bool)} :
    ∀ n, (cs.map fun c => (verb (send c.1), c.2)) = (cs'.map fun c => (verb (send c.1), c.2)) →
      (issue answer n cs).1.map verb = (issue answer n cs').1.map verb := by
  induction cs generalizing cs' with
  | nil =>
    intro n same
    rw [List.map_nil, eq_comm, List.map_eq_nil_iff] at same
    rw [same]
  | cons c cs ih =>
    intro n same
    obtain ⟨⟨line', lenient'⟩, cs', rfl, here, rest⟩ := List.map_eq_cons_iff.mp same.symm
    obtain ⟨same, rfl⟩ := Prod.mk.inj here
    have later := ih (n + 1) rest.symm
    by_cases on : goesOn c.2 (answer n) = true <;> simp [issue, on, same, later]

theorem issue_sends {answer : Nat → Except PinentryError Unit} {cs : List (String × Bool)}
    {line : Bytes} : ∀ n, line ∈ (issue answer n cs).1 → ∃ c ∈ cs, line = send c.1 := by
  induction cs with
  | nil => simp [issue]
  | cons c cs ih =>
    intro n mem
    by_cases on : goesOn c.2 (answer n) = true
    · simp only [issue, on, if_true, List.mem_cons] at mem
      rcases mem with rfl | mem
      · exact ⟨c, by simp⟩
      · obtain ⟨d, later, sent⟩ := ih (n + 1) mem
        exact ⟨d, by simp [later], sent⟩
    · exact ⟨c, by simp_all [issue]⟩

theorem verb_send {v : String} (ends : (verb (utf8 v)).length ≠ (utf8 v).length) (t : String) :
    verb (send (v ++ t)) = verb (utf8 v) := by
  unfold verb at *
  rw [send, utf8_append, List.append_assoc, List.takeWhile_append, if_neg ends]

theorem setupCommands_clean {req : PinRequest} {c : String × Bool}
    (command : c ∈ setupCommands req) : ∀ b ∈ utf8 c.1, Clean b := by
  have line : ∀ v t : String, ((utf8 v).all fun b => Clean b) = true → ∀ b ∈ utf8 (v ++ escape t), Clean b := by
    intro v t verb b mem
    rw [utf8_append, List.mem_append] at mem
    exact mem.elim (fun here => by simpa using List.all_eq_true.mp verb b here) ((escape_spec t).2 b)
  simp only [setupCommands, List.mem_append, List.mem_cons, List.not_mem_nil, or_false] at command
  rcases command with (title | rfl | rfl) | error
  · split at title
    · cases title
    · cases List.mem_singleton.mp title
      exact line _ _ (by decide)
  · exact line _ _ (by decide)
  · exact line _ _ (by decide)
  · cases fails : req.error with
    | none => simp [fails] at error
    | some e =>
      rw [fails, Option.elim_some, List.mem_singleton] at error
      subst error
      exact line _ _ (by decide)

/-- **No text of a request can inject a command.** Every line of a setup ends with its one newline
and has no control byte before it; which verbs are sent depends on the fields that are there and on
how the lines are answered, and not on any text; and what is escaped is read back. -/
theorem setup_injects_nothing (answer : Nat → Except PinentryError Unit) (req : PinRequest)
    (s : String) :
    (∀ line ∈ (setup answer req).1, ∃ text, line = text ++ [0x0a] ∧ ∀ b ∈ text, Clean b) ∧
    (setup answer req).1.map verb =
      (setup answer ⟨if req.title.isEmpty then "" else "-", "", "", req.error.map fun _ => ""⟩).1.map verb ∧
    unescape (escape s) = .ok s := by
  refine ⟨fun line sent => ?_, issue_verbs answer 0 ?_, unescape_eq_ok.mpr (escape_spec s).1⟩
  · obtain ⟨c, command, rfl⟩ := issue_sends 0 sent
    exact ⟨utf8 c.1, rfl, setupCommands_clean command⟩
  · have title := @verb_send "SETTITLE " (by decide)
    have description := @verb_send "SETDESC " (by decide)
    have prompt := @verb_send "SETPROMPT " (by decide)
    have error := @verb_send "SETERROR " (by decide)
    cases untitled : req.title.isEmpty <;> cases fails : req.error <;>
      simp [setupCommands, untitled, fails, title, description, prompt, error]

end SecretManager.Pinentry
