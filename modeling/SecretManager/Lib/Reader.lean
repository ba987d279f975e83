import SecretManager.Lib.Wire

/-!
# Readers and the layouts they accept

A reader moves a cursor over a byte string and fails with an error of its own. A layout says which
byte strings encode which values. `Reads p layout` says that the two are the same thing: the reader
succeeds on a byte string exactly when it starts with an encoding, answers the value that is encoded
and stops right behind it.

The rules build the layout of a reader from those of its parts, so a format is proved field by
field. Two facts come for free, because a reader is a function: no encoding is the beginning of
another (`Reads.unambiguous`), and a byte string cut inside its encoding is refused (`Reads.cut`).

A check that enough bytes are left, made before the fields are read, depends on what follows the
fields. `Reads.room` shows that it changes nothing, provided that no encoding is shorter than the
check asks for.
-/

/-- A position in a byte string: how much was read, and what is left. -/
@[ext]
structure Cursor where
  pos : Nat
  rest : List UInt8
  deriving DecidableEq, Repr

namespace Cursor

def new (bytes : List UInt8) : Cursor := ⟨0, bytes⟩

def remaining (c : Cursor) : Nat := c.rest.length

/-- The cursor behind the next `n` bytes. -/
def advance (c : Cursor) (n : Nat) : Cursor := ⟨c.pos + n, c.rest.drop n⟩

end Cursor

abbrev Reader (ε : Type) (α : Type) := StateT Cursor (Except ε) α

namespace Reader

variable {ε α β : Type}

def take (n : Nat) (e : ε) : Reader ε (List UInt8) := fun c =>
  if n ≤ c.remaining then .ok (c.rest.take n, c.advance n) else .error e

/-- Go on only if the condition holds. -/
def ensure (ok : Prop) [Decidable ok] (e : ε) : Reader ε Unit := fun c =>
  if ok then .ok ((), c) else .error e

/-- Go on only if `n` more bytes are there; the error may tell how many are. -/
def room (n : Nat) (e : Nat → ε) : Reader ε Unit := fun c =>
  if n ≤ c.remaining then .ok ((), c) else .error (e c.remaining)

/-- A value computed from what was read, or its error. -/
def ofExcept (r : Except ε α) : Reader ε α := fun c => r.map fun a => (a, c)

def u8 (e : ε) : Reader ε UInt8 := do
  let bytes ← take 1 e
  return UInt8.ofNat (Wire.ofBe bytes)

def u32 (e : ε) : Reader ε UInt32 := do
  let bytes ← take 4 e
  return UInt32.ofNat (Wire.ofBe bytes)

def u64 (e : ε) : Reader ε UInt64 := do
  let bytes ← take 8 e
  return UInt64.ofNat (Wire.ofBe bytes)

/-- One after another, a given number of times. -/
def times (p : Reader ε α) : Nat → Reader ε (List α)
  | 0 => pure []
  | n + 1 => do
    let a ← p
    let as ← times p n
    return a :: as

end Reader

/-- Which byte strings encode which values. -/
abbrev Layout (α : Type) := α → List UInt8 → Prop

namespace Layout

variable {α β : Type}

/-- One value behind another, whose layout may depend on it. -/
def bind (G : Layout α) (H : α → Layout β) : Layout β := fun b enc =>
  ∃ a e₁ e₂, G a e₁ ∧ H a b e₂ ∧ enc = e₁ ++ e₂

def pure (a : α) : Layout α := fun b enc => b = a ∧ enc = []

def list (G : Layout α) : Layout (List α) := fun as enc =>
  ∃ encs, List.Forall₂ G as encs ∧ enc = encs.flatten

/-- What is read of the values of a type, each with its encoding. -/
def of {ω : Type} (read : ω → α) (encode : ω → List UInt8) : Layout α := fun a enc =>
  ∃ w, a = read w ∧ enc = encode w

theorem list_of {ω : Type} {read : ω → α} {encode : ω → List UInt8} {as : List α}
    {enc : List UInt8} :
    (of read encode).list as enc ↔ ∃ ws : List ω, as = ws.map read ∧ enc = ws.flatMap encode := by
  constructor
  · rintro ⟨encs, each, rfl⟩
    induction each with
    | nil => exact ⟨[], rfl, rfl⟩
    | cons head _ ih =>
      obtain ⟨w, rfl, rfl⟩ := head
      obtain ⟨ws, rfl, same⟩ := ih
      exact ⟨w :: ws, rfl, by rw [List.flatten_cons, same, List.flatMap_cons]⟩
  · rintro ⟨ws, rfl, rfl⟩
    refine ⟨ws.map encode, ?_, List.flatMap_def⟩
    induction ws with
    | nil => exact .nil
    | cons w ws ih => exact .cons ⟨w, rfl, rfl⟩ ih

/-- A list of encodings is as long as its elements make it. -/
theorem le_length_list {G : Layout α} {n : Nat} (long : ∀ a enc, G a enc → n ≤ enc.length)
    {as : List α} {enc : List UInt8} (layout : G.list as enc) : as.length * n ≤ enc.length := by
  obtain ⟨encs, each, rfl⟩ := layout
  induction each with
  | nil => simp
  | cons head _ ih =>
    have := long _ _ head
    rw [List.length_cons, List.flatten_cons, List.length_append, Nat.succ_mul]
    omega

end Layout

/-- **The reader accepts the layout**, and nothing else. -/
def Reads {ε α : Type} (p : Reader ε α) (G : Layout α) : Prop :=
  ∀ c a c', p c = .ok (a, c') ↔ ∃ enc, G a enc ∧ c.rest = enc ++ c'.rest ∧
    c'.pos = c.pos + enc.length

namespace Reads

variable {ε α β : Type} {p : Reader ε α} {f : α → Reader ε β} {G G' : Layout α} {H : α → Layout β}

theorem congr (reads : Reads p G) (same : ∀ a enc, G a enc ↔ G' a enc) : Reads p G' := by
  intro c a c'
  rw [reads c a c']
  exact exists_congr fun enc => and_congr_left' (same a enc)

/-! ## The rules -/

theorem pure (a : α) : Reads (pure a : Reader ε α) (Layout.pure a) := by
  intro c b c'
  constructor
  · intro h
    cases h
    exact ⟨[], ⟨rfl, rfl⟩, rfl, rfl⟩
  · rintro ⟨enc, ⟨rfl, rfl⟩, rest, pos⟩
    obtain rfl : c' = c := Cursor.ext pos rest.symm
    rfl

theorem bind (first : Reads p G) (next : ∀ a enc, G a enc → Reads (f a) (H a)) :
    Reads (p >>= f) (G.bind H) := by
  intro c b c'
  constructor
  · intro h
    change (p c >>= fun r => f r.1 r.2) = .ok (b, c') at h
    cases read : p c with
    | error e =>
      rw [read] at h
      cases h
    | ok r =>
      obtain ⟨a, c₁⟩ := r
      rw [read] at h
      obtain ⟨e₁, enc₁, rest₁, pos₁⟩ := (first c a c₁).mp read
      obtain ⟨e₂, enc₂, rest₂, pos₂⟩ := (next a e₁ enc₁ c₁ b c').mp h
      refine ⟨e₁ ++ e₂, ⟨a, e₁, e₂, enc₁, enc₂, rfl⟩, ?_, ?_⟩
      · rw [rest₁, rest₂, List.append_assoc]
      · rw [pos₂, pos₁, List.length_append, Nat.add_assoc]
  · rintro ⟨_, ⟨a, e₁, e₂, enc₁, enc₂, rfl⟩, rest, pos⟩
    have read : p c = .ok (a, ⟨c.pos + e₁.length, e₂ ++ c'.rest⟩) :=
      (first _ _ _).mpr ⟨e₁, enc₁, by rw [rest, List.append_assoc], rfl⟩
    have then_ : f a ⟨c.pos + e₁.length, e₂ ++ c'.rest⟩ = .ok (b, c') :=
      (next a e₁ enc₁ _ _ _).mpr ⟨e₂, enc₂, rfl, by rw [pos, List.length_append, Nat.add_assoc]⟩
    change (p c >>= fun r => f r.1 r.2) = .ok (b, c')
    rw [read]
    exact then_

theorem take (n : Nat) (e : ε) :
    Reads (Reader.take n e) fun bytes enc => bytes = enc ∧ enc.length = n := by
  intro c bytes c'
  unfold Reader.take
  split
  next enough =>
    have len : (c.rest.take n).length = n := List.length_take_of_le enough
    constructor
    · intro h
      cases h
      exact ⟨_, ⟨rfl, len⟩, (List.take_append_drop n c.rest).symm, by rw [len]; rfl⟩
    · rintro ⟨_, ⟨rfl, rfl⟩, rest, pos⟩
      have head : c.rest.take bytes.length = bytes := by rw [rest, List.take_left]
      have tail : c.advance bytes.length = c' := by
        refine Cursor.ext pos.symm ?_
        change c.rest.drop bytes.length = c'.rest
        rw [rest, List.drop_left]
      rw [head, tail]
  next few =>
    constructor
    · intro h
      cases h
    · rintro ⟨_, ⟨rfl, rfl⟩, rest, -⟩
      refine absurd ?_ few
      rw [Cursor.remaining, rest, List.length_append]
      exact Nat.le_add_right _ _

theorem ensure (ok : Prop) [Decidable ok] (e : ε) :
    Reads (Reader.ensure ok e) fun _ enc => ok ∧ enc = [] := by
  intro c u c'
  unfold Reader.ensure
  split
  next holds =>
    constructor
    · intro h
      cases h
      exact ⟨[], ⟨holds, rfl⟩, rfl, rfl⟩
    · rintro ⟨_, ⟨-, rfl⟩, rest, pos⟩
      obtain rfl : c' = c := Cursor.ext pos rest.symm
      rfl
  next fails =>
    constructor
    · intro h
      cases h
    · rintro ⟨_, ⟨holds, -⟩, -⟩
      exact absurd holds fails

theorem ofExcept (r : Except ε α) :
    Reads (Reader.ofExcept r) fun a enc => r = .ok a ∧ enc = [] := by
  intro c a c'
  cases r with
  | error e =>
    constructor
    · intro h
      cases h
    · rintro ⟨_, ⟨h, -⟩, -⟩
      cases h
  | ok b =>
    constructor
    · intro h
      cases h
      exact ⟨[], ⟨rfl, rfl⟩, rfl, rfl⟩
    · rintro ⟨_, ⟨h, rfl⟩, rest, pos⟩
      cases h
      obtain rfl : c' = c := Cursor.ext pos rest.symm
      rfl

/-- **A check in advance changes nothing** where every encoding is as long as it asks for. -/
theorem room {n : Nat} (e : Nat → ε) (reads : Reads p G)
    (long : ∀ a enc, G a enc → n ≤ enc.length) : Reads (Reader.room n e >>= fun _ => p) G := by
  intro c a c'
  have step : (Reader.room n e >>= fun _ => p) c =
      if n ≤ c.remaining then p c else .error (e c.remaining) := by
    change (Reader.room n e c >>= fun r => p r.2) = _
    unfold Reader.room
    split
    · rfl
    · rfl
  rw [step]
  split
  · exact reads c a c'
  next few =>
    constructor
    · intro h
      cases h
    · rintro ⟨enc, layout, rest, -⟩
      refine absurd ((long a enc layout).trans ?_) few
      rw [Cursor.remaining, rest, List.length_append]
      exact Nat.le_add_right _ _

theorem times (reads : Reads p G) (n : Nat) :
    Reads (Reader.times p n) fun as enc => as.length = n ∧ G.list as enc := by
  induction n with
  | zero =>
    refine (Reads.pure []).congr fun as enc => ?_
    constructor
    · rintro ⟨rfl, rfl⟩
      exact ⟨rfl, [], .nil, rfl⟩
    · rintro ⟨len, encs, each, rfl⟩
      obtain rfl := List.length_eq_zero_iff.mp len
      cases each
      exact ⟨rfl, rfl⟩
  | succ n ih =>
    refine (reads.bind fun a _ _ => ih.bind fun as _ _ => Reads.pure (a :: as)).congr fun as enc => ?_
    constructor
    · rintro ⟨a, e₁, e₂, enc₁, ⟨as, e₃, e₄, ⟨len, encs, each, rfl⟩, ⟨rfl, rfl⟩, rfl⟩, rfl⟩
      exact ⟨by rw [List.length_cons, len], e₁ :: encs, .cons enc₁ each, by simp⟩
    · rintro ⟨len, encs, each, rfl⟩
      cases each with
      | nil => cases len
      | @cons a e₁ as encs enc₁ each =>
        exact ⟨a, e₁, encs.flatten, enc₁,
          ⟨as, encs.flatten, [], ⟨Nat.succ.inj len, encs, each, rfl⟩, ⟨rfl, rfl⟩, by simp⟩, by simp⟩

/-! ## Integers -/

/-- A fixed number of bytes, through an encoding that is undone by reading them. -/
theorem scalar (n : Nat) (e : ε) (read : List UInt8 → α) (encode : α → List UInt8)
    (length : ∀ a, (encode a).length = n) (back : ∀ a, read (encode a) = a)
    (forth : ∀ bytes : List UInt8, bytes.length = n → encode (read bytes) = bytes) :
    Reads (Reader.take n e >>= fun bytes => Pure.pure (read bytes)) fun a enc => enc = encode a := by
  refine ((Reads.take n e).bind fun bytes _ _ => Reads.pure (read bytes)).congr fun a enc => ?_
  constructor
  · rintro ⟨bytes, _, _, ⟨rfl, len⟩, ⟨rfl, rfl⟩, rfl⟩
    rw [forth bytes len, List.append_nil]
  · rintro rfl
    exact ⟨encode a, _, [], ⟨rfl, length a⟩, ⟨(back a).symm, rfl⟩, (List.append_nil _).symm⟩

theorem u8 (e : ε) : Reads (Reader.u8 e) fun a enc => enc = [a] := by
  refine scalar 1 e (fun bytes => UInt8.ofNat (Wire.ofBe bytes)) (fun a => [a])
    (fun _ => rfl) (fun a => ?_) fun bytes len => ?_
  · simp [Wire.ofBe]
  · obtain ⟨b, rfl⟩ := List.length_eq_one_iff.mp len
    simp [Wire.ofBe]

theorem u32 (e : ε) : Reads (Reader.u32 e) fun a enc => enc = Wire.be32 a.toNat := by
  refine scalar 4 e (fun bytes => UInt32.ofNat (Wire.ofBe bytes)) (fun a => Wire.be32 a.toNat)
    (fun a => Wire.be32_length _) (fun a => ?_) fun bytes len => ?_
  · have lt := a.toNat_lt
    rw [Wire.ofBe_be32 (by omega), UInt32.ofNat_toNat]
  · have lt : Wire.ofBe bytes < UInt32.size := by
      have := Wire.ofBe_lt bytes
      rw [len] at this
      simpa using this
    rw [UInt32.toNat_ofNat_of_lt' lt, Wire.be32_ofBe len]

theorem u64 (e : ε) : Reads (Reader.u64 e) fun a enc => enc = Wire.be64 a.toNat := by
  refine scalar 8 e (fun bytes => UInt64.ofNat (Wire.ofBe bytes)) (fun a => Wire.be64 a.toNat)
    (fun a => Wire.be64_length _) (fun a => ?_) fun bytes len => ?_
  · have lt := a.toNat_lt
    rw [Wire.ofBe_be64 (by omega), UInt64.ofNat_toNat]
  · have lt : Wire.ofBe bytes < UInt64.size := by
      have := Wire.ofBe_lt bytes
      rw [len] at this
      simpa using this
    rw [UInt64.toNat_ofNat_of_lt' lt, Wire.be64_ofBe len]

/-! ## What follows from a reader being a function -/

section

variable (reads : Reads p G) {a a' : α} {e e' r r' : List UInt8}

include reads

theorem eq_ok (layout : G a e) (pos : Nat) (r : List UInt8) :
    p ⟨pos, e ++ r⟩ = .ok (a, ⟨pos + e.length, r⟩) :=
  (reads _ _ _).mpr ⟨e, layout, rfl, rfl⟩

/-- **No encoding is the beginning of another.** -/
theorem unambiguous (layout : G a e) (layout' : G a' e') (same : e ++ r = e' ++ r') :
    a = a' ∧ e = e' ∧ r = r' := by
  have one := reads.eq_ok layout 0 r
  have other := reads.eq_ok layout' 0 r'
  rw [same, other] at one
  obtain ⟨rfl, after⟩ := Prod.mk.inj (Except.ok.inj one)
  obtain rfl : r' = r := congrArg Cursor.rest after
  exact ⟨rfl, List.append_cancel_right same, rfl⟩

/-- **A byte string cut inside its encoding is refused.** -/
theorem cut (layout : G a e) {k : Nat} (short : k < e.length) :
    ∃ err, p (.new (e.take k)) = .error err := by
  cases read : p (.new (e.take k)) with
  | error err => exact ⟨err, rfl⟩
  | ok found =>
    obtain ⟨a', c'⟩ := found
    obtain ⟨e', layout', rest, -⟩ := (reads _ _ _).mp read
    have whole : e ++ [] = e' ++ (c'.rest ++ e.drop k) := by
      rw [List.append_nil, ← List.append_assoc, ← rest]
      exact (List.take_append_drop k e).symm
    obtain ⟨-, -, nothing⟩ := reads.unambiguous layout layout' whole
    have dropped : e.drop k = [] := (List.append_eq_nil_iff.mp nothing.symm).2
    exact absurd (List.drop_eq_nil_iff.mp dropped) (Nat.not_le.mpr short)

end

end Reads
