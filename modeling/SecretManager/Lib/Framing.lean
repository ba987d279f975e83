import Mathlib

/-!
# Length-prefixed fields

A sequence of byte strings laid end to end, each behind a length field of fixed width. The number of
fields is not written, and need not be: **a framed sequence determines its fields** as long as the
length field tells the lengths in use apart. Nothing here fixes the width, the byte order or the
type of a byte.
-/

namespace Framing

variable {α β : Type*}

/-- **Pieces laid end to end are determined by the text** if none is empty and the first can be read
off whatever follows it. -/
theorem flatMap_inj {p : α → Prop} {piece : α → List β} (filled : ∀ a, piece a ≠ [])
    (front : ∀ {a b rest rest'}, p a → p b → piece a ++ rest = piece b ++ rest' → a = b ∧
      rest = rest') :
    ∀ {as bs : List α}, (∀ a ∈ as, p a) → (∀ b ∈ bs, p b) → as.flatMap piece = bs.flatMap piece → as = bs := by
  intro as
  induction as with
  | nil =>
    intro bs _ _ h
    cases bs with
    | nil => rfl
    | cons b bs => exact absurd (List.append_eq_nil_iff.mp h.symm).1 (filled b)
  | cons a as ih =>
    intro bs short short' h
    cases bs with
    | nil => exact absurd (List.append_eq_nil_iff.mp h).1 (filled a)
    | cons b bs =>
      rw [List.forall_mem_cons] at short short'
      obtain ⟨rfl, rest⟩ := front short.1 short'.1 h
      rw [ih short.2 short'.2 rest]

variable (len : Nat → List β)

def frame (field : List β) : List β := len field.length ++ field

/-- The fields in order, with nothing between them and no count in front. -/
def frames (fields : List (List β)) : List β := fields.flatMap (frame len)

@[simp] theorem frames_nil : frames len [] = [] := rfl

@[simp] theorem frames_cons (field : List β) (fields : List (List β)) :
    frames len (field :: fields) = frame len field ++ frames len fields := rfl

@[simp] theorem frames_append (fields more : List (List β)) :
    frames len (fields ++ more) = frames len fields ++ frames len more :=
  List.flatMap_append

variable {len} {width bound : Nat}

theorem frame_ne_nil (positive : 0 < width) (fixed : ∀ n, (len n).length = width) (field : List β) :
    frame len field ≠ [] := by
  intro h
  have lengths := congrArg List.length h
  simp only [frame, List.length_append, fixed, List.length_nil] at lengths
  omega

/-- The first frame of a text is read off it: the length field by its width, then that many
bytes. -/
theorem frame_append_inj (fixed : ∀ n, (len n).length = width) (inj : Set.InjOn len {n | n < bound})
    {field field' rest rest' : List β} (short : field.length < bound)
    (short' : field'.length < bound) (h : frame len field ++ rest = frame len field' ++ rest') :
    field = field' ∧ rest = rest' := by
  simp only [frame, List.append_assoc] at h
  have sameWidth : (len field.length).length = (len field'.length).length := by
    rw [fixed, fixed]
  obtain ⟨lengths, tail⟩ := List.append_inj h sameWidth
  exact List.append_inj tail (inj short short' lengths)

/-- **A framed sequence determines its fields.** -/
theorem frames_inj (positive : 0 < width) (fixed : ∀ n, (len n).length = width)
    (inj : Set.InjOn len {n | n < bound}) :
    ∀ {fields fields' : List (List β)}, (∀ f ∈ fields, f.length < bound) →
      (∀ f ∈ fields', f.length < bound) → frames len fields = frames len fields' → fields = fields' :=
  flatMap_inj (frame_ne_nil positive fixed) (frame_append_inj fixed inj)

end Framing
