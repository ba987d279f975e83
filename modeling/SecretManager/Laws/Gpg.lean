import SecretManager.Gpg
import SecretManager.Lib.Firsts

/-!
# What the gpg helpers accept

The parser of the key listing is one pass with three variables. It returns what a reading by blocks
gives, a block being a `sec` or `ssb` line with what follows up to the next one.

A key id is compared after it was folded to its last sixteen digits. So **a full fingerprint matches
every key that shares those**, and the match is exact for all other ids.

Enrollments are collected with the first one winning. Two ids are the same enrollment when they have
one normal form, or none and are equal: the classes of a map, so that it does not matter whether an
item is compared with the items kept or with all items before it.
-/

namespace SecretManager.Gpg

open List

/-! ## Blocks -/

/-- Each `sec` or `ssb` line with the lines up to the next one. -/
def blocks : List (List Char) → List (List Char × List (List Char))
  | [] => []
  | l :: ls =>
    if kind l = .key then (l, ls.takeWhile fun l => kind l ≠ .key) :: blocks ls else blocks ls

/-- The keygrip of the first `grp` line, if it is good. -/
def firstGrip (ls : List (List Char)) : Option (List Char) :=
  ((ls.find? fun l => kind l = .grp).bind value).filter isHex40

/-- The fingerprint of the first good `fpr` line before the first `grp` line. -/
def firstFpr (ls : List (List Char)) : Option (List Char) :=
  (ls.takeWhile fun l => kind l ≠ .grp).findSome? fun l =>
    if kind l = .fpr then (value l).filter isHex40 else none

def blockKey (block : List Char × List (List Char)) : Option SecretKey :=
  if signs block.1 then (firstGrip block.2).bind fun grip => (firstFpr block.2).map fun fpr =>
    ⟨toUppercase fpr, toUppercase grip⟩
  else none

/-- What the rest of a block gives, the variables of the pass being what they are. -/
def pending (sign : Bool) (fpr : Option (List Char)) (ls : List (List Char)) : Option SecretKey :=
  if sign then (firstGrip ls).bind fun grip => (fpr.or ((firstFpr ls).map toUppercase)).map fun fpr =>
    ⟨fpr, toUppercase grip⟩
  else none

theorem blockKey_eq (l : List Char) (ls : List (List Char)) :
    blockKey (l, ls) = pending (signs l) none ls := by
  simp [blockKey, pending, Function.comp_def]

@[simp] theorem pending_nil (sign : Bool) (fpr : Option (List Char)) :
    pending sign fpr [] = none := by
  simp [pending, firstGrip]

@[simp] theorem pending_false (fpr : Option (List Char)) (ls : List (List Char)) :
    pending false fpr ls = none := rfl

theorem pending_fpr {l : List Char} (h : kind l = .fpr) (sign : Bool) (fpr : Option (List Char))
    (ls : List (List Char)) : pending sign fpr (l :: ls) =
      pending sign (fpr.or (((value l).filter isHex40).map toUppercase)) ls := by
  have grip : firstGrip (l :: ls) = firstGrip ls := by simp [firstGrip, h]
  have found : firstFpr (l :: ls) = ((value l).filter isHex40).or (firstFpr ls) := by
    cases good : (value l).filter isHex40 <;> simp [firstFpr, h, good]
  simp [pending, grip, found, Option.map_or, Option.or_assoc]

theorem pending_grp {l : List Char} (h : kind l = .grp) (sign : Bool) (fpr : Option (List Char))
    (ls : List (List Char)) : pending sign fpr (l :: ls) =
      if sign then ((value l).filter isHex40).bind fun grip => fpr.map fun fpr => ⟨fpr, toUppercase grip⟩
      else none := by
  simp [pending, firstGrip, firstFpr, h]

theorem pending_other {l : List Char} (h : kind l = .other) (sign : Bool) (fpr : Option (List Char))
    (ls : List (List Char)) : pending sign fpr (l :: ls) = pending sign fpr ls := by
  simp [pending, firstGrip, firstFpr, h]

/-- **The pass against the blocks**: what is there already, the rest of the open block, and the
blocks to come. -/
theorem foldl_line (ls : List (List Char)) : ∀ s : Scan, (ls.foldl Scan.line s).out =
    s.out ++ (pending s.sign s.fpr (ls.takeWhile fun l => kind l ≠ .key)).toList ++ (blocks ls).filterMap blockKey := by
  induction ls with
  | nil => simp [blocks]
  | cons l ls ih =>
    intro s
    rw [foldl_cons, ih]
    cases h : kind l with
    | key =>
      cases found : pending (signs l) none (ls.takeWhile fun l => kind l ≠ .key) <;>
        simp_all [Scan.line, blocks, blockKey_eq]
    | fpr => simp [Scan.line, h, blocks, pending_fpr]
    | grp =>
      obtain ⟨out, sign, fpr⟩ := s
      have bad : isHex40 [] = false := rfl
      cases sign <;> cases fpr <;> cases good : value l <;>
        simp [Scan.line, blocks, h, pending_grp, good, bad, Option.filter]
      split <;> simp
    | other => simp [Scan.line, h, blocks, pending_other]

/-- **The parser reads blocks.** It returns, in order, the key of each block that has one; the lines
that are no `sec`, `ssb`, `fpr` or `grp` line can be left out. -/
theorem parse_colons_reads_blocks (text : List Char) :
    parseColons text = (blocks (lines text)).filterMap blockKey ∧
    parseColons text = (blocks ((lines text).filter fun l => kind l ≠ .other)).filterMap blockKey := by
  have skips : ∀ (ls : List (List Char)) (s : Scan),
      ls.foldl Scan.line s = (ls.filter fun l => kind l ≠ .other).foldl Scan.line s := by
    intro ls
    induction ls with
    | nil => simp
    | cons l ls ih =>
      intro s
      by_cases h : kind l = .other <;> simp [h, ih, Scan.line]
  have reads := fun ls => foldl_line ls ⟨[], false, none⟩
  simp only [nil_append, pending_false, Option.toList_none] at reads
  exact ⟨reads _, by rw [parseColons, skips, reads]⟩

/-! ## Key ids -/

/-- The id is the fingerprint or its long id: but for `0x` and the case. -/
def NamesKey (input fpr : List Char) : Prop :=
  upperId input = toUppercase fpr ∨ upperId input = (toUppercase fpr).drop 24

/-- The id is a full fingerprint, another one than `fpr`, and shares its long id. -/
def SharesLongId (input fpr : List Char) : Prop :=
  isHex40 (upperId input) = true ∧ upperId input ≠ toUppercase fpr ∧ (upperId input).drop 24 = (toUppercase fpr).drop 24

theorem toUpper_hex {c : Char} (h : isHexDigit c = true) :
    isHexDigit c.toUpper = true ∧ c ≠ 'ﬀ' := by
  have ascii : ∀ n < 128, isHexDigit (Char.ofNat n) = true →
      isHexDigit (Char.ofNat n).toUpper = true ∧ Char.ofNat n ≠ 'ﬀ' := by decide
  have small : c.toNat < 128 := by
    simp only [isHexDigit, Bool.or_eq_true, Bool.and_eq_true, decide_eq_true_eq, Char.le_def,
      UInt32.le_iff_toNat_le, Char.toNat_val] at h
    have : '9'.toNat = 57 ∧ 'f'.toNat = 102 ∧ 'F'.toNat = 70 := by decide
    omega
  simpa using ascii c.toNat small (by simpa using h)

theorem toUppercase_hex {s : List Char} (h : isHex40 s = true) :
    isHex40 (toUppercase s) = true := by
  simp only [isHex40, toUppercase, Bool.and_eq_true, all_eq_true] at h ⊢
  have plain : (s.flatMap fun c => if c = 'ﬀ' then ['F', 'F'] else [c.toUpper]) = s.map Char.toUpper := by
    rw [map_eq_flatMap]
    exact flatMap_congr fun c mem => if_neg (toUpper_hex (h.2 c mem)).2
  rw [plain, length_map]
  exact ⟨h.1, by simpa using fun c mem => (toUpper_hex (h.2 c mem)).1⟩

/-- **A key id matches exactly** the key it names, unless it is the fingerprint of another key with
the same long id, which is folded to that. -/
theorem keyid_matches_exactly {fpr : List Char} (input : List Char) (full : isHex40 fpr = true) :
    (keyidMatches input fpr = true ↔ NamesKey input fpr) ↔ ¬ SharesLongId input fpr := by
  have full := toUppercase_hex full
  obtain ⟨length, hex⟩ : (toUppercase fpr).length = 40 ∧ (toUppercase fpr).all isHexDigit = true := by
    simpa [isHex40] using full
  have suffix : ∀ id : List Char, id.length = 16 →
      (id.isSuffixOf (toUppercase fpr) = true ↔ id = (toUppercase fpr).drop 24) := by
    intro id short
    rw [isSuffixOf_iff_suffix, suffix_iff_eq_drop, length, short]
  unfold keyidMatches NamesKey SharesLongId normalizeId
  generalize upperId input = id
  generalize toUppercase fpr = key at *
  have whole : id = key → id.length = 40 ∧ id.all isHexDigit = true := by
    rintro rfl
    exact ⟨length, hex⟩
  have part : id = key.drop 24 → id.length = 16 ∧ id.all isHexDigit = true := by
    rintro rfl
    exact ⟨by simp [length], all_eq_true.mpr fun c mem =>
      all_eq_true.mp hex c (mem_of_mem_drop mem)⟩
  by_cases digits : id.all isHexDigit = true
  · by_cases long : id.length = 40
    · have unequal : id ≠ key.drop 24 := fun h => by have := (part h).1; omega
      simp [digits, long, suffix, isHex40]
      tauto
    · have unequal : id ≠ key := fun h => long (whole h).1
      by_cases short : id.length = 16
      · simp [digits, short, suffix, isHex40, unequal]
      · have apart : id ≠ key.drop 24 := fun h => short (part h).1
        simp [long, short, isHex40, unequal, apart]
  · have unequal : ¬(id = key ∨ id = key.drop 24) := fun h =>
      digits (h.elim (fun h => (whole h).2) fun h => (part h).2)
    simp [digits, isHex40, unequal]

/-- **A full fingerprint matches another key**: it is compared by its long id alone. -/
theorem fingerprint_matches_another_key :
    let input := replicate 40 '0'
    let fpr := replicate 24 '1' ++ replicate 16 '0'
    isHex40 input = true ∧ isHex40 fpr = true ∧ keyidMatches input fpr = true ∧ ¬ NamesKey input fpr := by
  unfold NamesKey
  decide

theorem keyid_matches_exactly_prefixed :
    let fpr := replicate 24 '1' ++ replicate 16 'A'
    isHex40 fpr = true ∧ keyidMatches ('0' :: 'x' :: replicate 16 'a') fpr = true := by
  refine ⟨by decide, ((keyid_matches_exactly _ (by decide)).mpr ?_).mpr (.inr (by decide))⟩
  unfold SharesLongId
  decide

/-! ## Enrollments -/

/-- What two ids of one enrollment have in common. -/
def enrollmentClass (a : String) : List Char ⊕ String :=
  (normalizeId a.toList).elim (.inr a) .inl

theorem sameEnrollment_iff {a b : String} :
    sameEnrollment a b = true ↔ enrollmentClass a = enrollmentClass b := by
  unfold sameEnrollment enrollmentClass
  cases ha : normalizeId a.toList <;> cases hb : normalizeId b.toList <;> simp
  all_goals
    rintro rfl
    simp [ha] at hb

def samePair (p q : String × Bytes) : Bool := sameEnrollment p.1 q.1

theorem foldl_enroll (filter : List String) (items : List Item) (pairs : List (String × Bytes))
    (warnings : List String) : items.foldl (enroll filter) (pairs, warnings) =
      ((collectEnrolled items filter pairs).1, warnings ++ (collectEnrolled items filter pairs).2) := by
  unfold collectEnrolled
  induction items using reverseRecOn with
  | nil => simp
  | append_singleton items item ih =>
    rw [foldl_concat, foldl_concat, ih]
    unfold enroll
    cases enrolled filter item with
    | none => rfl
    | some p =>
      dsimp only
      split <;> simp

theorem collectEnrolled_eq (items : List Item) (filter : List String) :
    collectEnrolled items filter [] = (firsts samePair (items.filterMap (enrolled filter)),
      (repeats samePair (items.filterMap (enrolled filter))).map fun p => enrolledTwice p.1) := by
  unfold collectEnrolled
  induction items using reverseRecOn with
  | nil => rfl
  | append_singleton items item ih =>
    rw [foldl_concat, ih, filterMap_append, enroll]
    cases here : enrolled filter item with
    | none => simp [here]
    | some p =>
      have kept := any_firsts (r := samePair) (l := items.filterMap (enrolled filter)) (a := p)
        fun ab bc => sameEnrollment_iff.mpr ((sameEnrollment_iff.mp ab).trans (sameEnrollment_iff.mp bc))
      change (if (firsts samePair _).any (samePair · p) then _ else _) = _
      simp only [filterMap_cons, here, filterMap_nil, firsts_concat, repeats_concat, kept]
      split <;> simp

/-- **The first enrollment wins.** The walk over the collections gives what one call over all their
items gives: of the eligible items the first of each class of ids, in order and of different
classes, and one warning for each of the others. -/
theorem first_enrollment_wins (collections : List (List Item)) (filter : List String) :
    let eligible := collections.flatten.filterMap (enrolled filter)
    Equivalence (fun a b => sameEnrollment a b = true) ∧
    collectAll collections filter = collectEnrolled collections.flatten filter [] ∧
    (collectAll collections filter).1 = firsts samePair eligible ∧
    (firsts samePair eligible).Pairwise (fun p q => sameEnrollment p.1 q.1 = false) ∧
    (collectAll collections filter).2 = (repeats samePair eligible).map fun p => enrolledTwice p.1 := by
  have walk : ∀ e : Enrollments, collections.foldl (fun e items =>
      ((collectEnrolled items filter e.1).1, e.2 ++ (collectEnrolled items filter e.1).2)) e =
        collections.flatten.foldl (enroll filter) e := by
    induction collections with
    | nil => intro e; rfl
    | cons items rest ih =>
      intro e
      rw [foldl_cons, ih, flatten_cons, foldl_append, ← foldl_enroll filter items e.1 e.2]
  have all : collectAll collections filter = collectEnrolled collections.flatten filter [] := walk _
  refine ⟨⟨fun _ => sameEnrollment_iff.mpr rfl, ?_, ?_⟩, all, ?_, firsts_pairwise, ?_⟩
  · exact fun h => sameEnrollment_iff.mpr (sameEnrollment_iff.mp h).symm
  · exact fun h h' => sameEnrollment_iff.mpr ((sameEnrollment_iff.mp h).trans (sameEnrollment_iff.mp h'))
  · rw [all, collectEnrolled_eq]
  · rw [all, collectEnrolled_eq]

end SecretManager.Gpg
