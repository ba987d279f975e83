import SecretManager.Laws.Dbus.Objects

/-!
# Object paths and the targets they name

A target is a lead, the collections' or the aliases', and one or two segments. `Target.path` puts
them together; `parse` takes them apart, and takes apart nothing else.
-/

namespace SecretManager.Paths

/-- ASCII letters, digits and underscores, and at least one of them. -/
def Segment (s : String) : Prop := s ≠ "" ∧ ∀ c ∈ s.toList, c.isAlphanum = true ∨ c = '_'

def Target.lead : Target → String
  | .collection _ | .item .. => collectionsPrefix
  | .aliasPath _ | .aliasItem .. => aliasesPrefix

def Target.segments : Target → List String
  | .collection first | .aliasPath first => [first]
  | .item first second | .aliasItem first second => [first, second]

def Target.path (t : Target) : String := t.lead ++ "/".intercalate t.segments

/-! ## Segments -/

theorem isSegmentByte_ascii (b : UInt8) (h : isSegmentByte b = true) : b.toNat < 128 := by
  simp only [isSegmentByte, Bool.or_eq_true, Bool.and_eq_true, decide_eq_true_eq,
    UInt8.le_iff_toNat_le, beq_iff_eq, ← UInt8.toNat_inj, UInt8.reduceToNat] at h
  omega

theorem isAlphanum_ascii {c : Char} (h : c.isAlphanum = true) : c.toNat < 128 := by
  simp only [Char.isAlphanum, Char.isAlpha, Char.isUpper, Char.isLower, Char.isDigit,
    Bool.or_eq_true, Bool.and_eq_true, decide_eq_true_eq, UInt32.le_iff_toNat_le] at h
  have upper : 'Z'.val.toNat = 90 := rfl
  have lower : 'z'.val.toNat = 122 := rfl
  have digit : '9'.val.toNat = 57 := rfl
  change c.val.toNat < 128
  omega

theorem isSegmentChar (c : Char) :
    (String.utf8EncodeChar c).all isSegmentByte = true ↔ c.isAlphanum = true ∨ c = '_' := by
  have table : ∀ n < 128, isSegmentByte (UInt8.ofNat n) = true ↔
      (Char.ofNat n).isAlphanum = true ∨ Char.ofNat n = '_' := by decide
  rw [all_utf8EncodeChar isSegmentByte_ascii, Bool.and_eq_true, decide_eq_true_eq]
  constructor
  · rintro ⟨small, passed⟩
    rw [← Char.ofNat_toNat c]
    exact (table _ small).mp passed
  · intro letter
    have small : c.toNat < 128 := by
      rcases letter with letter | rfl
      · exact isAlphanum_ascii letter
      · decide
    refine ⟨small, (table _ small).mpr ?_⟩
    rwa [Char.ofNat_toNat]

theorem isSegment_iff {s : String} : isSegment s = true ↔ Segment s := by
  rw [isSegment, utf8_eq, List.all_flatMap, Bool.and_eq_true, List.all_eq_true]
  refine and_congr ?_ (forall₂_congr fun c _ => isSegmentChar c)
  rw [Bool.not_eq_true', ← Bool.not_eq_true, String.isEmpty_iff]

/-! ## Leads -/

theorem stripped_eq_some {lead path rest : String} :
    stripped lead path = some rest ↔ path = lead ++ rest := by
  unfold stripped
  constructor
  · intro h
    split at h
    next isLead =>
      cases h
      obtain ⟨tail, whole⟩ := List.isPrefixOf_iff_prefix.mp isLead
      rw [← String.toList_inj, String.toList_append, String.toList_ofList, ← whole, List.drop_left]
    next => cases h
  · rintro rfl
    have isLead : lead.toList.isPrefixOf (lead ++ rest).toList = true := by
      rw [String.toList_append]
      exact List.isPrefixOf_iff_prefix.mpr ⟨rest.toList, rfl⟩
    rw [if_pos isLead, String.toList_append, List.drop_left, String.ofList_toList]

theorem stripped_collections_aliases (rest : String) :
    stripped collectionsPrefix (aliasesPrefix ++ rest) = none := by
  have other : collectionsPrefix.toList.isPrefixOf (aliasesPrefix ++ rest).toList = false := by
    rw [String.toList_append]
    rfl
  rw [stripped, other]
  rfl

/-! ## Parts -/

theorem parts_intercalate {segments : List String} (some : segments ≠ [])
    (valid : ∀ s ∈ segments, Segment s) :
    (("/".intercalate segments).toList.splitOn '/').map String.ofList = segments := by
  have apart : ∀ l ∈ segments.map String.toList, '/' ∉ l := by
    intro l mem slash
    obtain ⟨s, hs, rfl⟩ := List.mem_map.mp mem
    rcases (valid s hs).2 _ slash with bad | bad
    · revert bad
      decide
    · cases bad
  have slash : "/".toList = ['/'] := rfl
  rw [String.toList_intercalate, slash, List.splitOn_intercalate '/' apart (by simpa using some)]
  simp

theorem intercalate_parts (rest : String) :
    "/".intercalate ((rest.toList.splitOn '/').map String.ofList) = rest := by
  have slash : "/".toList = ['/'] := rfl
  rw [← String.toList_inj]
  simp

theorem split_eq_some {rest first : String} {second : Option String} :
    split rest = some (first, second) ↔ (∀ s ∈ first :: second.toList, Segment s) ∧
        rest = "/".intercalate (first :: second.toList) := by
  constructor
  · intro h
    have whole := intercalate_parts rest
    unfold split at h
    split at h
    next a parts =>
      rw [Option.ite_none_right_eq_some] at h
      obtain ⟨segment, ⟨⟩⟩ := h
      rw [parts] at whole
      exact ⟨by simpa [isSegment_iff] using segment, whole.symm⟩
    next a b parts =>
      rw [Option.ite_none_right_eq_some] at h
      obtain ⟨segments, ⟨⟩⟩ := h
      rw [parts] at whole
      exact ⟨by simpa [isSegment_iff] using segments, whole.symm⟩
    next => cases h
  · rintro ⟨valid, rfl⟩
    have parts := parts_intercalate (List.cons_ne_nil _ _) valid
    have one := isSegment_iff.mpr (valid first List.mem_cons_self)
    unfold split
    rw [parts]
    cases second with
    | none => exact if_pos one
    | some item =>
      have two := isSegment_iff.mpr (valid item (by simp))
      exact if_pos (by rw [one, two]; rfl)

/-! ## Paths -/

theorem parse_collections (rest : String) : parse (collectionsPrefix ++ rest) =
      (split rest).map fun p => p.2.elim (.collection p.1) (.item p.1) := by
  rw [parse, stripped_eq_some.mpr rfl]
  dsimp only
  rcases split rest with _ | ⟨first, _ | second⟩ <;> rfl

theorem parse_aliases (rest : String) : parse (aliasesPrefix ++ rest) =
      (split rest).map fun p => p.2.elim (.aliasPath p.1) (.aliasItem p.1) := by
  rw [parse, stripped_collections_aliases, stripped_eq_some.mpr rfl]
  dsimp only
  rcases split rest with _ | ⟨first, _ | second⟩ <;> rfl

theorem parse_lead {path : String} {t : Target} (h : parse path = some t) :
    ∃ rest, path = collectionsPrefix ++ rest ∨ path = aliasesPrefix ++ rest := by
  unfold parse at h
  split at h
  next rest under => exact ⟨rest, .inl (stripped_eq_some.mp under)⟩
  next =>
    split at h
    next rest under => exact ⟨rest, .inr (stripped_eq_some.mp under)⟩
    next => cases h

/-- **`parse` is the inverse of `Target.path`** on targets of valid segments. -/
theorem parse_eq_some {path : String} {t : Target} :
    parse path = some t ↔ (∀ s ∈ t.segments, Segment s) ∧ path = t.path := by
  constructor
  · intro h
    obtain ⟨rest, rfl | rfl⟩ := parse_lead h
    all_goals
      first | rw [parse_collections] at h | rw [parse_aliases] at h
      obtain ⟨⟨first, second⟩, parts, rfl⟩ := Option.map_eq_some_iff.mp h
      obtain ⟨valid, rfl⟩ := split_eq_some.mp parts
      cases second with
      | none | some item => exact ⟨valid, rfl⟩
  · rintro ⟨valid, rfl⟩
    cases t with
    | collection first =>
      have parts := (@split_eq_some _ first none).mpr ⟨valid, rfl⟩
      exact (parse_collections _).trans (congrArg (Option.map _) parts)
    | item first second =>
      have parts := (@split_eq_some _ first (some second)).mpr ⟨valid, rfl⟩
      exact (parse_collections _).trans (congrArg (Option.map _) parts)
    | aliasPath first =>
      have parts := (@split_eq_some _ first none).mpr ⟨valid, rfl⟩
      exact (parse_aliases _).trans (congrArg (Option.map _) parts)
    | aliasItem first second =>
      have parts := (@split_eq_some _ first (some second)).mpr ⟨valid, rfl⟩
      exact (parse_aliases _).trans (congrArg (Option.map _) parts)

theorem isObjectPath_alias {x : Externals} (grammar : x.KnowsPaths) {name : String}
    (h : isSegment name = true) : aliasPath x name = some (some (aliasesPrefix ++ name)) := by
  have lead : utf8 (aliasesPrefix ++ name) = 47 :: (utf8 "org/freedesktop/secrets/aliases" ++ 47 :: utf8 name) := by
    rfl
  have front : chainFrom true (utf8 "org/freedesktop/secrets/aliases") = true := by decide
  have chain : chainFrom true (utf8 name) = true := isChain_of_isSegment h
  have path : isObjectPath (aliasesPrefix ++ name) = true := by
    unfold isObjectPath
    rw [lead]
    simp [chainFrom_append_slash, front, chain]
  rw [aliasPath, if_pos h, owned, grammar, if_pos path]

/-- **The grammar of object paths.** `parse` accepts the collections' or the aliases' lead followed
by one or two segments with a slash between, and nothing else. The target it returns has the path
that was parsed, no two targets share a path, and what the builders make of valid segments is parsed
back, where `zvariant` accepts the bus's object paths. -/
theorem path_grammar : (∀ path, (∃ t, parse path = some t) ↔ ∃ lead segments,
      (lead = collectionsPrefix ∨ lead = aliasesPrefix) ∧
      (segments.length = 1 ∨ segments.length = 2) ∧ (∀ s ∈ segments, Segment s) ∧
      path = lead ++ "/".intercalate segments) ∧
    (∀ path t, parse path = some t → t.path = path) ∧
    (∀ t t' : Target, (∀ s ∈ t.segments, Segment s) → (∀ s ∈ t'.segments, Segment s) → t.path = t'.path → t = t') ∧
    ∀ x : Externals, x.KnowsPaths →
      (∀ id, Segment id → ∃ path, collection x id = some path ∧ parse path = some (.collection id)) ∧
      (∀ id itemId, Segment id → Segment itemId →
        ∃ path, item x id itemId = some path ∧ parse path = some (.item id itemId)) ∧
      ∀ name, Segment name →
        ∃ path, aliasPath x name = some (some path) ∧ parse path = some (.aliasPath name) := by
  refine ⟨fun path => ⟨?_, ?_⟩, ?_, ?_, fun x grammar => ⟨?_, ?_, ?_⟩⟩
  · rintro ⟨t, h⟩
    obtain ⟨valid, rfl⟩ := parse_eq_some.mp h
    refine ⟨t.lead, t.segments, ?_, ?_, valid, rfl⟩
    · cases t <;> simp [Target.lead]
    · cases t <;> simp [Target.segments]
  · rintro ⟨lead, segments, leads, length, valid, rfl⟩
    obtain ⟨t, rfl, rfl⟩ : ∃ t : Target, t.lead = lead ∧ t.segments = segments := by
      rcases length with one | two
      · obtain ⟨first, rfl⟩ := List.length_eq_one_iff.mp one
        rcases leads with rfl | rfl
        · exact ⟨.collection first, rfl, rfl⟩
        · exact ⟨.aliasPath first, rfl, rfl⟩
      · obtain ⟨first, second, rfl⟩ := List.length_eq_two.mp two
        rcases leads with rfl | rfl
        · exact ⟨.item first second, rfl, rfl⟩
        · exact ⟨.aliasItem first second, rfl, rfl⟩
    exact ⟨t, parse_eq_some.mpr ⟨valid, rfl⟩⟩
  · intro path t h
    exact (parse_eq_some.mp h).2.symm
  · intro t t' valid valid' same
    have parsed := parse_eq_some.mpr ⟨valid, rfl⟩
    rw [same, parse_eq_some.mpr ⟨valid', rfl⟩] at parsed
    exact (Option.some.inj parsed).symm
  · intro id segment
    refine ⟨_, collection_eq grammar (isChain_of_isSegment (isSegment_iff.mpr segment)), ?_⟩
    exact parse_eq_some.mpr ⟨by simpa [Target.segments] using segment, rfl⟩
  · intro id itemId segment itemSegment
    refine ⟨_, (item_eq_some_iff grammar).mpr ⟨isChain_of_isSegment (isSegment_iff.mpr segment),
      isChain_of_isSegment (isSegment_iff.mpr itemSegment), rfl⟩, parse_eq_some.mpr ⟨?_, ?_⟩⟩
    · simpa [Target.segments] using ⟨segment, itemSegment⟩
    · simp [Target.path, Target.lead, Target.segments, String.append_assoc]
  · intro name segment
    refine ⟨_, isObjectPath_alias grammar (isSegment_iff.mpr segment), ?_⟩
    exact parse_eq_some.mpr ⟨by simpa [Target.segments] using segment, rfl⟩

end SecretManager.Paths
