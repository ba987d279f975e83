import SecretManager.Import.Reference

/-!
# What a passed fingerprint comparison proves

The bytes under a fingerprint are framed fields and a trailing digest. The number of attributes is
not among them, and is not needed: the fields are read back one by one, the last two are the label
and the content type, and the rest are the attribute pairs in order. So equal fingerprints come from
equal contents as long as the digest tells the strings apart that were hashed. The comparison itself
keeps counts, and leaves no mismatch exactly when both sides hold every fingerprint equally often.
-/

namespace SecretManager.Import

open List Function SecretManager.Reference

/-! ## The content under a fingerprint -/

/-- What a fingerprint covers of an item. -/
structure Content where
  attributes : Attributes
  label : String
  contentType : String
  secret : Bytes
  deriving DecidableEq

def SourceItem.content (item : SourceItem) : Content :=
  ⟨item.attributes, item.label, item.contentType, item.secret⟩

def itemContent (item : Item) : Content :=
  ⟨item.attributes, item.label, item.contentType, item.secret⟩

namespace Content

def fingerprint (x : Externals) (c : Content) : Fingerprint :=
  Import.fingerprint x c.attributes c.label c.contentType c.secret

/-- The framed strings: each attribute's name and value, then the label and the content type. -/
def fields (c : Content) : List Bytes :=
  c.attributes.toList.flatMap (fun (k, v) => [utf8 k, utf8 v]) ++ [utf8 c.label, utf8 c.contentType]

/-- Every string of it has a length a `usize` holds. -/
def Addressable (c : Content) : Prop := ∀ field ∈ c.fields, field.length < 2 ^ 64

instance (c : Content) : Decidable c.Addressable :=
  inferInstanceAs (Decidable (∀ field ∈ c.fields, field.length < 2 ^ 64))

/-- The byte strings the two calls of the digest are given for an item. -/
def shaInputs (x : Externals) (c : Content) : List Bytes :=
  [c.secret, fingerprintBytes x c.attributes c.label c.contentType c.secret]

end Content

/-- Everything the comparison of two sides hashes. -/
def shaInputs (x : Externals) (source destination : List Content) : Set Bytes :=
  {b | b ∈ (source ++ destination).flatMap (Content.shaInputs x)}

theorem canonicalAttrs_eq_frames (attributes : Attributes) : canonicalAttrs attributes =
      Framing.frames Wire.be64 (attributes.toList.flatMap fun (k, v) => [utf8 k, utf8 v]) := by
  simp only [canonicalAttrs, prefixed, Framing.frames, flatMap_assoc, flatMap_cons,
    flatMap_nil, append_nil]

theorem fingerprintBytes_eq_frames (x : Externals) (c : Content) :
    fingerprintBytes x c.attributes c.label c.contentType c.secret =
      Framing.frames Wire.be64 c.fields ++ (x.sha256 c.secret).toList := by
  simp only [fingerprintBytes, Content.fields, canonicalAttrs_eq_frames, Framing.frames_append,
    Framing.frames_cons, Framing.frames_nil, prefixed, append_nil]

theorem pairFields_inj {pairs pairs' : List (String × String)}
    (h : pairs.flatMap (fun (k, v) => [utf8 k, utf8 v]) = pairs'.flatMap fun (k, v) =>
      [utf8 k, utf8 v]) : pairs = pairs' := by
  refine Framing.flatMap_inj (p := fun _ => True) (fun _ => cons_ne_nil _ _) ?_ (fun _ _ => trivial)
    (fun _ _ => trivial) h
  rintro ⟨k, v⟩ ⟨k', v'⟩ rest rest' - - same
  simp only [cons_append, nil_append, cons.injEq] at same
  exact ⟨Prod.ext (utf8_inj same.1) (utf8_inj same.2.1), same.2.2⟩

/-- **The fields determine all but the secret.** The label and the content type are the last two. -/
theorem Content.fields_inj {c c' : Content} (h : c.fields = c'.fields) :
    c.attributes = c'.attributes ∧ c.label = c'.label ∧ c.contentType = c'.contentType := by
  obtain ⟨pairs, tail⟩ := append_inj' h rfl
  simp only [cons.injEq, and_true] at tail
  have sorted : c.attributes = c'.attributes := by
    rw [← Codec.ofList_toList c.attributes, pairFields_inj pairs, Codec.ofList_toList]
  exact ⟨sorted, utf8_inj tail.1, utf8_inj tail.2⟩

/-- **Equal fingerprints come from equal contents**, for a digest that tells what was hashed
apart. -/
theorem Content.fingerprint_inj {x : Externals} {c c' : Content} {hashed : Set Bytes}
    (injective : Set.InjOn x.sha256 hashed) (inputs : ∀ b ∈ c.shaInputs x, b ∈ hashed)
    (inputs' : ∀ b ∈ c'.shaInputs x, b ∈ hashed) (small : c.Addressable) (small' : c'.Addressable)
    (h : c.fingerprint x = c'.fingerprint x) : c = c' := by
  have bytes := injective (inputs _ (by simp [Content.shaInputs])) (inputs' _ (by simp [Content.shaInputs])) h
  rw [fingerprintBytes_eq_frames, fingerprintBytes_eq_frames] at bytes
  -- the digests have one length, so the framed part ends at the same place on both sides
  obtain ⟨framed, digests⟩ := append_inj' bytes (by simp)
  have fields := Framing.frames_inj (by decide) Wire.be64_length Wire.be64_injOn small small' framed
  obtain ⟨attributes, label, contentType⟩ := Content.fields_inj fields
  have secret := injective (inputs c.secret (by simp [Content.shaInputs]))
    (inputs' c'.secret (by simp [Content.shaInputs])) (Vector.toList_inj.mp digests)
  cases c
  cases c'
  simp_all only

/-! ## The comparison -/

/-- The fingerprints of a list of entries. -/
def digests (entries : List FingerprintEntry) : List Fingerprint := entries.map (·.fingerprint)

@[simp] theorem digests_nil : digests [] = [] := rfl

@[simp] theorem digests_cons (e : FingerprintEntry) (es : List FingerprintEntry) :
    digests (e :: es) = e.fingerprint :: digests es := rfl

theorem Remaining.foldl_add (f : Fingerprint) : ∀ (entries : List FingerprintEntry) (r : Remaining),
    entries.foldl (fun r e => r.add e.fingerprint) r f = r f + (digests entries).count f := by
  intro entries
  induction entries with
  | nil => intro r; rfl
  | cons e es ih =>
    intro r
    rw [foldl_cons, ih, digests_cons, count_cons, Remaining.add, update_apply]
    by_cases h : f = e.fingerprint
    · subst h
      simp only [if_true, beq_self_eq_true]
      omega
    · rw [if_neg h, if_neg (by simpa using Ne.symm h), Nat.add_zero]

theorem Remaining.of_apply (entries : List FingerprintEntry) (f : Fingerprint) :
    Remaining.of entries f = (digests entries).count f := by
  rw [Remaining.of, Remaining.foldl_add, Nat.zero_add]

theorem Remaining.take_apply (r : Remaining) (f g : Fingerprint) :
    r.take f g = r g - if f = g then 1 else 0 := by
  rw [Remaining.take, update_apply]
  by_cases h : g = f
  · rw [if_pos h, if_pos h.symm, h]
  · rw [if_neg h, if_neg (Ne.symm h), Nat.sub_zero]

theorem count_digests_cons (e : FingerprintEntry) (es : List FingerprintEntry) (f : Fingerprint) :
    (digests (e :: es)).count f = (digests es).count f + if e.fingerprint = f then 1 else 0 := by
  simp [count_cons]

/-- **The walk over the source**: for each fingerprint, the entries that find none left are missing,
and what is left is not less than none. -/
theorem takeSource_eq (es : List FingerprintEntry) : ∀ r : Remaining, ∃ missing rest,
    takeSource es r = (missing.map (·.mismatch .missingFromDestination), rest) ∧ missing.Sublist es ∧
      ∀ f, (digests missing).count f = (digests es).count f - r f ∧ rest f = r f - (digests es).count f := by
  induction es with
  | nil =>
    intro r
    exact ⟨[], r, rfl, .slnil, fun f => by simp⟩
  | cons e es ih =>
    intro r
    unfold takeSource
    by_cases some : 0 < r e.fingerprint
    · obtain ⟨missing, rest, eq, sub, counts⟩ := ih (r.take e.fingerprint)
      rw [if_pos some]
      refine ⟨missing, rest, eq, sub.cons e, fun f => ?_⟩
      obtain ⟨count, left⟩ := counts f
      rw [Remaining.take_apply] at count left
      rw [count_digests_cons, count, left]
      by_cases same : e.fingerprint = f
      · subst same
        rw [if_pos rfl]
        omega
      · rw [if_neg same]
        omega
    · obtain ⟨missing, rest, eq, sub, counts⟩ := ih r
      rw [if_neg some, eq]
      refine ⟨e :: missing, rest, rfl, sub.cons_cons e, fun f => ?_⟩
      obtain ⟨count, left⟩ := counts f
      rw [count_digests_cons, count_digests_cons]
      by_cases same : e.fingerprint = f
      · subst same
        omega
      · rw [if_neg same]
        omega

/-- **The walk over the destination**: each fingerprint is unexpected as often as it is left
over. -/
theorem takeSurplus_eq (es : List FingerprintEntry) : ∀ r : Remaining, ∃ unexpected,
    takeSurplus es r = unexpected.map (·.mismatch .unexpectedInDestination) ∧ unexpected.Sublist es ∧
      ∀ f, (digests unexpected).count f = min ((digests es).count f) (r f) := by
  induction es with
  | nil =>
    intro r
    exact ⟨[], rfl, .slnil, fun f => by simp⟩
  | cons e es ih =>
    intro r
    unfold takeSurplus
    by_cases none : r e.fingerprint = 0
    · obtain ⟨unexpected, eq, sub, counts⟩ := ih r
      rw [if_pos none]
      refine ⟨unexpected, eq, sub.cons e, fun f => ?_⟩
      rw [counts f, count_digests_cons]
      by_cases same : e.fingerprint = f
      · subst same
        rw [none, Nat.min_zero, Nat.min_zero]
      · rw [if_neg same, Nat.add_zero]
    · obtain ⟨unexpected, eq, sub, counts⟩ := ih (r.take e.fingerprint)
      rw [if_neg none, eq]
      refine ⟨e :: unexpected, rfl, sub.cons_cons e, fun f => ?_⟩
      rw [count_digests_cons, count_digests_cons, counts f, Remaining.take_apply]
      by_cases same : e.fingerprint = f
      · subst same
        rw [if_pos rfl]
        omega
      · rw [if_neg same, Nat.sub_zero, Nat.add_zero, Nat.add_zero]

/-- **The report is the difference of the two multisets**: the entries of the source that are too
many there, then those of the destination that are too many there. -/
theorem compareFingerprints_eq (source destination : List FingerprintEntry) : ∃ missing unexpected,
    compareFingerprints source destination = missing.map (·.mismatch .missingFromDestination) ++
      unexpected.map (·.mismatch .unexpectedInDestination) ∧
    missing.Sublist source ∧ unexpected.Sublist destination ∧
    (∀ f, (digests missing).count f = (digests source).count f - (digests destination).count f) ∧
    (∀ f, (digests unexpected).count f = (digests destination).count f - (digests source).count f) := by
  obtain ⟨missing, rest, walk, sub, counts⟩ := takeSource_eq source (Remaining.of destination)
  obtain ⟨unexpected, surplus, sub', left⟩ := takeSurplus_eq destination rest
  refine ⟨missing, unexpected, by rw [compareFingerprints, walk, ← surplus], sub, sub', fun f => ?_, fun f => ?_⟩
  · rw [(counts f).1, Remaining.of_apply]
  · rw [left f, (counts f).2, Remaining.of_apply, Nat.min_eq_right (Nat.sub_le _ _)]

theorem eq_nil_iff_count_digests {es : List FingerprintEntry} :
    es = [] ↔ ∀ f, (digests es).count f = 0 := by
  constructor
  · rintro rfl f
    rfl
  · intro none
    cases es with
    | nil => rfl
    | cons e es => simpa using none e.fingerprint

/-- **No mismatch means equal multisets of fingerprints.** -/
theorem compareFingerprints_nil {source destination : List FingerprintEntry} :
    compareFingerprints source destination = [] ↔ (digests source).Perm (digests destination) := by
  obtain ⟨missing, unexpected, report, -, -, few, many⟩ := compareFingerprints_eq source destination
  rw [report, append_eq_nil_iff, map_eq_nil_iff, map_eq_nil_iff, eq_nil_iff_count_digests,
    eq_nil_iff_count_digests, perm_iff_count, ← forall_and]
  refine forall_congr' fun f => ?_
  rw [few, many]
  omega

/-- How many rows of a report are on this side. -/
def rowsOn (side : Side) (report : List FingerprintMismatch) : Nat := report.countP fun row =>
    row.side = side

theorem length_eq_of_count {es es' : List FingerprintEntry}
    (same : ∀ f, (digests es).count f = (digests es').count f) : es.length = es'.length := by
  have perm : (digests es).Perm (digests es') := perm_iff_count.mpr same
  simpa [digests] using perm.length_eq

/-- **The report is exact.** Each fingerprint is reported as missing as often as the source holds it
more often, and as unexpected as often as the destination does. So the report is empty when both
hold the same fingerprints, each equally often, and exchanging the two lists exchanges the two kinds
of rows. -/
theorem compare_fingerprints_exact (source destination : List FingerprintEntry) :
    (∃ missing unexpected,
      compareFingerprints source destination = missing.map (·.mismatch .missingFromDestination) ++
        unexpected.map (·.mismatch .unexpectedInDestination) ∧
      missing.Sublist source ∧ unexpected.Sublist destination ∧
      (∀ f, (digests missing).count f = (digests source).count f - (digests destination).count f) ∧
      (∀ f, (digests unexpected).count f = (digests destination).count f - (digests source).count f)) ∧
    (compareFingerprints source destination = [] ↔ (digests source).Perm (digests destination)) ∧
    rowsOn .missingFromDestination (compareFingerprints destination source) =
      rowsOn .unexpectedInDestination (compareFingerprints source destination) ∧
    rowsOn .unexpectedInDestination (compareFingerprints destination source) =
      rowsOn .missingFromDestination (compareFingerprints source destination) := by
  refine ⟨compareFingerprints_eq source destination, compareFingerprints_nil, ?_⟩
  obtain ⟨missing, unexpected, report, -, -, few, many⟩ := compareFingerprints_eq source destination
  obtain ⟨missing', unexpected', report', -, -, few', many'⟩ := compareFingerprints_eq destination source
  have swapped : missing'.length = unexpected.length := length_eq_of_count fun f => by rw [few', many]
  have swapped' : unexpected'.length = missing.length := length_eq_of_count fun f => by rw [many', few]
  rw [report, report']
  simp [rowsOn, comp_def, FingerprintEntry.mismatch, swapped, swapped']

/-! ## The verification -/

/-- Lists whose images agree as multisets agree as multisets, where the map is injective on them. -/
theorem perm_of_map_injOn {α β : Type*} [Nonempty α] {f : α → β} {l l' : List α}
    (inj : Set.InjOn f {a | a ∈ l ++ l'}) (h : (l.map f).Perm (l'.map f)) : l.Perm l' := by
  have back := inj.leftInvOn_invFunOn
  have undone : ∀ k : List α, (∀ a ∈ k, a ∈ l ++ l') → (k.map f).map (invFunOn f {a | a ∈ l ++ l'}) = k := by
    intro k inside
    rw [map_map]
    exact (map_congr_left fun a mem => back (inside a mem)).trans (map_id k)
  have same := h.map (invFunOn f {a | a ∈ l ++ l'})
  rwa [undone l fun a => mem_append_left l', undone l' fun a => mem_append_right l] at same

theorem digests_source (x : Externals) (items : List SourceItem) :
    digests (items.map (FingerprintEntry.source x)) =
      (items.map SourceItem.content).map (Content.fingerprint x) := by
  rw [digests, map_map, map_map]
  rfl

theorem digests_destination {x : Externals} {id : String} {indexed : Bool} {items : List Item}
    {dest : Destination} (read : Destination.of x id items indexed = some dest) :
    digests dest.fingerprints = (items.map itemContent).map (Content.fingerprint x) := by
  obtain ⟨entries, made, rfl⟩ := Option.map_eq_some_iff.mp read
  clear read
  induction items generalizing entries with
  | nil =>
    cases made
    rfl
  | cons item items ih =>
    rw [mapM_cons] at made
    obtain ⟨entry, first, rest⟩ := Option.bind_eq_some_iff.mp made
    obtain ⟨later, second, last⟩ := Option.bind_eq_some_iff.mp rest
    cases last
    obtain ⟨path, _, rfl⟩ := Option.map_eq_some_iff.mp first
    rw [digests_cons, ih later second]
    rfl

/-- **A passed verification proves a faithful copy**: if the fingerprints were compared with what
was decrypted and every check passed, the two sides hold the same contents, each equally often. The
digest is asked to tell apart only the byte strings that this comparison hashes. -/
theorem passed_verification_proves_copy (x : Externals) (input : VerifyInput) (id : String)
    (copy : List Item) (indexed : Bool) (dest : Destination)
    (read : Destination.of x id copy indexed = some dest) (made : input.destination = some dest)
    (addressable : ∀ c ∈ input.items.map SourceItem.content ++ copy.map itemContent, c.Addressable)
    (injective : Set.InjOn x.sha256 (shaInputs x (input.items.map SourceItem.content)
      (copy.map itemContent))) (passed : (verifyImport x input).passed = true) :
    Multiset.ofList (copy.map itemContent) = Multiset.ofList (input.items.map SourceItem.content) := by
  have compared : compareFingerprints (input.items.map (FingerprintEntry.source x)) dest.fingerprints = [] := by
    simp only [Verification.passed, Bool.and_eq_true, List.isEmpty_iff] at passed
    have none := passed.1.1.1.2
    simp only [verifyImport, made] at none
    exact none
  have perm := compareFingerprints_nil.mp compared
  rw [digests_source, digests_destination read] at perm
  have inputs : ∀ c ∈ input.items.map SourceItem.content ++ copy.map itemContent, ∀ b ∈ c.shaInputs x,
        b ∈ shaInputs x (input.items.map SourceItem.content) (copy.map itemContent) :=
    fun c mem b hashed => mem_flatMap.mpr ⟨c, mem, hashed⟩
  have _ : Nonempty Content := ⟨⟨∅, "", "", []⟩⟩
  have copied := perm_of_map_injOn (fun c mem c' mem' same =>
    Content.fingerprint_inj injective (inputs c mem) (inputs c' mem') (addressable c mem)
      (addressable c' mem') same) perm
  exact (Multiset.coe_eq_coe.mpr copied).symm

/-- Two equal items and a third, read back in another order. -/
theorem passed_verification_proves_copy_three :
    let items := [mailEntry, routerEntry, mailEntry]
    let copy := [copied "a" mailEntry, copied "b" mailEntry,
      copied "c" routerEntry]
    let input : VerifyInput :=
      { file := walletFile ["mail", "router", "mail"], items, walked := 3
        destination := Destination.of hashing "kdewallet" copy true
        probes := [], unlisted := [] }
    (verifyImport hashing input).passed = true ∧
      Multiset.ofList (copy.map itemContent) = Multiset.ofList (items.map SourceItem.content) := by
  intro items copy input
  have passed : (verifyImport hashing input).passed = true := by decide +kernel
  obtain ⟨dest, read⟩ : ∃ dest, Destination.of hashing "kdewallet" copy true = some dest :=
    Option.isSome_iff_exists.mp (by decide +kernel)
  have addressable : ∀ c ∈ items.map SourceItem.content ++ copy.map itemContent, c.Addressable := by
    decide +kernel
  have distinct : ∀ b ∈ (items.map SourceItem.content ++ copy.map itemContent).flatMap
      (Content.shaInputs hashing), ∀ b' ∈ (items.map SourceItem.content ++
        copy.map itemContent).flatMap (Content.shaInputs hashing),
      hashing.sha256 b = hashing.sha256 b' → b = b' := by
    decide +kernel
  exact ⟨passed, passed_verification_proves_copy hashing input "kdewallet" copy true dest
    read read addressable (fun b mem b' mem' => distinct b mem b' mem') passed⟩

end SecretManager.Import
