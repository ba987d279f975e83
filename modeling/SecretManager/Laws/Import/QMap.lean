import SecretManager.Import.QMap
import SecretManager.Vault.Reference

/-!
# The map decoder is exact, and its secrets are canonical

`qstring` reads a `QString`, and the loop over the pairs reads those whose keys have digests that
were not met before (`reads_qmapLoop`). Different digests mean different keys, so what is accepted
is always a `QMap`; that every `QMap` is accepted takes a digest without collisions on its keys.

The stored secret is a function of the set of pairs, because keys are distinct and a `BTreeMap`
sorts them, and it determines that set, because the JSON determines its members. Of the crate that
writes the JSON only `JsonWriter.Lawful` is used; nothing is said about the text it produces.
-/

namespace SecretManager.Import.KWallet

open List SecretManager.Reference

/-! ## Strings -/

theorem reads_ofUnits (units : List UInt16) :
    Reads (Reader.ofExcept (ofUnits units)) fun s enc => units = codeUnits s ∧ enc = [] := by
  refine (Reads.ofExcept _).congr fun s enc => and_congr_left' ?_
  unfold ofUnits
  constructor
  · intro h
    split at h
    next cs decoded =>
      cases h
      rw [codeUnits, String.toList_ofList]
      exact Utf16.decode_eq_some.mp decoded
    next => cases h
  · rintro rfl
    rw [codeUnits, Utf16.decode_encode]
    exact congrArg Except.ok String.ofList_toList

theorem reads_qstring (field : String) :
    Reads (qstring field) (.of (fun q : QString => (q.text, q.value.isNone)) QString.encode) := by
  have branch (len : UInt32) : Reads
      (if len = nullString then pure ("", true)
      else do
        Reader.ensure (len.toNat % 2 = 0) (.oddStringLength len.toNat)
        let raw ← Reader.take len.toNat (.truncated field)
        let s ← Reader.ofExcept (ofUnits (Utf16.ofBytes raw))
        return (s, false))
      fun r enc => ∃ q : QString, r = (q.text, q.value.isNone) ∧ Wire.be32 len.toNat ++ enc = q.encode := by
    split
    next null =>
      subst null
      refine (Reads.pure _).congr fun r enc => ?_
      constructor
      · rintro ⟨rfl, rfl⟩
        exact ⟨⟨none, nofun⟩, rfl, append_nil _⟩
      · rintro ⟨⟨v, fits⟩, rfl, same⟩
        cases v with
        | none => exact ⟨rfl, append_cancel_left (same.trans (append_nil _).symm)⟩
        | some s =>
          obtain ⟨len, -⟩ := append_inj same rfl
          have lt := fits s rfl
          have marker : nullString.toNat = 4294967295 := rfl
          have read := Wire.be32_injOn (by simp [marker]) (by simp; omega) len
          omega
    next other =>
      refine ((Reads.ensure _ _).bind fun _ _ _ => (Reads.take _ _).bind fun raw _ _ =>
        (reads_ofUnits _).bind fun s _ _ => Reads.pure (s, false)).congr fun r enc => ?_
      have bound := len.toNat_lt
      have marker : nullString.toNat = 4294967295 := rfl
      constructor
      · rintro ⟨_, _, _, ⟨even, rfl⟩, ⟨raw, _, _, ⟨rfl, width⟩, ⟨s, _, _, ⟨units, rfl⟩, ⟨rfl, rfl⟩, rfl⟩, rfl⟩, rfl⟩
        have bytes : Utf16.toBytes (codeUnits s) = raw := by
          rw [← units]
          exact Utf16.toBytes_ofBytes (by rw [width]; exact even)
        have twice : 2 * (codeUnits s).length = len.toNat := by rw [← Utf16.length_toBytes, bytes, width]
        refine ⟨⟨some s, fun t ht => ?_⟩, rfl, ?_⟩
        · cases ht
          omega
        · change _ = Wire.be32 (2 * (codeUnits s).length) ++ Utf16.toBytes (codeUnits s)
          rw [twice, bytes]
          simp
      · rintro ⟨⟨v, fits⟩, rfl, same⟩
        cases v with
        | none =>
          have tag : Wire.be32 len.toNat = Wire.be32 nullString.toNat :=
            (append_inj (same.trans (append_nil _).symm) rfl).1
          exact absurd (Wire.be32_toNat_inj tag) other
        | some s =>
          have lt := fits s rfl
          obtain ⟨tag, rfl⟩ := append_inj same rfl
          have read := Wire.be32_injOn (by simpa using bound) (by simp; omega) tag
          refine ⟨(), [], _, ⟨by omega, rfl⟩, ⟨_, Utf16.toBytes (codeUnits s), [], ⟨rfl, ?_⟩, ⟨s, [], [], ⟨?_, rfl⟩,
            ⟨rfl, rfl⟩, rfl⟩, (append_nil _).symm⟩, rfl⟩
          · rw [Utf16.length_toBytes, read]
          · exact Utf16.ofBytes_toBytes _
  refine Reads.congr ((Reads.u32 _).bind fun len _ _ => branch len) fun r enc => ?_
  constructor
  · rintro ⟨len, _, e, rfl, ⟨q, rfl, same⟩, rfl⟩
    exact ⟨q, rfl, same⟩
  · rintro ⟨⟨v, fits⟩, rfl, rfl⟩
    cases v with
    | none => exact ⟨nullString, _, [], rfl, ⟨⟨none, fits⟩, rfl, append_nil _⟩, (append_nil _).symm⟩
    | some s =>
      have lt := fits s rfl
      have back : (UInt32.ofNat (2 * (codeUnits s).length)).toNat = 2 * (codeUnits s).length :=
        UInt32.toNat_ofNat_of_lt' (lt.trans (by decide))
      refine ⟨UInt32.ofNat (2 * (codeUnits s).length), _, Utf16.toBytes (codeUnits s), rfl,
        ⟨⟨some s, fits⟩, rfl, ?_⟩, ?_⟩
      · rw [back]
        rfl
      · rw [back]
        rfl

/-! ## Pairs -/

/-- The pairs of a map as they are read. -/
def pairsLayout : Layout (List (String × String)) := fun pairs enc => ∃ ws :
    List (QString × QString),
  pairs = ws.map (fun p => (p.1.text, p.2.text)) ∧ enc = ws.flatMap fun p => p.1.encode ++ p.2.encode

variable {x : Externals}

/-- **The loop** reads as many pairs as were declared, whose keys have new and different digests. -/
theorem reads_qmapLoop (n : Nat) (s : QMapSeen) :
    Reads (qmapLoop x n s) fun pairs enc => pairs.length = n ∧ pairsLayout pairs enc ∧
      (pairs.map fun p => digest x p.1).Nodup ∧ ∀ p ∈ pairs, digest x p.1 ∉ s.digests := by
  induction n generalizing s with
  | zero =>
    refine Reads.congr (Reads.pure []) fun pairs enc => ?_
    constructor
    · rintro ⟨rfl, rfl⟩
      exact ⟨rfl, ⟨[], rfl, rfl⟩, nodup_nil, nofun⟩
    · rintro ⟨len, ⟨ws, rfl, rfl⟩, -, -⟩
      obtain rfl : ws = [] := by simpa using len
      exact ⟨rfl, rfl⟩
  | succ n ih =>
    refine Reads.congr ((reads_qstring _).bind fun key _ _ => (reads_qstring _).bind fun value _ _ =>
      (Reads.ensure _ _).bind fun _ _ _ => (ih _).bind fun rest _ _ => Reads.pure ((key.1, value.1) :: rest))
      fun pairs enc => ?_
    constructor
    · rintro ⟨_, _, _, ⟨k, rfl, rfl⟩, ⟨_, _, _, ⟨v, rfl, rfl⟩, ⟨_, _, _, ⟨new, rfl⟩, ⟨rest, _, _,
        ⟨len, ⟨ws, rfl, rfl⟩, nodup, others⟩, ⟨rfl, rfl⟩, rfl⟩, rfl⟩, rfl⟩, rfl⟩
      refine ⟨congrArg (· + 1) len, ⟨(k, v) :: ws, rfl, by simp⟩, ?_, ?_⟩
      · rw [map_cons, nodup_cons]
        refine ⟨fun mem => ?_, nodup⟩
        obtain ⟨p, hp, same⟩ := mem_map.mp mem
        exact others p hp (by rw [same]; exact mem_cons_self)
      · intro p hp
        rcases mem_cons.mp hp with rfl | hp
        · exact new
        · exact fun mem => others p hp (mem_cons_of_mem _ mem)
    · rintro ⟨len, ⟨ws, rfl, rfl⟩, nodup, new⟩
      cases ws with
      | nil => cases len
      | cons w ws =>
        rw [map_cons, map_cons, nodup_cons] at nodup
        refine ⟨(w.1.text, _), _, _, ⟨w.1, rfl, rfl⟩, ⟨(w.2.text, _), _, _, ⟨w.2, rfl, rfl⟩, ⟨(), [], _,
          ⟨new _ mem_cons_self, rfl⟩, ⟨ws.map fun p => (p.1.text, p.2.text), _, [],
            ⟨by simpa using len, ⟨ws, rfl, rfl⟩, nodup.2, ?_⟩, ⟨rfl, rfl⟩, rfl⟩, rfl⟩, rfl⟩, by simp⟩
        intro p hp mem
        rcases mem_cons.mp mem with same | mem
        · exact nodup.1 (same ▸ mem_map_of_mem hp)
        · exact new p (mem_cons_of_mem _ hp) mem

theorem QString.four_le (q : QString) : 4 ≤ q.encode.length := by
  unfold QString.encode
  split
  · exact le_rfl
  · rw [length_append, Wire.be32_length]
    omega

variable {pairs : List (String × String)}

theorem pairsLayout.eight_le {enc : Bytes} (layout : pairsLayout pairs enc) :
    pairs.length * 8 ≤ enc.length := by
  obtain ⟨ws, rfl, rfl⟩ := layout
  induction ws with
  | nil => simp
  | cons w ws ih =>
    have key := w.1.four_le
    have value := w.2.four_le
    simp only [map_cons, length_cons, flatMap_cons, length_append] at ih ⊢
    omega

theorem reads_qmapPairs : Reads (qmapPairs x) fun pairs enc => pairs.length ≤ maxMapEntries ∧
    (pairs.map fun p => digest x p.1).Nodup ∧ ∃ e, pairsLayout pairs e ∧ enc = Wire.be32 pairs.length ++ e := by
  have body (declared : UInt32) : Reads
      (do
        Reader.room (declared.toNat * 8) (.impossibleCount declared)
        Reader.ensure (declared.toNat ≤ maxMapEntries) (.tooManyPairs declared.toNat maxMapEntries)
        qmapLoop x declared.toNat {})
      (Layout.bind (fun (_ : Unit) enc => declared.toNat ≤ maxMapEntries ∧ enc = []) fun _ pairs enc =>
        pairs.length = declared.toNat ∧ pairsLayout pairs enc ∧ (pairs.map fun p => digest x p.1).Nodup ∧
          ∀ p ∈ pairs, digest x p.1 ∉ ({} : QMapSeen).digests) := by
    refine Reads.room _ ((Reads.ensure _ _).bind fun _ _ _ => reads_qmapLoop _ _) ?_
    rintro pairs _ ⟨_, _, _, ⟨-, rfl⟩, ⟨len, layout, -, -⟩, rfl⟩
    rw [← len]
    exact layout.eight_le
  refine Reads.congr ((Reads.u32 _).bind fun declared _ _ => body declared) fun pairs enc => ?_
  constructor
  · rintro ⟨declared, _, _, rfl, ⟨_, _, _, ⟨few, rfl⟩, ⟨len, layout, nodup, -⟩, rfl⟩, rfl⟩
    exact ⟨len ▸ few, nodup, _, layout, by rw [len]⟩
  · rintro ⟨few, nodup, e, layout, rfl⟩
    have back : (UInt32.ofNat pairs.length).toNat = pairs.length :=
      UInt32.toNat_ofNat_of_lt' (few.trans_lt (by decide))
    exact ⟨UInt32.ofNat pairs.length, _, e, rfl, ⟨(), [], e, ⟨by rw [back]; exact few, rfl⟩,
      ⟨back.symm, layout, nodup, fun _ _ => not_mem_nil⟩, rfl⟩, by rw [back]⟩

/-! ## The whole map -/

variable {bytes : Bytes}

theorem exactly_eq_ok {α : Type} {p : MapReader α} {G : Layout α} (reads : Reads p G) {a : α} :
    exactly p bytes = .ok a ↔ G a bytes := by
  unfold exactly
  constructor
  · intro h
    cases read : p (.new bytes) with
    | error e =>
      rw [read] at h
      cases h
    | ok found =>
      obtain ⟨b, c⟩ := found
      obtain ⟨enc, layout, rest, -⟩ := (reads _ _ _).mp read
      rw [read] at h
      change (if c.remaining = 0 then Except.ok b else _) = _ at h
      split at h
      next none =>
        cases h
        rw [length_eq_zero_iff.mp none, append_nil] at rest
        change bytes = enc at rest
        rwa [rest]
      next => cases h
  · intro layout
    have read := reads.eq_ok layout 0 []
    rw [append_nil] at read
    rw [Cursor.new, read]
    rfl

theorem decodeQmap_eq_ok :
    decodeQmap x bytes = .ok pairs ↔ pairs.length ≤ maxMapEntries ∧ (pairs.map fun p => digest x p.1).Nodup ∧
      ∃ e, pairsLayout pairs e ∧ bytes = Wire.be32 pairs.length ++ e :=
  exactly_eq_ok reads_qmapPairs

/-- Whatever the digest is, what is accepted is a map. -/
theorem decodeQmap_sound (accepted : decodeQmap x bytes = .ok pairs) :
    ∃ m : QMap, bytes = m.encode ∧ pairs = m.decoded := by
  obtain ⟨few, nodup, _, ⟨ws, rfl, rfl⟩, rfl⟩ := decodeQmap_eq_ok.mp accepted
  refine ⟨⟨ws, by simpa using few, ?_⟩, by simp [QMap.encode], rfl⟩
  have keys : (ws.map fun p => p.1.text).map (digest x) =
      (ws.map fun p => (p.1.text, p.2.text)).map fun p => digest x p.1 := by simp
  exact List.Nodup.of_map _ (keys ▸ nodup)

/-- The bytes that are digested for the keys of a map. -/
def QMap.keyBytes (m : QMap) : Set Bytes := {b | ∃ p ∈ m.pairs, b = utf8 p.1.text}

/-- A digest without collisions on the keys of a map refuses none of them. -/
theorem decodeQmap_encode (m : QMap) (injective : Set.InjOn x.sha256 m.keyBytes) :
    decodeQmap x m.encode = .ok m.decoded := by
  refine decodeQmap_eq_ok.mpr ⟨?_, ?_, _, ⟨m.pairs, rfl, rfl⟩, ?_⟩
  · simpa [QMap.decoded] using m.few
  · have keys : m.decoded.map (fun p => digest x p.1) = (m.pairs.map fun p => p.1.text).map (digest x) := by
      simp [QMap.decoded]
    rw [keys]
    refine List.Nodup.map_on ?_ m.distinct
    intro a ha b hb same
    obtain ⟨p, hp, rfl⟩ := mem_map.mp ha
    obtain ⟨q, hq, rfl⟩ := mem_map.mp hb
    exact utf8_inj (injective ⟨p, hp, rfl⟩ ⟨q, hq, rfl⟩ same)
  · simp [QMap.encode, QMap.decoded]

/-- **The decoder is exact.** With a digest that has no collision on the keys of a map, a byte
string is accepted exactly when it encodes a map, and the answer is its pairs in wire order; so
decoding an encoding gives the pairs back. -/
theorem decode_qmap_exact (x : Externals) :
    (∀ bytes, (∀ m : QMap, bytes = m.encode → Set.InjOn x.sha256 m.keyBytes) → ∀ pairs,
      decodeQmap x bytes = .ok pairs ↔ ∃ m : QMap, bytes = m.encode ∧ pairs = m.decoded) ∧
    ∀ m : QMap, Set.InjOn x.sha256 m.keyBytes → decodeQmap x m.encode = .ok m.decoded := by
  refine ⟨fun bytes injective pairs => ⟨decodeQmap_sound, ?_⟩, decodeQmap_encode⟩
  rintro ⟨m, rfl, rfl⟩
  exact decodeQmap_encode m (injective m rfl)

namespace Reference

/-- Two pairs, the first with the null string as its key. -/
def nullFirst : QMap :=
  { pairs := [(⟨none, nofun⟩, ⟨some "b", by decide⟩), (⟨some "a", by decide⟩, ⟨none, nofun⟩)]
    few := by decide
    distinct := by decide }

theorem nullFirst_injOn : Set.InjOn hashing.sha256 nullFirst.keyBytes := by
  rintro _ ⟨p, hp, rfl⟩ _ ⟨q, hq, rfl⟩ same
  simp only [nullFirst, mem_cons, not_mem_nil, or_false] at hp hq
  rcases hp with rfl | rfl
  · rcases hq with rfl | rfl
    · rfl
    · exact absurd same (by decide)
  · rcases hq with rfl | rfl
    · exact absurd same (by decide)
    · rfl

end Reference

open Reference

theorem QMap.encode_ne_nil (m : QMap) : m.encode ≠ [] := cons_ne_nil _ _

/-- A map with a null key is decoded, and no bytes at all are not a map. -/
theorem decode_qmap_exact_null : decodeQmap hashing nullFirst.encode = .ok [("", "b"), ("a", "")] ∧
      ¬decodeQmap hashing [] = .ok [] := by
  refine ⟨(decode_qmap_exact hashing).2 nullFirst nullFirst_injOn, fun accepted => ?_⟩
  obtain ⟨m, empty, -⟩ := ((decode_qmap_exact hashing).1 []
    (fun m empty => absurd empty.symm m.encode_ne_nil) []).mp accepted
  exact m.encode_ne_nil empty.symm

/-! ## The canonical JSON -/

section

variable {json : JsonWriter} {pairs' : List (String × String)}

def Distinct (pairs : List (String × String)) : Prop := (pairs.map Prod.fst).Nodup

theorem decodeQmap_distinct (accepted : decodeQmap x bytes = .ok pairs) : Distinct pairs := by
  obtain ⟨m, -, rfl⟩ := decodeQmap_sound accepted
  simpa [Distinct, QMap.decoded, Function.comp_def] using m.distinct

section

variable (distinct : Distinct pairs)
include distinct

theorem mem_toList_ofList {p : String × String} :
    p ∈ (Std.ExtTreeMap.ofList pairs).toList ↔ p ∈ pairs := by
  have apart : pairs.Pairwise fun a b => ¬compare a.1 b.1 = .eq := by
    refine (pairwise_map.mp distinct).imp fun {a b} ne same => ne ?_
    exact Std.LawfulEqCmp.eq_of_compare same
  obtain ⟨k, v⟩ := p
  rw [Std.ExtTreeMap.mem_toList_iff_getElem?_eq_some]
  constructor
  · intro found
    by_cases key : k ∈ pairs.map Prod.fst
    · obtain ⟨⟨k', v'⟩, mem, rfl⟩ := mem_map.mp key
      rw [Std.ExtTreeMap.getElem?_ofList_of_mem Std.compare_self apart mem] at found
      cases found
      exact mem
    · rw [Std.ExtTreeMap.getElem?_ofList_of_contains_eq_false (by simpa using key)] at found
      cases found
  · exact Std.ExtTreeMap.getElem?_ofList_of_mem Std.compare_self apart

theorem Distinct.nodup : pairs.Nodup := List.Nodup.of_map _ distinct

theorem toList_ofList_perm : (Std.ExtTreeMap.ofList pairs).toList.Perm pairs := by
  have sorted : Distinct (Std.ExtTreeMap.ofList pairs).toList := by
    refine pairwise_map.mpr (Std.ExtTreeMap.distinct_keys_toList.imp fun {a b} ne same => ne ?_)
    rw [same]
    exact Std.compare_self
  exact (perm_ext_iff_of_nodup sorted.nodup distinct.nodup).mpr fun p => mem_toList_ofList distinct

theorem ofList_eq (distinct' : Distinct pairs') (same : ∀ p, p ∈ pairs ↔ p ∈ pairs') :
    (Std.ExtTreeMap.ofList pairs : Std.ExtTreeMap String String) = Std.ExtTreeMap.ofList pairs' := by
  refine Std.ExtTreeMap.ext_getElem? fun k => Option.ext fun v => ?_
  rw [← Std.ExtTreeMap.mem_toList_iff_getElem?_eq_some, ← Std.ExtTreeMap.mem_toList_iff_getElem?_eq_some,
    mem_toList_ofList distinct, mem_toList_ofList distinct', same]

end

theorem canonicalJson_inj (lawful : json.Lawful) (distinct : Distinct pairs)
    (distinct' : Distinct pairs') (same : canonicalJson json pairs = canonicalJson json pairs')
    (p : String × String) : p ∈ pairs ↔ p ∈ pairs' := by
  have lists := lawful.injective same
  rw [← mem_toList_ofList distinct, ← mem_toList_ofList distinct', lists]

theorem saturatingAdd_le (a b : Nat) : saturatingAdd a b ≤ a + b := Nat.min_le_left _ _

theorem foldl_saturatingAdd (ns : List Nat) {a : Nat} (small : a ≤ usizeMax) :
    ns.foldl saturatingAdd a = min (a + ns.sum) usizeMax := by
  induction ns generalizing a with
  | nil => simpa using small
  | cons n ns ih =>
    have bounded : saturatingAdd a n ≤ usizeMax := Nat.min_le_right _ _
    rw [foldl_cons, ih bounded, sum_cons, saturatingAdd]
    omega

theorem decodedLen_eq (pairs : List (String × String)) : decodedLen pairs =
    min (pairs.map fun p => saturatingAdd (utf8 p.1).length (utf8 p.2).length).sum usizeMax := by
  rw [decodedLen, foldl_saturatingAdd _ (Nat.zero_le _), Nat.zero_add]

/-- **What is over the cap before it is written is over it afterwards.** -/
theorem decodedLen_le_canonicalJson (lawful : json.Lawful) (distinct : Distinct pairs) :
    decodedLen pairs ≤ (canonicalJson json pairs).length := by
  have each (ps : List (String × String)) :
      (ps.map fun p => saturatingAdd (utf8 p.1).length (utf8 p.2).length).sum ≤
        (ps.map fun p => (utf8 p.1).length + (utf8 p.2).length).sum :=
    sum_le_sum fun p _ => saturatingAdd_le _ _
  have sorted := ((toList_ofList_perm distinct).map fun p =>
    saturatingAdd (utf8 p.1).length (utf8 p.2).length).sum_eq
  have bounded : decodedLen pairs ≤
      (pairs.map fun p => saturatingAdd (utf8 p.1).length (utf8 p.2).length).sum := by
    rw [decodedLen_eq]
    exact Nat.min_le_left _ _
  rw [← sorted] at bounded
  exact bounded.trans ((each _).trans (lawful.le_length _))

theorem qmapToCanonicalJson_congr (distinct : Distinct pairs) (distinct' : Distinct pairs')
    (same : ∀ p, p ∈ pairs ↔ p ∈ pairs') :
    qmapToCanonicalJson json pairs = qmapToCanonicalJson json pairs' := by
  have perm : pairs.Perm pairs' :=
    (perm_ext_iff_of_nodup distinct.nodup distinct'.nodup).mpr same
  have len : decodedLen pairs = decodedLen pairs' := by
    rw [decodedLen_eq, decodedLen_eq, (perm.map _).sum_eq]
  have written : canonicalJson json pairs = canonicalJson json pairs' := by
    rw [canonicalJson, canonicalJson, ofList_eq distinct distinct' same]
  rw [qmapToCanonicalJson, qmapToCanonicalJson, len, written]

theorem readMapSecret_of_decoded (accepted : decodeQmap x bytes = .ok pairs) :
    readMapSecret x json bytes = qmapToCanonicalJson json pairs := by
  rw [readMapSecret, accepted]
  rfl

theorem qmapToCanonicalJson_ok {secret : Bytes}
    (written : qmapToCanonicalJson json pairs = .ok secret) :
    secret = canonicalJson json pairs := by
  unfold qmapToCanonicalJson at written
  split at written
  · cases written
  · cases written
    rfl

end

/-- **Map secrets are canonical.** Of two accepted byte strings that hold the same set of pairs the
same comes out, in whatever order and with whichever empty string they hold them; where both come
out as a secret, the secrets are equal only then. A map that is refused for its size would have been
over the cap as JSON. All of it is for any lawful writer of JSON objects. -/
theorem map_secrets_canonical (x : Externals) {json : JsonWriter} (lawful : json.Lawful) :
    (∀ bytes bytes' pairs pairs', decodeQmap x bytes = .ok pairs → decodeQmap x bytes' = .ok pairs' →
      (∀ secret secret', readMapSecret x json bytes = .ok secret →
        readMapSecret x json bytes' = .ok secret' →
        (secret = secret' ↔ ∀ p, p ∈ pairs ↔ p ∈ pairs')) ∧
      ((∀ p, p ∈ pairs ↔ p ∈ pairs') → readMapSecret x json bytes = readMapSecret x json bytes')) ∧
    ∀ bytes pairs len limit, decodeQmap x bytes = .ok pairs →
      readMapSecret x json bytes = .error (.tooLarge len limit) →
      maxItemSecret < (canonicalJson json pairs).length := by
  constructor
  · intro bytes bytes' pairs pairs' accepted accepted'
    have distinct := decodeQmap_distinct accepted
    have distinct' := decodeQmap_distinct accepted'
    rw [readMapSecret_of_decoded accepted, readMapSecret_of_decoded accepted']
    refine ⟨fun secret secret' written written' => ?_, qmapToCanonicalJson_congr distinct distinct'⟩
    constructor
    · rintro rfl p
      refine canonicalJson_inj lawful distinct distinct' ?_ p
      rw [← qmapToCanonicalJson_ok written, qmapToCanonicalJson_ok written']
    · intro same
      rw [qmapToCanonicalJson_congr distinct distinct' same, written'] at written
      cases written
      rfl
  · intro bytes pairs len limit accepted refused
    rw [readMapSecret_of_decoded accepted, qmapToCanonicalJson] at refused
    split at refused
    next long =>
      exact long.trans_le (decodedLen_le_canonicalJson lawful (decodeQmap_distinct accepted))
    next => cases refused

namespace Reference

/-- The members of an object as the vault's own writer would write a list of pairs. -/
def members : Codec (List (String × String)) := (Codec.string.pair Codec.string).list

/-- A writer of objects: a brace, then the members. -/
def json : JsonWriter where
  object members := 0x7b :: Reference.members.encode members

theorem json_lawful : json.Lawful where
  injective a b same := Codec.encode_injective _ (cons.inj same).2
  le_length members := by
    have flat : (members.flatMap (Codec.string.pair Codec.string).encode).length ≤
        (json.object members).length := by
      simp only [json, Reference.members, Codec.list, length_cons, length_append]
      omega
    refine le_trans ?_ flat
    rw [length_flatMap]
    refine sum_le_sum fun p _ => ?_
    rw [Codec.pair, length_append]
    exact Nat.add_le_add (Codec.length_le_encode_string p.1) (Codec.length_le_encode_string p.2)
  filled _ := cons_ne_nil _ _

/-- The same pairs as `nullFirst` in the other order, with empty strings for the null ones. -/
def emptyLast : QMap :=
  { pairs := [(⟨some "a", by decide⟩, ⟨some "", by decide⟩), (⟨some "", by decide⟩, ⟨some "b", by decide⟩)]
    few := by decide
    distinct := by decide }

theorem emptyLast_injOn : Set.InjOn hashing.sha256 emptyLast.keyBytes := by
  refine nullFirst_injOn.mono ?_
  rintro _ ⟨p, hp, rfl⟩
  simp only [emptyLast, mem_cons, not_mem_nil, or_false] at hp
  rcases hp with rfl | rfl
  · exact ⟨_, mem_cons_of_mem _ mem_cons_self, rfl⟩
  · exact ⟨_, mem_cons_self, rfl⟩

def long (n : Nat) : String := String.ofList (replicate n 'a')

theorem length_codeUnits_long (n : Nat) : (codeUnits (long n)).length = n := by
  have one : Utf16.encodeChar 'a' = [97] := by decide
  simp [long, codeUnits, Utf16.encode, one]

theorem length_utf8_long (n : Nat) : (utf8 (long n)).length = n := by
  have one : 'a'.utf8Size = 1 := by decide
  simp [long, utf8, utf8Encode, one]

/-- A map of one value, under the null key. -/
def single (s : String) (fits : 2 * (codeUnits s).length < nullString.toNat) : QMap :=
  { pairs := [(⟨none, nofun⟩, ⟨some s, fun _ same => Option.some.inj same ▸ fits⟩)]
    few := Nat.succ_le_of_lt (Nat.zero_lt_succ _)
    distinct := nodup_singleton _ }

section

variable {s : String} (fits : 2 * (codeUnits s).length < nullString.toNat)

theorem single_injOn : Set.InjOn hashing.sha256 (single s fits).keyBytes := by
  rintro _ ⟨p, hp, rfl⟩ _ ⟨q, hq, rfl⟩ -
  rw [mem_singleton.mp hp, mem_singleton.mp hq]

theorem decodedLen_single (small : (utf8 s).length ≤ usizeMax) :
    decodedLen (single s fits).decoded = (utf8 s).length := by
  rw [decodedLen_eq]
  change min (min ((utf8 "").length + (utf8 s).length) usizeMax + 0) usizeMax = _
  have key : (utf8 "").length = 0 := rfl
  omega

end

theorem long_fits : 2 * (codeUnits (long (maxItemSecret + 1))).length < nullString.toNat := by
  rw [length_codeUnits_long]
  decide

/-- One value that is one byte over the cap. -/
def overCap : QMap := single (long (maxItemSecret + 1)) long_fits

theorem maxItemSecret_lt_overCap : maxItemSecret < decodedLen overCap.decoded := by
  have length := length_utf8_long (maxItemSecret + 1)
  have small : maxItemSecret + 1 ≤ usizeMax := by decide
  rw [← length] at small
  rw [overCap, decodedLen_single _ small, length]
  exact Nat.lt_succ_self _

end Reference

/-- One secret for two orders, and a map that is refused for its size. -/
theorem map_secrets_canonical_reordered : readMapSecret hashing json nullFirst.encode =
      readMapSecret hashing json emptyLast.encode ∧
    (canonicalJson json nullFirst.decoded =
        canonicalJson json emptyLast.decoded ↔
      ∀ p, p ∈ nullFirst.decoded ↔ p ∈ emptyLast.decoded) ∧
    maxItemSecret < (canonicalJson json overCap.decoded).length := by
  have accepted := decodeQmap_encode nullFirst nullFirst_injOn
  have accepted' := decodeQmap_encode emptyLast emptyLast_injOn
  have canonical := map_secrets_canonical hashing json_lawful
  have both := canonical.1 _ _ _ _ accepted accepted'
  refine ⟨both.2 ?_, both.1 _ _ ?_ ?_, ?_⟩
  · have swapped : nullFirst.decoded.Perm emptyLast.decoded := .swap _ _ _
    exact fun p => swapped.mem_iff
  · rw [readMapSecret_of_decoded accepted]
    exact if_neg (by decide)
  · rw [readMapSecret_of_decoded accepted']
    exact if_neg (by decide)
  · have large := decodeQmap_encode overCap (single_injOn _)
    exact canonical.2 _ _ _ _ large
      ((readMapSecret_of_decoded large).trans (if_pos maxItemSecret_lt_overCap))

end SecretManager.Import.KWallet
