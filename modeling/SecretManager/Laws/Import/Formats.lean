import SecretManager.Import.Formats
import SecretManager.Laws.Utf8

/-!
# The header parsers accept the documented layouts, and nothing else

Each parser is shown to read its layout field by field with the rules of `Reads`. The checks in
advance are the only steps that look past the field they are about: `reads_counted` removes them,
once, from the smallest encodings they multiply by. The laws of a whole header are then read off:
the parser accepts exactly the encodings, a file cut too early is refused, and the bytes behind the
header do not matter.
-/

namespace SecretManager.Import

open Formats

/-! ## The cursor -/

variable {bytes : Bytes}

theorem fill_toList {n : Nat} (v : Vector UInt8 n) : fill n v.toList = v := by
  ext i lt
  simp [fill]

theorem toList_fill {n : Nat} (len : bytes.length = n) : (fill n bytes).toList = bytes := by
  subst len
  refine List.ext_getElem (by simp) fun i _ lt => ?_
  simp [fill]

theorem reads_array16 (field : String) : Reads (array16 field) fun v enc => enc = v.toList :=
  Reads.scalar 16 _ (fill 16) Vector.toList (fun v => v.length_toList) fill_toList
    fun _ len => toList_fill len

section

variable {α β : Type} {G : Layout α} {p : Parser α} {k : Nat → Parser β} {H : Layout β}

theorem reads_count {declared : UInt32} {minEach : Nat} (field : String)
    (reads : Reads (k declared.toNat) H)
    (long : ∀ b enc, H b enc → declared.toNat * minEach ≤ enc.length) :
    Reads (count declared minEach field >>= k) H := by
  have same : (count declared minEach field >>= k) =
      Reader.room (declared.toNat * minEach) (fun _ => .impossibleLength field declared.toNat) >>=
        fun _ => k declared.toNat := by
    simp only [count, bind_assoc, pure_bind]
  rw [same]
  exact Reads.room _ reads long

def Layout.counted (G : Layout α) : Layout (List α) := fun as enc =>
  as.length < 2 ^ 32 ∧ ∃ e, G.list as e ∧ enc = Wire.be32 as.length ++ e

/-- **A count, its check and its loop** read a list behind its length, where no element is shorter
than the check assumes. -/
theorem reads_counted {minEach : Nat} {k : List α → Parser β} {K : List α → Layout β}
    (field field' : String) (reads : Reads p G) (long : ∀ a enc, G a enc → minEach ≤ enc.length)
    (next : ∀ as, Reads (k as) (K as)) :
    Reads (u32 field >>= fun declared => count declared minEach field' >>= fun n =>
      Reader.times p n >>= k) ((Layout.counted G).bind K) := by
  have loop (declared : UInt32) : Reads (count declared minEach field' >>= fun n => Reader.times p n >>= k)
      (Layout.bind (fun as enc => as.length = declared.toNat ∧ G.list as enc) K) := by
    refine reads_count field' ((reads.times _).bind fun as _ _ => next as) ?_
    rintro b _ ⟨as, e₁, e₂, ⟨len, list⟩, -, rfl⟩
    have := Layout.le_length_list long list
    rw [List.length_append, ← len]
    omega
  refine ((Reads.u32 _).bind fun declared _ _ => loop declared).congr fun b enc => ?_
  constructor
  · rintro ⟨declared, _, _, rfl, ⟨as, e₁, e₂, ⟨len, list⟩, tail, rfl⟩, rfl⟩
    have lt := declared.toNat_lt
    exact ⟨as, _, e₂, ⟨by omega, e₁, list, rfl⟩, tail, by rw [len, List.append_assoc]⟩
  · rintro ⟨as, _, e₂, ⟨lt, e₁, list, rfl⟩, tail, rfl⟩
    have declared : (UInt32.ofNat as.length).toNat = as.length :=
      UInt32.toNat_ofNat_of_lt' (by simpa using lt)
    exact ⟨UInt32.ofNat as.length, _, e₁ ++ e₂, rfl, ⟨as, e₁, e₂, ⟨declared.symm, list⟩, tail, rfl⟩,
      by rw [declared, List.append_assoc]⟩

end

/-! ## Strings -/

section

variable {α : Type} {k : Option Nat → Parser α} {N : Layout α} {S : Nat → Layout α}

/-- **A length or NULL**, and then as many bytes at least. -/
theorem reads_optLen (field : String) (null : Reads (k none) N)
    (sized : ∀ len, Reads (k (some len)) (S len))
    (long : ∀ len a enc, S len a enc → len ≤ enc.length) : Reads (optLen field >>= k) fun a enc =>
      (∃ e, N a e ∧ enc = Wire.be32 nullMarker.toNat ++ e) ∨
        ∃ len e, len < nullMarker.toNat ∧ S len a e ∧ enc = Wire.be32 len ++ e := by
  have same : (optLen field >>= k) = u32 field >>= fun len =>
      if len = nullMarker then k none else count len 1 field >>= fun n => k (some n) := by
    simp only [optLen, bind_assoc]
    congr 1
    funext len
    split
    · rw [pure_bind]
    · rw [bind_assoc]
      congr 1
  have branch (len : UInt32) : Reads (if len = nullMarker then k none else count len 1 field >>= fun n => k (some n))
      fun a e => (len = nullMarker ∧ N a e) ∨ (len ≠ nullMarker ∧ S len.toNat a e) := by
    split
    next marker => exact null.congr fun a e => by simp [marker]
    next other =>
      refine (reads_count field (sized len.toNat) fun a enc layout => ?_).congr fun a e => by simp [other]
      rw [Nat.mul_one]
      exact long _ a enc layout
  rw [same]
  refine ((Reads.u32 _).bind fun len _ _ => branch len).congr fun a enc => ?_
  constructor
  · rintro ⟨len, _, e, rfl, ⟨rfl, layout⟩ | ⟨other, layout⟩, rfl⟩
    · exact .inl ⟨e, layout, rfl⟩
    · refine .inr ⟨len.toNat, e, ?_, layout, rfl⟩
      have lt := len.toNat_lt
      have ne : len.toNat ≠ nullMarker.toNat := fun h => other (UInt32.toNat.inj h)
      have marker : nullMarker.toNat = 4294967295 := rfl
      omega
  · rintro (⟨e, layout, rfl⟩ | ⟨len, e, lt, layout, rfl⟩)
    · exact ⟨nullMarker, _, e, rfl, .inl ⟨rfl, layout⟩, rfl⟩
    · have back : (UInt32.ofNat len).toNat = len := UInt32.toNat_ofNat_of_lt' (lt.trans (by decide))
      refine ⟨UInt32.ofNat len, _, e, rfl, .inr ⟨fun h => ?_, by rwa [back]⟩, by rw [back]⟩
      rw [← h, back] at lt
      exact absurd lt (Nat.lt_irrefl _)

end

theorem reads_utf8 (bytes : Bytes) (e : HeaderError) :
    Reads (Reader.ofExcept ((ofUtf8 bytes).elim (.error e) .ok)) fun s enc => utf8 s = bytes ∧ enc = [] := by
  refine (Reads.ofExcept _).congr fun s enc => and_congr_left' ?_
  constructor
  · intro h
    cases read : ofUtf8 bytes with
    | none =>
      rw [read] at h
      cases h
    | some t =>
      rw [read] at h
      cases h
      exact utf8_ofUtf8 read
  · rintro rfl
    rw [ofUtf8_utf8]
    rfl

theorem reads_optString (field : String) :
    Reads (optString field) (.of (Option.map Text.text) fun t => encodeOpt (t.map Text.sized)) := by
  refine Reads.congr (reads_optLen field (Reads.pure none) (fun len => (Reads.take len _).bind fun bytes _ _ =>
    (reads_utf8 bytes _).bind fun s _ _ => Reads.pure (some s)) ?_) fun s enc => ?_
  · rintro len s _ ⟨bytes, _, e, ⟨rfl, rfl⟩, -, rfl⟩
    rw [List.length_append]
    omega
  · constructor
    · rintro (⟨e, ⟨rfl, rfl⟩, rfl⟩ | ⟨_, _, lt, ⟨_, _, _, ⟨rfl, rfl⟩, ⟨s, _, _, ⟨rfl, rfl⟩, ⟨rfl, rfl⟩, rfl⟩, rfl⟩, rfl⟩)
      · exact ⟨none, rfl, List.append_nil _⟩
      · exact ⟨some ⟨s, lt⟩, rfl, by simp [encodeOpt, Text.sized]⟩
    · rintro ⟨t, rfl, rfl⟩
      cases t with
      | none => exact .inl ⟨[], ⟨rfl, rfl⟩, (List.append_nil _).symm⟩
      | some t =>
        exact .inr ⟨_, utf8 t.text, t.fits, ⟨utf8 t.text, utf8 t.text, [], ⟨rfl, rfl⟩,
          ⟨t.text, [], [], ⟨rfl, rfl⟩, ⟨rfl, rfl⟩, rfl⟩, (List.append_nil _).symm⟩, rfl⟩

/-! ## The items of a keyring -/

theorem reads_optBytes (field field' : String) : Reads (optLen field >>= fun
      | none => pure ()
      | some len => take len field' >>= fun _ => pure ()) fun _ enc => ∃ b : Option Sized, enc = encodeOpt b := by
  refine Reads.congr (reads_optLen field (Reads.pure ()) (fun len => (Reads.take len _).bind fun _ _ _ =>
    Reads.pure ()) ?_) fun u enc => ?_
  · rintro len u _ ⟨bytes, _, e, ⟨rfl, rfl⟩, -, rfl⟩
    rw [List.length_append]
    omega
  · constructor
    · rintro (⟨e, ⟨-, rfl⟩, rfl⟩ | ⟨_, _, lt, ⟨bytes, _, _, ⟨rfl, rfl⟩, ⟨-, rfl⟩, rfl⟩, rfl⟩)
      · exact ⟨none, List.append_nil _⟩
      · exact ⟨some ⟨bytes, lt⟩, by simp [encodeOpt]⟩
    · rintro ⟨b, rfl⟩
      cases b with
      | none => exact .inl ⟨[], ⟨rfl, rfl⟩, (List.append_nil _).symm⟩
      | some b =>
        exact .inr ⟨_, b.bytes, b.fits, ⟨b.bytes, b.bytes, [], ⟨rfl, rfl⟩, ⟨rfl, rfl⟩, (List.append_nil _).symm⟩, rfl⟩

theorem reads_skipValue (itemId : UInt32) :
    Reads (skipValue itemId) fun _ enc => ∃ v : AttributeValue, enc = v.encode := by
  have branch (attributeType : UInt32) : Reads
      (if attributeType = attrTypeString then
        optLen "attribute value" >>= fun
          | none => pure ()
          | some len => take len "attribute value" >>= fun _ => pure ()
      else if attributeType = attrTypeUint32 then u32 "attribute value" >>= fun _ => pure ()
      else Reader.ofExcept (.error (.unknownAttributeType itemId attributeType)))
      fun _ enc => ∃ v : AttributeValue, Wire.be32 attributeType.toNat ++ enc = v.encode := by
    split
    next string =>
      subst string
      refine (reads_optBytes _ _).congr fun _ enc => ?_
      constructor
      · rintro ⟨b, rfl⟩
        exact ⟨.string b, rfl⟩
      · rintro ⟨v, same⟩
        cases v with
        | string b => exact ⟨b, List.append_cancel_left same⟩
        | uint32 h =>
          obtain ⟨tag, -⟩ := List.append_inj same rfl
          exact absurd tag (by decide)
    split
    next other uint32 =>
      subst uint32
      refine ((Reads.u32 _).bind fun _ _ _ => Reads.pure ()).congr fun _ enc => ?_
      constructor
      · rintro ⟨h, _, _, rfl, ⟨-, rfl⟩, rfl⟩
        exact ⟨.uint32 h, by rw [List.append_nil]; rfl⟩
      · rintro ⟨v, same⟩
        cases v with
        | string b =>
          obtain ⟨tag, -⟩ := List.append_inj same rfl
          exact absurd tag (by decide)
        | uint32 h =>
          exact ⟨h, _, [], List.append_cancel_left same, ⟨rfl, rfl⟩, (List.append_nil _).symm⟩
    next string uint32 =>
      refine (Reads.ofExcept _).congr fun _ enc => ?_
      constructor
      · rintro ⟨h, -⟩
        cases h
      · rintro ⟨v, same⟩
        cases v with
        | string b =>
          obtain ⟨tag, -⟩ := List.append_inj same rfl
          exact absurd (Wire.be32_toNat_inj tag) string
        | uint32 h =>
          obtain ⟨tag, -⟩ := List.append_inj same rfl
          exact absurd (Wire.be32_toNat_inj tag) uint32
  refine Reads.congr ((Reads.u32 _).bind fun attributeType _ _ => branch attributeType) fun _ enc => ?_
  constructor
  · rintro ⟨attributeType, _, e, rfl, ⟨v, same⟩, rfl⟩
    exact ⟨v, same⟩
  · rintro ⟨v, rfl⟩
    cases v with
    | string b => exact ⟨attrTypeString, _, _, rfl, ⟨.string b, rfl⟩, rfl⟩
    | uint32 h => exact ⟨attrTypeUint32, _, _, rfl, ⟨.uint32 h, rfl⟩, rfl⟩

theorem reads_parseAttribute (itemId : UInt32) :
    Reads (parseAttribute itemId) (.of (fun a : KeyringAttribute => a.name.text) KeyringAttribute.encode) := by
  refine Reads.congr ((reads_optString _).bind fun name _ _ => (Reads.ofExcept _).bind fun text _ _ =>
    (reads_skipValue itemId).bind fun _ _ _ => Reads.pure text) fun name enc => ?_
  constructor
  · rintro ⟨_, _, _, ⟨t, rfl, rfl⟩, ⟨text, _, _, ⟨named, rfl⟩, ⟨_, _, _, ⟨v, rfl⟩, ⟨rfl, rfl⟩, rfl⟩, rfl⟩, rfl⟩
    cases t with
    | none => cases named
    | some t =>
      cases named
      exact ⟨⟨t, v⟩, rfl, by simp [KeyringAttribute.encode]⟩
  · rintro ⟨a, rfl, rfl⟩
    exact ⟨some a.name.text, _, a.value.encode, ⟨some a.name, rfl, rfl⟩, ⟨a.name.text, [], a.value.encode, ⟨rfl, rfl⟩,
      ⟨(), a.value.encode, [], ⟨a.value, rfl⟩, ⟨rfl, rfl⟩, (List.append_nil _).symm⟩, rfl⟩, rfl⟩

theorem minAttributeBytes_le (name : String) (enc : Bytes)
    (layout : Layout.of (fun a : KeyringAttribute => a.name.text) KeyringAttribute.encode name enc) :
    minAttributeBytes ≤ enc.length := by
  obtain ⟨a, -, rfl⟩ := layout
  have value : 8 ≤ a.value.encode.length := by
    cases a.value with
    | string b =>
      cases b with
      | none => exact le_rfl
      | some b => simp [AttributeValue.encode, encodeOpt]; omega
    | uint32 h => exact le_rfl
  simp only [KeyringAttribute.encode, encodeOpt, List.length_append, Wire.be32_length, minAttributeBytes]
  omega

theorem reads_parseKeyringItem :
    Reads parseKeyringItem (.of KeyringItem.index KeyringItem.encode) := by
  refine Reads.congr ((Reads.u32 _).bind fun id _ _ => (Reads.u32 _).bind fun itemType _ _ =>
    reads_counted _ _ (reads_parseAttribute id) minAttributeBytes_le fun names => Reads.pure _) fun item enc => ?_
  constructor
  · rintro ⟨id, _, _, rfl, ⟨itemType, _, _, rfl, ⟨names, _, _, ⟨lt, _, list, rfl⟩, ⟨rfl, rfl⟩, rfl⟩, rfl⟩, rfl⟩
    obtain ⟨attributes, rfl, rfl⟩ := Layout.list_of.mp list
    refine ⟨⟨id, itemType, attributes, by simpa using lt⟩, rfl, ?_⟩
    simp [KeyringItem.encode]
  · rintro ⟨i, rfl, rfl⟩
    refine ⟨i.id, _, _, rfl, ⟨i.itemType, _, _, rfl, ⟨_, _, [], ⟨?_, _, Layout.list_of.mpr ⟨i.attributes, rfl, rfl⟩, rfl⟩,
      ⟨rfl, rfl⟩, rfl⟩, rfl⟩, ?_⟩
    · simpa using i.fits
    · simp [KeyringItem.encode]

theorem minItemBytes_le (item : KeyringItemIndex) (enc : Bytes)
    (layout : Layout.of KeyringItem.index KeyringItem.encode item enc) :
    minItemBytes ≤ enc.length := by
  obtain ⟨i, -, rfl⟩ := layout
  simp only [KeyringItem.encode, List.length_append, Wire.be32_length, minItemBytes]
  omega

/-! ## The header of a keyring -/

theorem reads_keyringVersion : Reads keyringVersion fun _ enc => ∃ crypto hash : UInt8,
      enc = keyringMagic ++ [keyringMajor, keyringMinor, crypto, hash] := by
  refine Reads.congr ((Reads.take _ _).bind fun magic _ _ => (Reads.ensure _ _).bind fun _ _ _ =>
    (Reads.u8 _).bind fun major _ _ => (Reads.u8 _).bind fun minor _ _ => (Reads.u8 _).bind fun crypto _ _ =>
      (Reads.u8 _).bind fun hash _ _ => Reads.ensure _ _) fun _ enc => ?_
  constructor
  · rintro ⟨magic, _, _, ⟨rfl, -⟩, ⟨_, _, _, ⟨rfl, rfl⟩, ⟨major, _, _, rfl, ⟨minor, _, _, rfl, ⟨crypto, _, _, rfl,
      ⟨hash, _, _, rfl, ⟨version, rfl⟩, rfl⟩, rfl⟩, rfl⟩, rfl⟩, rfl⟩, rfl⟩
    cases version
    exact ⟨crypto, hash, by simp⟩
  · rintro ⟨crypto, hash, rfl⟩
    exact ⟨_, _, _, ⟨rfl, rfl⟩, ⟨(), [], _, ⟨rfl, rfl⟩, ⟨keyringMajor, _, _, rfl, ⟨keyringMinor, _, _, rfl,
      ⟨crypto, _, _, rfl, ⟨hash, _, [], rfl, ⟨rfl, rfl⟩, rfl⟩, rfl⟩, rfl⟩, rfl⟩, rfl⟩, rfl⟩

theorem reads_reserved :
    Reads (Reader.times (u32 "reserved words") 4) fun words enc => ∃ reserved : Vector UInt32 4,
      words = reserved.toList ∧ enc = reserved.toList.flatMap fun w => Wire.be32 w.toNat := by
  have word : Reads (u32 "reserved words") (.of id fun w => Wire.be32 w.toNat) :=
    (Reads.u32 _).congr fun w enc => by simp [Layout.of]
  refine (word.times 4).congr fun words enc => ?_
  rw [Layout.list_of]
  constructor
  · rintro ⟨len, ws, rfl, rfl⟩
    rw [List.map_id] at len
    exact ⟨⟨ws.toArray, len⟩, by simp, rfl⟩
  · rintro ⟨reserved, rfl, rfl⟩
    exact ⟨reserved.length_toList, reserved.toList, (List.map_id _).symm, rfl⟩

theorem reads_keyringFields : Reads keyringFields (.of KeyringFile.fields KeyringFile.encode) := by
  refine Reads.congr (reads_keyringVersion.bind fun _ _ _ => (reads_optString _).bind fun name _ _ =>
    (Reads.u64 _).bind fun created _ _ => (Reads.u64 _).bind fun modified _ _ => (Reads.u32 _).bind fun flags _ _ =>
      (Reads.u32 _).bind fun lockTimeout _ _ => (Reads.u32 _).bind fun hashIterations _ _ =>
        (Reads.take 8 _).bind fun salt _ _ => reads_reserved.bind fun _ _ _ =>
          reads_counted _ _ reads_parseKeyringItem minItemBytes_le fun items =>
            (Reads.u32 _).bind fun len _ _ => Reads.pure _) fun fields enc => ?_
  constructor
  · rintro ⟨_, _, _, ⟨crypto, hash, rfl⟩, ⟨_, _, _, ⟨name, rfl, rfl⟩, ⟨created, _, _, rfl, ⟨modified, _, _, rfl,
      ⟨flags, _, _, rfl, ⟨lockTimeout, _, _, rfl, ⟨hashIterations, _, _, rfl, ⟨salt, _, _, ⟨rfl, width⟩,
        ⟨_, _, _, ⟨reserved, rfl, rfl⟩, ⟨_, _, _, ⟨lt, _, list, rfl⟩, ⟨len, _, _, rfl, ⟨rfl, rfl⟩, rfl⟩, rfl⟩,
          rfl⟩, rfl⟩, rfl⟩, rfl⟩, rfl⟩, rfl⟩, rfl⟩, rfl⟩, rfl⟩
    obtain ⟨items, rfl, rfl⟩ := Layout.list_of.mp list
    refine ⟨⟨crypto, hash, name, created, modified, flags, lockTimeout, hashIterations, fill 8 salt, reserved,
      items, len, by simpa using lt⟩, rfl, ?_⟩
    simp [KeyringFile.encode, toList_fill width]
  · rintro ⟨f, rfl, rfl⟩
    refine ⟨(), _, _, ⟨f.crypto, f.hash, rfl⟩, ⟨_, _, _, ⟨f.name, rfl, rfl⟩, ⟨f.created, _, _, rfl, ⟨f.modified, _, _, rfl,
      ⟨f.flags, _, _, rfl, ⟨f.lockTimeout, _, _, rfl, ⟨f.hashIterations, _, _, rfl, ⟨f.salt.toList, _, _,
        ⟨rfl, f.salt.length_toList⟩, ⟨_, _, _, ⟨f.reserved, rfl, rfl⟩, ⟨f.items.map KeyringItem.index, _, _,
          ⟨?_, _, Layout.list_of.mpr ⟨f.items, rfl, rfl⟩, rfl⟩, ⟨f.ciphertextLen, _, [], rfl, ⟨?_, rfl⟩, rfl⟩, rfl⟩,
            rfl⟩, rfl⟩, rfl⟩, rfl⟩, rfl⟩, rfl⟩, rfl⟩, rfl⟩, ?_⟩
    · simpa using f.fits
    · simp [KeyringFile.fields, fill_toList]
    · simp [KeyringFile.encode]

/-- **The parser accepts the documented layout**, followed by the ciphertext it declares. -/
theorem parseKeyringHeader_eq_ok {h : KeyringHeader} :
    parseKeyringHeader bytes = .ok h ↔ ∃ (f : KeyringFile) (tail : Bytes),
      bytes = f.encode ++ tail ∧ f.ciphertextLen.toNat ≤ tail.length ∧ h = f.header := by
  constructor
  · intro parsed
    unfold parseKeyringHeader at parsed
    cases read : keyringFields (.new bytes) with
    | error e =>
      rw [read] at parsed
      cases parsed
    | ok found =>
      obtain ⟨fields, c⟩ := found
      obtain ⟨_, ⟨f, rfl, rfl⟩, rest, pos⟩ := (reads_keyringFields _ _ _).mp read
      rw [read] at parsed
      change (Reader.room f.fields.ciphertextLen _ c >>= fun r => _) = _ at parsed
      unfold Reader.room at parsed
      split at parsed
      next enough =>
        refine ⟨f, c.rest, rest, enough, ?_⟩
        cases parsed
        rw [Cursor.new] at pos
        simp [KeyringFile.header, pos]
      next => cases parsed
  · rintro ⟨f, tail, rfl, enough, rfl⟩
    have read := reads_keyringFields.eq_ok ⟨f, rfl, rfl⟩ 0 tail
    unfold parseKeyringHeader
    rw [Cursor.new, read]
    change (Reader.room f.fields.ciphertextLen _ ⟨0 + f.encode.length, tail⟩ >>= fun r => _) = _
    unfold Reader.room
    have room : f.fields.ciphertextLen ≤ (⟨0 + f.encode.length, tail⟩ : Cursor).remaining := enough
    rw [if_pos room, Nat.zero_add]
    rfl

/-- **The gnome-keyring header parser is exact.** It accepts the encodings of a keyring file,
followed by at least the ciphertext they declare, and returns the encoded fields; none of these is
refused by a count check. A file cut before the end of its declared ciphertext is refused, and
behind the ciphertext offset only the number of bytes counts. -/
theorem keyring_header_exact :
    (∀ bytes h, parseKeyringHeader bytes = .ok h ↔ ∃ (f : KeyringFile) (tail : Bytes),
      bytes = f.encode ++ tail ∧ f.ciphertextLen.toNat ≤ tail.length ∧ h = f.header) ∧
    (∀ (f : KeyringFile) (tail : Bytes) (k : Nat), k < f.encode.length + f.ciphertextLen.toNat →
      ∃ e, parseKeyringHeader ((f.encode ++ tail).take k) = .error e) ∧
    ∀ bytes bytes' h, parseKeyringHeader bytes = .ok h →
      bytes'.take h.ciphertextOffset = bytes.take h.ciphertextOffset →
      h.ciphertextOffset + h.ciphertextLen ≤ bytes'.length → parseKeyringHeader bytes' = .ok h := by
  refine ⟨fun _ _ => parseKeyringHeader_eq_ok, ?_, ?_⟩
  · intro f tail k short
    cases parsed : parseKeyringHeader ((f.encode ++ tail).take k) with
    | error e => exact ⟨e, rfl⟩
    | ok h =>
      obtain ⟨f', tail', cut, enough, -⟩ := parseKeyringHeader_eq_ok.mp parsed
      have whole : f.encode ++ tail = f'.encode ++ (tail' ++ (f.encode ++ tail).drop k) := by
        rw [← List.append_assoc, ← cut, List.take_append_drop]
      obtain ⟨fields, same, -⟩ := reads_keyringFields.unambiguous ⟨f, rfl, rfl⟩ ⟨f', rfl, rfl⟩ whole
      have declared : f.ciphertextLen.toNat = f'.ciphertextLen.toNat := congrArg KeyringFields.ciphertextLen fields
      have length := congrArg List.length cut
      rw [List.length_append, ← same] at length
      have := List.length_take_le k (f.encode ++ tail)
      omega
  · intro bytes bytes' h parsed head enough
    obtain ⟨f, tail, rfl, -, rfl⟩ := parseKeyringHeader_eq_ok.mp parsed
    have offset : f.header.ciphertextOffset = f.encode.length := rfl
    have declared : f.header.ciphertextLen = f.ciphertextLen.toNat := rfl
    rw [offset, List.take_left] at head
    refine parseKeyringHeader_eq_ok.mpr ⟨f, bytes'.drop f.encode.length, ?_, ?_, rfl⟩
    · nth_rewrite 1 [← head]
      exact (List.take_append_drop _ _).symm
    · rw [List.length_drop]
      omega

/-- A keyring without a name, whose one item has an attribute with a NULL value. -/
def sampleKeyring : KeyringFile :=
  { crypto := 0, hash := 0, name := none, created := 1, modified := 0, flags := 0, lockTimeout := 0
    hashIterations := 1166, salt := Vector.replicate 8 7, reserved := Vector.replicate 4 0
    items := [{ id := 5, itemType := 0, attributes := [⟨⟨"server", by decide⟩, .string none⟩]
                fits := by decide }]
    ciphertextLen := 2, fits := by decide }

/-- The header is read in front of two bytes of ciphertext, whichever they are, and refused in front
of one. -/
theorem keyring_header_exact_login :
    parseKeyringHeader (sampleKeyring.encode ++ [1, 2]) = .ok sampleKeyring.header ∧
      (∃ e, parseKeyringHeader ((sampleKeyring.encode ++ [1, 2]).take
        (sampleKeyring.encode.length + 1)) = .error e) ∧
      parseKeyringHeader (sampleKeyring.encode ++ [8, 9]) = .ok sampleKeyring.header := by
  have parsed : parseKeyringHeader (sampleKeyring.encode ++ [1, 2]) = .ok sampleKeyring.header :=
    (keyring_header_exact.1 _ _).mpr ⟨_, [1, 2], rfl, by decide, rfl⟩
  have offset : sampleKeyring.header.ciphertextOffset = sampleKeyring.encode.length := rfl
  refine ⟨parsed, keyring_header_exact.2.1 _ _ _ (Nat.add_lt_add_left (by decide) _),
    keyring_header_exact.2.2 _ _ _ parsed ?_ ?_⟩
  · rw [offset, List.take_left, List.take_left]
  · rw [offset, List.length_append]
    exact Nat.add_le_add_left (by decide) _

/-! ## The header of a wallet -/

theorem reads_parseFolder :
    Reads parseFolder (.of WalletFolder.toWalletFolderIndex WalletFolder.encode) := by
  have entry : Reads (array16 "entry name hash") (.of id Vector.toList) :=
    (reads_array16 _).congr fun v enc => by simp [Layout.of]
  have long (v : Md5Hash) (enc : Bytes) (layout : Layout.of id Vector.toList v enc) : 16 ≤ enc.length := by
    obtain ⟨w, -, rfl⟩ := layout
    exact w.length_toList.ge
  refine Reads.congr ((reads_array16 _).bind fun folderHash _ _ =>
    reads_counted _ _ entry long fun entries => Reads.pure _) fun folder enc => ?_
  constructor
  · rintro ⟨folderHash, _, _, rfl, ⟨_, _, _, ⟨lt, _, list, rfl⟩, ⟨rfl, rfl⟩, rfl⟩, rfl⟩
    obtain ⟨entries, rfl, rfl⟩ := Layout.list_of.mp list
    rw [List.map_id] at lt
    exact ⟨⟨⟨folderHash, entries⟩, lt⟩, by simp, by simp [WalletFolder.encode]⟩
  · rintro ⟨f, rfl, rfl⟩
    refine ⟨f.folderHash, _, _, rfl, ⟨f.entryHashes, _, [], ⟨f.fits, _, Layout.list_of.mpr ⟨f.entryHashes, ?_, rfl⟩,
      rfl⟩, ⟨rfl, rfl⟩, rfl⟩, ?_⟩
    · rw [List.map_id]
    · simp [WalletFolder.encode]

theorem WalletFolder.length_encode (f : WalletFolder) :
    f.encode.length = 20 + 16 * f.entryHashes.length := by
  have entries : ∀ hs : List Md5Hash, (hs.flatMap Vector.toList).length = 16 * hs.length := by
    intro hs
    induction hs with
    | nil => rfl
    | cons h hs ih =>
      rw [List.flatMap_cons, List.length_append, Vector.length_toList, List.length_cons]
      omega
  simp only [WalletFolder.encode, List.length_append, Vector.length_toList, Wire.be32_length, entries]

theorem minFolderBytes_le (folder : WalletFolderIndex) (enc : Bytes)
    (layout : Layout.of WalletFolder.toWalletFolderIndex WalletFolder.encode folder enc) :
    minFolderBytes ≤ enc.length := by
  obtain ⟨f, -, rfl⟩ := layout
  rw [f.length_encode, minFolderBytes]
  omega

theorem reads_walletFields : Reads walletFields (.of WalletFile.fields WalletFile.encode) := by
  refine Reads.congr ((Reads.take _ _).bind fun magic _ _ => (Reads.ensure _ _).bind fun _ _ _ =>
    (Reads.u8 _).bind fun major _ _ => (Reads.u8 _).bind fun minor _ _ => (Reads.u8 _).bind fun cipher _ _ =>
      (Reads.u8 _).bind fun hash _ _ => (Reads.ensure _ _).bind fun _ _ _ =>
        reads_counted _ _ reads_parseFolder minFolderBytes_le fun folders => Reads.pure _) fun fields enc => ?_
  constructor
  · rintro ⟨magic, _, _, ⟨rfl, -⟩, ⟨_, _, _, ⟨rfl, rfl⟩, ⟨major, _, _, rfl, ⟨minor, _, _, rfl, ⟨cipher, _, _, rfl,
      ⟨hash, _, _, rfl, ⟨_, _, _, ⟨version, rfl⟩, ⟨_, _, _, ⟨lt, _, list, rfl⟩, ⟨rfl, rfl⟩, rfl⟩, rfl⟩, rfl⟩, rfl⟩,
        rfl⟩, rfl⟩, rfl⟩, rfl⟩
    cases version
    obtain ⟨folders, rfl, rfl⟩ := Layout.list_of.mp list
    exact ⟨⟨cipher, hash, folders, by simpa using lt⟩, rfl, by simp [WalletFile.encode]⟩
  · rintro ⟨f, rfl, rfl⟩
    refine ⟨_, _, _, ⟨rfl, rfl⟩, ⟨(), [], _, ⟨rfl, rfl⟩, ⟨kwalletMajor, _, _, rfl, ⟨kwalletMinor, _, _, rfl,
      ⟨f.cipher, _, _, rfl, ⟨f.hash, _, _, rfl, ⟨(), [], _, ⟨rfl, rfl⟩, ⟨f.folders.map WalletFolder.toWalletFolderIndex,
        _, [], ⟨?_, _, Layout.list_of.mpr ⟨f.folders, rfl, rfl⟩, rfl⟩, ⟨rfl, rfl⟩, rfl⟩, rfl⟩, rfl⟩, rfl⟩, rfl⟩,
          rfl⟩, rfl⟩, ?_⟩
    · simpa using f.fits
    · simp [WalletFile.encode]

theorem WalletFile.length_encode (f : WalletFile) :
    f.encode.length = f.header.ciphertextOffset := by
  have folders : ∀ fs : List WalletFolder, (fs.flatMap WalletFolder.encode).length =
      20 * fs.length + 16 * (fs.map (·.entryHashes.length)).sum := by
    intro fs
    induction fs with
    | nil => rfl
    | cons f fs ih =>
      rw [List.flatMap_cons, List.length_append, ih, f.length_encode, List.length_cons, List.map_cons, List.sum_cons]
      omega
  have magic : kwalletMagic.length = 12 := by decide
  simp only [WalletFile.encode, WalletFile.header, List.length_append, folders, magic, Wire.be32_length,
    List.length_cons, List.length_nil]
  omega

theorem parseWalletHeader_eq_ok {h : WalletHeader} :
    parseWalletHeader bytes = .ok h ↔ ∃ (f : WalletFile) (tail : Bytes), bytes = f.encode ++ tail ∧ h = f.header := by
  constructor
  · intro parsed
    unfold parseWalletHeader at parsed
    cases read : walletFields (.new bytes) with
    | error e =>
      rw [read] at parsed
      cases parsed
    | ok found =>
      obtain ⟨fields, c⟩ := found
      obtain ⟨_, ⟨f, rfl, rfl⟩, rest, pos⟩ := (reads_walletFields _ _ _).mp read
      rw [read] at parsed
      cases parsed
      refine ⟨f, c.rest, rest, ?_⟩
      rw [pos, Cursor.new, Nat.zero_add, f.length_encode]
      rfl
  · rintro ⟨f, tail, rfl, rfl⟩
    have read := reads_walletFields.eq_ok ⟨f, rfl, rfl⟩ 0 tail
    unfold parseWalletHeader
    rw [Cursor.new, read, Nat.zero_add, f.length_encode]
    rfl

/-- **The KWallet header parser is exact.** Of the encoding of any folders under any ids, whatever
follows it, it returns those folders and ids and the offset behind them; it accepts nothing else. A
file cut before that offset is refused, and the bytes behind it do not matter. -/
theorem wallet_header_exact :
    (∀ (f : WalletFile) (tail : Bytes), parseWalletHeader (f.encode ++ tail) = .ok f.header) ∧
    (∀ bytes h, parseWalletHeader bytes = .ok h →
      ∃ (f : WalletFile) (tail : Bytes), bytes = f.encode ++ tail ∧ h = f.header) ∧
    (∀ (f : WalletFile) (tail : Bytes) (k : Nat), k < f.header.ciphertextOffset →
      ∃ e, parseWalletHeader ((f.encode ++ tail).take k) = .error e) ∧
    ∀ bytes bytes' h, parseWalletHeader bytes = .ok h →
      bytes'.take h.ciphertextOffset = bytes.take h.ciphertextOffset → parseWalletHeader bytes' = .ok h := by
  refine ⟨fun f tail => parseWalletHeader_eq_ok.mpr ⟨f, tail, rfl, rfl⟩, fun _ _ => parseWalletHeader_eq_ok.mp, ?_, ?_⟩
  · intro f tail k short
    rw [← f.length_encode] at short
    obtain ⟨e, refused⟩ := reads_walletFields.cut ⟨f, rfl, rfl⟩ short
    refine ⟨e, ?_⟩
    rw [List.take_append_of_le_length short.le, parseWalletHeader, refused]
    rfl
  · intro bytes bytes' h parsed head
    obtain ⟨f, tail, rfl, rfl⟩ := parseWalletHeader_eq_ok.mp parsed
    refine parseWalletHeader_eq_ok.mpr ⟨f, bytes'.drop f.encode.length, ?_, rfl⟩
    rw [← f.length_encode, List.take_left] at head
    nth_rewrite 1 [← head]
    exact (List.take_append_drop _ _).symm

/-- A wallet with one entry in the first of two folders. -/
def sampleWallet : WalletFile :=
  { cipher := 3, hash := 2
    folders := [⟨⟨Vector.replicate 16 1, [Vector.replicate 16 2]⟩, by decide⟩, ⟨⟨Vector.replicate 16 3, []⟩, by decide⟩]
    fits := by decide }

/-- The encrypted half begins 76 bytes in, and a file cut there is still read. -/
theorem wallet_header_exact_kdewallet : sampleWallet.header.ciphertextOffset = 76 ∧
      parseWalletHeader (sampleWallet.encode ++ [9]) = .ok sampleWallet.header ∧
      (∃ e, parseWalletHeader ((sampleWallet.encode ++ [9]).take 75) = .error e) ∧
      parseWalletHeader sampleWallet.encode = .ok sampleWallet.header := by
  have parsed := wallet_header_exact.1 sampleWallet [9]
  refine ⟨rfl, parsed, wallet_header_exact.2.2.1 _ _ _ (by decide), wallet_header_exact.2.2.2 _ _ _ parsed ?_⟩
  rw [← sampleWallet.length_encode, List.take_left, List.take_length]

end SecretManager.Import
