import SecretManager.Laws.Vault.Caps
import SecretManager.Dbus.Items
import SecretManager.Import.Source
import SecretManager.Vault.Reference

/-!
# Three layers, one set of caps

`CreateItem`, the import's pre-check and the store measure an item in different orders and at
different times, and accept the same items. The bus layer reads its attributes from a map that
iterates in any order, refuses an over-long ciphertext before it decrypts it, and measures the
secret after; the early refusal hits no secret that the exact measure would have accepted.
-/

namespace SecretManager

open Reference

variable {x : Externals} {aes : Aes}

/-! ## The bus layer's checks -/

theorem capReply_eq_ok_iff {violation : Option CapViolation} :
    capReply violation = .ok () ↔ violation = none := by
  cases violation <;> simp [capReply]

theorem capReply_cases (violation : Option CapViolation) :
    capReply violation = .ok () ∨ ∃ message, capReply violation = .error (.invalidArgs message) := by
  cases violation with
  | none => exact .inl rfl
  | some v => exact .inr ⟨capMessage v, rfl⟩

theorem AttributeDict.distinct_cmp (m : AttributeDict) :
    m.pairs.Pairwise fun a b => ¬compare a.1 b.1 = .eq :=
  m.distinct.imp fun ne eq => ne (Std.LawfulEqOrd.eq_of_compare eq)

theorem AttributeDict.mem_toMap (m : AttributeDict) (kv : String × String) :
    kv ∈ m.toMap.toList ↔ kv ∈ m.pairs := by
  obtain ⟨k, v⟩ := kv
  rw [Std.ExtTreeMap.mem_toList_iff_getElem?_eq_some, AttributeDict.toMap]
  constructor
  · intro found
    by_contra absent
    by_cases key : k ∈ m.pairs.map Prod.fst
    · obtain ⟨⟨k', v'⟩, mem, rfl⟩ := List.mem_map.mp key
      rw [Std.ExtTreeMap.getElem?_ofList_of_mem Std.compare_self m.distinct_cmp mem] at found
      cases found
      exact absent mem
    · rw [Std.ExtTreeMap.getElem?_ofList_of_contains_eq_false (by simpa using key)] at found
      cases found
  · intro mem
    exact Std.ExtTreeMap.getElem?_ofList_of_mem Std.compare_self m.distinct_cmp mem

theorem AttributeDict.size_toMap (m : AttributeDict) : m.toMap.size = m.pairs.length :=
  Std.ExtTreeMap.size_ofList m.distinct_cmp

theorem checkAttributes_eq_ok_iff (m : AttributeDict) :
    Collection.checkAttributes m.pairs.length m.pairs = .ok () ↔
      m.toMap.size ≤ maxItemAttributes ∧ (∀ kv ∈ m.toMap.toList, kv.1.utf8ByteSize ≤ maxAttributeKey) ∧
        ∀ kv ∈ m.toMap.toList, kv.2.utf8ByteSize ≤ maxAttributeValue := by
  unfold Collection.checkAttributes
  rw [capReply_eq_ok_iff, orElse_eq_none_iff, checkPairs_eq_none_iff, check_eq_none_iff, m.size_toMap]
  simp only [m.mem_toMap, Cap.limit]

/-! ## One request -/

/-- A request for an item with this label and these attributes. A missing property is the empty
one. -/
structure ItemProperties.Carry (p : ItemProperties) (label : String) (attributes : Attributes) :
    Prop where
  label : p.label = none ∧ label = "" ∨ p.label = some (.string label)
  attributes : p.attributes = none ∧ attributes = ∅ ∨
    ∃ m : AttributeDict, p.attributes = some (.dict m) ∧ m.toMap = attributes

def WithinOuterCaps (label : String) (attributes : Attributes) (contentType : String) : Prop :=
  WithinCaps label attributes 0 contentType

variable {attributes : Attributes} {contentType label : String}

theorem withinCaps_iff {secretLen : Nat} : WithinCaps label attributes secretLen contentType ↔
      WithinOuterCaps label attributes contentType ∧ secretLen ≤ maxItemSecret := by
  constructor
  · intro h
    exact ⟨⟨Nat.zero_le _, h.label, h.contentType, h.count, h.name, h.value⟩, h.secret⟩
  · rintro ⟨h, secret⟩
    exact ⟨secret, h.label, h.contentType, h.count, h.name, h.value⟩

variable {p : ItemProperties}

theorem propString_of_carry (carry : p.Carry label attributes) :
    ∃ read, propString itemLabelKey p.label = .ok read ∧ read.getD "" = label := by
  rcases carry.label with ⟨absent, rfl⟩ | given
  · exact ⟨none, by rw [absent]; rfl, rfl⟩
  · exact ⟨some label, by rw [given]; rfl, rfl⟩

theorem propAttributes_of_carry (carry : p.Carry label attributes) :
    (attributes.size ≤ maxItemAttributes ∧
        (∀ kv ∈ attributes.toList, kv.1.utf8ByteSize ≤ maxAttributeKey) ∧
        (∀ kv ∈ attributes.toList, kv.2.utf8ByteSize ≤ maxAttributeValue) ∧
        propAttributes itemAttributesKey p.attributes = .ok attributes) ∨
      (¬(attributes.size ≤ maxItemAttributes ∧ (∀ kv ∈ attributes.toList, kv.1.utf8ByteSize ≤ maxAttributeKey) ∧
          ∀ kv ∈ attributes.toList, kv.2.utf8ByteSize ≤ maxAttributeValue) ∧
        ∃ message, propAttributes itemAttributesKey p.attributes = .error (.invalidArgs message)) := by
  rcases carry.attributes with ⟨absent, rfl⟩ | ⟨m, given, rfl⟩
  · left
    refine ⟨Nat.zero_le _, ?_, ?_, ?_⟩
    · simp
    · simp
    · rw [absent]
      rfl
  · rw [given]
    rcases capReply_cases ((Cap.check .attributeCount m.pairs.length) <|> (m.pairs.findSome? fun kv =>
      (Cap.check .attributeKey kv.1.utf8ByteSize) <|> (Cap.check .attributeValue kv.2.utf8ByteSize)))
      with ok | ⟨message, refused⟩
    · have passed : Collection.checkAttributes m.pairs.length m.pairs = .ok () := ok
      obtain ⟨count, name, value⟩ := (checkAttributes_eq_ok_iff m).mp passed
      exact .inl ⟨count, name, value, by simp only [propAttributes, passed]⟩
    · have failed : Collection.checkAttributes m.pairs.length m.pairs = .error (.invalidArgs message) := refused
      refine .inr ⟨?_, message, by simp only [propAttributes, failed]⟩
      intro within
      rw [(checkAttributes_eq_ok_iff m).mpr within] at failed
      cases failed

/-- **The checks before the decryption** pass exactly the caps that need no secret. -/
theorem itemArguments_of_carry (secret : SecretStruct) (carry : p.Carry label attributes) :
    (WithinOuterCaps label attributes secret.contentType ∧
        Collection.itemArguments p secret = .ok (label, attributes)) ∨
      (¬WithinOuterCaps label attributes secret.contentType ∧
        ∃ message, Collection.itemArguments p secret = .error (.invalidArgs message)) := by
  obtain ⟨read, hread, rfl⟩ := propString_of_carry carry
  unfold Collection.itemArguments
  simp only [hread]
  rcases capReply_cases (Cap.check .label (read.getD "").utf8ByteSize) with okLabel | ⟨m, failed⟩
  · have label : Collection.checkLabel (read.getD "") = .ok () := okLabel
    have shortLabel := check_eq_none_iff.mp (capReply_eq_ok_iff.mp okLabel)
    simp only [label]
    rcases capReply_cases (Cap.check .contentType secret.contentType.utf8ByteSize) with
      okType | ⟨m, failed⟩
    · have contentType : Collection.checkContentType secret.contentType = .ok () := okType
      have shortType := check_eq_none_iff.mp (capReply_eq_ok_iff.mp okType)
      simp only [contentType]
      rcases propAttributes_of_carry carry with ⟨count, name, value, ok⟩ | ⟨outside, m, failed⟩
      · simp only [ok]
        exact .inl ⟨⟨Nat.zero_le _, shortLabel, shortType, count, name, value⟩, trivial⟩
      · simp only [failed]
        exact .inr ⟨fun h => outside ⟨h.count, h.name, h.value⟩, m, rfl⟩
    · have contentType : Collection.checkContentType secret.contentType = .error (.invalidArgs m) := failed
      simp only [contentType]
      refine .inr ⟨fun h => ?_, m, rfl⟩
      rw [capReply_eq_ok_iff.mpr (check_eq_none_iff.mpr h.contentType)] at failed
      cases failed
  · have label : Collection.checkLabel (read.getD "") = .error (.invalidArgs m) := failed
    simp only [label]
    refine .inr ⟨fun h => ?_, m, rfl⟩
    rw [capReply_eq_ok_iff.mpr (check_eq_none_iff.mpr h.label)] at failed
    cases failed

/-- **The early refusal is safe**: a secret within the cap never has a ciphertext over its limit. -/
theorem ciphertext_le (padded : aes.Padded) {cipher : SessionCipher}
    {parameters value plaintext : Bytes}
    (decrypts : cipher.decrypt aes parameters value = .ok plaintext)
    (within : plaintext.length ≤ maxItemSecret) : value.length ≤ maxItemCiphertext := by
  unfold maxItemCiphertext
  cases cipher with
  | plain =>
    cases decrypts
    omega
  | aes key =>
    simp only [SessionCipher.decrypt] at decrypts
    split at decrypts
    · cases decrypts
    · split at decrypts
      next found =>
        cases decrypts
        have bounds := padded.length found
        omega
      · cases decrypts

/-- **`CreateItem` accepts exactly the items within the caps**: it hands them to the store, and
answers every other with `InvalidArgs`. -/
theorem createItem_spec (padded : aes.Padded) (secret : SecretStruct) {env : SaveEnv} {now : UInt64}
    {uuid : String} {replace : Bool} {found : ItemLookups} {w : World} {id : String}
    {cipher : SessionCipher} {plaintext : Bytes} (hid : found.id = .ok id)
    (hcipher : found.cipher = .ok cipher) (hvault : found.vault = some w)
    (unlocked : w.vault.isLocked = false) (carry : p.Carry label attributes)
    (decrypts : cipher.decrypt aes secret.parameters secret.value = .ok plaintext) :
    (WithinCaps label attributes plaintext.length secret.contentType →
      Collection.createItem aes x env now uuid p secret replace found =
        ((w.insertItem x env now uuid label attributes plaintext secret.contentType replace).1.mapError
            DbusError.ofVault,
          some (w.insertItem x env now uuid label attributes plaintext secret.contentType replace).2)) ∧
    (¬WithinCaps label attributes plaintext.length secret.contentType →
      ∃ message, Collection.createItem aes x env now uuid p secret replace found =
        (.error (.invalidArgs message), some w)) := by
  unfold Collection.createItem
  rcases itemArguments_of_carry secret carry with ⟨outer, ok⟩ | ⟨outside, m, failed⟩
  · simp only [ok, hid, hcipher, hvault, unlocked, Bool.false_eq_true, if_false, decrypts]
    constructor
    · intro within
      have short := ciphertext_le padded decrypts within.secret
      rw [if_neg (by omega), check_eq_none_iff.mpr within.secret]
      rcases w.insertItem x env now uuid label attributes plaintext secret.contentType replace with
        ⟨r, w'⟩
      cases r <;> rfl
    · intro outside
      have long : ¬plaintext.length ≤ maxItemSecret := fun h => outside (withinCaps_iff.mpr ⟨outer, h⟩)
      split
      · exact ⟨_, rfl⟩
      · cases hcheck : Cap.check .secret plaintext.length with
        | none => exact absurd (check_eq_none_iff.mp hcheck) long
        | some violation => exact ⟨_, rfl⟩
  · simp only [failed, hvault]
    constructor
    · intro within
      exact absurd (withinCaps_iff.mp within).1 outside
    · intro _
      exact ⟨m, rfl⟩

/-- On an open vault the caps are checked before anything else: within them the item goes in, and
beyond them the call fails and nothing changes. -/
theorem insertItem_spec {env : SaveEnv} {now : UInt64} {uuid : String} {secret : Bytes}
    {replace : Bool} {w : World} (unlocked : w.vault.isLocked = false) :
    (WithinCaps label attributes secret.length contentType →
      w.insertItem x env now uuid label attributes secret contentType replace =
        w.insertItemUnchecked x env now uuid label attributes secret contentType replace) ∧
    (¬WithinCaps label attributes secret.length contentType →
      ∃ what len limit, w.insertItem x env now uuid label attributes secret contentType replace =
        (.error (.itemTooLarge what len limit), w)) := by
  unfold World.insertItem
  cases hitems : w.vault.items with
  | error e =>
    simp only [Vault.isLocked, Vault.items] at unlocked hitems
    cases hstate : w.vault.state with
    | locked => simp [hstate] at unlocked
    | unlocked key items => simp [hstate] at hitems
  | ok items =>
    constructor
    · intro within
      rw [checkCaps_eq_none_iff.mpr within]
    · intro outside
      obtain ⟨violation, refused⟩ := checkCaps_isSome_iff.mpr outside
      rw [refused]
      exact ⟨_, _, _, rfl⟩

theorem importCheckCaps_eq_none_iff {secretLen : Nat} :
    Import.checkCaps label attributes secretLen contentType = none ↔
      WithinCaps label attributes secretLen contentType := by
  rw [Import.checkCaps, Option.map_eq_none_iff, checkCaps_eq_none_iff]

/-! ## The caps, everywhere -/

/-- **Item caps hold everywhere and agree.** Whatever an insertion, an edit or an import adds or
changes is within all six caps, from any world and whatever fails. The store, the import's pre-check
and `CreateItem` accept exactly the items within them. And a secret whose decrypted length is within
its cap is never refused for the length of its ciphertext. -/
theorem item_caps_hold_and_agree (padded : aes.Padded) :
    (∀ op : VaultOp, op.WritesItems → ∀ (w : World) key items',
      (op.apply x w).2.vault.state = .unlocked key items' → ∃ key₀ items,
        w.vault.state = .unlocked key₀ items ∧ ∀ i ∈ items', i ∈ items ∨ i.WithinCaps) ∧
    (∀ (label : String) (attributes : Attributes) (contentType : String) (secret : Bytes),
      (checkCaps label attributes secret.length contentType = none ↔
        WithinCaps label attributes secret.length contentType) ∧
      (Import.checkCaps label attributes secret.length contentType = none ↔
        WithinCaps label attributes secret.length contentType) ∧
      ∀ env now uuid replace (w : World), w.vault.isLocked = false →
        (WithinCaps label attributes secret.length contentType →
          w.insertItem x env now uuid label attributes secret contentType replace =
            w.insertItemUnchecked x env now uuid label attributes secret contentType replace) ∧
        (¬WithinCaps label attributes secret.length contentType →
          ∃ what len limit, w.insertItem x env now uuid label attributes secret contentType replace =
            (.error (.itemTooLarge what len limit), w)) ∧
        ∀ (p : ItemProperties) parameters value (found : ItemLookups) id (cipher : SessionCipher),
          found.id = .ok id → found.cipher = .ok cipher → found.vault = some w →
          p.Carry label attributes → cipher.decrypt aes parameters value = .ok secret →
          (WithinCaps label attributes secret.length contentType →
            Collection.createItem aes x env now uuid p ⟨parameters, value, contentType⟩ replace found =
              ((w.insertItem x env now uuid label attributes secret contentType replace).1.mapError
                  DbusError.ofVault,
                some (w.insertItem x env now uuid label attributes secret contentType replace).2)) ∧
          (¬WithinCaps label attributes secret.length contentType → ∃ message,
              Collection.createItem aes x env now uuid p ⟨parameters, value, contentType⟩ replace found =
                (.error (.invalidArgs message), some w))) ∧
    (∀ (cipher : SessionCipher) parameters value plaintext,
      cipher.decrypt aes parameters value = .ok plaintext → plaintext.length ≤ maxItemSecret →
        value.length ≤ maxItemCiphertext) := by
  refine ⟨?_, ?_, ?_⟩
  · intro op writes w key items' state
    exact writes_withinCaps writes w key items' state
  · intro label attributes contentType secret
    refine ⟨checkCaps_eq_none_iff, importCheckCaps_eq_none_iff, ?_⟩
    intro env now uuid replace w unlocked
    refine ⟨(insertItem_spec unlocked).1, (insertItem_spec unlocked).2, ?_⟩
    intro p parameters value found id cipher hid hcipher hvault carry decrypts
    exact createItem_spec padded ⟨parameters, value, contentType⟩ hid hcipher hvault unlocked carry
      decrypts
  · intro cipher parameters value plaintext decrypts within
    exact ciphertext_le padded decrypts within

namespace Reference

/-- A transport cipher that only pads: what decrypts is the value without its padding. -/
def paddingAes : Aes where
  decryptPadded _ _ value :=
    let pad := (value.getLast?.getD 0).toNat
    if 1 ≤ pad ∧ pad ≤ 16 ∧ pad ≤ value.length then some (value.take (value.length - pad)) else none

theorem paddingAes_padded : paddingAes.Padded where
  length := by
    intro key iv value plaintext h
    simp only [paddingAes] at h
    split at h
    next bounds =>
      cases h
      rw [List.length_take]
      omega
    · cases h

end Reference

/-- An item without attributes is created over an encrypted session: the bus layer hands it to the
store. -/
theorem item_caps_hold_and_agree_created : Collection.createItem paddingAes externals saveEnv 1 "d"
        ⟨some (.string "mail"), none⟩
        ⟨List.replicate 16 0, [1, 2, 3] ++ List.replicate 13 13, "text/plain"⟩ false
        ⟨.ok "login", .ok (.aes (Vector.replicate 16 9)), some threeItems⟩ =
      ((threeItems.insertItem externals saveEnv 1 "d" "mail" ∅ [1, 2, 3]
          "text/plain" false).1.mapError DbusError.ofVault,
        some (threeItems.insertItem externals saveEnv 1 "d" "mail" ∅
          [1, 2, 3] "text/plain" false).2) := by
  have agree := (item_caps_hold_and_agree (x := externals)
    paddingAes_padded).2.1 "mail" ∅ "text/plain" [1, 2, 3]
  have within : WithinCaps "mail" ∅ (List.length [1, 2, 3]) "text/plain" :=
    checkCaps_eq_none_iff.mp (by decide)
  have carry : ItemProperties.Carry ⟨some (.string "mail"), none⟩ "mail" ∅ :=
    ⟨.inr rfl, .inl ⟨rfl, rfl⟩⟩
  exact ((agree.2.2 saveEnv 1 "d" false threeItems rfl).2.2 _ _ _ _ "login"
    (.aes (Vector.replicate 16 9)) rfl rfl rfl carry (by decide)).1 within

end SecretManager
