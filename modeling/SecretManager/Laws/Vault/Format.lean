import SecretManager.Vault.Format

/-!
# The header container round-trips

What `headerBytes` writes, `decodeHeaderPrefix` reads back, whatever follows; and what
`VaultFile.decode` accepts splits the file at the header. Every refusal of the read side (the length
limit, the version, the KDF bounds, leftover header bytes) is met by a check of the write side or by
the round trip of the encoding.
-/

namespace SecretManager

open List

open Wire (le32 ofLe32)

theorem magic_length : magic.length = 8 := by decide

variable {aad : Bytes} {h : Header} {x : Externals}

theorem headerBytes_ok (ok : VaultFile.headerBytes x h = .ok aad) :
    ∃ body, x.header.toAllocvec h = .ok body ∧ body.length ≤ maxHeader ∧ aad = magic ++ le32 body.length ++ body := by
  unfold VaultFile.headerBytes at ok
  cases hbody : x.header.toAllocvec h with
  | error e => simp only [hbody, reduceCtorEq] at ok
  | ok body =>
    simp only [hbody] at ok
    by_cases hlen : body.length > maxHeader
    · simp only [if_pos hlen, reduceCtorEq] at ok
    · rw [if_neg hlen] at ok
      exact ⟨body, rfl, by omega, (Except.ok.inj ok).symm⟩

theorem headerPrefixLen_field (a b c d : UInt8) (tail : Bytes) :
    headerPrefixLen (magic ++ a :: b :: c :: d :: tail) =
      if ofLe32 a b c d > maxHeader then .error .truncated
      else .ok (prefixLen + ofLe32 a b c d) := by
  have htake : (magic ++ a :: b :: c :: d :: tail).take 8 = magic := by
    rw [← magic_length, take_left]
  have hdrop : (magic ++ a :: b :: c :: d :: tail).drop 8 = a :: b :: c :: d :: tail := by
    rw [← magic_length, drop_left]
  unfold headerPrefixLen
  rw [if_neg (by simp only [length_append, magic_length]; omega), if_neg (not_not.mpr htake), hdrop]

variable {bytes : Bytes} {need : Nat}

theorem headerPrefixLen_ok (ok : headerPrefixLen bytes = .ok need) :
    ∃ a b c d tail, bytes = magic ++ a :: b :: c :: d :: tail ∧ ofLe32 a b c d ≤ maxHeader ∧
      need = prefixLen + ofLe32 a b c d := by
  have read := ok
  unfold headerPrefixLen at ok
  split at ok
  · cases ok
  split at ok
  · cases ok
  next hmagic =>
    split at ok
    next a b c d tail hdrop =>
      have shape : bytes = magic ++ a :: b :: c :: d :: tail := by
        rw [← hdrop, ← not_not.mp hmagic, take_append_drop]
      rw [shape, headerPrefixLen_field] at read
      split at read
      · cases read
      next within => exact ⟨a, b, c, d, tail, shape, by omega, (Except.ok.inj read).symm⟩
    · cases ok

theorem headerPrefixLen_written {body rest : Bytes} (hlen : body.length ≤ maxHeader) :
    headerPrefixLen (magic ++ le32 body.length ++ body ++ rest) = .ok (prefixLen + body.length) := by
  have small : body.length < 2 ^ 32 := by unfold maxHeader at hlen; omega
  have read := headerPrefixLen_field (UInt8.ofNat body.length) (UInt8.ofNat (body.length >>> 8))
    (UInt8.ofNat (body.length >>> 16)) (UInt8.ofNat (body.length >>> 24)) (body ++ rest)
  rw [Wire.ofLe32_le32 small, if_neg (by omega)] at read
  exact read

theorem take_field (a b c d : UInt8) (tail : Bytes) (n : Nat) :
    (magic ++ a :: b :: c :: d :: tail).take (prefixLen + n) = magic ++ a :: b :: c :: d :: tail.take n := by
  have split : prefixLen + n = magic.length + (n + 4) := by
    rw [magic_length, prefixLen]
    omega
  rw [split, take_length_add_append]
  simp only [take_succ_cons]

theorem length_field (a b c d : UInt8) (tail : Bytes) :
    (magic ++ a :: b :: c :: d :: tail).length = prefixLen + tail.length := by
  rw [length_append, magic_length, prefixLen]
  simp only [length_cons]
  omega

theorem drop_field (a b c d : UInt8) (tail : Bytes) :
    (magic ++ a :: b :: c :: d :: tail).drop prefixLen = tail := by
  have front : magic ++ a :: b :: c :: d :: tail = (magic ++ [a, b, c, d]) ++ tail := by
    rw [append_assoc, cons_append, cons_append, cons_append, cons_append, nil_append]
  have length : (magic ++ [a, b, c, d]).length = prefixLen := by
    rfl
  rw [front, drop_left' length]

theorem headerPrefixLen_take (ok : headerPrefixLen bytes = .ok need) (rest : Bytes) :
    headerPrefixLen (bytes.take need ++ rest) = .ok need := by
  obtain ⟨a, b, c, d, tail, rfl, within, rfl⟩ := headerPrefixLen_ok ok
  rw [take_field, append_assoc, cons_append, cons_append, cons_append,
    cons_append, headerPrefixLen_field, if_neg (Nat.not_lt.mpr within)]

theorem decodeHeaderPrefix_of_read (hneed : headerPrefixLen bytes = .ok need)
    (henough : ¬bytes.length < need)
    (hread : x.header.takeFromBytes ((bytes.take need).drop prefixLen) = .ok (h, [])) :
    decodeHeaderPrefix x bytes = (checkHeader h).map fun _ => (h, need) := by
  unfold decodeHeaderPrefix
  simp only [hneed, if_neg henough, hread]
  cases checkHeader h with
  | error e => rfl
  | ok => rfl

section

variable (hx : x.header.Lawful) (written : VaultFile.headerBytes x h = .ok aad)
include hx written

theorem decodeHeaderPrefix_written (rest : Bytes) :
    decodeHeaderPrefix x (aad ++ rest) = (checkHeader h).map fun _ => (h, aad.length) := by
  obtain ⟨body, hbody, hlen, rfl⟩ := headerBytes_ok written
  have hpre : (magic ++ le32 body.length).length = prefixLen := by
    simp only [length_append, magic_length, Wire.le32_length, prefixLen]
  have hall : (magic ++ le32 body.length ++ body).length = prefixLen + body.length := by
    rw [length_append, hpre]
  have hregion : ((magic ++ le32 body.length ++ body ++ rest).take
      (prefixLen + body.length)).drop prefixLen = body := by
    rw [← hall, take_left, ← hpre, drop_left]
  have hread := hx.take_of_toAllocvec hbody []
  rw [append_nil] at hread
  rw [hall]
  refine decodeHeaderPrefix_of_read (headerPrefixLen_written hlen) ?_ ?_
  · rw [length_append, hall]
    exact Nat.not_lt.mpr (Nat.le_add_right _ _)
  · rw [hregion, hread]

/-- **A written header is read back**, whatever follows it, with the length it occupied. -/
theorem decodeHeaderPrefix_headerBytes (checked : checkHeader h = .ok ()) (rest : Bytes) :
    decodeHeaderPrefix x (aad ++ rest) = .ok (h, aad.length) := by
  rw [decodeHeaderPrefix_written hx written, checked]
  rfl

theorem decode_written (checked : checkHeader h = .ok ()) (ciphertext : Bytes) :
    VaultFile.decode x (aad ++ ciphertext) = .ok { header := h, aad, ciphertext } := by
  unfold VaultFile.decode
  simp only [decodeHeaderPrefix_headerBytes hx written checked ciphertext, take_left, drop_left]

theorem decode_written_eq {ciphertext : Bytes} {vf : VaultFile}
    (ok : VaultFile.decode x (aad ++ ciphertext) = .ok vf) :
    vf = { header := h, aad, ciphertext } := by
  cases checked : checkHeader h with
  | ok =>
    rw [decode_written hx written checked] at ok
    exact (Except.ok.inj ok).symm
  | error e =>
    unfold VaultFile.decode at ok
    rw [decodeHeaderPrefix_written hx written, checked] at ok
    cases ok

end

/-- What `decodeHeaderPrefix` accepts: the length field, the region it declares, a header that fills
that region, and its checks. -/
theorem decodeHeaderPrefix_ok (ok : decodeHeaderPrefix x bytes = .ok (h, need)) :
    headerPrefixLen bytes = .ok need ∧ ¬bytes.length < need ∧
      x.header.takeFromBytes ((bytes.take need).drop prefixLen) = .ok (h, []) ∧
      checkHeader h = .ok () := by
  unfold decodeHeaderPrefix at ok
  cases hneed : headerPrefixLen bytes with
  | error e => simp only [hneed, reduceCtorEq] at ok
  | ok n =>
    simp only [hneed] at ok
    split at ok
    · cases ok
    next enough =>
      cases hread : x.header.takeFromBytes ((bytes.take n).drop prefixLen) with
      | error e => simp only [hread, reduceCtorEq] at ok
      | ok r =>
        obtain ⟨header, rest⟩ := r
        simp only [hread] at ok
        split at ok
        · cases ok
        next whole =>
          cases hcheck : checkHeader header with
          | error e => simp only [hcheck, reduceCtorEq] at ok
          | ok =>
            simp only [hcheck, Except.ok.injEq, Prod.mk.injEq] at ok
            obtain ⟨rfl, rfl⟩ := ok
            rw [not_not.mp whole] at hread
            exact ⟨rfl, enough, hread, hcheck⟩

/-- **Nothing behind the header decides how it is read.** -/
theorem decodeHeaderPrefix_take (ok : decodeHeaderPrefix x bytes = .ok (h, need)) (rest : Bytes) :
    decodeHeaderPrefix x (bytes.take need ++ rest) = .ok (h, need) := by
  obtain ⟨hneed, enough, hread, hcheck⟩ := decodeHeaderPrefix_ok ok
  have length : (bytes.take need).length = need := length_take_of_le (by omega)
  have region : (bytes.take need ++ rest).take need = bytes.take need := take_left' length
  rw [decodeHeaderPrefix_of_read (h := h) (headerPrefixLen_take hneed rest), hcheck]
  · rfl
  · rw [length_append]
    omega
  · rw [region, hread]

/-- **What is accepted is well formed**: the header passed its checks, and the file is the header
bytes followed by the ciphertext. -/
theorem decode_ok {vf : VaultFile} (ok : VaultFile.decode x bytes = .ok vf) :
    checkHeader vf.header = .ok () ∧ bytes = vf.aad ++ vf.ciphertext := by
  unfold VaultFile.decode at ok
  cases hpre : decodeHeaderPrefix x bytes with
  | error e => simp only [hpre, reduceCtorEq] at ok
  | ok p =>
    obtain ⟨header, need⟩ := p
    simp only [hpre, Except.ok.injEq] at ok
    subst ok
    exact ⟨(decodeHeaderPrefix_ok hpre).2.2.2, (take_append_drop need bytes).symm⟩

variable {plain : Bytes}

theorem decodeItems_encodeItems (hx : x.items.Lawful) {items : List Item}
    (ok : encodeItems x items = .ok plain) : decodeItems x plain = .ok items := by
  unfold encodeItems at ok
  cases henc : x.items.toAllocvec items with
  | error e => simp only [henc, reduceCtorEq] at ok
  | ok b =>
    simp only [henc, Except.ok.injEq] at ok
    subst ok
    have hread := hx.take_of_toAllocvec henc []
    rw [append_nil] at hread
    simp only [decodeItems, Postcard.fromBytes, hread]

theorem buildIndex_ids (x : Externals) (salt : Salt) (items : List Item) (b : Bool) :
    (buildIndex x salt items b).map (·.id) = items.map (·.id) := by
  simp only [buildIndex, map_map, Function.comp_def]

theorem open_of_seal {c : Ciphers} (hc : c.Lawful) {key : Key} {nonce : Nonce} {ct : Bytes}
    (ok : Crypto.seal c key nonce aad plain = .ok ct) :
    Crypto.open c key nonce aad ct = .ok plain := by
  unfold Crypto.seal at ok
  cases henc : c.encrypt key nonce aad plain with
  | none => simp only [henc, reduceCtorEq] at ok
  | some ct' =>
    simp only [henc, Except.ok.injEq] at ok
    subst ok
    simp only [Crypto.open, hc.decrypt_encrypt henc]

theorem key_of_open {c : Ciphers} (hc : c.KeyBound) {key key' : Key} {nonce : Nonce}
    {plain' ct : Bytes} (sealed : Crypto.seal c key nonce aad plain = .ok ct)
    (opened : Crypto.open c key' nonce aad ct = .ok plain') : key' = key := by
  unfold Crypto.seal at sealed
  unfold Crypto.open at opened
  cases henc : c.encrypt key nonce aad plain with
  | none => simp only [henc, reduceCtorEq] at sealed
  | some ct' =>
    simp only [henc, Except.ok.injEq] at sealed
    subst sealed
    cases hdec : c.decrypt key' nonce aad ct' with
    | none => simp only [hdec, reduceCtorEq] at opened
    | some p => exact hc.key_eq henc hdec

end SecretManager
