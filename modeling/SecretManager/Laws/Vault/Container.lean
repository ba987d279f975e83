import SecretManager.Laws.Vault.Format
import SecretManager.Vault.Reference

/-!
# The vault file as a container

`VaultFile::decode` over every byte string, written by this code or not. What is accepted is the
header it declares followed by a ciphertext it never looks at, so the ciphertext can be exchanged
under an accepted header. A length field that promises more than the limit, than the file or than
the header holds is refused.

The declared region must hold one header and nothing else. Without that check the surplus would
still be authenticated, as part of the associated data, but two regions would decode to one header.
-/

namespace SecretManager

open Wire (le32 ofLe32)

namespace VaultFile

variable {bytes : Bytes} {vf : VaultFile} {x : Externals}

theorem decode_eq_ok :
    decode x bytes = .ok vf ↔ ∃ need, decodeHeaderPrefix x bytes = .ok (vf.header, need) ∧
      vf.aad = bytes.take need ∧ vf.ciphertext = bytes.drop need := by
  unfold decode
  cases hpre : decodeHeaderPrefix x bytes with
  | error e => simp only [reduceCtorEq, false_and, exists_false]
  | ok r =>
    obtain ⟨header, need⟩ := r
    constructor
    · intro ok
      cases Except.ok.inj ok
      exact ⟨need, rfl, rfl, rfl⟩
    · rintro ⟨n, same, aad, ciphertext⟩
      cases Except.ok.inj same
      dsimp only
      rw [← aad, ← ciphertext]

/-- **The ciphertext is not looked at**: under an accepted header any other decodes as well. -/
theorem decode_exchange (ok : decode x bytes = .ok vf) (rest : Bytes) :
    decode x (vf.aad ++ rest) = .ok { vf with ciphertext := rest } := by
  obtain ⟨need, hpre, aad, -⟩ := decode_eq_ok.mp ok
  obtain ⟨-, enough, -, -⟩ := decodeHeaderPrefix_ok hpre
  have length : (bytes.take need).length = need := List.length_take_of_le (by omega)
  rw [aad]
  refine decode_eq_ok.mpr ⟨need, decodeHeaderPrefix_take hpre rest, ?_, ?_⟩
  · exact (List.take_left' length).symm
  · exact (List.drop_left' length).symm

theorem decode_aad (ok : decode x bytes = .ok vf) :
    headerPrefixLen bytes = .ok vf.aad.length ∧ vf.aad = bytes.take vf.aad.length := by
  obtain ⟨need, hpre, aad, -⟩ := decode_eq_ok.mp ok
  obtain ⟨hneed, enough, -, -⟩ := decodeHeaderPrefix_ok hpre
  have length : vf.aad.length = need := by
    rw [aad]
    exact List.length_take_of_le (by omega)
  rw [length]
  exact ⟨hneed, aad⟩

/-! ## Refusals -/

variable {h : Header}

section

variable {a b c d : UInt8} {tail : Bytes}

theorem decode_of_prefix_refused {e : FormatError} (refused : headerPrefixLen bytes = .error e) :
    decode x bytes = .error e := by
  simp only [decode, decodeHeaderPrefix, refused]

theorem decode_of_short {need : Nat} (declared : headerPrefixLen bytes = .ok need)
    (short : bytes.length < need) : decode x bytes = .error .truncated := by
  simp only [decode, decodeHeaderPrefix, declared, if_pos short]

theorem decode_truncated (h : maxHeader < ofLe32 a b c d ∨ tail.length < ofLe32 a b c d) :
    decode x (magic ++ a :: b :: c :: d :: tail) = .error .truncated := by
  have declared := headerPrefixLen_field a b c d tail
  by_cases long : maxHeader < ofLe32 a b c d
  · rw [if_pos long] at declared
    exact decode_of_prefix_refused declared
  · rw [if_neg long] at declared
    have behind : tail.length < ofLe32 a b c d := h.resolve_left long
    refine decode_of_short declared ?_
    rw [length_field]
    exact Nat.add_lt_add_left behind prefixLen

theorem decode_surplus {left : Bytes} {need : Nat} (declared : headerPrefixLen bytes = .ok need)
    (read : x.header.takeFromBytes ((bytes.take need).drop prefixLen) = .ok (h, left))
    (surplus : left ≠ []) : ∃ e, decode x bytes = .error e := by
  cases hdecode : decode x bytes with
  | error e => exact ⟨e, rfl⟩
  | ok vf =>
    obtain ⟨n, hpre, -, -⟩ := decode_eq_ok.mp hdecode
    obtain ⟨hneed, -, hread, -⟩ := decodeHeaderPrefix_ok hpre
    rw [declared] at hneed
    cases Except.ok.inj hneed
    rw [read] at hread
    exact absurd (Prod.mk.inj (Except.ok.inj hread)).2 surplus

theorem decode_longer (lawful : x.header.Lawful) {body more : Bytes}
    (encoded : x.header.toAllocvec h = .ok body) (longer : body.length < ofLe32 a b c d) :
    ∃ e, decode x (magic ++ a :: b :: c :: d :: (body ++ more)) = .error e := by
  by_cases within : ofLe32 a b c d ≤ maxHeader ∧ ofLe32 a b c d ≤ (body ++ more).length
  · have region : ((magic ++ a :: b :: c :: d :: (body ++ more)).take
        (prefixLen + ofLe32 a b c d)).drop prefixLen =
        body ++ more.take (ofLe32 a b c d - body.length) := by
      rw [take_field, drop_field, List.take_append, List.take_of_length_le (Nat.le_of_lt longer)]
    have declared : headerPrefixLen (magic ++ a :: b :: c :: d :: (body ++ more)) =
        .ok (prefixLen + ofLe32 a b c d) := by
      rw [headerPrefixLen_field, if_neg (Nat.not_lt.mpr within.1)]
    have read := lawful.take_of_toAllocvec encoded (more.take (ofLe32 a b c d - body.length))
    rw [← region] at read
    refine decode_surplus declared read ?_
    have held := within.2
    rw [List.length_append] at held
    apply List.ne_nil_of_length_pos
    rw [List.length_take]
    omega
  · refine ⟨_, decode_truncated ?_⟩
    rw [not_and_or, Nat.not_le, Nat.not_le] at within
    exact within

end

/-! ## Writing and reading back -/

/-- A header `VaultFile::new` can write and `decode` accepts: it passes its checks, and its encoding
is within the limit. -/
def Writable (x : Externals) (h : Header) : Prop :=
  checkHeader h = .ok () ∧ ∃ body, x.header.toAllocvec h = .ok body ∧ body.length ≤ maxHeader

theorem new_of_writable (valid : Writable x h) (ciphertext : Bytes) :
    ∃ aad, headerBytes x h = .ok aad ∧ new x h ciphertext = .ok { header := h, aad, ciphertext } := by
  obtain ⟨-, body, encoded, within⟩ := valid
  have written : headerBytes x h = .ok (magic ++ le32 body.length ++ body) := by
    simp only [headerBytes, encoded, if_neg (Nat.not_lt.mpr within)]
  exact ⟨_, written, by simp only [new, written]⟩

/-- **The container round-trips**: over every byte string, what is accepted is re-encoded to the
same bytes, its aad is the declared region and its ciphertext is free; a declared length that is not
the header's is refused; and what `new` writes is read back. -/
theorem vault_file_container (x : Externals) (lawful : x.header.Lawful) :
    (∀ bytes vf, decode x bytes = .ok vf →
      vf.encode = bytes ∧
      headerPrefixLen bytes = .ok vf.aad.length ∧ vf.aad = bytes.take vf.aad.length ∧
      ∀ rest, decode x (vf.aad ++ rest) = .ok { vf with ciphertext := rest }) ∧
    (∀ a b c d tail, maxHeader < ofLe32 a b c d ∨ tail.length < ofLe32 a b c d →
      decode x (magic ++ a :: b :: c :: d :: tail) = .error .truncated) ∧
    (∀ bytes need h left, headerPrefixLen bytes = .ok need →
      x.header.takeFromBytes ((bytes.take need).drop prefixLen) = .ok (h, left) → left ≠ [] →
      ∃ e, decode x bytes = .error e) ∧
    (∀ a b c d h body more, x.header.toAllocvec h = .ok body → body.length < ofLe32 a b c d →
      ∃ e, decode x (magic ++ a :: b :: c :: d :: (body ++ more)) = .error e) ∧
    (∀ h ciphertext, Writable x h → ∃ vf, new x h ciphertext = .ok vf ∧ vf.header = h ∧
      vf.ciphertext = ciphertext ∧ decode x vf.encode = .ok vf) := by
  refine ⟨?_, ?_, ?_, ?_, ?_⟩
  · intro bytes vf ok
    obtain ⟨-, whole⟩ := decode_ok ok
    obtain ⟨declared, aad⟩ := decode_aad ok
    exact ⟨whole.symm, declared, aad, decode_exchange ok⟩
  · intro a b c d tail h
    exact decode_truncated h
  · intro bytes need h left declared read surplus
    exact decode_surplus declared read surplus
  · intro a b c d h body more encoded longer
    exact decode_longer lawful encoded longer
  · intro h ciphertext valid
    obtain ⟨aad, written, made⟩ := new_of_writable valid ciphertext
    exact ⟨_, made, rfl, rfl, decode_written lawful written valid.1 ciphertext⟩

/-- A header with no index, behind three bytes of ciphertext. -/
theorem vault_file_container_new :
    let h : Header :=
      { version, label := "Login", created := 1, modified := 2, kdf := KdfParams.fastForTests,
        salt := Vector.replicate saltLen 1, indexSalt := Vector.replicate saltLen 2,
        nonce := Vector.replicate nonceLen 7, index := [] }
    Writable Reference.externals h ∧
    ∃ vf, new Reference.externals h [9, 9, 9] = .ok vf ∧ vf.header = h ∧
      vf.ciphertext = [9, 9, 9] ∧ decode Reference.externals vf.encode = .ok vf := by
  intro h
  have valid : Writable Reference.externals h :=
    ⟨by decide, Reference.header.encode h, rfl, by decide⟩
  obtain ⟨-, -, -, -, readBack⟩ :=
    vault_file_container Reference.externals Reference.externals_lawful.header
  exact ⟨valid, readBack h [9, 9, 9] valid⟩

end VaultFile

end SecretManager
