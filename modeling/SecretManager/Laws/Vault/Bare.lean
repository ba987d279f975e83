import SecretManager.Laws.Vault.IndexWarning
import SecretManager.Laws.Vault.Publish

/-!
# What stands in a file whose writer indexes no attributes

A vault file is **bare** when its header index is made of the ids of its items and of nothing else.
A save leaves a bare file when the handle's policy is off, or when no item has an attribute; every
call on a handle whose policy is off leaves the file alone or bare, and so does a creation, whose
vault is empty. The bytes say nothing here: two bare files with the same ids have the same index.
-/

namespace SecretManager

variable {x : Externals}

/-! ## Bare indexes -/

/-- The index that the ids alone make. -/
def bareIndex (items : List Item) : List IndexEntry := items.map fun i => ⟨i.id, []⟩

theorem bareIndex_congr {items items' : List Item} (ids : items.map (·.id) = items'.map (·.id)) :
    bareIndex items = bareIndex items' := by
  have byIds (items : List Item) : bareIndex items = (items.map (·.id)).map fun id => ⟨id, []⟩ := by
    rw [List.map_map]
    rfl
  rw [byIds, byIds, ids]

theorem bareIndex_hashes {items : List Item} {e : IndexEntry} (h : e ∈ bareIndex items) :
    e.attrHashes = [] := by
  obtain ⟨i, -, rfl⟩ := List.mem_map.mp h
  rfl

/-- A save of these items under this policy puts no hash into the index. -/
def hashesNothing (indexAttributes : Bool) (items : List Item) : Bool :=
  !indexAttributes || items.all (·.attributes.isEmpty)

theorem buildIndex_bare {policy : Bool} {items : List Item} (h : hashesNothing policy items = true)
    (salt : Salt) : buildIndex x salt items policy = bareIndex items := by
  cases policy with
  | false => exact buildIndex_false salt items
  | true =>
    have plain : ∀ i ∈ items, i.attributes.isEmpty = true := by
      simpa [hashesNothing] using h
    rw [buildIndex_true]
    refine List.map_congr_left fun i member => ?_
    have none : i.attributes.toList = [] := by
      rw [← List.isEmpty_iff, Std.ExtTreeMap.isEmpty_toList]
      exact plain i member
    simp only [Item.hashes, none, List.map_nil, sortDigests, List.insertionSort_nil]

/-! ## Bare files -/

/-- Some key decrypts these items from the file. -/
def VaultFile.Holds (x : Externals) (vf : VaultFile) (items : List Item) : Prop :=
  ∃ key plain, Crypto.open x.toCiphers key vf.header.nonce vf.aad vf.ciphertext = .ok plain ∧
    decodeItems x plain = .ok items

/-- Read as a vault file, the bytes have the index that the ids of their items make. -/
def Bare (x : Externals) (bytes : Bytes) : Prop :=
  ∀ vf, VaultFile.decode x bytes = .ok vf →
    ∃ items, vf.header.index = bareIndex items ∧ ∀ items', vf.Holds x items' → items' = items

def BareFile (x : Externals) (file : Option Bytes) : Prop := ∀ bytes, file = some bytes →
    Bare x bytes

theorem BareFile.of_bytes {bytes : Bytes} (h : Bare x bytes) : BareFile x (some bytes) := by
  intro bytes' same
  cases same
  exact h

theorem BareFile.of_vacant {file : Option Bytes} (vacant : isVacant file = true) :
    BareFile x file := by
  intro bytes present vf ok
  rw [present] at vacant
  rw [List.isEmpty_iff.mp vacant] at ok
  cases ok

/-- **A save that hashes nothing leaves bare bytes.** -/
theorem Saved.bare (hx : x.Lawful) (hk : x.toCiphers.KeyBound) {v v' : Vault} (saved : Saved x v v')
    (quiet : ∀ {key items}, v.state = .unlocked key items → hashesNothing v.indexAttributes items =
      true) : Bare x (v'.aad ++ v'.ciphertext) := by
  cases saved with
  | @mk key items _ _ _ _ _ _ state header encoded sealed _ =>
    intro vf ok
    obtain rfl := decode_written_eq hx.header header ok
    refine ⟨items, buildIndex_bare (quiet state) _, ?_⟩
    rintro items' ⟨key', plain', opened, decoded⟩
    obtain rfl := key_of_open hk sealed opened
    obtain rfl : _ = plain' := Except.ok.inj ((open_of_seal hx.ciphers sealed).symm.trans opened)
    rw [decodeItems_encodeItems hx.items encoded] at decoded
    exact (Except.ok.inj decoded).symm

theorem Saved.bareFile (hx : x.Lawful) (hk : x.toCiphers.KeyBound) {v : Vault} {w : World}
    (saved : Saved x v w.vault) (holds : w.FileHolds)
    (quiet : ∀ {key items}, v.state = .unlocked key items → hashesNothing v.indexAttributes items =
      true) : BareFile x w.file := by
  rw [holds]
  exact .of_bytes (saved.bare hx hk quiet)

/-! ## Calls on a handle whose policy is off -/

/-- The policy is still off, and the file is as it was or bare. -/
structure World.Hushed (x : Externals) (w w' : World) : Prop where
  off : w'.vault.indexAttributes = false
  file : w'.file = w.file ∨ BareFile x w'.file

namespace World.Hushed

variable {w w' : World}

theorem same (off : w'.vault.indexAttributes = false) (file : w'.file = w.file) : Hushed x w w' :=
  ⟨off, .inl file⟩

theorem trans {w'' : World} (h : Hushed x w w') (h' : Hushed x w' w'') : Hushed x w w'' := by
  refine ⟨h'.off, ?_⟩
  rcases h'.file with same | bare
  · rw [same]
    exact h.file
  · exact .inr bare

section

variable (hx : x.Lawful) (hk : x.toCiphers.KeyBound)
include hx hk

theorem of_saved {v : Vault} (off : v.indexAttributes = false) (saved : Saved x v w'.vault)
    (holds : w'.FileHolds) : Hushed x w w' := by
  refine ⟨saved.warning.2.trans off, .inr (saved.bareFile hx hk holds ?_)⟩
  intro key items _
  rw [off]
  rfl

theorem of_mutates {α : Type} {r : Except VaultError α} (off : w.vault.indexAttributes = false)
    (h : Mutates x w r w') : Hushed x w w' := by
  cases h with
  | refused e | kept a => exact .same off rfl
  | saved a edit saved holds => exact of_saved hx hk (edit.warning.2.1.trans off) saved holds

theorem of_settles {key : Key} {items : List Item} (off : w.vault.indexAttributes = false)
    (h : Settles x (w.opened key items) w') : Hushed x w w' := by
  cases h with
  | matching same | stale warning differs => exact .same off rfl
  | @rewritten w₁ differs saved holds =>
    have opened : (w.opened key items).vault.indexAttributes = false := off
    have hushed : Hushed x w w₁ := of_saved hx hk opened saved holds
    exact hushed.trans (.same hushed.off rfl)

end

end World.Hushed

/-- **With the policy off, no call writes a hash.** -/
theorem apply_hushed (hx : x.Lawful) (hk : x.toCiphers.KeyBound) {op : VaultOp} {w : World}
    (policy : ∀ b, op ≠ .setIndexAttributes b) (off : w.vault.indexAttributes = false) :
    World.Hushed x w (op.apply x w).2 := by
  rcases call : op.apply x w with ⟨r, w'⟩
  cases apply_effect call with
  | mutated m => exact .of_mutates hx hk off m
  | rotated locked contents settles m rekeyed =>
    have unlocked := World.Hushed.of_settles hx hk off settles
    have rekeyed := unlocked.trans (.of_mutates hx hk unlocked.off m)
    exact rekeyed.trans (.same rekeyed.off rfl)
  | unlocked locked contents settles => exact .of_settles hx hk off settles
  | locked | pinned => exact .same off rfl
  | policy enabled => exact absurd rfl (policy enabled)

/-! ## Creations -/

/-- **A creation writes no hash**, whatever the policy of its handle: its vault is empty. -/
theorem create_bare (hx : x.Lawful) (hk : x.toCiphers.KeyBound) {env : CreateEnv} {path : VaultPath}
    {label : String} {password : Bytes} {kdf : KdfParams} {r : Except VaultError Vault}
    {file file' : Option Bytes} (h : Vault.create x env path label password kdf file = (r, file')) :
    file' = file ∨ BareFile x file' := by
  cases vacant : isVacant file with
  | false =>
    cases file with
    | none => cases vacant
    | some bytes =>
      cases bytes with
      | nil => cases vacant
      | cons b bs =>
        obtain ⟨e, refused⟩ := create_occupied (x := x) b bs env path label password kdf
        rw [refused] at h
        exact .inl (Prod.mk.inj h).2.symm
  | true =>
    cases r with
    | error e => exact .inr (.of_vacant (create_vacant h vacant))
    | ok v =>
      obtain ⟨v₀, key, -, -, state, -, saved, holds⟩ := create_ok h
      refine .inr (saved.bareFile (w := ⟨v, file'⟩) hx hk holds ?_)
      intro key' items unlocked
      rw [state] at unlocked
      cases unlocked
      simp [hashesNothing]

theorem PublishStep.file {call : PublishCall} {phase phase' : PublishPhase}
    {file file' : Option Bytes} (step : PublishStep call phase file phase' file')
    (busy : ∀ e, phase ≠ .cleaning e) :
    file' = file ∨ isVacant file' = true ∨ file' = some call.bytes := by
  cases step with
  | other before after => exact .inl rfl
  | link free | rename held => exact .inr (.inr rfl)
  | reserve free | remove removes present after => exact .inr (.inl rfl)
  | renameFails e held => exact .inl rfl
  | giveUp result held => exact absurd held (busy _)

theorem next_file (path : VaultPath) (call : PublishCall) (phase : PublishPhase)
    (file : Option Bytes) :
    (phase.next path call file).2 = file ∨ isVacant (phase.next path call file).2 = true ∨
      (phase.next path call file).2 = some call.bytes := by
  have other (running : ∀ result, phase ≠ .done result) (busy : ∀ e, phase ≠ .cleaning e) :=
    (next_inv path call file running).file busy
  cases phase with
  | done result => exact .inl rfl
  | cleaning e =>
    rcases removeFile_cases call.env.removeAfter file with ⟨e', -, kept⟩ | ⟨bytes, -, -, removed⟩
    · exact .inl (congrArg Prod.snd kept)
    · exact .inr (.inl (by simp only [PublishPhase.next, removed]; rfl))
  | _ => exact other nofun nofun

end SecretManager
