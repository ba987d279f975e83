import SecretManager.Laws.Vault.Coherence

/-!
# What was written can be opened

Every refusal of `Vault::open` (size, header length, version, KDF bounds, leftover header bytes) is
met on all three write paths. The histories here are wider than those of coherence: a vault may come
from any file that `open` accepts, and no assumption is made on keys that open a text they did not
seal.
-/

namespace SecretManager

variable {x : Externals}

/-- The file opens to the header in memory; the held key opens the held ciphertext to the held
items; and every key that opens the held ciphertext unlocks the opened file to the same items,
whatever the save inside that unlock is answered. -/
structure World.Reopens (x : Externals) (w : World) : Prop where
  current : ∀ {key items}, w.vault.state = .unlocked key items → w.vault.Contents x key items
  opens : ∃ v, Vault.open x w.vault.path w.file = .ok v ∧ v.header = w.vault.header ∧
    ∀ {key items}, w.vault.Contents x key items → ∀ env, ∃ w',
      World.unlockWithKey x env key ⟨v, w.file⟩ = (.ok (), w') ∧ w'.vault.items = .ok items

/-- The invariant behind it: the file decodes to what the vault holds. -/
structure Readable (x : Externals) (w : World) : Prop where
  writable : Writable w.vault
  decodes : ∃ bytes, w.file = some bytes ∧ bytes.length ≤ maxVaultBytes ∧ VaultFile.decode x bytes =
      .ok { header := w.vault.header, aad := w.vault.aad, ciphertext := w.vault.ciphertext }
  current : ∀ {key items}, w.vault.state = .unlocked key items → w.vault.Contents x key items

variable {w : World}

theorem Readable.reopens (h : Readable x w) : w.Reopens x := by
  obtain ⟨bytes, hfile, hsize, hdecode⟩ := h.decodes
  refine ⟨h.current, _, open_ok_iff.mpr ⟨bytes, _, hfile, hsize, hdecode, rfl⟩, rfl, ?_⟩
  intro key items contents env
  let fresh : World := ⟨Vault.ofFile w.vault.path
    { header := w.vault.header, aad := w.vault.aad, ciphertext := w.vault.ciphertext }, w.file⟩
  have same : fresh.vault.Contents x key items := contents
  obtain ⟨w', hunlock, state⟩ := unlockWithKey_of_contents env rfl rfl same
  refine ⟨w', hunlock, ?_⟩
  simp only [Vault.items, state]

theorem Readable.open_eq (h : Readable x w) {path : VaultPath} {v : Vault}
    (ok : Vault.open x path w.file = .ok v) : v = Vault.ofFile path
      { header := w.vault.header, aad := w.vault.aad, ciphertext := w.vault.ciphertext } := by
  obtain ⟨bytes, hfile, -, decode⟩ := h.decodes
  obtain ⟨bytes', vf, hfile', -, decode', rfl⟩ := open_ok_iff.mp ok
  rw [hfile] at hfile'
  cases hfile'
  rw [decode] at decode'
  cases decode'
  rfl

theorem Saved.readable (hx : x.Lawful) {v : Vault} (saved : Saved x v w.vault) (h : Writable v)
    (holds : w.FileHolds) : Readable x w := by
  have coherent := saved.coherent h holds
  refine ⟨coherent.writable, ⟨_, holds, coherent.fits,
    decode_written hx.header coherent.header coherent.writable.checked _⟩, ?_⟩
  intro key items state
  obtain ⟨key', items', sealed, agrees⟩ := coherent.contents
  obtain ⟨rfl, rfl⟩ := agrees key items state
  exact sealed.contents hx

variable {w' : World}

theorem Micro.readable (hx : x.Lawful) (step : Micro x w w') (h : Readable x w) :
    Readable x w' := by
  have writable : Writable w.vault := h.writable
  cases step with
  | lock =>
    exact ⟨⟨writable.checked, writable.limit⟩, h.decodes, fun hs => by cases hs⟩
  | flags indexAttributes indexWarning pinned =>
    exact ⟨⟨writable.checked, writable.limit⟩, h.decodes, h.current⟩
  | decrypt contents =>
    refine ⟨⟨writable.checked, writable.limit⟩, h.decodes, ?_⟩
    intro key items hs
    cases hs
    exact contents
  | save edit saved holds => exact saved.readable hx (edit.writable writable) holds

theorem Live.readable (hx : x.Lawful) (h : Live x w) : Readable x w := by
  induction h with
  | created ok =>
    obtain ⟨v₀, key, writable, -, -, -, saved, holds⟩ := create_ok ok
    exact saved.readable hx writable holds
  | opened ok =>
    obtain ⟨bytes, vf, rfl, hsize, hdecode, rfl⟩ := open_ok_iff.mp ok
    exact ⟨⟨(decode_ok hdecode).1, rfl⟩, ⟨bytes, rfl, hsize, hdecode⟩, fun hs => by cases hs⟩
  | step _ ok ih => exact Micros.invariant (fun step hw => step.readable hx hw) (apply_micros ok) ih

variable {env : SaveEnv} {newKdf : KdfParams} {newKey oldKey : Key} {newSalt : Salt}

theorem rekey_ok {newIndexSalt : Salt} {items : List Item}
    (state : w.vault.state = .unlocked oldKey items)
    (ok : w.rekey x env oldKey newSalt newKdf newKey newIndexSalt = (.ok (), w')) :
    Saved x { w.vault with
      header := { w.vault.header with salt := newSalt, kdf := newKdf, indexSalt := newIndexSalt }
      state := .unlocked newKey items } w'.vault ∧ w'.FileHolds := by
  unfold World.rekey at ok
  simp only [state] at ok
  split at ok
  next w₁ hsave =>
    obtain ⟨-, rfl⟩ := Prod.mk.inj ok
    rcases save_cases hsave with ⟨e, he, -⟩ | ⟨-, saved, holds⟩
    · cases he
    · exact ⟨saved, holds⟩
  · cases (Prod.mk.inj ok).1

theorem rekey_contents (hx : x.Lawful) {newIndexSalt : Salt} {items : List Item}
    (state : w.vault.state = .unlocked oldKey items)
    (ok : w.rekey x env oldKey newSalt newKdf newKey newIndexSalt = (.ok (), w')) :
    w'.vault.Contents x newKey items :=
  ((rekey_ok state ok).1.sealed rfl).contents hx

/-- **A key change keeps the contents**: what the old key opened, the new key opens. -/
theorem changeKey_contents (hx : x.Lawful) {unlockEnv : SaveEnv}
    {indexSalt : Except CryptoError Salt} (h : Readable x w)
    (ok : w.changeKey x unlockEnv env indexSalt oldKey newSalt newKdf newKey = (.ok (), w')) :
    ∃ items, w.vault.Contents x oldKey items ∧ w'.vault.Contents x newKey items := by
  rcases changeKey_cases ok with ⟨e, he, -⟩ | ⟨valid, newIndexSalt, -,
      ⟨⟨items, state⟩, hrekey⟩ | ⟨-, -, items, w₁, w₂, contents, settles, hrekey, rfl⟩⟩
  · cases he
  · exact ⟨items, h.current state, rekey_contents hx state hrekey⟩
  · have moved : w₂.vault.Contents x newKey items :=
      rekey_contents hx settles.state_eq hrekey
    exact ⟨items, contents, moved⟩

/-- **Nothing this code writes becomes unopenable.** After a successful create, after a successful
save over whatever was at the path, and after every successful call of every history, the file opens
to the header in memory and unlocks with the current key to the items in memory; and after a
successful key change the new key opens what the old key opened. -/
theorem written_vault_reopens (hx : x.Lawful) : (∀ {env path label password kdf before v after},
      Vault.create x env path label password kdf before = (.ok v, after) →
        World.Reopens x ⟨v, after⟩ ∧ ∃ key, v.state = .unlocked key [] ∧
          deriveKey x.toCiphers password v.header.salt v.header.kdf = .ok key) ∧
    (∀ {w}, Live x w → ∀ {env file w'}, World.save x env ⟨w.vault, file⟩ = (.ok (), w') →
        w'.Reopens x ∧ w'.vault.state = w.vault.state) ∧
    (∀ {w}, Live x w → ∀ {op : VaultOp} {w'}, op.apply x w = (.ok (), w') → w'.Reopens x) ∧
    (∀ {w}, Live x w → ∀ {unlockEnv env indexSalt oldKey newSalt newKdf newKey w'},
      World.changeKey x unlockEnv env indexSalt oldKey newSalt newKdf newKey w = (.ok (), w') → w'.Reopens x ∧
          ∃ items, w.vault.Contents x oldKey items ∧ w'.vault.Contents x newKey items) := by
  refine ⟨?_, ?_, ?_, ?_⟩
  · intro env path label password kdf before v after ok
    obtain ⟨v₀, key, writable, -, state, hkey, saved, holds⟩ := create_ok ok
    refine ⟨(saved.readable (w := ⟨v, after⟩) hx writable holds).reopens, key, saved.state_eq.trans state, ?_⟩
    cases saved
    exact hkey
  · intro w live env file w' ok
    rcases save_cases ok with ⟨e, he, -⟩ | ⟨-, saved, holds⟩
    · cases he
    · exact ⟨(saved.readable hx (live.readable hx).writable holds).reopens, saved.state_eq⟩
  · intro w live op w' ok
    exact ((Live.step live ok).readable hx).reopens
  · intro w live unlockEnv env indexSalt oldKey newSalt newKdf newKey w' ok
    let op : VaultOp := .changeKey unlockEnv env indexSalt oldKey newSalt newKdf newKey
    have applied : op.apply x w = (.ok (), w') := ok
    have next : Live x w' := .step live applied
    exact ⟨(next.readable hx).reopens, changeKey_contents hx (live.readable hx) ok⟩

/-- A vault is created, and an item with an attribute is put into it. -/
theorem written_vault_reopens_created :
    let op : VaultOp := .insertItem Reference.saveEnv 1 "a" "Mail" ((∅ : Attributes).insert "app" "mail") [1]
      "text/plain" false
    ∃ v after w', Reference.created = (.ok v, after) ∧ op.apply Reference.externals ⟨v, after⟩ = (.ok (), w') ∧
      (w'.vault.items.toOption.any fun items => items.any fun i => !i.attributes.isEmpty) = true ∧
      w'.Reopens Reference.externals := by
  intro op
  have stocked : Reference.created.1.toOption.any (fun v =>
      let result := op.apply Reference.externals ⟨v, Reference.created.2⟩
      result.1.isOk && result.2.vault.items.toOption.any fun items =>
        items.any fun i => !i.attributes.isEmpty) = true := by decide +kernel
  rcases created : Reference.created with ⟨r, after⟩
  rw [created] at stocked
  cases r with
  | error e => cases stocked
  | ok v =>
    rcases applied : op.apply Reference.externals ⟨v, after⟩ with ⟨r, w'⟩
    obtain ⟨ok, filled⟩ := Bool.and_eq_true_iff.mp stocked
    rw [applied] at ok filled
    cases r with
    | error e => cases ok
    | ok _ =>
      have reopens := (written_vault_reopens Reference.externals_lawful).2.2.1 (.created created) applied
      exact ⟨v, after, w', rfl, applied, filled, reopens⟩

end SecretManager
