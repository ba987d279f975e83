import SecretManager.Laws.Vault.Reopen

/-!
# Key rotation

`change_key` decrypts, swaps the key, both salts and the parameters, saves, and locks again what was
locked. The law is about any world, reachable or not, and any answers of the environment: after a
success the new key and no other opens the vault, as it stands and once it is locked; after a
failure the old key opens what it opened before. For a vault that was created or opened by this code
the same holds of the file.

One failure changes something: the unlock of a locked vault may have rewritten the index before the
rotation's own save was refused. That write is under the old key, of the same items.
-/

namespace SecretManager

open Reference

variable {items : List Item} {w w' : World}

variable {x : Externals}

/-! ## What a key opens -/

/-- An unlock with this key succeeds and shows these items, whatever the save inside it is
answered. -/
def World.UnlocksTo (x : Externals) (w : World) (key : Key) (items : List Item) : Prop :=
  ∀ env, ∃ w', w.unlockWithKey x env key = (.ok (), w') ∧ w'.vault.items = .ok items

/-- This key unlocks to these items, and every other is a wrong password. -/
structure World.OpensOnlyWith (x : Externals) (w : World) (key : Key) (items : List Item) :
    Prop where
  unlocks : w.UnlocksTo x key items
  refuses : ∀ other, other ≠ key → ∀ env, w.unlockWithKey x env other = (.error .wrongPassword, w)

variable {key : Key} {v : Vault}

theorem Vault.items_of_state (state : v.state = .unlocked key items) : v.items = .ok items := by
  simp only [Vault.items, state]

theorem Vault.isLocked_eq_of_items {v' : Vault} (same : v'.items = v.items) :
    v'.isLocked = v.isLocked := by
  unfold Vault.items at same
  unfold Vault.isLocked
  cases hs : v.state with
  | locked =>
    cases hs' : v'.state with
    | locked => rfl
    | unlocked key items => simp only [hs, hs', reduceCtorEq] at same
  | unlocked key items =>
    cases hs' : v'.state with
    | locked => simp only [hs, hs', reduceCtorEq] at same
    | unlocked key' items' => rfl

theorem Vault.Contents.unique {items' : List Item} (h : v.Contents x key items)
    (h' : v.Contents x key items') : items' = items := by
  obtain ⟨plain, opened, decoded⟩ := h
  obtain ⟨plain', opened', decoded'⟩ := h'
  rw [opened] at opened'
  cases opened'
  rw [decoded] at decoded'
  exact (Except.ok.inj decoded').symm

theorem unlocksTo_of_contents (live : w.vault.retired = false) (state : w.vault.state = .locked)
    (contents : w.vault.Contents x key items) : w.UnlocksTo x key items := by
  intro env
  obtain ⟨w', ok, opened⟩ := unlockWithKey_of_contents env live state contents
  exact ⟨w', ok, Vault.items_of_state opened⟩

theorem contents_of_unlocksTo (env : SaveEnv) (state : w.vault.state = .locked)
    (unlocks : w.UnlocksTo x key items) : w.vault.Contents x key items := by
  obtain ⟨w', ok, shown⟩ := unlocks env
  rcases unlockWithKey_cases ok with ⟨e, he, -⟩ | ⟨-, -, items', state'⟩ |
    ⟨-, -, items', contents, settles⟩
  · cases he
  · rw [state] at state'
    cases state'
  · rw [Vault.items_of_state settles.state_eq] at shown
    cases Except.ok.inj shown
    exact contents

theorem opensOnlyWith_of_unlocked (live : w.vault.retired = false)
    (state : w.vault.state = .unlocked key items) : w.OpensOnlyWith x key items := by
  have open_ : w.vault.isLocked = false := by simp only [Vault.isLocked, state]
  refine ⟨?_, ?_⟩
  · intro env
    refine ⟨w, ?_, Vault.items_of_state state⟩
    have known : w.vault.verifyKey x key = true := by
      simp only [Vault.verifyKey, state, decide_true]
    simp only [World.unlockWithKey, live, open_, known, Bool.not_false, Bool.false_eq_true, if_false, if_true]
  · intro other differs env
    have wrong : w.vault.verifyKey x other = false := by
      simp only [Vault.verifyKey, state, decide_eq_false_iff_not]
      exact fun same => differs same.symm
    simp only [World.unlockWithKey, live, open_, wrong, Bool.not_false, Bool.false_eq_true, if_false, if_true]

theorem opensOnlyWith_of_sealed (hx : x.Lawful) (hk : x.toCiphers.KeyBound)
    (live : w.vault.retired = false) (state : w.vault.state = .locked)
    (sealed : w.vault.Sealed x key items) : w.OpensOnlyWith x key items := by
  refine ⟨unlocksTo_of_contents live state (sealed.contents hx), ?_⟩
  intro other differs env
  have locked : w.vault.isLocked = true := isLocked_iff.mpr state
  cases opened : Crypto.open x.toCiphers other w.vault.header.nonce w.vault.aad w.vault.ciphertext with
  | error e =>
    simp only [World.unlockWithKey, live, locked, opened, Bool.not_true, Bool.false_eq_true, if_false]
  | ok plain =>
    obtain ⟨written, -, text⟩ := sealed.sealed
    exact absurd (key_of_open hk text opened) differs

/-! ## What the unlock inside a rotation leaves -/

theorem Settles.retired_eq (settles : Settles x w w') : w'.vault.retired = w.vault.retired := by
  cases settles with
  | matching => rfl
  | rewritten _ saved _ => exact saved.retired_eq
  | stale => rfl

theorem Settles.policy_eq (settles : Settles x w w') :
    w'.vault.indexAttributes = w.vault.indexAttributes := by
  cases settles with
  | matching => rfl
  | rewritten _ saved _ => exact saved.warning.2
  | stale => rfl

theorem Settles.contents (hx : x.Lawful) (contents : w.vault.Contents x key items)
    (settles : Settles x (w.opened key items) w') : w'.vault.Contents x key items := by
  cases settles with
  | matching => exact contents
  | rewritten _ saved _ => exact (saved.sealed rfl).contents hx
  | stale => exact contents

/-! ## A rotation that succeeds -/

/-- What a rotation leaves of a vault that held these items. -/
structure World.Rotated (x : Externals) (w w' : World) (newSalt drawn : Salt) (newKdf : KdfParams)
    (newKey : Key) (items : List Item) : Prop where
  /-- The new key and no other opens the vault, as it stands and once it is locked. -/
  opens : w'.OpensOnlyWith x newKey items
  relocked : World.OpensOnlyWith x { w' with vault := w'.vault.lock } newKey items
  sealed : w'.vault.Sealed x newKey items
  items_eq : w'.vault.items = w.vault.items
  salt : w'.vault.header.salt = newSalt
  kdf : w'.vault.header.kdf = newKdf
  indexSalt : w'.vault.header.indexSalt = drawn
  index : w'.vault.header.index = buildIndex x drawn items w.vault.indexAttributes

section

variable {env : SaveEnv} {oldKey newKey : Key} {newSalt drawn : Salt} {newKdf : KdfParams}

theorem rekey_writes (state : w.vault.state = .unlocked oldKey items)
    (ok : w.rekey x env oldKey newSalt newKdf newKey drawn = (.ok (), w')) :
    w'.vault.retired = false ∧ w'.vault.state = .unlocked newKey items ∧
      w'.vault.Sealed x newKey items ∧ w'.vault.header.salt = newSalt ∧
      w'.vault.header.kdf = newKdf ∧ w'.vault.header.indexSalt = drawn ∧
      w'.vault.header.index = buildIndex x drawn items w.vault.indexAttributes := by
  obtain ⟨saved, -⟩ := rekey_ok state ok
  refine ⟨?_, saved.state_eq, saved.sealed rfl, ?_⟩
  · generalize w'.vault = v at saved
    cases saved with
    | mk live => exact live
  · generalize w'.vault = v at saved
    cases saved with
    | mk live same =>
      cases same
      exact ⟨rfl, rfl, rfl, rfl⟩

theorem rekey_refused {e : VaultError} (state : w.vault.state = .unlocked oldKey items)
    (valid : newKdf.validate = .ok ())
    (refused : w.rekey x env oldKey newSalt newKdf newKey drawn = (.error e, w')) : w' = w := by
  have mutates := rekey_mutates x env w newKey newSalt drawn state valid
  rw [refused] at mutates
  cases mutates with
  | refused => rfl

/-- **From unlocked**: the vault holds the new key, and its text is sealed under it. -/
theorem rotated_of_unlocked (hx : x.Lawful) (hk : x.toCiphers.KeyBound)
    (state : w.vault.state = .unlocked oldKey items)
    (ok : w.rekey x env oldKey newSalt newKdf newKey drawn = (.ok (), w')) :
    w.Rotated x w' newSalt drawn newKdf newKey items := by
  obtain ⟨live, state', sealed, salt, kdf, indexSalt, index⟩ := rekey_writes state ok
  refine ⟨opensOnlyWith_of_unlocked live state', ?_, sealed, ?_, salt, kdf, indexSalt, index⟩
  · exact opensOnlyWith_of_sealed hx hk live rfl ⟨sealed.sealed, sealed.ids⟩
  · rw [Vault.items_of_state state, Vault.items_of_state state']

/-- **From locked**: the same, of the vault the unlock left, locked again. -/
theorem rotated_of_locked (hx : x.Lawful) (hk : x.toCiphers.KeyBound) {w₁ w₂ : World}
    (state : w.vault.state = .locked) (settles : Settles x (w.opened oldKey items) w₁)
    (ok : w₁.rekey x env oldKey newSalt newKdf newKey drawn = (.ok (), w₂)) :
    w.Rotated x { w₂ with vault := w₂.vault.lock } newSalt drawn newKdf newKey items := by
  obtain ⟨live, -, sealed, salt, kdf, indexSalt, index⟩ := rekey_writes settles.state_eq ok
  have only : World.OpensOnlyWith x { w₂ with vault := w₂.vault.lock } newKey items :=
    opensOnlyWith_of_sealed hx hk live rfl ⟨sealed.sealed, sealed.ids⟩
  refine ⟨only, only, ⟨sealed.sealed, sealed.ids⟩, ?_, salt, kdf, indexSalt, ?_⟩
  · simp only [Vault.items, Vault.lock, state]
  · exact index.trans (by rw [settles.policy_eq]; rfl)

end

/-! ## The file -/

theorem Readable.open_sealed (hx : x.Lawful) (hk : x.toCiphers.KeyBound) (h : Readable x w)
    (sealed : w.vault.Sealed x key items) :
    ∃ v, Vault.open x w.vault.path w.file = .ok v ∧ v.header = w.vault.header ∧
      World.OpensOnlyWith x ⟨v, w.file⟩ key items := by
  obtain ⟨bytes, file, size, decode⟩ := h.decodes
  refine ⟨_, open_ok_iff.mpr ⟨bytes, _, file, size, decode, rfl⟩, rfl, ?_⟩
  exact opensOnlyWith_of_sealed hx hk rfl rfl ⟨sealed.sealed, sealed.ids⟩

theorem Readable.open_unlocks (env : SaveEnv) (h : Readable x w)
    (unlocks : w.UnlocksTo x key items) :
    ∃ v, Vault.open x w.vault.path w.file = .ok v ∧ World.UnlocksTo x ⟨v, w.file⟩ key items := by
  have contents : w.vault.Contents x key items := by
    obtain ⟨w', ok, shown⟩ := unlocks env
    rcases unlockWithKey_cases ok with ⟨e, he, -⟩ | ⟨-, rfl, items', state⟩ | ⟨-, state, -⟩
    · cases he
    · rw [Vault.items_of_state state] at shown
      cases Except.ok.inj shown
      exact h.current state
    · exact contents_of_unlocksTo env state unlocks
  obtain ⟨v, opened, -, reopens⟩ := h.reopens.opens
  exact ⟨v, opened, fun env => reopens contents env⟩

theorem changeKey_readable (hx : x.Lawful) {unlockEnv env : SaveEnv}
    {indexSalt : Except CryptoError Salt} {oldKey newKey : Key} {newSalt : Salt}
    {newKdf : KdfParams} {r : Except VaultError Unit} (live : Live x w)
    (h : w.changeKey x unlockEnv env indexSalt oldKey newSalt newKdf newKey = (r, w')) :
    Readable x w' := by
  have call : (VaultOp.changeKey unlockEnv env indexSalt oldKey newSalt newKdf newKey).apply x w = (r, w') := h
  exact Micros.invariant (fun step hw => step.readable hx hw) (apply_micros call) (live.readable hx)

/-- **Key rotation.** For any world and any answers of the environment, a rotation leaves the lock
state. If it succeeds, the old key opened the vault to some items, and the vault is rotated to the
new key with those items; if it fails, the old key opens what it opened, and nothing changed at all
unless it did open the vault. Of a vault that this code created or opened, the file does the
same. -/
theorem key_rotation (hx : x.Lawful) (hk : x.toCiphers.KeyBound) {unlockEnv env : SaveEnv}
    {indexSalt : Except CryptoError Salt} {oldKey newKey : Key} {newSalt : Salt}
    {newKdf : KdfParams} {r : Except VaultError Unit}
    (h : w.changeKey x unlockEnv env indexSalt oldKey newSalt newKdf newKey = (r, w')) :
    w'.vault.isLocked = w.vault.isLocked ∧
    (r = .ok () → ∃ items drawn, indexSalt = .ok drawn ∧ w.UnlocksTo x oldKey items ∧
      w.Rotated x w' newSalt drawn newKdf newKey items ∧
      (Live x w → ∃ v, Vault.open x w'.vault.path w'.file = .ok v ∧ v.header = w'.vault.header ∧
        World.OpensOnlyWith x ⟨v, w'.file⟩ newKey items)) ∧
    (r ≠ .ok () → (w' = w ∨ ∃ items, w.UnlocksTo x oldKey items) ∧
      ∀ items, w.UnlocksTo x oldKey items → w'.UnlocksTo x oldKey items ∧
        (Live x w → ∃ v, Vault.open x w'.vault.path w'.file = .ok v ∧
          World.UnlocksTo x ⟨v, w'.file⟩ oldKey items)) := by
  have fileToo : ∀ items, w'.UnlocksTo x oldKey items → Live x w → ∃ v, Vault.open x w'.vault.path w'.file = .ok v ∧
        World.UnlocksTo x ⟨v, w'.file⟩ oldKey items :=
    fun items unlocks live => (changeKey_readable hx live h).open_unlocks env unlocks
  have readable := fun live : Live x w => changeKey_readable hx live h
  rcases changeKey_cases h with ⟨e, rfl, rfl⟩ | ⟨valid, drawn, rfl,
      ⟨⟨items, state⟩, hrekey⟩ | ⟨state, live, items, w₁, w₂, contents, settles, hrekey, rfl⟩⟩
  · refine ⟨rfl, nofun, fun _ => ⟨.inl rfl, ?_⟩⟩
    exact fun items unlocks => ⟨unlocks, fileToo items unlocks⟩
  · cases r with
    | ok =>
      have rotated := rotated_of_unlocked hx hk state hrekey
      have live : w.vault.retired = false := by
        obtain ⟨saved, -⟩ := rekey_ok state hrekey
        exact saved.retired_eq.symm.trans (rekey_writes state hrekey).1
      refine ⟨Vault.isLocked_eq_of_items rotated.items_eq, fun _ => ?_, fun h => absurd rfl h⟩
      exact ⟨items, drawn, rfl, (opensOnlyWith_of_unlocked live state).unlocks, rotated,
        fun run => (readable run).open_sealed hx hk rotated.sealed⟩
    | error e =>
      cases rekey_refused state valid hrekey
      refine ⟨rfl, nofun, fun _ => ⟨.inl rfl, ?_⟩⟩
      exact fun items unlocks => ⟨unlocks, fileToo items unlocks⟩
  · have before : w.UnlocksTo x oldKey items := unlocksTo_of_contents live state contents
    cases r with
    | ok =>
      have rotated := rotated_of_locked hx hk state settles hrekey
      refine ⟨Vault.isLocked_eq_of_items rotated.items_eq, fun _ => ?_, fun h => absurd rfl h⟩
      exact ⟨items, drawn, rfl, before, rotated, fun run => (readable run).open_sealed hx hk rotated.sealed⟩
    | error e =>
      cases rekey_refused settles.state_eq valid hrekey
      have locked : w.vault.isLocked = true := isLocked_iff.mpr state
      refine ⟨locked.symm, nofun, fun _ => ⟨.inr ⟨items, before⟩, fun its unlocks => ?_⟩⟩
      -- the index may have been rewritten, under the old key
      have same : its = items := contents.unique (contents_of_unlocksTo env state unlocks)
      subst same
      have kept : w₁.vault.Contents x oldKey its := settles.contents hx contents
      have after : World.UnlocksTo x { w₁ with vault := w₁.vault.lock } oldKey its :=
        unlocksTo_of_contents (settles.retired_eq.trans live) rfl kept
      exact ⟨after, fileToo its after⟩

/-- A rotation of a vault with three items, of which two carry an attribute. -/
theorem key_rotation_created : ∃ w' items, World.changeKey externals saveEnv
      saveEnv (.ok (Vector.replicate saltLen 5)) ⟨Vector.replicate keyLen 3⟩
      (Vector.replicate saltLen 6) .fastForTests ⟨Vector.replicate keyLen 8⟩ taggedItems = (.ok (), w') ∧
    taggedItems.UnlocksTo externals ⟨Vector.replicate keyLen 3⟩ items ∧
    w'.vault.items = .ok tagged ∧
    w'.OpensOnlyWith externals ⟨Vector.replicate keyLen 8⟩ items := by
  have rotates : (World.changeKey externals saveEnv saveEnv
      (.ok (Vector.replicate saltLen 5)) ⟨Vector.replicate keyLen 3⟩ (Vector.replicate saltLen 6)
      .fastForTests ⟨Vector.replicate keyLen 8⟩ taggedItems).1 = .ok () := by decide +kernel
  rcases result : World.changeKey externals saveEnv saveEnv
      (.ok (Vector.replicate saltLen 5)) ⟨Vector.replicate keyLen 3⟩ (Vector.replicate saltLen 6)
      .fastForTests ⟨Vector.replicate keyLen 8⟩ taggedItems with ⟨r, w'⟩
  rw [result] at rotates
  cases rotates
  obtain ⟨-, success, -⟩ := key_rotation externals_lawful ciphers_keyBound result
  obtain ⟨items, drawn, -, before, rotated, -⟩ := success rfl
  have held : taggedItems.vault.items = .ok tagged := rfl
  exact ⟨w', items, rfl, before, rotated.items_eq.trans held, rotated.opens⟩

end SecretManager
