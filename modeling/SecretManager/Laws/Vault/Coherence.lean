import SecretManager.Laws.Vault.Store
import SecretManager.Vault.Reference

/-!
# The vault in memory and the file on disk

Every call is a sequence of four small steps (`Micro`): lock, flag change, decryption of the held
ciphertext, and a save of an edited vault. An invariant of the small steps is an invariant of every
history, whatever fails. Two invariants are carried. `Readable` needs only that reading inverts
writing, and holds even of vaults opened from a file that another program wrote. `Coherent` also
says that the index and the sealed text are those of the item list; it needs the cipher to reject
wrong keys, since a key that opened by accident would put other items in memory.
-/

namespace SecretManager

variable {x : Externals}
variable {key : Key} {path : VaultPath} {r : Except VaultError Unit} {v v' : Vault} {w w' : World}

/-! ## Creation -/

theorem renameOverReservation_sound (env : PublishEnv) (path : VaultPath) :
    Publish.Sound (renameOverReservation env path) := by
  intro bytes file file' h
  unfold renameOverReservation at h
  split at h
  · exact (Prod.mk.inj h).2.symm
  · cases (Prod.mk.inj h).1

theorem publishNewViaReservation_sound (env : PublishEnv) (path : VaultPath) :
    Publish.Sound (publishNewViaReservation env path) := by
  intro bytes file file' h
  unfold publishNewViaReservation at h
  split at h
  · exact renameOverReservation_sound env path h
  split at h
  · split at h
    · split at h
      · cases (Prod.mk.inj h).1
      · split at h
        · cases (Prod.mk.inj h).1
        · exact renameOverReservation_sound env path h
    · cases (Prod.mk.inj h).1
  · cases (Prod.mk.inj h).1

theorem renameNoreplace_ok {fault : Option IoError} {bytes : Bytes} {file file' : Option Bytes}
    (h : renameNoreplace fault bytes file = (.ok (), file')) : file' = some bytes := by
  unfold renameNoreplace at h
  split at h
  · cases (Prod.mk.inj h).1
  · cases (Prod.mk.inj h).1
  · exact (Prod.mk.inj h).2.symm

theorem publishNew_sound (env : PublishEnv) (path : VaultPath) :
    Publish.Sound (publishNew env path) := by
  intro bytes file file' h
  unfold publishNew at h
  split at h
  · cases (Prod.mk.inj h).1
  split at h
  next file₁ hrename =>
    obtain ⟨-, rfl⟩ := Prod.mk.inj h
    exact renameNoreplace_ok hrename
  next e file₁ hrename =>
    split at h
    · split at h
      · split at h
        · cases (Prod.mk.inj h).1
        · split at h
          next file₃ hagain =>
            obtain ⟨-, rfl⟩ := Prod.mk.inj h
            exact renameNoreplace_ok hagain
          · split at h
            · cases (Prod.mk.inj h).1
            · cases (Prod.mk.inj h).1
      · cases (Prod.mk.inj h).1
    · split at h
      · exact publishNewViaReservation_sound env path h
      · cases (Prod.mk.inj h).1

/-- What a vault must be before a save can make it readable: this build's version, KDF parameters
within bounds, and the ceiling `open` enforces. -/
structure Writable (v : Vault) : Prop where
  checked : checkHeader v.header = .ok ()
  limit : v.sizeLimit = maxVaultBytes

theorem checkHeader_ok {h : Header} :
    checkHeader h = .ok () ↔ h.version = version ∧ h.kdf.validate = .ok () := by
  unfold checkHeader
  by_cases hv : h.version = version
  · rw [if_neg (not_not.mpr hv)]
    cases h.kdf.validate with
    | error e => simp
    | ok u => simp [hv]
  · rw [if_pos hv]
    simp [hv]

theorem build_ok {env : BuildEnv} {label : String} {password : Bytes} {kdf : KdfParams}
    (h : Vault.build x env path label password kdf = .ok v) :
    Writable v ∧ v.path = path ∧ ∃ key, deriveKey x.toCiphers password v.header.salt v.header.kdf = .ok key ∧
        v.state = .unlocked key [] := by
  unfold Vault.build at h
  split at h
  · cases h
  split at h
  · cases h
  next salt _ =>
  split at h
  · cases h
  next indexSalt _ =>
  split at h
  · cases h
  next key hkey =>
  cases h
  have valid : kdf.validate = .ok () := by
    unfold deriveKey at hkey
    cases hvalid : kdf.validate with
    | error e => simp only [hvalid, reduceCtorEq] at hkey
    | ok u => rfl
  exact ⟨⟨checkHeader_ok.mpr ⟨rfl, valid⟩, rfl⟩, rfl, key, hkey, rfl⟩

/-- **A created vault** is a freshly built one after one save, with the file in place. -/
theorem create_ok {env : CreateEnv} {label : String} {password : Bytes} {kdf : KdfParams}
    {before after : Option Bytes}
    (h : Vault.create x env path label password kdf before = (.ok v, after)) :
    ∃ v₀ key, Writable v₀ ∧ v₀.path = path ∧ v₀.state = .unlocked key [] ∧
      deriveKey x.toCiphers password v₀.header.salt v₀.header.kdf = .ok key ∧
      Saved x v₀ v ∧ World.FileHolds ⟨v, after⟩ := by
  unfold Vault.create at h
  split at h
  · cases (Prod.mk.inj h).1
  split at h
  · cases (Prod.mk.inj h).1
  next v₀ hbuild =>
  obtain ⟨writable, hpath, key, hkey, state⟩ := build_ok hbuild
  split at h
  · cases (Prod.mk.inj h).1
  next w hsave =>
  obtain ⟨hv, rfl⟩ := Prod.mk.inj h
  cases hv
  rcases saveWith_cases (publishNew_sound env.publish path) hsave with
    ⟨e, he, -⟩ | ⟨-, hsaved, hholds⟩
  · cases he
  · exact ⟨v₀, key, writable, hpath, state, hkey, hsaved, hholds⟩

/-! ## Small steps -/

/-- What one call is made of. -/
inductive Micro (x : Externals) (w : World) : World → Prop
  | lock : Micro x w { w with vault := w.vault.lock }
  | flags (indexAttributes : Bool) (indexWarning : Option String) (pinned : Bool) :
      Micro x w { w with vault := { w.vault with indexAttributes, indexWarning, pinned } }
  | decrypt {key : Key} {items : List Item} (contents : w.vault.Contents x key items) :
      Micro x w (w.opened key items)
  | save {v : Vault} {w' : World} (edit : Edit w.vault v) (saved : Saved x v w'.vault)
      (holds : w'.FileHolds) : Micro x w w'

abbrev Micros (x : Externals) : World → World → Prop := Relation.ReflTransGen (Micro x)

theorem Edit.refl {items : List Item} (h : v.state = .unlocked key items) : Edit v v := by
  have hedit := Edit.items items h
  rwa [← h] at hedit

theorem Mutates.micros {α : Type} {r : Except VaultError α} (h : Mutates x w r w') :
    Micros x w w' := by
  cases h with
  | refused e => exact .refl
  | kept a => exact .refl
  | saved a edit saved holds => exact .single (.save edit saved holds)

theorem Settles.micros {items : List Item} (h : Settles x (w.opened key items) w') :
    Micros x (w.opened key items) w' := by
  cases h with
  | matching => exact .single (.flags _ none _)
  | rewritten _ saved holds =>
    exact .head (.save (.refl rfl) saved holds) (.single (.flags _ none _))
  | stale warning => exact .single (.flags _ (some warning) _)

/-- **Every call is a sequence of small steps**, however it ends. -/
theorem apply_micros {op : VaultOp} (h : op.apply x w = (r, w')) : Micros x w w' := by
  cases apply_effect h with
  | mutated m => exact m.micros
  | rotated locked contents settles m rekeyed =>
    exact .head (.decrypt contents) (settles.micros.trans (m.micros.tail .lock))
  | unlocked locked contents settles => exact .head (.decrypt contents) settles.micros
  | locked => exact .single .lock
  | policy enabled => exact .single (.flags enabled _ _)
  | pinned pinned => exact .single (.flags _ _ pinned)

theorem Micros.invariant {P : World → Prop} (step : ∀ {w w'}, Micro x w w' → P w → P w')
    (run : Micros x w w') (hw : P w) : P w' := by
  induction run with
  | refl => exact hw
  | tail _ hstep ih => exact step hstep ih

/-! ## Reading back what was written -/

theorem Edit.writable (edit : Edit v v') (h : Writable v) : Writable v' := by
  obtain ⟨hversion, hkdf⟩ := checkHeader_ok.mp h.checked
  cases edit with
  | items items' state => exact ⟨h.checked, h.limit⟩
  | label label state => exact ⟨checkHeader_ok.mpr ⟨hversion, hkdf⟩, h.limit⟩
  | rekey newKey salt indexSalt state valid =>
    exact ⟨checkHeader_ok.mpr ⟨hversion, valid⟩, h.limit⟩

theorem Saved.writable (saved : Saved x v v') (h : Writable v) : Writable v' := by
  cases saved
  exact ⟨checkHeader_ok.mpr (checkHeader_ok.mp h.checked), h.limit⟩

/-- The vault `open` builds from a decoded file. -/
def Vault.ofFile (path : VaultPath) (vf : VaultFile) : Vault :=
  { path, header := vf.header, aad := vf.aad, ciphertext := vf.ciphertext, state := .locked,
    indexAttributes := true, indexWarning := none, sizeLimit := maxVaultBytes, retired := false,
    pinned := false }

/-- **Opening** succeeds exactly on a file within the size limit that decodes. -/
theorem open_ok_iff {file : Option Bytes} : Vault.open x path file = .ok v ↔
      ∃ bytes vf, file = some bytes ∧ bytes.length ≤ maxVaultBytes ∧
        VaultFile.decode x bytes = .ok vf ∧ v = Vault.ofFile path vf := by
  unfold Vault.open readFile
  cases file with
  | none => simp
  | some bytes =>
    unfold checkVaultSize checkVaultSizeAgainst
    by_cases hsize : bytes.length > maxVaultBytes
    · have hnot : ¬bytes.length ≤ maxVaultBytes := by omega
      simp only [if_pos hsize, reduceCtorEq, Option.some.injEq, false_iff]
      rintro ⟨_, _, rfl, h, -⟩
      exact hnot h
    · have hle : bytes.length ≤ maxVaultBytes := by omega
      simp only [if_neg hsize, Option.some.injEq]
      cases hdec : VaultFile.decode x bytes with
      | error e =>
        simp only [reduceCtorEq, false_iff]
        rintro ⟨_, _, rfl, -, h, -⟩
        rw [hdec] at h
        cases h
      | ok vf =>
        simp only [Except.ok.injEq]
        constructor
        · rintro rfl
          exact ⟨bytes, vf, rfl, hle, hdec, rfl⟩
        · rintro ⟨_, vf', rfl, -, h, rfl⟩
          rw [hdec] at h
          cases h
          rfl

theorem unlockWithKey_eq (env : SaveEnv) {items : List Item} (live : w.vault.retired = false)
    (state : w.vault.state = .locked) (contents : w.vault.Contents x key items) :
    w.unlockWithKey x env key =
      if (w.opened key items).vault.indexHasAttributes != (w.opened key items).vault.wantsAttributes then
        match World.save x env (w.opened key items) with
        | (.ok (), w') => (.ok (), { w' with vault := { w'.vault with indexWarning := none } })
        | (.error e, w') =>
          (.ok (), { w' with vault := { w'.vault with
            indexWarning := some s!"cannot rewrite the attribute index: {e.message}" } })
      else
        (.ok (), { w.opened key items with
          vault := { (w.opened key items).vault with indexWarning := none } }) := by
  obtain ⟨plain, hopen, hdecode⟩ := contents
  have locked : w.vault.isLocked = true := isLocked_iff.mpr state
  unfold World.unlockWithKey
  rw [if_neg (by rw [live]; nofun), if_neg (by rw [locked]; nofun), hopen]
  dsimp only
  rw [hdecode]
  rfl

/-- **A locked vault opens to its contents** under the key that opens them, whatever the save
inside the unlock is answered. -/
theorem unlockWithKey_of_contents (env : SaveEnv) {items : List Item}
    (live : w.vault.retired = false) (state : w.vault.state = .locked)
    (contents : w.vault.Contents x key items) :
    ∃ w', w.unlockWithKey x env key = (.ok (), w') ∧ w'.vault.state = .unlocked key items := by
  rw [unlockWithKey_eq env live state contents]
  split
  · split
    next w₁ hsave =>
      rcases save_cases hsave with ⟨e, he, -⟩ | ⟨-, saved, -⟩
      · cases he
      · exact ⟨_, rfl, saved.state_eq⟩
    next e w₁ hsave =>
      rcases save_cases hsave with ⟨e', -, rfl⟩ | ⟨he, -⟩
      · exact ⟨_, rfl, rfl⟩
      · cases he
  · exact ⟨_, rfl, rfl⟩

/-! ## Coherence -/

/-- The ciphertext held is the seal of these items under this key, and the index lists them. -/
structure Vault.Sealed (x : Externals) (v : Vault) (key : Key) (items : List Item) : Prop where
  sealed : ∃ plain, encodeItems x items = .ok plain ∧
    Crypto.seal x.toCiphers key v.header.nonce v.aad plain = .ok v.ciphertext
  ids : v.itemIds = items.map (·.id)

/-- Memory and file agree: the invariant of every history this code began. -/
structure Coherent (x : Externals) (w : World) : Prop where
  writable : Writable w.vault
  live : w.vault.retired = false
  holds : w.FileHolds
  header : VaultFile.headerBytes x w.vault.header = .ok w.vault.aad
  fits : (w.vault.aad ++ w.vault.ciphertext).length ≤ maxVaultBytes
  contents : ∃ key items, w.vault.Sealed x key items ∧ ∀ k its, w.vault.state = .unlocked k its → k = key ∧ its = items

theorem Saved.sealed {items : List Item} (saved : Saved x v v')
    (state : v.state = .unlocked key items) : v'.Sealed x key items := by
  cases saved with
  | mk live state' header encoded sealed fits =>
    rw [state'] at state
    cases state
    exact ⟨⟨_, encoded, sealed⟩, buildIndex_ids x v.header.indexSalt items v.indexAttributes⟩

theorem Saved.coherent (saved : Saved x v w.vault) (h : Writable v) (holds : w.FileHolds) :
    Coherent x w := by
  have writable := saved.writable h
  have state_eq := saved.state_eq
  obtain ⟨key, items, state⟩ := saved.unlocked
  have sealed := saved.sealed state
  obtain ⟨v', file⟩ := w
  cases saved with
  | mk live _ header _ _ fits =>
    refine ⟨writable, live, holds, header, h.limit ▸ fits, key, items, sealed, ?_⟩
    intro k its hstate
    rw [state] at hstate
    cases hstate
    exact ⟨rfl, rfl⟩

theorem Vault.Sealed.contents (hx : x.Lawful) {items : List Item} (h : v.Sealed x key items) :
    v.Contents x key items := by
  obtain ⟨plain, encoded, sealed⟩ := h.sealed
  exact ⟨plain, open_of_seal hx.ciphers sealed, decodeItems_encodeItems hx.items encoded⟩

theorem Vault.Sealed.contents_unique (hx : x.Lawful) (hk : x.toCiphers.KeyBound) {key' : Key}
    {items items' : List Item} (h : v.Sealed x key items) (h' : v.Contents x key' items') :
    key' = key ∧ items' = items := by
  obtain ⟨plain, encoded, sealed⟩ := h.sealed
  obtain ⟨plain', opened', decoded'⟩ := h'
  have hkey := key_of_open hk sealed opened'
  subst hkey
  rw [open_of_seal hx.ciphers sealed] at opened'
  cases opened'
  rw [decodeItems_encodeItems hx.items encoded] at decoded'
  cases decoded'
  exact ⟨rfl, rfl⟩

/-- **One small step keeps memory and file in agreement.** -/
theorem Micro.coherent (hx : x.Lawful) (hk : x.toCiphers.KeyBound) (step : Micro x w w')
    (h : Coherent x w) : Coherent x w' := by
  obtain ⟨key, items, sealed, agrees⟩ := h.contents
  cases step with
  | lock =>
    exact ⟨⟨h.writable.checked, h.writable.limit⟩, h.live, h.holds, h.header, h.fits, key, items,
      ⟨sealed.sealed, sealed.ids⟩, fun k its hs => by cases hs⟩
  | flags indexAttributes indexWarning pinned =>
    exact ⟨⟨h.writable.checked, h.writable.limit⟩, h.live, h.holds, h.header, h.fits, key, items,
      ⟨sealed.sealed, sealed.ids⟩, agrees⟩
  | decrypt contents =>
    obtain ⟨rfl, rfl⟩ := sealed.contents_unique hx hk contents
    refine ⟨⟨h.writable.checked, h.writable.limit⟩, h.live, h.holds, h.header, h.fits, _, _,
      ⟨sealed.sealed, sealed.ids⟩, ?_⟩
    intro k its hs
    cases hs
    exact ⟨rfl, rfl⟩
  | save edit saved holds => exact saved.coherent (edit.writable h.writable) holds

theorem Coherent.opened (hx : x.Lawful) (h : Coherent x w) (ok : Vault.open x path w.file = .ok v) :
    Coherent x ⟨v, w.file⟩ := by
  obtain ⟨bytes, vf, hfile, -, hdecode, rfl⟩ := open_ok_iff.mp ok
  have hbytes : bytes = w.vault.aad ++ w.vault.ciphertext := by
    have hholds : w.file = _ := h.holds
    rw [hfile] at hholds
    exact Option.some.inj hholds
  subst hbytes
  rw [decode_written hx.header h.header h.writable.checked] at hdecode
  cases hdecode
  obtain ⟨key, items, sealed, -⟩ := h.contents
  exact ⟨⟨h.writable.checked, rfl⟩, rfl, h.holds, h.header, h.fits, key, items,
    ⟨sealed.sealed, sealed.ids⟩, fun k its hs => by cases hs⟩

theorem Reached.coherent (hx : x.Lawful) (hk : x.toCiphers.KeyBound) (h : Reached x w) :
    Coherent x w := by
  induction h with
  | created ok =>
    obtain ⟨v₀, key, writable, -, -, -, saved, holds⟩ := create_ok ok
    exact saved.coherent writable holds
  | opened _ ok ih => exact ih.opened hx ok
  | step _ ok ih => exact Micros.invariant (fun step hw => step.coherent hx hk hw) (apply_micros ok) ih

/-- **Vault and disk agree after every call of every history**, whatever failed on the way: the
header bytes in memory are the file's and decode to the header, the file is those bytes and the
ciphertext, and an unlocked vault's index and sealed text are those of its items. Locking and
unlocking with the held key gives the same items back. -/
theorem reached_vault_matches_file (hx : x.Lawful) (hk : x.toCiphers.KeyBound) (h : Reached x w) :
    w.file = some (w.vault.aad ++ w.vault.ciphertext) ∧ decodeHeader x w.vault.aad = .ok w.vault.header ∧
      VaultFile.decode x (w.vault.aad ++ w.vault.ciphertext) =
        .ok { header := w.vault.header, aad := w.vault.aad, ciphertext := w.vault.ciphertext } ∧
      ∀ key items, w.vault.state = .unlocked key items → w.vault.itemIds = items.map (·.id) ∧
        (∃ plain, encodeItems x items = .ok plain ∧
          Crypto.open x.toCiphers key w.vault.header.nonce w.vault.aad w.vault.ciphertext = .ok plain) ∧
        ∀ env, ∃ w', World.unlockWithKey x env key { w with vault := w.vault.lock } = (.ok (), w') ∧
          w'.vault.state = .unlocked key items := by
  have coherent := h.coherent hx hk
  have hdecode : decodeHeaderPrefix x w.vault.aad = .ok (w.vault.header, w.vault.aad.length) := by
    have hprefix := decodeHeaderPrefix_headerBytes hx.header coherent.header
      coherent.writable.checked []
    rwa [List.append_nil] at hprefix
  refine ⟨coherent.holds, ?_, decode_written hx.header coherent.header coherent.writable.checked _, ?_⟩
  · simp only [decodeHeader, hdecode]
  · intro key items state
    obtain ⟨key', items', sealed, agrees⟩ := coherent.contents
    obtain ⟨rfl, rfl⟩ := agrees key items state
    obtain ⟨plain, encoded, hseal⟩ := sealed.sealed
    refine ⟨sealed.ids, ⟨plain, encoded, open_of_seal hx.ciphers hseal⟩, ?_⟩
    intro env
    exact unlockWithKey_of_contents env coherent.live rfl (sealed.contents hx)

/-- The assumptions hold of the reference instance: a vault created with it agrees with its file
after any two calls. -/
theorem reached_vault_matches_file_created :
    ∃ v after, Reference.created = (.ok v, after) ∧ ∀ op op' : VaultOp,
        let w := (op'.apply Reference.externals (op.apply Reference.externals ⟨v, after⟩).2).2
        w.file = some (w.vault.aad ++ w.vault.ciphertext) ∧
          decodeHeader Reference.externals w.vault.aad = .ok w.vault.header := by
  have hok : Reference.created.1.isOk = true := by decide +kernel
  rcases hcreated : Reference.created with ⟨r, after⟩
  rw [hcreated] at hok
  cases r with
  | error e => cases hok
  | ok v =>
    refine ⟨v, after, rfl, ?_⟩
    intro op op'
    have hreached : Reached Reference.externals
        (op'.apply Reference.externals (op.apply Reference.externals ⟨v, after⟩).2).2 :=
      .step (.step (.created hcreated) rfl) rfl
    have agree := reached_vault_matches_file Reference.externals_lawful Reference.ciphers_keyBound
      hreached
    exact ⟨agree.1, agree.2.1⟩

end SecretManager
