import SecretManager.Laws.Vault.Coherence

/-!
# What no call on a vault changes

A vault keeps its path and its retirement through every call, and the file at its path is either
left alone or replaced by the vault's own, non-empty bytes; a retired vault never replaces it. A
creation touches a path only when nothing, or nothing but an empty file, stands there.
-/

namespace SecretManager

variable {x : Externals}

/-! ## Calls on a vault -/

theorem headerBytes_ne_nil {h : Header} {aad : Bytes} (ok : VaultFile.headerBytes x h = .ok aad)
    (rest : Bytes) : ∃ b bs, aad ++ rest = b :: bs := by
  obtain ⟨body, -, -, rfl⟩ := headerBytes_ok ok
  exact ⟨83, _, rfl⟩

/-- What one vault became of another by a call. -/
structure World.Follows (w w' : World) : Prop where
  path : w'.vault.path = w.vault.path
  retired : w'.vault.retired = w.vault.retired
  file : w'.file = w.file ∨ (w.vault.retired = false ∧ ∃ b bs, w'.file = some (b :: bs))

theorem World.Follows.refl (w : World) : w.Follows w := ⟨rfl, rfl, .inl rfl⟩

theorem World.Follows.trans {w₁ w₂ w₃ : World} (h : w₁.Follows w₂) (h' : w₂.Follows w₃) :
    w₁.Follows w₃ := by
  refine ⟨h'.path.trans h.path, h'.retired.trans h.retired, ?_⟩
  rcases h'.file with hsame | ⟨live, hnew⟩
  · rw [hsame]
    exact h.file
  · exact .inr ⟨h.retired.symm.trans live, hnew⟩

variable {v : Vault}

theorem Edit.path_retired {v' : Vault} (edit : Edit v v') :
    v'.path = v.path ∧ v'.retired = v.retired := by
  cases edit with
  | items items' state | label label state | rekey newKey salt indexSalt state valid =>
    exact ⟨rfl, rfl⟩

variable {w : World}

theorem Saved.leaves (saved : Saved x v w.vault) (holds : w.FileHolds) :
    w.vault.path = v.path ∧ w.vault.retired = v.retired ∧ v.retired = false ∧ ∃ b bs, w.file = some (b :: bs) := by
  obtain ⟨v', file⟩ := w
  cases saved with
  | mk live state header encoded sealed fits =>
    obtain ⟨b, bs, hbytes⟩ := headerBytes_ne_nil header _
    exact ⟨rfl, rfl, live, b, bs, holds.trans (congrArg some hbytes)⟩

theorem Micro.follows {w' : World} (step : Micro x w w') : w.Follows w' := by
  cases step with
  | lock | flags indexAttributes indexWarning pinned | decrypt contents =>
    exact ⟨rfl, rfl, .inl rfl⟩
  | save edit saved holds =>
    obtain ⟨hpath, hretired⟩ := edit.path_retired
    obtain ⟨hpath', hretired', live, bytes⟩ := saved.leaves holds
    exact ⟨hpath'.trans hpath, hretired'.trans hretired, .inr ⟨hretired.symm.trans live, bytes⟩⟩

/-- **No call changes which file a vault stands for**, nor revives a retired vault. -/
theorem apply_follows {op : VaultOp} {w' : World} {r : Except VaultError Unit}
    (h : op.apply x w = (r, w')) : w.Follows w' :=
  Micros.invariant (P := w.Follows) (fun step hw => hw.trans step.follows) (apply_micros h) (.refl w)

/-! ## Creations and removals -/

theorem removeFile_cases (fault : Option IoError) (file : Option Bytes) :
    (∃ e, (fault = none → file = none) ∧ removeFile fault file = (.error e, file)) ∨
      ∃ bytes, fault = none ∧ file = some bytes ∧ removeFile fault file = (.ok (), none) := by
  unfold removeFile
  split
  · exact .inl ⟨_, nofun, rfl⟩
  · exact .inl ⟨_, fun _ => rfl, rfl⟩
  · exact .inr ⟨_, rfl, rfl, rfl⟩

variable {path : VaultPath}

theorem create_identity {env : CreateEnv} {label : String} {password : Bytes} {kdf : KdfParams}
    {before after : Option Bytes}
    (h : Vault.create x env path label password kdf before = (.ok v, after)) :
    v.path = path ∧ v.retired = false ∧ ∃ b bs, after = some (b :: bs) := by
  obtain ⟨v₀, key, -, hpath, -, -, saved, holds⟩ := create_ok h
  obtain ⟨hpath', hretired, live, bytes⟩ := Saved.leaves (w := ⟨v, after⟩) saved holds
  exact ⟨hpath'.trans hpath, hretired.trans live, bytes⟩

section

variable (b : UInt8) (bs : Bytes)

theorem createNew_occupied (fault : Option IoError) :
    ∃ e, createNew fault (some (b :: bs)) = (.error e, some (b :: bs)) := by
  cases fault with
  | none => exact ⟨_, rfl⟩
  | some e => exact ⟨e, rfl⟩

theorem renameNoreplace_occupied (fault : Option IoError) (bytes : Bytes) :
    ∃ e, renameNoreplace fault bytes (some (b :: bs)) = (.error e, some (b :: bs)) := by
  cases fault with
  | none => exact ⟨_, rfl⟩
  | some e => exact ⟨e, rfl⟩

theorem publishNewViaReservation_occupied (env : PublishEnv) (path : VaultPath) (bytes : Bytes) :
    ∃ e, publishNewViaReservation env path bytes (some (b :: bs)) = (.error e, some (b :: bs)) := by
  obtain ⟨e, he⟩ := createNew_occupied b bs env.reserve
  unfold publishNewViaReservation
  simp only [he]
  split
  · exact ⟨_, rfl⟩
  · exact ⟨_, rfl⟩

theorem publishNew_occupied (env : PublishEnv) (path : VaultPath) (bytes : Bytes) :
    ∃ e, publishNew env path bytes (some (b :: bs)) = (.error e, some (b :: bs)) := by
  obtain ⟨e, he⟩ := renameNoreplace_occupied b bs env.rename bytes
  unfold publishNew
  split
  · exact ⟨_, rfl⟩
  · simp only [he]
    split
    · exact ⟨_, rfl⟩
    · split
      · exact publishNewViaReservation_occupied b bs env path bytes
      · exact ⟨_, rfl⟩

theorem saveWith_refused (env : SaveEnv) {publish : Publish}
    (refuses : ∀ bytes, ∃ e, publish bytes w.file = (.error e, w.file)) :
    ∃ e v, w.saveWith x env publish = (.error e, ⟨v, w.file⟩) := by
  unfold World.saveWith
  dsimp only
  split
  · exact ⟨_, _, rfl⟩
  split
  · exact ⟨_, _, rfl⟩
  split
  · exact ⟨_, _, rfl⟩
  split
  · exact ⟨_, _, rfl⟩
  split
  · exact ⟨_, _, rfl⟩
  split
  · exact ⟨_, _, rfl⟩
  split
  · exact ⟨_, _, rfl⟩
  split
  next e file hpublish =>
    obtain ⟨e', he'⟩ := refuses _
    rw [he'] at hpublish
    obtain ⟨-, rfl⟩ := Prod.mk.inj hpublish
    exact ⟨_, _, rfl⟩
  next file hpublish =>
    obtain ⟨e', he'⟩ := refuses _
    rw [he'] at hpublish
    cases (Prod.mk.inj hpublish).1

/-- **A creation never touches a collection that exists.** -/
theorem create_occupied (env : CreateEnv) (path : VaultPath) (label : String) (password : Bytes)
    (kdf : KdfParams) :
    ∃ e, Vault.create x env path label password kdf (some (b :: bs)) = (.error e, some (b :: bs)) := by
  unfold Vault.create
  split
  · exact ⟨_, rfl⟩
  split
  · exact ⟨_, rfl⟩
  next v _ =>
  obtain ⟨e, v', hsave⟩ := saveWith_refused (x := x) env.save
    (w := ⟨v, some (b :: bs)⟩) (publishNew_occupied b bs env.publish path)
  simp only [hsave]
  exact ⟨e, rfl⟩

end

section

variable {file file' : Option Bytes}

/-- There is no file, or one without a byte, as a reservation is. -/
def isVacant (file : Option Bytes) : Bool := file.all List.isEmpty

theorem createNew_vacant (fault : Option IoError) (vacant : isVacant file = true) :
    isVacant (createNew fault file).2 = true := by
  unfold createNew
  split
  · exact vacant
  · exact vacant
  · rfl

theorem removeFile_vacant (fault : Option IoError) (vacant : isVacant file = true) :
    isVacant (removeFile fault file).2 = true := by
  unfold removeFile
  split
  · exact vacant
  · exact vacant
  · rfl

variable {bytes : Bytes}

theorem renameNoreplace_vacant {fault : Option IoError} {e : IoError}
    (h : renameNoreplace fault bytes file = (.error e, file')) (vacant : isVacant file = true) :
    isVacant file' = true := by
  unfold renameNoreplace at h
  split at h
  · exact (Prod.mk.inj h).2 ▸ vacant
  · exact (Prod.mk.inj h).2 ▸ vacant
  · cases (Prod.mk.inj h).1

variable {e : VaultError} {env : PublishEnv}

theorem renameOverReservation_vacant
    (h : renameOverReservation env path bytes file = (.error e, file'))
    (vacant : isVacant file = true) : isVacant file' = true := by
  unfold renameOverReservation at h
  split at h
  · cases (Prod.mk.inj h).1
  · exact (Prod.mk.inj h).2 ▸ removeFile_vacant _ vacant

theorem publishNewViaReservation_vacant
    (h : publishNewViaReservation env path bytes file = (.error e, file'))
    (vacant : isVacant file = true) : isVacant file' = true := by
  unfold publishNewViaReservation at h
  have reserved := createNew_vacant env.reserve vacant
  split at h
  next file₁ hreserve =>
    rw [hreserve] at reserved
    exact renameOverReservation_vacant h reserved
  next e₁ file₁ hreserve =>
    rw [hreserve] at reserved
    split at h
    · split at h
      · have removed := removeFile_vacant env.removeReserved reserved
        split at h
        next file₂ hremove =>
          rw [hremove] at removed
          exact (Prod.mk.inj h).2 ▸ removed
        next file₂ hremove =>
          rw [hremove] at removed
          have again := createNew_vacant env.reserveAgain removed
          split at h
          next file₃ hagain =>
            rw [hagain] at again
            exact (Prod.mk.inj h).2 ▸ again
          next file₃ hagain =>
            rw [hagain] at again
            exact renameOverReservation_vacant h again
      · exact (Prod.mk.inj h).2 ▸ reserved
    · exact (Prod.mk.inj h).2 ▸ reserved

theorem publishNew_vacant (h : publishNew env path bytes file = (.error e, file'))
    (vacant : isVacant file = true) : isVacant file' = true := by
  unfold publishNew at h
  split at h
  · exact (Prod.mk.inj h).2 ▸ vacant
  split at h
  · cases (Prod.mk.inj h).1
  next e₁ file₁ hrename =>
    have kept := renameNoreplace_vacant hrename vacant
    split at h
    · split at h
      · have removed := removeFile_vacant env.removeEmpty kept
        split at h
        next file₂ hremove =>
          rw [hremove] at removed
          exact (Prod.mk.inj h).2 ▸ removed
        next file₂ hremove =>
          rw [hremove] at removed
          split at h
          · cases (Prod.mk.inj h).1
          next e₃ file₃ hagain =>
            have again := renameNoreplace_vacant hagain removed
            split at h
            · exact (Prod.mk.inj h).2 ▸ again
            · exact (Prod.mk.inj h).2 ▸ again
      · exact (Prod.mk.inj h).2 ▸ kept
    · split at h
      · exact publishNewViaReservation_vacant h kept
      · exact (Prod.mk.inj h).2 ▸ kept

/-- **A creation that fails makes no vault file.** -/
theorem create_vacant {env : CreateEnv} {label : String} {password : Bytes} {kdf : KdfParams}
    (h : Vault.create x env path label password kdf file = (.error e, file'))
    (vacant : isVacant file = true) : isVacant file' = true := by
  unfold Vault.create at h
  split at h
  · exact (Prod.mk.inj h).2 ▸ vacant
  split at h
  · exact (Prod.mk.inj h).2 ▸ vacant
  split at h
  next e₁ w hsave =>
    rw [← (Prod.mk.inj h).2]
    rcases saveWith_cases (publishNew_sound env.publish path) hsave with
      ⟨e', -, -, hsame | ⟨bytes, e'', hpublish⟩⟩ | ⟨hok, -⟩
    · exact hsame ▸ vacant
    · exact publishNew_vacant hpublish vacant
    · cases hok
  · cases (Prod.mk.inj h).1

end

end SecretManager
