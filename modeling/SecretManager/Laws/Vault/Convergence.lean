import SecretManager.Laws.Vault.IndexWarning
import SecretManager.Laws.Vault.Rotation

/-!
# The index converges to the policy

A vault file may have been written under either indexing policy. An unlock under the current one
asks only whether the index has hashes and whether the policy would give it some, and rewrites it
where the answers differ. For an index that a save built that is enough: **after one unlock whose
rewrite did not fail the index is the one the policy builds**, and the next unlock finds nothing to
do.

A forged index, with a hash of something else in the place of the right one, passes the same test
and is kept; the histories here are those in which only this code writes the file.
-/

namespace SecretManager

open Reference

variable {x : Externals}

/-! ## Every file this code wrote has a built index -/

variable {w : World}

theorem Indexed.opened (hx : x.Lawful) (h : Indexed x w) {path : VaultPath} {v : Vault}
    (ok : Vault.open x path w.file = .ok v) : Indexed x ⟨v, w.file⟩ := by
  have readable : Readable x ⟨v, w.file⟩ := (Live.opened ok).readable hx
  cases h.readable.open_eq ok
  exact ⟨readable, h.built⟩

theorem Reached.indexed (hx : x.Lawful) (hk : x.toCiphers.KeyBound) (h : Reached x w) :
    Indexed x w := by
  induction h with
  | created ok =>
    obtain ⟨v₀, key, writable, -, -, -, saved, holds⟩ := create_ok ok
    exact saved.indexed hx hk writable holds
  | opened _ ok ih => exact ih.opened hx ok
  | step _ ok ih =>
    exact Micros.invariant (fun step hw => step.indexed hx hk hw) (apply_micros ok) ih

theorem Reached.apply (h : Reached x w) (op : VaultOp) : Reached x (op.apply x w).2 := .step h rfl

/-! ## One unlock -/

/-- The unlock finds the index at odds with the policy, and the save that would rewrite it fails. -/
def World.RewriteFails (x : Externals) (env : SaveEnv) (key : Key) (items : List Item) (w : World) :
    Prop :=
  (w.opened key items).vault.indexHasAttributes ≠ (w.opened key items).vault.wantsAttributes ∧
    (World.save x env (w.opened key items)).1 ≠ .ok ()

variable {items : List Item} {key : Key}

/-- **How an unlock of a locked vault ends**, told by its rewrite. -/
theorem unlockWithKey_rewrite (env : SaveEnv) (live : w.vault.retired = false)
    (state : w.vault.state = .locked) (contents : w.vault.Contents x key items) :
    ∃ w', w.unlockWithKey x env key = (.ok (), w') ∧ Settles x (w.opened key items) w' ∧
      (w.RewriteFails x env key items → w'.vault.header = w.vault.header ∧ w'.file = w.file) ∧
      (¬w.RewriteFails x env key items → w'.vault.indexWarning = none) := by
  rw [unlockWithKey_eq env live state contents]
  split
  next hdiff =>
    have differs := bne_iff_ne.mp hdiff
    split
    next w₁ hsave =>
      rcases save_cases hsave with ⟨e, he, -⟩ | ⟨-, saved, holds⟩
      · cases he
      · refine ⟨_, rfl, .rewritten differs saved holds, ?_, fun _ => rfl⟩
        intro fails
        exact absurd (congrArg Prod.fst hsave) fails.2
    next e w₁ hsave =>
      rcases save_cases hsave with ⟨e', -, rfl⟩ | ⟨he, -⟩
      · refine ⟨_, rfl, .stale _ differs, fun _ => ⟨rfl, rfl⟩, ?_⟩
        intro fine
        refine absurd ⟨differs, ?_⟩ fine
        rw [hsave]
        nofun
      · cases he
  next hsame =>
    have same := not_not.mp (mt bne_iff_ne.mpr hsame)
    refine ⟨_, rfl, .matching same, ?_, fun _ => rfl⟩
    intro fails
    exact absurd same fails.1

theorem Settles.converged {w' : World} (built : w.IndexBuilt x)
    (contents : w.vault.Contents x key items) (settles : Settles x (w.opened key items) w')
    (quiet : w'.vault.indexWarning = none) :
    w'.vault.header.index = buildIndex x w'.vault.header.indexSalt items w.vault.indexAttributes := by
  have truth := settles.truthful built contents settles.state_eq
  have policy : w'.vault.indexAttributes = w.vault.indexAttributes := settles.policy_eq
  rw [quiet, policy] at truth
  by_contra differs
  exact absurd (truth.mpr differs) (by simp)

/-- **A converged vault is left alone**: it is locked and unlocked with nothing written, whatever a
save would be answered. -/
theorem unlockWithKey_converged (env : SaveEnv) (live : w.vault.retired = false)
    (state : w.vault.state = .unlocked key items) (contents : w.vault.Contents x key items)
    (quiet : w.vault.indexWarning = none)
    (index : w.vault.header.index = buildIndex x w.vault.header.indexSalt items
      w.vault.indexAttributes) : World.unlockWithKey x env key { w with vault := w.vault.lock } =
      (.ok (), { w with vault := { w.vault with pinned := false } }) := by
  have same := (hasAttributes_eq_wants_iff state ⟨_, index⟩).mpr index
  let locked : World := { w with vault := w.vault.lock }
  have held : locked.vault.Contents x key items := contents
  have settled : ¬(((locked.opened key items).vault.indexHasAttributes !=
      (locked.opened key items).vault.wantsAttributes) = true) := by
    rw [bne_iff_ne, not_not]
    unfold Vault.wantsAttributes Vault.items at same
    rw [state] at same
    exact same
  rw [unlockWithKey_eq env (w := locked) live rfl held, if_neg settled]
  -- the vault is the one it was, but for the pin that the lock took off
  obtain ⟨⟨path, header, aad, ciphertext, st, policy, warning, limit, retired, pinned⟩, file⟩ := w
  cases state
  cases quiet
  rfl

/-- **Index policy convergence.** For every vault of every history of this code, locked, under
whatever policy it then has: an unlock succeeds with the items the file holds, however its rewrite
ends; if the rewrite does not fail, the index is the one `build_index` makes of the items under the
policy, and a lock and an unlock right after it write nothing; if it does, header and file are as
they were. -/
theorem index_policy_converges (hx : x.Lawful) (hk : x.toCiphers.KeyBound) (reached : Reached x w)
    (state : w.vault.state = .locked) (contents : w.vault.Contents x key items) (env : SaveEnv) :
    ∃ w', w.unlockWithKey x env key = (.ok (), w') ∧ w'.vault.items = .ok items ∧ (¬w.RewriteFails x env key items →
        w'.vault.header.index = buildIndex x w'.vault.header.indexSalt items w.vault.indexAttributes ∧
        ∀ env', World.unlockWithKey x env' key { w' with vault := w'.vault.lock } =
          (.ok (), { w' with vault := { w'.vault with pinned := false } })) ∧
      (w.RewriteFails x env key items → w'.vault.header = w.vault.header ∧ w'.file = w.file) := by
  have live : w.vault.retired = false := (reached.coherent hx hk).live
  have indexed := reached.indexed hx hk
  obtain ⟨w', ok, settles, failed, fine⟩ := unlockWithKey_rewrite env live state contents
  refine ⟨w', ok, Vault.items_of_state settles.state_eq, ?_, failed⟩
  intro succeeded
  have index := settles.converged indexed.built contents (fine succeeded)
  refine ⟨index, fun env' => ?_⟩
  have policy : w'.vault.indexAttributes = w.vault.indexAttributes := settles.policy_eq
  rw [← policy] at index
  exact unlockWithKey_converged env' (settles.retired_eq.trans live) settles.state_eq
    (settles.contents hx contents) (fine succeeded) index

namespace Reference

/-- An item with an attribute is written while hashes are wanted; then the policy is turned off and
the vault locked. -/
def hashedThenOff : Option World :=
  (hashedVault true).map fun w =>
    let written := ((VaultOp.insertItem saveEnv 1 "a" "mail" ((∅ : Attributes).insert "app" "mail") [1]
      "text/plain" false).apply hashing w).2
    (VaultOp.lock.apply hashing ((VaultOp.setIndexAttributes false).apply hashing written).2).2

theorem hashedThenOff_reached (h : hashedThenOff = some w) : Reached hashing w := by
  obtain ⟨w₀, start, rfl⟩ := Option.map_eq_some_iff.mp h
  unfold hashedVault at start
  split at start
  next v file ok =>
    cases start
    have begun : Reached hashing ⟨v.setIndexAttributes true, file⟩ :=
      (Reached.created ok).apply (.setIndexAttributes true)
    exact ((begun.apply _).apply (.setIndexAttributes false)).apply .lock
  · cases start

/-- The items that the login key opens a vault to. -/
def loginItems (v : Vault) : Option (List Item) :=
  match Crypto.open hashing.toCiphers loginKey v.header.nonce v.aad v.ciphertext with
  | .ok plain => (decodeItems hashing plain).toOption
  | .error _ => none

theorem loginItems_contents {v : Vault} (h : loginItems v = some items) :
    v.Contents hashing loginKey items := by
  unfold loginItems at h
  split at h
  next plain opened =>
    cases decoded : decodeItems hashing plain with
    | error e =>
      rw [decoded] at h
      cases h
    | ok its =>
      rw [decoded] at h
      cases h
      exact ⟨plain, opened, decoded⟩
  · cases h

end Reference

/-- The index has hashes that the policy no longer wants, and the unlock takes them out. -/
theorem index_policy_converges_off : ∃ w : World, Reached hashing w ∧ w.vault.state = .locked ∧
      w.vault.indexAttributes = false ∧ w.vault.indexHasAttributes = true ∧
      ∃ items w', w.unlockWithKey hashing saveEnv loginKey = (.ok (), w') ∧
        w'.vault.header.index = buildIndex hashing w'.vault.header.indexSalt items false := by
  have facts : (hashedThenOff.any fun w =>
      decide (w.vault.state = .locked) && decide (w.vault.indexAttributes = false) &&
        w.vault.indexHasAttributes && (loginItems w.vault).any fun items =>
          decide ((World.save hashing saveEnv
            (w.opened loginKey items)).1 = .ok ())) = true := by
    decide +kernel
  obtain ⟨w, made, test⟩ := (Option.any_eq_true _ _).mp facts
  simp only [Bool.and_eq_true, decide_eq_true_eq] at test
  obtain ⟨⟨⟨locked, off⟩, hashes⟩, saves⟩ := test
  obtain ⟨items, shown, saved⟩ := (Option.any_eq_true _ _).mp saves
  have reached := hashedThenOff_reached made
  obtain ⟨w', ok, -, converges, -⟩ := index_policy_converges hashing_lawful
    ciphers_keyBound reached locked (loginItems_contents shown)
    saveEnv
  have index := (converges fun fails => fails.2 (of_decide_eq_true saved)).1
  rw [off] at index
  exact ⟨w, reached, locked, off, hashes, items, w', ok, index⟩

end SecretManager
