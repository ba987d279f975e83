import SecretManager.Laws.Vault.Store
import SecretManager.Vault.Reference

/-!
# A refused call changes nothing

Whatever the vault holds, coherent or not, a call that returns an error leaves the header, the held
bytes, the items, the key, the lock state and the file as they were. For the item mutators and the
label this is part of their specs. A key change needs one more word: started on a locked vault it
unlocks first, and that unlock may rewrite a stale index, which is a successful save of its own.
-/

namespace SecretManager

variable {x : Externals}
variable {e : VaultError} {w w' : World}

/-- What a caller can tell apart of two worlds of one vault: everything but the flags. -/
structure World.SameContent (w w' : World) : Prop where
  header : w'.vault.header = w.vault.header
  aad : w'.vault.aad = w.vault.aad
  ciphertext : w'.vault.ciphertext = w.vault.ciphertext
  state : w'.vault.state = w.vault.state
  file : w'.file = w.file

theorem World.SameContent.refl (w : World) : w.SameContent w := ⟨rfl, rfl, rfl, rfl, rfl⟩

/-- The header index of a vault already has the shape that the policy asks for, given the items this
key opens the vault to. -/
def Vault.IndexSettled (x : Externals) (v : Vault) (key : Key) : Prop :=
  ∀ items, v.Contents x key items →
    v.indexHasAttributes = ({ v with state := .unlocked key items } : Vault).wantsAttributes

/-- A key change runs on an unlocked vault or on one whose index is settled; other calls are
free. -/
def VaultOp.Settled (x : Externals) (w : World) : VaultOp → Prop
  | .changeKey _ _ _ oldKey _ _ _ => w.vault.isLocked = false ∨ w.vault.IndexSettled x oldKey
  | _ => True

theorem Mutates.error_eq {α : Type} (h : Mutates x w (.error e : Except VaultError α) w') :
    w' = w := by
  cases h
  rfl

/-- **Every refused call leaves the vault and its file exactly as they were**, from any world and at
whatever stage it was refused. -/
theorem refused_call_keeps_world {op : VaultOp} (settled : op.Settled x w)
    (h : op.apply x w = (.error e, w')) :
    w'.vault.header = w.vault.header ∧ w'.vault.aad = w.vault.aad ∧
      w'.vault.ciphertext = w.vault.ciphertext ∧ w'.vault.state = w.vault.state ∧
      w'.file = w.file := by
  have same : w.SameContent w' := by
    cases apply_effect h with
    | mutated m =>
      obtain rfl : w' = w := m.error_eq
      exact .refl _
    | @rotated _ _ _ oldKey _ _ _ _ items _ w₁ w₂ locked contents settles m rekeyed =>
      -- the unlock found the index settled, so nothing was saved, and the closing lock undoes it
      obtain rfl : w₂ = w₁ := m.error_eq
      have same : w.vault.indexHasAttributes = (w.opened oldKey items).vault.wantsAttributes := by
        rcases settled with unlocked | settled
        · rw [isLocked_iff.mpr locked] at unlocked
          cases unlocked
        · exact settled items contents
      cases settles with
      | matching => exact ⟨rfl, rfl, rfl, locked.symm, rfl⟩
      | rewritten differs | stale warning differs => exact absurd same differs
  exact ⟨same.header, same.aad, same.ciphertext, same.state, same.file⟩

/-- A deletion of the first and the last of three items, refused at the rename: both are back in
their places. -/
theorem refused_call_keeps_world_at_rename : ∃ e w', Reference.deletion = (.error e, w') ∧
      e.message = "/vaults/login.vault: no space left" ∧
      w'.vault.state = .unlocked ⟨Vector.replicate keyLen 3⟩
        [Reference.itemNamed "a", Reference.itemNamed "b", Reference.itemNamed "c"] ∧
      w'.file = none := by
  have hrefused : (match Reference.deletion.1 with
      | .error e => e.message
      | .ok _ => "") = "/vaults/login.vault: no space left" := by decide +kernel
  rcases hdeletion : Reference.deletion with ⟨r, w'⟩
  rw [hdeletion] at hrefused
  cases r with
  | ok u => simp at hrefused
  | error e =>
    have settled : VaultOp.Settled Reference.externals Reference.threeItems
        (.deleteItems Reference.renameFails ["c", "a", "c"]) := trivial
    have kept := refused_call_keeps_world settled hdeletion
    exact ⟨e, w', rfl, hrefused, kept.2.2.2.1, kept.2.2.2.2⟩

end SecretManager
