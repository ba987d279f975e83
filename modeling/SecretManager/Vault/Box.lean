import SecretManager.Vault.Session

/-!
# What a vault is for

Items behind a key, under a label. `Box.step` says of each call when it can succeed and what it does
then, in terms of the box alone: there is no file here, no header, no index, no cipher and nothing
to roll back.
-/

namespace SecretManager

structure Box where
  key : Key
  label : String
  items : List Item
  isOpen : Bool

/-- The first item that `p` picks is changed by `f`. -/
def changeFirst (p : Item → Bool) (f : Item → Item) (items : List Item) : List Item :=
  items.modify (items.findIdx p) f

/-- The box after a call that succeeds, if the call can. -/
def Box.step (b : Box) : VaultOp → Option Box
  | .insertItem _ now uuid label attributes secret contentType replace =>
    if b.isOpen then
      some { b with items :=
        if replace && b.items.any (·.attributes = attributes) then
          changeFirst (·.attributes = attributes) (fun i => { i with label, secret, contentType, modified := now }) b.items
        else
          b.items ++ [{ id := uuid, label, attributes, secret, contentType, created := now, modified := now }] }
    else none
  | .updateItem _ now id f =>
    if b.isOpen && b.items.any (·.id = id) then
      some { b with items := changeFirst (·.id = id) (fun i => { f i with modified := now }) b.items }
    else none
  | .deleteItem _ id =>
    if b.isOpen && b.items.any (·.id = id) then some { b with items := b.items.eraseP (·.id = id) } else none
  | .deleteItems _ ids =>
    if ids.isEmpty then some b
    else if b.isOpen && ids.all fun id => b.items.any (·.id = id) then
      some { b with items := b.items.filter fun i => !ids.contains i.id }
    else none
  | .importItems _ uuid batch =>
    if batch.isEmpty then some b
    else if b.isOpen then
      some { b with items := b.items ++ batch.mapIdx fun i item => World.ofImport (uuid i) item }
    else none
  | .setLabel _ label => if b.isOpen then some { b with label } else none
  | .changeKey _ _ _ oldKey _ _ newKey => if oldKey = b.key then some { b with key := newKey } else none
  | .lock => some { b with isOpen := false }
  | .unlockWithKey _ key => if key = b.key then some { b with isOpen := true } else none
  | .setIndexAttributes _ | .setPinned _ => some b

/-- One call on a vault, with whether it succeeded. -/
def World.call (x : Externals) (w : World) (op : VaultOp) : Bool × World :=
  ((op.apply x w).1.isOk, (op.apply x w).2)

end SecretManager
