import SecretManager.Control.Protocol
import SecretManager.Vault.Reference

/-!
# The control messages in postcard

The instance of `Codecs` for runs: a variant is its index in declaration order followed by its
fields, an optional value is a flag and the value.
-/

namespace SecretManager.Reference

open Control

def key : Codec Key := (Codec.byte.array keyLen).via Key.bytes (fun b => some ⟨b⟩) fun _ => rfl

/-- The fields of each `Request` variant, in wire order. -/
def RequestFields : Fin 5 → Type
  | 0 => Option String
  | 1 => Unit
  | 2 => Unit
  | 3 => String × Key × Bool
  | 4 => String × Key × Salt × KdfParams × Key

def requestFields : ∀ i, Codec (RequestFields i)
  | 0 => Codec.string.option
  | 1 => Codec.unit
  | 2 => Codec.unit
  | 3 => Codec.string.pair (key.pair Codec.bool)
  | 4 => Codec.string.pair (key.pair ((Codec.byte.array saltLen).pair (kdfParams.pair key)))

def request : Codec Request :=
  ((Codec.fin 5).sigma requestFields).via
    (fun
      | .lock collection => ⟨0, collection⟩
      | .status => ⟨1, ()⟩
      | .reload => ⟨2, ()⟩
      | .unlockWithKey collection key pin => ⟨3, (collection, key, pin)⟩
      | .changeKey collection oldKey newSalt newKdf newKey =>
        ⟨4, (collection, oldKey, newSalt, newKdf, newKey)⟩)
    (fun
      | ⟨0, collection⟩ => some (.lock collection)
      | ⟨1, _⟩ => some .status
      | ⟨2, _⟩ => some .reload
      | ⟨3, (collection, key, pin)⟩ => some (.unlockWithKey collection key pin)
      | ⟨4, (collection, oldKey, newSalt, newKdf, newKey)⟩ =>
        some (.changeKey collection oldKey newSalt newKdf newKey))
    fun m => by cases m with
      | lock | status | reload | unlockWithKey | changeKey => rfl

def collectionStatus : Codec CollectionStatus :=
  (Codec.string.pair <| Codec.string.pair <| Codec.bool.pair <| Codec.nat.pair Codec.string.option).via
    (fun s => (s.id, s.label, s.locked, s.items, s.warning))
    (fun (id, label, locked, items, warning) => some ⟨id, label, locked, items, warning⟩)
    fun _ => rfl

/-- The fields of each `Response` variant, in wire order. -/
def ResponseFields : Fin 3 → Type
  | 0 => Unit
  | 1 => List CollectionStatus × UInt64 × Option String
  | 2 => String

def responseFields : ∀ i, Codec (ResponseFields i)
  | 0 => Codec.unit
  | 1 => collectionStatus.list.pair (Codec.uint64.pair Codec.string.option)
  | 2 => Codec.string

def response : Codec Response :=
  ((Codec.fin 3).sigma responseFields).via
    (fun
      | .ok => ⟨0, ()⟩
      | .status collections uptimeSecs aliasesError => ⟨1, (collections, uptimeSecs, aliasesError)⟩
      | .error reason => ⟨2, reason⟩)
    (fun
      | ⟨0, _⟩ => some .ok
      | ⟨1, (collections, uptimeSecs, aliasesError)⟩ =>
        some (.status collections uptimeSecs aliasesError)
      | ⟨2, reason⟩ => some (.error reason))
    fun m => by cases m with
      | ok | status | error => rfl

def codecs : Codecs where
  request := postcard request
  response := postcard response

theorem codecs_lawful : codecs.Lawful := ⟨postcard_lawful request, postcard_lawful response⟩

end SecretManager.Reference
