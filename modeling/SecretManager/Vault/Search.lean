import SecretManager.Vault.Store
import SecretManager.Lib.Bisect

/-!
# Searching a vault

A locked vault is searched through the hashes of its header index (`Vault::search_ids`,
`IndexEntry::matches_hashes`, `hash_query`), an unlocked one through its items (`Vault::search`).
-/

namespace SecretManager

/-- The bytes `attribute_hash` feeds to the digest. -/
def attributeBytes (salt : Salt) (key value : String) : Bytes :=
  salt.toList ++ Wire.le32 key.utf8ByteSize ++ utf8 key ++ utf8 value

/-- `hash_query`: the digests a query looks for. -/
def hashQuery (x : Externals) (salt : Salt) (query : Attributes) : List Digest :=
  query.toList.map fun kv => attributeHash x salt kv.1 kv.2

/-- `Ord` of two byte arrays: the first byte that differs decides. -/
def compareDigests (a b : Digest) : Ordering := compareOfLessAndEq a.toList b.toList

/-- `IndexEntry::matches_hashes`: every digest looked for is in the entry. -/
def IndexEntry.matchesHashes (e : IndexEntry) (queryHashes : List Digest) : Bool :=
  -- an empty query matches every entry, one with ids only included
  if queryHashes.isEmpty then true
  else if e.attrHashes.isEmpty then false
  else queryHashes.all fun h => Bisect.found (fun d => compareDigests d h) e.attrHashes

namespace Vault

def hasItem (v : Vault) (id : String) : Bool := v.header.index.any fun e => decide (e.id = id)

/-- `search_ids`: works while locked. The query is hashed once, and not at all when the index has
ids only. -/
def searchIds (x : Externals) (v : Vault) (query : Attributes) : List String :=
  if !query.isEmpty && !v.indexHasAttributes then []
  else
    let queryHashes := hashQuery x v.header.indexSalt query
    (v.header.index.filter fun e => e.matchesHashes queryHashes).map (·.id)

/-- `search`: the items that carry every pair of the query. -/
def search (v : Vault) (query : Attributes) : Except VaultError (List Item) :=
  match v.items with
  | .error e => .error e
  | .ok items =>
    .ok (items.filter fun i => query.toList.all fun kv => i.attributes[kv.1]? == some kv.2)

end Vault

/-- `search_collection`: through the items of an unlocked vault, else through the index. -/
def searchCollection (x : Externals) (v : Vault) (query : Attributes) : List String :=
  match v.search query with
  | .ok items => items.map (·.id)
  | .error _ => v.searchIds x query

end SecretManager
