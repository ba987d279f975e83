import SecretManager.Atomic

/-!
# Key derivation and authenticated encryption

`src/vault/crypto.rs`. Argon2 and XChaCha20-Poly1305 come from other crates, so they are fields of
`Ciphers`; what the vault relies on is `Ciphers.Lawful` and `Ciphers.KeyBound`. Randomness is never
drawn here: a caller passes what `try_random_bytes` answered.
-/

namespace SecretManager

def keyLen : Nat := 32
def saltLen : Nat := 16
def nonceLen : Nat := 24

abbrev Salt := Vector UInt8 saltLen
abbrev Nonce := Vector UInt8 nonceLen

structure Key where
  bytes : Vector UInt8 keyLen
  deriving DecidableEq

inductive CryptoError where
  | kdf (reason : String)
  | auth
  | unsafeKdf (reason : String)
  | rng (reason : String)
  deriving DecidableEq, Repr

def CryptoError.message : CryptoError → String
  | .kdf e => s!"key derivation failed: {e}"
  | .auth => "authentication failed"
  | .unsafeKdf e => s!"refusing unsafe KDF parameters: {e}"
  | .rng e => s!"system random number generator unavailable: {e}"

structure KdfParams where
  mCostKib : UInt32
  tCost : UInt32
  pCost : UInt32
  deriving DecidableEq, Repr

namespace KdfParams

def maxMCostKib : UInt32 := 256 * 1024
def maxTCost : UInt32 := 64
def maxPCost : UInt32 := 16

/-- Why a parameter set is refused, if it is: outside the ceilings, or below Argon2's own minimum
of 8 KiB for each lane. The product cannot wrap: it is reached only with `pCost ≤ 16`. -/
def unsafeReason (p : KdfParams) : Option String :=
  if p.pCost == 0 || p.pCost > maxPCost then
    some s!"p_cost {p.pCost} outside 1..={maxPCost}"
  else if p.tCost == 0 || p.tCost > maxTCost then
    some s!"t_cost {p.tCost} outside 1..={maxTCost}"
  else if p.mCostKib > maxMCostKib then
    some s!"m_cost_kib {p.mCostKib} exceeds {maxMCostKib}"
  else if p.mCostKib < 8 * p.pCost then
    some s!"m_cost_kib {p.mCostKib} below Argon2 minimum {8 * p.pCost}"
  else
    none

def validate (p : KdfParams) : Except CryptoError Unit :=
  match p.unsafeReason with
  | some r => .error (.unsafeKdf r)
  | none => .ok ()

/-- The parameters the repository's own tests derive with. -/
def fastForTests : KdfParams := { mCostKib := 8, tCost := 1, pCost := 1 }

end KdfParams

/-- `KDF_CONTEXT`: mixed into every derivation. -/
def kdfContext : Bytes := "secret-manager vault key v1\x00".toUTF8.data.toList

/-- The primitives of the `argon2` and `chacha20poly1305` crates. -/
structure Ciphers where
  /-- `Params::new`, then `hash_password_into`. -/
  argon2 : KdfParams → Bytes → Salt → Except String Key
  /-- `XChaCha20Poly1305::encrypt`: key, nonce, associated data, message. -/
  encrypt : Key → Nonce → Bytes → Bytes → Option Bytes
  /-- `XChaCha20Poly1305::decrypt`: key, nonce, associated data, ciphertext. -/
  decrypt : Key → Nonce → Bytes → Bytes → Option Bytes

/-- **Opening inverts sealing**: correctness of the cipher, pinned by `seal_open_round_trip`. -/
structure Ciphers.Lawful (c : Ciphers) : Prop where
  decrypt_encrypt : ∀ {k n a p ct}, c.encrypt k n a p = some ct → c.decrypt k n a ct = some p

/-- **A ciphertext opens under no key but the one it was sealed with**: authenticity of the cipher,
pinned by `tampered_ciphertext_aad_or_key_fails`. -/
structure Ciphers.KeyBound (c : Ciphers) : Prop where
  key_eq : ∀ {k k' n a p p' ct}, c.encrypt k n a p = some ct → c.decrypt k' n a ct = some p' → k' = k

def deriveKey (c : Ciphers) (password : Bytes) (salt : Salt) (params : KdfParams) :
    Except CryptoError Key :=
  match params.validate with
  | .error e => .error e
  | .ok () =>
    match c.argon2 params (kdfContext ++ password) salt with
    | .error e => .error (.kdf e)
    | .ok key => .ok key

def Crypto.seal (c : Ciphers) (key : Key) (nonce : Nonce) (aad plaintext : Bytes) :
    Except CryptoError Bytes :=
  match c.encrypt key nonce aad plaintext with
  | some ct => .ok ct
  | none => .error .auth

def Crypto.open (c : Ciphers) (key : Key) (nonce : Nonce) (aad ciphertext : Bytes) :
    Except CryptoError Bytes :=
  match c.decrypt key nonce aad ciphertext with
  | some plain => .ok plain
  | none => .error .auth

end SecretManager
