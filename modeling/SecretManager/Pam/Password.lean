import SecretManager.Pam.Vaults

/-!
# The password hook

`chauthtok_decision` of `src/pam/mod.rs`, with the options it parses, the budget it keeps to and the
`ChangeKey` requests it builds and sends. Time is a number that every operation moves on by as much
as the environment says for an operation of that kind, and what the hook starts at which time is
recorded, derivations and requests. A request is recorded with its timeout and with the time at
which the timeout was read off the budget, which may be an earlier one.

A hook that runs as root makes its requests in a child with the user's credentials; the child either
runs to the end and reports, or is killed or dies after some of them.
-/

namespace SecretManager.Pam

/-! ## Options -/

structure Options where
  collection : String
  autoStart : Bool
  socket : Option String
  vaultDir : Option String
  deriving DecidableEq

def splitOnce (arg : String) : Option (String × String) :=
  let cs := arg.toList
  if cs.contains '=' then
    some (String.ofList (cs.takeWhile (· != '=')), String.ofList ((cs.dropWhile (· != '=')).drop 1))
  else none

def parseBool (v : String) : Option Bool :=
  let v := String.ofList (v.toList.map Char.toLower)
  if ["no", "false", "0", "off"].contains v then some false
  else if ["yes", "true", "1", "on"].contains v then some true
  else none

/-- One turn of the loop of `parse_options`; an unusable value leaves the option alone. -/
def parseOption (opts : Options) (arg : String) : Options :=
  match splitOnce arg with
  | some ("collection", v) => if collectionIsValid v then { opts with collection := v } else opts
  | some ("auto_start", v) =>
    match parseBool v with
    | some b => { opts with autoStart := b }
    | none => opts
  | some ("socket", v) => { opts with socket := some v }
  | some ("vault_dir", v) =>
    if v.toList.head? = some '/' then { opts with vaultDir := some v } else opts
  | _ => opts

def parseOptions (args : List String) : Options :=
  args.foldl parseOption { collection := "default", autoStart := true, socket := none, vaultDir := none }

/-- Whose vaults, and where their daemon listens. -/
structure Target where
  sock : String
  uid : UInt32
  vaultDir : String

/-! ## Time -/

structure Budget where
  start : Nat
  total : Nat

/-- `Budget::remaining`: the time left, or nothing once the budget is spent. -/
def Budget.remaining (b : Budget) (now : Nat) : Option Nat :=
  let elapsed := now - b.start
  if elapsed < b.total then some (b.total - elapsed) else none

def Budget.capped (b : Budget) (max now : Nat) : Option Nat := (b.remaining now).map (min · max)

def callBudget : Nat := 3 * 10 ^ 9

/-- A timeout, with the time at which it was read off the budget. -/
structure Timeout where
  read : Nat
  left : Nat
  deriving DecidableEq

/-- `budget.capped(CALL_BUDGET)`, now. -/
def Budget.callTimeout (b : Budget) (now : Nat) : Option Timeout :=
  (b.capped callBudget now).map fun left => { read := now, left }

structure ChangeKey where
  collection : String
  oldKey : Key
  newSalt : Salt
  newKdf : KdfParams
  newKey : Key

inductive HookEvent where
  /-- A key derivation starts. -/
  | derive (now : Nat)
  /-- A request is made, with this timeout. -/
  | send (now : Nat) (timeout : Timeout) (request : ChangeKey)

/-- The time, the operations so far, and what was started. -/
structure HookState where
  now : Nat
  ops : Nat
  events : List HookEvent

/-- What takes time in a hook: the calls it makes on files, on the clock, on the socket and on the
daemon's unit, and the derivations. -/
inductive Operation where
  | readHeader
  /-- The clock is read once more for a timeout. -/
  | readClock
  | derive
  | connect
  /-- A request of the session hook. -/
  | call
  | removeSocket
  | startDaemon
  | waitFor
  /-- The socket is looked at again, with a timeout already read off the budget or not. -/
  | revalidate (held : Bool)
  /-- A request of the password hook, the last of its round or not. -/
  | send (last : Bool)
  deriving DecidableEq

/-- What becomes of the process that makes the requests. -/
inductive ChildFate where
  /-- It makes them all and reports; this is also the hook itself, when there is nobody to
  become. -/
  | reports
  /-- It dies after this many, or is killed when the budget is spent, and reports nothing. -/
  | silent (requests : Nat)

/-- What the kernel, the random generator, the clock and the daemon answer one hook. -/
structure HookEnv where
  /-- How long an operation takes that is the one with this number and starts at this time. -/
  tick : Operation → Nat → Nat → Nat
  resolveTarget : Options → Option Target
  /-- `SocketDir::open` accepts the directory of this socket, for this user. -/
  socketDir : String → UInt32 → Bool
  /-- The directory at this path, and what `read_dir` says about it. -/
  dir : String → VaultDir
  listing : String → ReadDir
  /-- The calls on the vault file of this collection succeed, in time. -/
  readable : String → Bool
  salt : Nat → Except CryptoError Salt
  /-- `connect_path` accepts the socket, -/
  connects : Nat → Bool
  /-- and the daemon answers. -/
  delivers : Nat → Bool
  child : ChildFate

namespace HookState

def elapse (env : HookEnv) (op : Operation) (s : HookState) : HookState :=
  { s with now := s.now + env.tick op s.ops s.now, ops := s.ops + 1 }

def record (s : HookState) (e : HookEvent) : HookState := { s with events := s.events ++ [e] }

def start (now : Nat) : HookState := { now, ops := 0, events := [] }

end HookState

/-! ## Requests -/

section

variable (x : Externals) (env : HookEnv) (budget : Budget)

/-- `derive`: not started once the budget is spent. -/
def derive (password : Bytes) (salt : Salt) (kdf : KdfParams) (s : HookState) :
    Option Key × HookState :=
  match budget.remaining s.now with
  | none => (none, s)
  | some _ =>
    ((deriveKey x.toCiphers password salt kdf).toOption, (s.record (.derive s.now)).elapse env .derive)

/-- `change_key_request`: the old key under the header's salt, the new one under a fresh salt. -/
def changeKeyRequest (collection : String) (old new : Bytes) (salt : Salt) (kdf : KdfParams)
    (s : HookState) : Option ChangeKey × HookState :=
  match env.salt s.ops with
  | .error _ => (none, s)
  | .ok newSalt =>
    match derive x env budget old salt kdf s with
    | (none, s) => (none, s)
    | (some oldKey, s) =>
      match derive x env budget new newSalt kdf s with
      | (none, s) => (none, s)
      | (some newKey, s) => (some { collection, oldKey, newSalt, newKdf := kdf, newKey }, s)

/-- What the loop over the vaults has come to. -/
structure Built where
  requests : List ChangeKey
  anyHeader : Bool
  incomplete : Bool

/-- The loop of `chauthtok_decision`: a vault whose header is not accepted is passed over; a request
that is not built, and vaults that no time is left for, make the change incomplete. -/
def buildRequests (t : Target) (old new : Bytes) : List String → HookState → Built × HookState
  | [], s => (⟨[], false, false⟩, s)
  | id :: ids, s =>
    match budget.remaining s.now with
    | none => (⟨[], false, true⟩, s)
    | some _ =>
      let s := s.elapse env .readHeader
      match vaultHeader x (env.dir t.vaultDir)[id ++ ".vault"]? t.uid (env.readable id) with
      | none => buildRequests t old new ids s
      | some (salt, kdf) =>
        match changeKeyRequest x env budget id old new salt kdf s with
        | (request, s) =>
          match buildRequests t old new ids s with
          | (rest, s) =>
            match request with
            | some request => ({ rest with requests := request :: rest.requests, anyHeader := true }, s)
            | none => ({ rest with anyHeader := true, incomplete := true }, s)

/-- `password_socket_tail`: one request; whether it was delivered. Whether it is the last one
matters for its duration alone. -/
def passwordSocketTail (timeout : Timeout) (request : ChangeKey) (last : Bool) (s : HookState) :
    Bool × HookState :=
  if env.connects s.ops then
    (env.delivers s.ops, (s.record (.send s.now timeout request)).elapse env (.send last))
  else (false, s.elapse env (.send last))

/-- The requests one after the other, each with the same timeout; whether all of them were
delivered. -/
def sendAll (timeout : Timeout) : List ChangeKey → HookState → Bool × HookState
  | [], s => (true, s)
  | request :: rest, s =>
    match passwordSocketTail env timeout request rest.isEmpty s with
    | (sent, s) =>
      match sendAll timeout rest s with
      | (all, s) => (sent && all, s)

end

/-! ## The decision -/

inductive ChauthtokOutcome where
  | prelim
  | missing (which : String)
  | noTarget
  | refusedSocketDir
  | noVaultHeader
  | noRequest
  | budgetSpent
  | noCallBudget
  | sent
  | sendFailed
  deriving DecidableEq

def pamPrelimCheck : Int32 := 0x4000

/-- What `chauthtok_decision` does with the requests it has built: they go out in the child, which
reports. -/
def sendBuilt (env : HookEnv) (budget : Budget) (built : Built) (s : HookState) :
    ChauthtokOutcome × HookState :=
  if built.requests.isEmpty then (if built.anyHeader then .noRequest else .noVaultHeader, s)
  else
    match budget.remaining s.now with
    | none => (.budgetSpent, s)
    | some _ =>
      -- the clock is read once more for the timeout
      let s := s.elapse env .readClock
      match budget.callTimeout s.now with
      | none => (.noCallBudget, s)
      | some left =>
        match env.child with
        | .reports =>
          match sendAll env left built.requests s with
          | (all, s) => (if all && !built.incomplete then .sent else .sendFailed, s)
        | .silent requests => (.sendFailed, (sendAll env left (built.requests.take requests) s).2)

def chauthtokDecision (x : Externals) (env : HookEnv) (flags : Int32) (old new : Option Bytes)
    (args : List String) (budget : Budget) (s : HookState) : ChauthtokOutcome × HookState :=
  if flags &&& pamPrelimCheck ≠ 0 then (.prelim, s)
  else
    let opts := parseOptions args
    match old, new with
    | none, none => (.missing "old and new passwords", s)
    | none, some _ => (.missing "the old password", s)
    | some _, none => (.missing "the new password", s)
    | some old, some new =>
      match env.resolveTarget opts with
      | none => (.noTarget, s)
      | some t =>
        if !env.socketDir t.sock t.uid then (.refusedSocketDir, s)
        else
          let ids := allVaultIds (env.listing t.vaultDir) opts.collection
          match buildRequests x env budget t old new ids s with
          | (built, s) => sendBuilt env budget built s

end SecretManager.Pam
