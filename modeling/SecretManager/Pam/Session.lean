import SecretManager.Pam.Password

/-!
# The session hook

`open_session_decision` of `src/pam/mod.rs`, with the unlock of each vault, the retry after a
transport that was reset, and the start of the daemon. Time and derivations are those of the
password hook. A request is recorded with the time at which it is made, its timeout, and the time at
which the timeout was read off the budget: in between the hook derives a key.

The work on the socket is done in a child when the hook runs as root for somebody else. What the
child decides comes back as two bytes.
-/

namespace SecretManager.Pam

/-! ## Calls on the socket -/

/-- The `io::ErrorKind`s that the hooks tell apart. -/
inductive ErrorKind where
  | connectionRefused
  | notFound
  | connectionReset
  | brokenPipe
  | unexpectedEof
  | other
  deriving DecidableEq

inductive ProtocolError where
  | connect (kind : ErrorKind)
  | io (kind : ErrorKind)
  | other
  deriving DecidableEq

/-- `retryable_reset`: the peer vanished in the middle of a call. -/
def retryableReset : ProtocolError → Bool
  | .io .connectionReset | .io .brokenPipe | .io .unexpectedEof => true
  | _ => false

inductive StaleSocket where
  | unlink
  | leaveAlone
  deriving DecidableEq

def staleSocketAction : ErrorKind → Option StaleSocket
  | .connectionRefused => some .unlink
  | .notFound => some .leaveAlone
  | _ => none

def startTimeout : Nat := 5 * 10 ^ 9

structure UnlockWithKey where
  collection : String
  key : Key
  pin : Bool

inductive SessionEvent where
  /-- A key derivation starts. -/
  | start (e : HookEvent)
  /-- A request is made. -/
  | unlock (now : Nat) (timeout : Timeout) (request : UnlockWithKey)

structure SessionState where
  now : Nat
  ops : Nat
  events : List SessionEvent

/-- What one session hook is answered, beside what a password hook is. -/
structure SessionEnv extends HookEnv where
  connectPath : Nat → Except ErrorKind Unit
  /-- The call on the socket, if there is a key to send. -/
  call : Nat → Except ProtocolError Unit
  removeSocket : Nat → Except ErrorKind Unit
  /-- The user has a name to start the daemon for. -/
  startDaemon : Nat → Bool
  /-- The socket turns up in time. -/
  waitFor : Nat → Bool
  revalidate : Nat → Bool

namespace SessionState

def elapse (env : SessionEnv) (op : Operation) (s : SessionState) : SessionState :=
  { s with now := s.now + env.tick op s.ops s.now, ops := s.ops + 1 }

def record (s : SessionState) (e : SessionEvent) : SessionState :=
    { s with events := s.events ++ [e] }

def start (now : Nat) : SessionState := { now, ops := 0, events := [] }

def derive (x : Externals) (env : SessionEnv) (budget : Budget) (password : Bytes) (salt : Salt)
    (kdf : KdfParams) (s : SessionState) : Option Key × SessionState :=
  match Pam.derive x env.toHookEnv budget password salt kdf
    { now := s.now, ops := s.ops, events := [] } with
  | (key, h) => (key, { now := h.now, ops := h.ops, events := s.events ++ h.events.map .start })

end SessionState

/-! ## Outcomes -/

inductive StartOutcome where
  | noStartBudget
  | staleSocketStuck
  | noUser
  | notRetried (waited : Bool) (revalidated : Option Bool)
  | retryBudgetSpent
  | noRetryCallBudget
  | retried
  deriving DecidableEq

inductive SessionOutcome where
  | noPassword
  | noTarget
  | refusedSocketDir
  | noVaultHeader
  | budgetSpent
  | noCallBudget
  | attempted
  | failed
  | connectNotStale
  | started (how : StartOutcome)
  deriving DecidableEq

/-- The second byte of a report that the daemon was started. -/
def StartOutcome.code : StartOutcome → UInt8
  | .noStartBudget => 0
  | .staleSocketStuck => 1
  | .noUser => 2
  | .notRetried waited revalidated =>
    10 + waited.toUInt8 +
      match revalidated with
      | none => 0
      | some false => 2
      | some true => 4
  | .retryBudgetSpent => 20
  | .noRetryCallBudget => 21
  | .retried => 22

def sessionOutcomeCode : SessionOutcome → UInt8 × UInt8
  | .noPassword => (0, 0)
  | .noTarget => (1, 0)
  | .refusedSocketDir => (2, 0)
  | .noVaultHeader => (3, 0)
  | .budgetSpent => (4, 0)
  | .noCallBudget => (5, 0)
  | .attempted => (6, 0)
  | .failed => (7, 0)
  | .connectNotStale => (8, 0)
  | .started how => (9, how.code)

/-- What the second byte says of the start of the daemon, if it says something. -/
def StartOutcome.ofCode (b : UInt8) : Option StartOutcome :=
  if b = 0 then some .noStartBudget
  else if b = 1 then some .staleSocketStuck
  else if b = 2 then some .noUser
  else if 10 ≤ b ∧ b ≤ 15 then
    let waited := (b - 10) &&& 1 == 1
    let revalidated :=
      if (b - 10) >>> 1 = 0 then none
      else if (b - 10) >>> 1 = 1 then some false
      else some true
    some (.notRetried waited revalidated)
  else if b = 20 then some .retryBudgetSpent
  else if b = 21 then some .noRetryCallBudget
  else if b = 22 then some .retried
  else none

/-- `session_outcome_from_codes`: what makes no sense is a failure. -/
def sessionOutcomeFromCodes (a b : UInt8) : SessionOutcome :=
  if a = 9 then
    match StartOutcome.ofCode b with
    | some how => .started how
    | none => .failed
  else if b ≠ 0 then .failed
  else if a = 0 then .noPassword
  else if a = 1 then .noTarget
  else if a = 2 then .refusedSocketDir
  else if a = 3 then .noVaultHeader
  else if a = 4 then .budgetSpent
  else if a = 5 then .noCallBudget
  else if a = 6 then .attempted
  else if a = 8 then .connectNotStale
  else .failed

/-! ## One vault -/

section

variable (x : Externals) (env : SessionEnv) (budget : Budget)

variable (collection : String) (password : Bytes) (salt : Salt) (kdf : KdfParams)

/-- `unlock_by_key`: without a key nothing is sent, and that is no transport error. -/
def unlockByKey (call : Timeout) (s : SessionState) : Except ProtocolError Unit × SessionState :=
  match s.derive x env budget password salt kdf with
  | (none, s) => (.ok (), s)
  | (some key, s) =>
    (env.call s.ops, (s.record (.unlock s.now call { collection, key, pin := true })).elapse env .call)

def unlockOnce (call : Timeout) (s : SessionState) : Except ProtocolError Unit × SessionState :=
  match env.connectPath s.ops with
  | .error e => (.error (.connect e), s.elapse env .connect)
  | .ok () => unlockByKey x env budget collection password salt kdf call (s.elapse env .connect)

def startAfterClearing (action : StaleSocket) (s : SessionState) : Bool × SessionState :=
  match action with
  | .leaveAlone => (true, s)
  | .unlink =>
    match env.removeSocket s.ops with
    | .ok () | .error .notFound => (true, s.elapse env .removeSocket)
    | .error _ => (false, s.elapse env .removeSocket)

/-- The end of `start_and_retry`: the socket has turned up, or not. -/
def retryUnlock (waited : Bool) (s : SessionState) : StartOutcome × SessionState :=
  let revalidated := if waited then some (env.revalidate s.ops) else none
  let s := s.elapse env (.revalidate false)
  if revalidated ≠ some true then (.notRetried waited revalidated, s)
  else
    match budget.remaining s.now with
    | none => (.retryBudgetSpent, s)
    | some _ =>
      let s := s.elapse env .readClock
      match budget.callTimeout s.now with
      | none => (.noRetryCallBudget, s)
      | some left => (.retried, (unlockOnce x env budget collection password salt kdf left s).2)

def startAndRetry (e : ErrorKind) (s : SessionState) : SessionOutcome × SessionState :=
  match staleSocketAction e with
  | none => (.connectNotStale, s)
  | some action =>
    match budget.capped startTimeout s.now with
    | none => (.started .noStartBudget, s)
    | some _ =>
      match startAfterClearing env action s with
      | (false, s) => (.started .staleSocketStuck, s)
      | (true, s) =>
        if !env.startDaemon s.ops then (.started .noUser, s)
        else
          -- `systemctl` has run, within what was left
          let s := s.elapse env .startDaemon
          let waited := (budget.capped startTimeout s.now).isSome && env.waitFor s.ops
          match retryUnlock x env budget collection password salt kdf waited (s.elapse env .waitFor) with
          | (how, s) => (.started how, s)

/-- `session_socket_tail`: one vault. -/
def sessionSocketTail (autoStart : Bool) (collection : String) (password : Bytes) (salt : Salt)
    (kdf : KdfParams) (s : SessionState) : SessionOutcome × SessionState :=
  match budget.callTimeout s.now with
  | none => (.noCallBudget, s)
  | some call =>
    match unlockOnce x env budget collection password salt kdf call s with
    | (.ok (), s) => (.attempted, s)
    | (.error e, s) =>
      match autoStart, e with
      | true, .connect e => startAndRetry x env budget collection password salt kdf e s
      | _, e =>
        if !retryableReset e then (.failed, s)
        else
          match budget.callTimeout s.now with
          | none => (.noCallBudget, s)
          | some call =>
            if !env.revalidate s.ops then (.failed, s.elapse env (.revalidate true))
            else
              match unlockOnce x env budget collection password salt kdf call
                  (s.elapse env (.revalidate true)) with
              | (.ok (), s) => (.attempted, s)
              | (.error e, s) =>
                match autoStart, e with
                | true, .connect e => startAndRetry x env budget collection password salt kdf e s
                | _, _ => (.failed, s)

end

/-! ## Every vault -/

/-- An unlock that has reached the daemon. -/
def SessionOutcome.reached : SessionOutcome → Bool
  | .attempted | .started .retried => true
  | _ => false

section

variable (x : Externals) (env : SessionEnv) (budget : Budget)

/-- The loop of `session_socket_tail_all`: the first outcome that reached the daemon, else the
first. -/
def sessionSocketTailAll (autoStart : Bool) (password : Bytes) :
    List (String × Salt × KdfParams) → Option SessionOutcome → Option SessionOutcome → SessionState →
      SessionOutcome × SessionState
  | [], first, success, s => ((success.or first).getD .noVaultHeader, s)
  | (id, salt, kdf) :: vaults, first, success, s =>
    match budget.remaining s.now with
    | none => ((success.or first).getD .budgetSpent, s)
    | some _ =>
      match sessionSocketTail x env budget autoStart id password salt kdf
          (s.elapse env .readClock) with
      | (outcome, s) =>
        if outcome.reached then
          sessionSocketTailAll autoStart password vaults first (success.or (some outcome)) s
        else sessionSocketTailAll autoStart password vaults (first.or (some outcome)) success s

/-- The loop over the headers in `open_session_decision`. -/
def sessionHeaders (t : Target) : List String → SessionState →
    List (String × Salt × KdfParams) × SessionState
  | [], s => ([], s)
  | id :: ids, s =>
    match budget.remaining s.now with
    | none => ([], s)
    | some _ =>
      match sessionHeaders t ids (s.elapse env .readHeader) with
      | (rest, s) =>
        match vaultHeader x (env.dir t.vaultDir)[id ++ ".vault"]? t.uid (env.readable id) with
        | none => (rest, s)
        | some (salt, kdf) => ((id, salt, kdf) :: rest, s)

/-- `run_socket_work_as_target`, with the bytes of the report: a child that dies has started some of
what it would have, and reports nothing. -/
def runSessionWork (work : SessionState → SessionOutcome × SessionState) (s : SessionState) :
    Option (UInt8 × UInt8) × SessionState :=
  match work s with
  | (outcome, s') =>
    match env.child with
    | .reports => (some (sessionOutcomeCode outcome), s')
    | .silent n => (none, { s' with events := s'.events.take (s.events.length + n) })

def openSessionDecision (password : Option Bytes) (args : List String) (s : SessionState) :
    SessionOutcome × SessionState :=
  let opts := parseOptions args
  match password with
  | none => (.noPassword, s)
  | some password =>
    match env.resolveTarget opts with
    | none => (.noTarget, s)
    | some t =>
      if !env.socketDir t.sock t.uid then (.refusedSocketDir, s)
      else
        match sessionHeaders x env budget t (allVaultIds (env.listing t.vaultDir) opts.collection) s with
        | (vaults, s) =>
          if vaults.isEmpty then (.noVaultHeader, s)
          else
            match budget.remaining s.now with
            | none => (.budgetSpent, s)
            | some _ =>
              match runSessionWork env
                  (sessionSocketTailAll x env budget opts.autoStart password vaults none none) s with
              | (some (a, b), s) => (sessionOutcomeFromCodes a b, s)
              | (none, s) => (.failed, s)

end

end SecretManager.Pam
