import SecretManager.Vault.Format

/-!
# The control socket's frames

`src/protocol.rs`, shared by the daemon, the command line and the PAM module, and the daemon's own
reader in `src/control/server.rs`. A frame is `len u32 BE | version u8 | message (postcard)`, and
the length counts the version byte.

A stream is the bytes it has still to deliver. `read_exact`, of `std` and of `tokio` alike, takes
the next bytes of it or finds its end. What the clocks of both ends say during a call is an answer
of the environment: the client has one deadline for the whole of it, the daemon one for each of its
reads and writes and one for its handler. The peer check is not here.
-/

namespace SecretManager.Control

open Wire (be32 ofBe)

def maxFrame : Nat := 2 ^ 20
def protocolVersion : UInt8 := 5
/-- `SCRATCH`, the first buffer `encode_frame` tries. -/
def scratch : Nat := 8 * 1024

/-! ## Messages -/

inductive Request where
  | lock (collection : Option String)
  | status
  | reload
  | unlockWithKey (collection : String) (key : Key) (pin : Bool)
  | changeKey (collection : String) (oldKey : Key) (newSalt : Salt) (newKdf : KdfParams)
      (newKey : Key)
  deriving DecidableEq

structure CollectionStatus where
  id : String
  label : String
  locked : Bool
  items : Nat
  warning : Option String
  deriving DecidableEq

inductive Response where
  | ok
  | status (collections : List CollectionStatus) (uptimeSecs : UInt64) (aliasesError : Option String)
  | error (reason : String)
  deriving DecidableEq

/-- Postcard at the two message types. -/
structure Codecs where
  request : Postcard Request
  response : Postcard Response

structure Codecs.Lawful (x : Codecs) : Prop where
  request : x.request.Lawful
  response : x.response.Lawful

/-! ## Errors -/

inductive PostcardError where
  | serializeBufferFull
  | deserializeUnexpectedEnd
  | other (reason : String)
  deriving DecidableEq

def PostcardError.message : PostcardError → String
  | .serializeBufferFull => "The serialize buffer is full"
  | .deserializeUnexpectedEnd => "Hit the end of buffer, expected more data"
  | .other reason => reason

inductive IoError where
  | unexpectedEof
  /-- The client's deadline has passed. -/
  | timedOut
  | other (reason : String)
  deriving DecidableEq

def IoError.message : IoError → String
  | .unexpectedEof => "failed to fill whole buffer"
  | .timedOut => "control socket call exceeded its deadline"
  | .other reason => reason

/-- What the frame functions return of `ProtocolError`. -/
inductive ProtocolError where
  | io (e : IoError)
  | frameTooLarge (len : Nat)
  | encoding (e : PostcardError)
  | unsupportedVersion (version : UInt8)
  | trailingBytes (n : Nat)
  deriving DecidableEq

def ProtocolError.message : ProtocolError → String
  | .io e => s!"control socket i/o error: {e.message}"
  | .frameTooLarge n => s!"frame of {n} bytes exceeds limit"
  | .encoding e => s!"malformed message: {e.message}"
  | .unsupportedVersion v => s!"unsupported protocol version {v}"
  | .trailingBytes n => s!"{n} unexpected bytes after the message"

/-! ## Writing -/

section

variable {α : Type} (p : Postcard α)

/-- `postcard::to_slice` into a buffer of `room` bytes. -/
def toSlice (m : α) (room : Nat) : Except PostcardError Bytes :=
  match p.toAllocvec m with
  | .error e => .error (.other e)
  | .ok body => if body.length > room then .error .serializeBufferFull else .ok body

/-- The two attempts of `encode_frame`: the scratch buffer, then one just over the limit. -/
def encodeBody (m : α) : Except ProtocolError Bytes :=
  match toSlice p m scratch with
  | .ok body => .ok body
  | .error .serializeBufferFull =>
    match toSlice p m (maxFrame + 1) with
    | .ok body => .ok body
    | .error .serializeBufferFull => .error (.frameTooLarge (maxFrame + 1))
    | .error e => .error (.encoding e)
  | .error e => .error (.encoding e)

def encodeFrame (m : α) : Except ProtocolError Bytes :=
  match encodeBody p m with
  | .error e => .error e
  | .ok body =>
    let framedLen := body.length + 1
    if framedLen > maxFrame then .error (.frameTooLarge framedLen)
    else .ok (be32 framedLen ++ protocolVersion :: body)

/-! ## Reading -/

/-- `decode_frame`: the version byte, one message, and nothing after it. -/
def decodeFrame : Bytes → Except ProtocolError α
  | [] => .error (.encoding .deserializeUnexpectedEnd)
  | version :: rest =>
    if version ≠ protocolVersion then .error (.unsupportedVersion version)
    else
      match p.takeFromBytes rest with
      | .error e => .error (.encoding (.other e))
      | .ok (value, rest) =>
        if rest ≠ [] then .error (.trailingBytes rest.length) else .ok value

/-- `read_exact`: the next `n` bytes, and what the stream has left. -/
def readExact (n : Nat) (stream : Bytes) : Except IoError (Bytes × Bytes) :=
  if stream.length < n then .error .unexpectedEof else .ok (stream.take n, stream.drop n)

/-- `read_frame_sync`: the body of one frame, and what the stream has left. -/
def readFrameSync (stream : Bytes) : Except ProtocolError (Bytes × Bytes) :=
  match readExact 4 stream with
  | .error e => .error (.io e)
  | .ok (field, stream) =>
    let len := ofBe field
    if len > maxFrame then .error (.frameTooLarge len)
    else
      match readExact len stream with
      | .error e => .error (.io e)
      | .ok (body, stream) => .ok (body, stream)

def readFrame (stream : Bytes) : Except IoError (Bytes × Bytes) :=
  match readExact 4 stream with
  | .error e => .error e
  | .ok (field, stream) =>
    let len := ofBe field
    if len > maxFrame then .error (.other s!"frame of {len} bytes exceeds limit")
    else
      match readExact len stream with
      | .error e => .error e
      | .ok (body, stream) => .ok (body, stream)

end

/-! ## One connection -/

/-- What the daemon answers to a frame body; the handler may run out of time. -/
def respond (x : Codecs) (handler : Request → Option Response) (body : Bytes) : Response :=
  match decodeFrame x.request body with
  | .ok req => (handler req).getD (.error "the daemon took too long to answer")
  | .error e => .error s!"malformed request: {e.message}"

/-- What the clocks say during one call. The client's times are counted from the start of its
call. -/
structure CallClock where
  /-- The daemon has the request, and gets rid of its reply, within its connection timeout. -/
  daemonReads : Bool
  daemonWrites : Bool
  /-- The client is connected, -/
  connected : Nat
  /-- has written its request, -/
  written : Nat
  /-- and has read the reply or found the end of the stream. -/
  replied : Nat
  ordered : connected ≤ written ∧ written ≤ replied

/-- `handle_connection`: the bytes written back. A response too large to frame is replaced by one
that says so. -/
def handleConnection (x : Codecs) (handler : Request → Option Response) (clock : CallClock)
    (stream : Bytes) : Except IoError Bytes :=
  if !clock.daemonReads then .error (.other "peer sent no request in time")
  else
    match readFrame stream with
    | .error e => .error e
    | .ok (body, _) =>
      let written (frame : Bytes) : Except IoError Bytes :=
        if clock.daemonWrites then .ok frame else .error (.other "peer stopped reading")
      match encodeFrame x.response (respond x handler body) with
      | .ok frame => written frame
      | .error _ =>
        match encodeFrame x.response (.error "response too large") with
        | .ok frame => written frame
        | .error e => .error (.other e.message)

/-- `call_inner` with this deadline, against a daemon that answers with `handler`. A connection that
fails on the far side is closed without a reply. -/
def call (x : Codecs) (handler : Request → Option Response) (timeout : Nat) (clock : CallClock)
    (req : Request) : Except ProtocolError Response :=
  if timeout ≤ clock.connected then .error (.io .timedOut)
  else
    match encodeFrame x.request req with
    | .error e => .error e
    | .ok frame =>
      if timeout ≤ clock.written || timeout ≤ clock.replied then .error (.io .timedOut)
      else
        match readFrameSync ((handleConnection x handler clock frame).toOption.getD []) with
        | .error e => .error e
        | .ok (body, _) => decodeFrame x.response body

end SecretManager.Control
