import SecretManager.Control.Reference

/-!
# Control frames round-trip

`encode_frame` measures the frame three times (the scratch buffer, the buffer just over the limit,
the framed length) and the readers once more. The laws say that only one of these bounds decides:
**a message is framed exactly when its body and the version byte fit the limit**, and a framed
message is read back by either reader with nothing of what follows consumed.

The two readers are written apart in the source. `readFrame_eq` says that they agree on every
stream, errors included, so what is proved of one holds of the other.
-/

namespace SecretManager.Control

open Wire (be32 ofBe)

variable {frame : Bytes}

section

variable {α : Type} {p : Postcard α}

/-! ## Writing -/

variable {body : Bytes} {m : α}

theorem encodeBody_eq (encoded : p.toAllocvec m = .ok body) : encodeBody p m =
      if body.length > maxFrame + 1 then .error (.frameTooLarge (maxFrame + 1)) else .ok body := by
  have nested : scratch ≤ maxFrame + 1 := by decide
  unfold encodeBody toSlice
  rw [encoded]
  by_cases small : body.length > scratch
  · by_cases large : body.length > maxFrame + 1
    · simp only [if_pos small, if_pos large]
    · simp only [if_pos small, if_neg large]
  · have fits : ¬body.length > maxFrame + 1 := by omega
    simp only [if_neg small, if_neg fits]

/-- **A message is framed exactly when its body and the version byte fit**, and then as the length,
the version and the body. -/
theorem encodeFrame_ok :
    encodeFrame p m = .ok frame ↔ ∃ body, p.toAllocvec m = .ok body ∧ 1 + body.length ≤ maxFrame ∧
        frame = be32 (body.length + 1) ++ protocolVersion :: body := by
  unfold encodeFrame
  cases encoded : p.toAllocvec m with
  | error e =>
    have failed : encodeBody p m = .error (.encoding (.other e)) := by
      simp only [encodeBody, toSlice, encoded]
    simp only [failed, reduceCtorEq, false_and, exists_false]
  | ok body =>
    rw [encodeBody_eq encoded]
    by_cases large : body.length > maxFrame + 1
    · have long : ¬1 + body.length ≤ maxFrame := by omega
      simp only [if_pos large, reduceCtorEq, Except.ok.injEq, exists_eq_left', long, false_and]
    · rw [if_neg large]
      by_cases fits : body.length + 1 > maxFrame
      · have long : ¬1 + body.length ≤ maxFrame := by omega
        simp only [if_pos fits, reduceCtorEq, Except.ok.injEq, exists_eq_left', long, false_and]
      · have within : 1 + body.length ≤ maxFrame := by omega
        simp only [if_neg fits, Except.ok.injEq, exists_eq_left', within, true_and, eq_comm]

/-! ## Reading -/

theorem readExact_append (bytes rest : Bytes) :
    readExact bytes.length (bytes ++ rest) = .ok (bytes, rest) := by
  have enough : ¬(bytes ++ rest).length < bytes.length := by
    rw [List.length_append]
    omega
  rw [readExact, if_neg enough, List.take_left, List.drop_left]

/-- What `read_frame_sync` makes of a stream that begins with a length field: the limit is checked
before a byte of the body is read. -/
theorem readFrameSync_field {field rest : Bytes} (width : field.length = 4) :
    readFrameSync (field ++ rest) =
      if ofBe field > maxFrame then .error (.frameTooLarge (ofBe field))
      else (readExact (ofBe field) rest).mapError .io := by
  have taken := readExact_append field rest
  rw [width] at taken
  unfold readFrameSync
  rw [taken]
  dsimp only
  by_cases long : ofBe field > maxFrame
  · rw [if_pos long, if_pos long]
  · rw [if_neg long, if_neg long]
    cases readExact (ofBe field) rest with
    | error e => rfl
    | ok r => rfl

theorem readFrameSync_frame (within : body.length ≤ maxFrame) (rest : Bytes) :
    readFrameSync (be32 body.length ++ (body ++ rest)) = .ok (body, rest) := by
  have small : body.length < 2 ^ 32 := by
    unfold maxFrame at within
    omega
  rw [readFrameSync_field (Wire.be32_length _), Wire.ofBe_be32 small, if_neg (by omega), readExact_append]
  rfl

/-- The daemon's reader reports the other's errors as plain i/o errors. -/
def ProtocolError.asIo : ProtocolError → IoError
  | .io e => e
  | e => .other e.message

/-- **The two readers agree on every stream**, errors included. -/
theorem readFrame_eq (stream : Bytes) :
    readFrame stream = (readFrameSync stream).mapError ProtocolError.asIo := by
  unfold readFrame readFrameSync
  cases readExact 4 stream with
  | error e => rfl
  | ok r =>
    obtain ⟨field, stream⟩ := r
    dsimp only
    by_cases long : ofBe field > maxFrame
    · rw [if_pos long, if_pos long]
      rfl
    · rw [if_neg long, if_neg long]
      cases readExact (ofBe field) stream with
      | error e => rfl
      | ok r => rfl

theorem readFrame_of_sync {stream rest : Bytes} (read : readFrameSync stream = .ok (body, rest)) :
    readFrame stream = .ok (body, rest) := by
  rw [readFrame_eq, read]
  rfl

/-! ## What one message type is promised -/

theorem decodeFrame_version {v : UInt8} (other : v ≠ protocolVersion) (body : Bytes) :
    decodeFrame p (v :: body) = .error (.unsupportedVersion v) := by
  rw [decodeFrame, if_pos other]

theorem decodeFrame_trailing {left : Bytes} (read : p.takeFromBytes body = .ok (m, left))
    (unread : left ≠ []) :
    decodeFrame p (protocolVersion :: body) = .error (.trailingBytes left.length) := by
  simp only [decodeFrame, ne_eq, not_true_eq_false, if_false, read, unread, not_false_eq_true, if_true]

theorem decodeFrame_encoded (lawful : p.Lawful) (encoded : p.toAllocvec m = .ok body) :
    decodeFrame p (protocolVersion :: body) = .ok m := by
  have read := lawful.take_of_toAllocvec encoded []
  rw [List.append_nil] at read
  simp only [decodeFrame, ne_eq, not_true_eq_false, if_false, read]

/-- **An encoded frame is read back**, whatever follows it. -/
theorem readFrameSync_encoded (lawful : p.Lawful) (sent : encodeFrame p m = .ok frame)
    (rest : Bytes) :
    ∃ body, readFrameSync (frame ++ rest) = .ok (body, rest) ∧ decodeFrame p body = .ok m := by
  obtain ⟨body, encoded, fits, rfl⟩ := encodeFrame_ok.mp sent
  have within : (protocolVersion :: body).length ≤ maxFrame := by
    rw [List.length_cons]
    omega
  refine ⟨protocolVersion :: body, ?_, decodeFrame_encoded lawful encoded⟩
  exact readFrameSync_frame within rest

variable (p) in
/-- Frames of one message type: which messages have one, that it is read back, and what is refused.
A refusal by the length is the readers', every other is `decode_frame`'s. -/
structure RoundTrips : Prop where
  framed : ∀ m, (∃ frame, encodeFrame p m = .ok frame) ↔ ∃ body, p.toAllocvec m = .ok body ∧ 1 + body.length ≤ maxFrame
  readBack : ∀ m frame, encodeFrame p m = .ok frame → ∀ rest, ∃ body, readFrameSync (frame ++ rest) = .ok (body, rest) ∧
    readFrame (frame ++ rest) = .ok (body, rest) ∧ decodeFrame p body = .ok m
  otherVersion : ∀ v body, v ≠ protocolVersion → decodeFrame p (v :: body) = .error (.unsupportedVersion v)
  zeroLength : ∀ rest, readFrameSync (be32 0 ++ rest) = .ok ([], rest) ∧ readFrame (be32 0 ++ rest) = .ok ([], rest) ∧
    decodeFrame p [] = .error (.encoding .deserializeUnexpectedEnd)
  overLimit : ∀ field rest : Bytes, field.length = 4 → maxFrame < ofBe field →
    readFrameSync (field ++ rest) = .error (.frameTooLarge (ofBe field)) ∧
    readFrame (field ++ rest) = .error (.other s!"frame of {ofBe field} bytes exceeds limit")
  trailing : ∀ body m left, p.takeFromBytes body = .ok (m, left) → left ≠ [] →
    decodeFrame p (protocolVersion :: body) = .error (.trailingBytes left.length)

theorem roundTrips (lawful : p.Lawful) : RoundTrips p where
  framed m := by
    constructor
    · rintro ⟨frame, sent⟩
      obtain ⟨body, encoded, fits, -⟩ := encodeFrame_ok.mp sent
      exact ⟨body, encoded, fits⟩
    · rintro ⟨body, encoded, fits⟩
      exact ⟨_, encodeFrame_ok.mpr ⟨body, encoded, fits, rfl⟩⟩
  readBack m frame sent rest := by
    obtain ⟨body, read, decoded⟩ := readFrameSync_encoded lawful sent rest
    exact ⟨body, read, readFrame_of_sync read, decoded⟩
  otherVersion v body other := decodeFrame_version other body
  zeroLength rest := by
    have read := @readFrameSync_frame [] (Nat.zero_le _) rest
    exact ⟨read, readFrame_of_sync read, rfl⟩
  overLimit field rest width long := by
    have refused : readFrameSync (field ++ rest) = .error (.frameTooLarge (ofBe field)) := by
      rw [readFrameSync_field width, if_pos long]
    refine ⟨refused, ?_⟩
    rw [readFrame_eq, refused]
    rfl
  trailing body m left read unread := decodeFrame_trailing read unread

end

/-- **Control frames round-trip**, requests and responses alike. -/
theorem control_frames_round_trip (x : Codecs) (lawful : x.Lawful) :
    RoundTrips x.request ∧ RoundTrips x.response :=
  ⟨roundTrips lawful.request, roundTrips lawful.response⟩

/-- A request to lock one collection, with three bytes of the next frame behind it. -/
theorem control_frames_round_trip_lock :
    let frame : Bytes := [0, 0, 0, 9, 5, 0, 1, 5, 108, 111, 103, 105, 110]
    encodeFrame Reference.codecs.request (.lock (some "login")) = .ok frame ∧
    ∃ body, readFrameSync (frame ++ [0, 0, 0]) = .ok (body, [0, 0, 0]) ∧
      readFrame (frame ++ [0, 0, 0]) = .ok (body, [0, 0, 0]) ∧
      decodeFrame Reference.codecs.request body = .ok (.lock (some "login")) := by
  intro frame
  have sent : encodeFrame Reference.codecs.request (.lock (some "login")) = .ok frame := by
    decide
  have trips := control_frames_round_trip Reference.codecs Reference.codecs_lawful
  exact ⟨sent, trips.1.readBack _ _ sent [0, 0, 0]⟩

/-! ## One call -/

theorem call_of_reply {x : Codecs} (lawful : x.Lawful) {handler : Request → Option Response}
    {timeout : Nat} {clock : CallClock} {req : Request} {r : Response} {reply : Bytes}
    (inTime : clock.replied < timeout) (sent : encodeFrame x.request req = .ok frame)
    (replied : handleConnection x handler clock frame = .ok reply)
    (framed : encodeFrame x.response r = .ok reply) : call x handler timeout clock req = .ok r := by
  obtain ⟨body, read, decoded⟩ := readFrameSync_encoded lawful.response framed []
  rw [List.append_nil] at read
  obtain ⟨first, second⟩ := clock.ordered
  have connected : ¬timeout ≤ clock.connected := by omega
  have written : ¬timeout ≤ clock.written := by omega
  simp only [call, if_neg connected, sent, written, Nat.not_le_of_lt inTime, replied, Except.toOption,
    Option.getD_some, read, decoded, decide_false, Bool.or_self, Bool.false_eq_true, if_false]

end SecretManager.Control
