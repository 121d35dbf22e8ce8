/-
Purpose: Length-prefixed frames: the native encoder and its incremental decoder, and the Python batch
  encoder and blocking reader.
Trusted boundary: a socket hands out the bytes of its stream in order, in pieces of any size, and none
  only when the stream has ended
Main exports: FrameDecoder, FrameDecoder.feed, encodeFrame, frameBatch, recvFramed
-/
import UsdConnect.Lib.FlatBuffer

namespace UsdConnect

/-! ### The native frame codec -/

def kFrameHeaderSize : Nat := 4

inductive FrameResult where
  | success
  | invalidMaxFrameSize
  | emptyPayload
  | payloadTooLarge
  | invalidHeader
deriving DecidableEq, Repr

/-- `IsValidMaxFrameSize`. -/
def isValidMaxFrameSize (maxFrameSize : Nat) : Bool :=
  maxFrameSize ≠ 0 && maxFrameSize ≤ 2 ^ 32 - 1

/-- The number in a header: the first four bytes, most significant first. -/
def readBigEndianU32 (bytes : List UInt8) : Nat :=
  leNat (bytes.take kFrameHeaderSize).reverse

def writeBigEndianU32 (value : Nat) : List UInt8 :=
  (leBytes kFrameHeaderSize value).reverse

/-- `TryReadFrameHeader`. -/
def tryReadFrameHeader (header : List UInt8) (maxFrameSize : Nat) : Option Nat :=
  let payloadSize := readBigEndianU32 header
  if payloadSize ≠ 0 ∧ payloadSize ≤ maxFrameSize then some payloadSize else none

/-- `ValidateFrameSize`. -/
def validateFrameSize (size maxFrameSize : Nat) : FrameResult :=
  if !isValidMaxFrameSize maxFrameSize then .invalidMaxFrameSize
  else if size = 0 then .emptyPayload
  else if maxFrameSize < size then .payloadTooLarge
  else .success

/-- `EncodeFrame`. -/
def encodeFrame (payload : List UInt8) (maxFrameSize : Nat) : FrameResult × List UInt8 :=
  match validateFrameSize payload.length maxFrameSize with
  | .success => (.success, writeBigEndianU32 payload.length ++ payload)
  | failure => (failure, [])

/-- State of `FrameDecoder`. -/
structure FrameDecoder where
  maxFrameSize : Nat
  buffer : List UInt8 := []
  cursor : Nat := 0
  expectedPayloadSize : Nat := 0
  within : cursor ≤ buffer.length := by simp
deriving DecidableEq, Repr

/-- The first half of a round of `Feed`: the size of the payload to read and where it starts. -/
inductive HeaderRead where
  | short
  | invalid
  | ready (cursor size : Nat)
deriving DecidableEq, Repr

/-- How the loop of `Feed` ends. -/
inductive FeedEnd where
  | invalid
  | stopped (cursor expectedPayloadSize : Nat) (frames : List (List UInt8))
deriving DecidableEq, Repr

namespace FrameDecoder

def readHeader (maxFrameSize : Nat) (buffer : List UInt8) (cursor expected : Nat) : HeaderRead :=
  if expected ≠ 0 then .ready cursor expected
  else if buffer.length - cursor < kFrameHeaderSize then .short
  else
    match tryReadFrameHeader (buffer.drop cursor) maxFrameSize with
    | none => .invalid
    | some size => .ready (cursor + kFrameHeaderSize) size

theorem readHeader_ready {maxFrameSize cursor expected start size : Nat} {buffer : List UInt8}
    (read : readHeader maxFrameSize buffer cursor expected = .ready start size) :
    cursor ≤ start ∧ 0 < size := by
  unfold readHeader at read
  split at read
  · next waiting =>
      cases read
      exact ⟨le_refl cursor, Nat.pos_of_ne_zero waiting⟩
  · split at read
    · cases read
    · split at read
      · cases read
      · next accepted =>
          cases read
          unfold tryReadFrameHeader at accepted
          dsimp only at accepted
          split at accepted
          · next valid =>
              cases accepted
              exact ⟨Nat.le_add_right _ _, Nat.pos_of_ne_zero valid.1⟩
          · cases accepted

/-- The loop of `Feed`. -/
def feedLoop (maxFrameSize : Nat) (buffer : List UInt8) (cursor expected : Nat)
    (frames : List (List UInt8)) : FeedEnd :=
  match read : readHeader maxFrameSize buffer cursor expected with
  | .short => .stopped cursor expected frames
  | .invalid => .invalid
  | .ready start size =>
      if buffer.length - start < size then .stopped start size frames
      else
        feedLoop maxFrameSize buffer (start + size) 0
          (frames ++ [(buffer.drop start).take size])
termination_by buffer.length - cursor
decreasing_by
  obtain ⟨later, positive⟩ := readHeader_ready read
  omega

section Rounds

variable {maxFrameSize cursor expected start size : Nat} {buffer : List UInt8}
  {frames : List (List UInt8)}

theorem feedLoop_of_short (short : readHeader maxFrameSize buffer cursor expected = .short) :
    feedLoop maxFrameSize buffer cursor expected frames = .stopped cursor expected frames := by
  rw [feedLoop]
  split
  · rfl
  · next other =>
      rw [short] at other
      cases other
  · next other =>
      rw [short] at other
      cases other

theorem feedLoop_of_invalid (invalid : readHeader maxFrameSize buffer cursor expected = .invalid) :
    feedLoop maxFrameSize buffer cursor expected frames = .invalid := by
  rw [feedLoop]
  split
  · next other =>
      rw [invalid] at other
      cases other
  · rfl
  · next other =>
      rw [invalid] at other
      cases other

theorem feedLoop_of_ready
    (ready : readHeader maxFrameSize buffer cursor expected = .ready start size) :
    feedLoop maxFrameSize buffer cursor expected frames =
      if buffer.length - start < size then .stopped start size frames
      else
        feedLoop maxFrameSize buffer (start + size) 0
          (frames ++ [(buffer.drop start).take size]) := by
  rw [feedLoop]
  split
  · next other =>
      rw [ready] at other
      cases other
  · next other =>
      rw [ready] at other
      cases other
  · next same =>
      rw [ready] at same
      cases same
      rfl

theorem readHeader_within
    (ready : readHeader maxFrameSize buffer cursor expected = .ready start size)
    (within : cursor ≤ buffer.length) : start ≤ buffer.length := by
  unfold readHeader at ready
  split at ready
  · cases ready
    exact within
  · split at ready
    · cases ready
    · next enough =>
        split at ready
        · cases ready
        · cases ready
          unfold kFrameHeaderSize at enough ⊢
          omega

/-- The cursor of a stopped loop lies in the buffer. -/
theorem feedLoop_within {stop expectedNext : Nat} {delivered : List (List UInt8)}
    (stopped : feedLoop maxFrameSize buffer cursor expected frames =
      .stopped stop expectedNext delivered)
    (within : cursor ≤ buffer.length) : stop ≤ buffer.length := by
  induction cursor, expected, frames using feedLoop.induct maxFrameSize buffer with
  | case1 cursor expected frames short =>
      rw [feedLoop_of_short short] at stopped
      cases stopped
      exact within
  | case2 cursor expected frames invalid =>
      rw [feedLoop_of_invalid invalid] at stopped
      cases stopped
  | case3 cursor expected frames start size ready short =>
      rw [feedLoop_of_ready ready, if_pos short] at stopped
      cases stopped
      exact readHeader_within ready within
  | case4 cursor expected frames start size ready enough ih =>
      have start := readHeader_within ready within
      rw [feedLoop_of_ready ready, if_neg enough] at stopped
      exact ih stopped (by omega)

end Rounds

/-- `Reset`. -/
def reset (decoder : FrameDecoder) : FrameDecoder :=
  { maxFrameSize := decoder.maxFrameSize }

/-- `BufferedBytes`. -/
def bufferedBytes (decoder : FrameDecoder) : Nat :=
  decoder.buffer.length - decoder.cursor

/-- `Compact`. -/
def compact (decoder : FrameDecoder) : FrameDecoder :=
  if decoder.cursor = decoder.buffer.length then
    { decoder with buffer := [], cursor := 0, within := Nat.zero_le _ }
  else if decoder.cursor < 64 * 1024 ∨ decoder.cursor * 2 < decoder.buffer.length then decoder
  else
    { decoder with
      buffer := decoder.buffer.drop decoder.cursor
      cursor := 0
      within := Nat.zero_le _ }

/-- `Feed`: the result, the frames it returns and the decoder afterwards. -/
def feed (decoder : FrameDecoder) (data : List UInt8) :
    FrameResult × List (List UInt8) × FrameDecoder :=
  match stopped : feedLoop decoder.maxFrameSize (decoder.buffer ++ data) decoder.cursor
      decoder.expectedPayloadSize [] with
  | .invalid => (.invalidHeader, [], decoder.reset)
  | .stopped cursor expected frames =>
      (.success, frames,
        compact
          { decoder with
            buffer := decoder.buffer ++ data
            cursor := cursor
            expectedPayloadSize := expected
            within := feedLoop_within stopped (by
              rw [List.length_append]
              exact Nat.le_add_right_of_le decoder.within) })

/-- Feeding one chunk after the other: what each call returned, and the decoder at the end. -/
def feedAll (decoder : FrameDecoder) :
    List (List UInt8) → List (FrameResult × List (List UInt8)) × FrameDecoder
  | [] => ([], decoder)
  | chunk :: rest =>
      let (result, frames, next) := decoder.feed chunk
      let (later, last) := next.feedAll rest
      ((result, frames) :: later, last)

end FrameDecoder

/-! ### Python framing -/

/-- `frame_batch`; a payload that does not fit the header raises. -/
def frameBatch : List (List UInt8) → Option (List UInt8)
  | [] => some []
  | payload :: rest =>
      if payload.length < 2 ^ 32 then
        (frameBatch rest).map fun later => writeBigEndianU32 payload.length ++ payload ++ later
      else none

/-- What a socket still delivers, in the pieces in which its data arrives. -/
abbrev SocketPieces := List (List UInt8)

/-- `sock.recv_into`: at most `room` bytes, and none only when the stream has ended. -/
def recvInto (room : Nat) : SocketPieces → List UInt8 × SocketPieces
  | [] => ([], [])
  | [] :: rest => recvInto room rest
  | (byte :: piece) :: rest =>
      ((byte :: piece).take room, (byte :: piece).drop room :: rest)

inductive RecvError where
  | incompleteRead
  | messageTooLarge
deriving DecidableEq, Repr

theorem length_recvInto_le (room : Nat) (pieces : SocketPieces) :
    (recvInto room pieces).1.length ≤ room := by
  induction pieces with
  | nil => exact Nat.zero_le room
  | cons piece rest ih =>
      cases piece with
      | nil => exact ih
      | cons byte piece => exact List.length_take_le _ _

/-- `_recv_exact`. -/
def recvExact (size : Nat) (pieces : SocketPieces) :
    Except RecvError (List UInt8) × SocketPieces :=
  if done : size = 0 then (.ok [], pieces)
  else
    let received := recvInto size pieces
    if ended : received.1 = [] then (.error .incompleteRead, received.2)
    else
      let (rest, last) := recvExact (size - received.1.length) received.2
      (rest.map fun later => received.1 ++ later, last)
termination_by size
decreasing_by
  have some : 0 < (recvInto size pieces).1.length := List.length_pos_of_ne_nil ended
  omega

/-- `recv_framed`. -/
def recvFramed (maxSize : Nat) (pieces : SocketPieces) :
    Except RecvError (List UInt8) × SocketPieces :=
  match recvExact kFrameHeaderSize pieces with
  | (.error error, last) => (.error error, last)
  | (.ok header, rest) =>
      if maxSize < readBigEndianU32 header then (.error .messageTooLarge, rest)
      else recvExact (readBigEndianU32 header) rest

/-- Reading several messages. -/
def recvMessages (maxSize : Nat) : Nat → SocketPieces →
    Except RecvError (List (List UInt8)) × SocketPieces
  | 0, pieces => (.ok [], pieces)
  | count + 1, pieces =>
      match recvFramed maxSize pieces with
      | (.error error, last) => (.error error, last)
      | (.ok payload, rest) =>
          let (later, last) := recvMessages maxSize count rest
          (later.map fun payloads => payload :: payloads, last)

end UsdConnect
