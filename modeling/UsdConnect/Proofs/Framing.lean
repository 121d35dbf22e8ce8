/-
Purpose: What the incremental decoder returns does not depend on how the stream is cut, up to the
  first invalid header; framed payloads come back from either reader.
Trusted boundary: none
Main exports: frameScanner, feedAll_chunks
-/
import UsdConnect.Codec.Framing
import UsdConnect.Lib.Scanner

namespace UsdConnect

/-! ### Headers -/

theorem readBigEndianU32_append {header : List UInt8} (full : kFrameHeaderSize ≤ header.length)
    (more : List UInt8) : readBigEndianU32 (header ++ more) = readBigEndianU32 header := by
  unfold readBigEndianU32
  rw [List.take_append_of_le_length full]

theorem length_writeBigEndianU32 (value : Nat) :
    (writeBigEndianU32 value).length = kFrameHeaderSize := by
  unfold writeBigEndianU32
  rw [List.length_reverse, length_leBytes]

theorem readBigEndianU32_write {value : Nat} (fits : value < 2 ^ 32) :
    readBigEndianU32 (writeBigEndianU32 value) = value := by
  unfold readBigEndianU32
  rw [List.take_of_length_le (length_writeBigEndianU32 value).le]
  unfold writeBigEndianU32
  rw [List.reverse_reverse]
  exact leNat_leBytes_of_lt fits

theorem tryReadFrameHeader_eq_some_iff {header : List UInt8} {maxFrameSize size : Nat} :
    tryReadFrameHeader header maxFrameSize = some size ↔
      readBigEndianU32 header = size ∧ size ≠ 0 ∧ size ≤ maxFrameSize := by
  unfold tryReadFrameHeader
  dsimp only
  constructor
  · intro accepted
    split at accepted
    · next valid =>
        cases accepted
        exact ⟨rfl, valid⟩
    · cases accepted
  · rintro ⟨rfl, valid⟩
    rw [if_pos valid]

theorem tryReadFrameHeader_append {header : List UInt8} (full : kFrameHeaderSize ≤ header.length)
    (more : List UInt8) (maxFrameSize : Nat) :
    tryReadFrameHeader (header ++ more) maxFrameSize = tryReadFrameHeader header maxFrameSize := by
  unfold tryReadFrameHeader
  rw [readBigEndianU32_append full]

/-! ### The decoder as a scanner -/

/-- Reading frames: the state is the size of the payload to come, zero before a header. -/
def frameMove (maxFrameSize expected : Nat) (input : List UInt8) :
    ScannerMove Nat (List UInt8) :=
  if expected = 0 then
    if input.length < kFrameHeaderSize then .wait
    else
      match tryReadFrameHeader input maxFrameSize with
      | none => .fail
      | some size => .take kFrameHeaderSize [] size
  else if input.length < expected then .wait
  else .take expected [input.take expected] 0

variable {maxFrameSize expected : Nat} {input : List UInt8}

theorem frameMove_header (full : kFrameHeaderSize ≤ input.length) :
    frameMove maxFrameSize 0 input =
      match tryReadFrameHeader input maxFrameSize with
      | none => .fail
      | some size => .take kFrameHeaderSize [] size := by
  unfold frameMove
  rw [if_pos rfl, if_neg (by omega)]

theorem frameMove_payload (waiting : expected ≠ 0) (full : expected ≤ input.length) :
    frameMove maxFrameSize expected input = .take expected [input.take expected] 0 := by
  unfold frameMove
  rw [if_neg waiting, if_neg (by omega)]

/-- Moves other than waiting: a whole header or a whole payload is there. -/
theorem frameMove_cases (moved : frameMove maxFrameSize expected input ≠ .wait) :
    (expected = 0 ∧ kFrameHeaderSize ≤ input.length) ∨
      (expected ≠ 0 ∧ expected ≤ input.length) := by
  unfold frameMove at moved
  split at moved
  · next start =>
      split at moved
      · exact absurd rfl moved
      · exact Or.inl ⟨start, by omega⟩
  · next waiting =>
      split at moved
      · exact absurd rfl moved
      · exact Or.inr ⟨waiting, by omega⟩

theorem frameMove_append (moved : frameMove maxFrameSize expected input ≠ .wait)
    (more : List UInt8) :
    frameMove maxFrameSize expected (input ++ more) = frameMove maxFrameSize expected input := by
  have longer : input.length ≤ (input ++ more).length := by
    rw [List.length_append]
    exact Nat.le_add_right _ _
  rcases frameMove_cases moved with ⟨rfl, full⟩ | ⟨waiting, full⟩
  · rw [frameMove_header full, frameMove_header (full.trans longer),
      tryReadFrameHeader_append full]
  · rw [frameMove_payload waiting full, frameMove_payload waiting (full.trans longer),
      List.take_append_of_le_length full]

def frameScanner (maxFrameSize : Nat) : Scanner Nat UInt8 (List UInt8) where
  move := frameMove maxFrameSize
  progress := by
    intro expected input count output next moved
    rcases frameMove_cases (by rw [moved]; exact nofun) with ⟨rfl, full⟩ | ⟨waiting, full⟩
    · rw [frameMove_header full] at moved
      split at moved
      · cases moved
      · cases moved
        exact ⟨by decide, full⟩
    · rw [frameMove_payload waiting full] at moved
      cases moved
      exact ⟨Nat.pos_of_ne_zero waiting, full⟩
  take_append := by
    intro expected input count output next more moved
    rw [frameMove_append (by rw [moved]; exact nofun)]
    exact moved
  fail_append := by
    intro expected input more moved
    rw [frameMove_append (by rw [moved]; exact nofun)]
    exact moved

@[simp] theorem frameScanner_move (maxFrameSize : Nat) :
    (frameScanner maxFrameSize).move = frameMove maxFrameSize := rfl

/-- The frames of a stream read in one piece, and how reading it ends. -/
def frameScan (maxFrameSize : Nat) (stream : List UInt8) :
    List (List UInt8) × ScanEnd Nat UInt8 :=
  (frameScanner maxFrameSize).scan 0 stream

/-- A scanner that waits goes past the start of what comes next before it can fail. -/
theorem failed_behind {pending more rest : List UInt8} {frames : List (List UInt8)}
    (waits : (frameScanner maxFrameSize).move expected pending = .wait)
    (failed : (frameScanner maxFrameSize).scan expected (pending ++ more) =
      (frames, .failed rest)) : rest.length < more.length + kFrameHeaderSize := by
  have behind := (Scanner.move_of_failed failed).2.length_le
  rw [List.length_append] at behind
  change frameMove maxFrameSize expected pending = .wait at waits
  by_cases start : expected = 0
  · subst start
    have short : pending.length < kFrameHeaderSize := by
      by_contra full
      rw [frameMove_header (by omega)] at waits
      split at waits <;> cases waits
    omega
  · have short : pending.length < expected := by
      by_contra full
      rw [frameMove_payload start (by omega)] at waits
      cases waits
    by_cases full : expected ≤ (pending ++ more).length
    · have taken : (frameScanner maxFrameSize).move expected (pending ++ more) = _ :=
        frameMove_payload start full
      rw [Scanner.scan_of_take taken] at failed
      have tail := (Scanner.move_of_failed (Prod.ext rfl (Prod.mk.inj failed).2)).2.length_le
      rw [List.length_drop, List.length_append] at tail
      have four : kFrameHeaderSize = 4 := rfl
      omega
    · have waitsOn : (frameScanner maxFrameSize).move expected (pending ++ more) = .wait := by
        by_contra moved
        rcases frameMove_cases moved with ⟨zero, _⟩ | ⟨_, enough⟩
        · exact start zero
        · exact full enough
      rw [Scanner.scan_of_wait waitsOn] at failed
      cases failed

/-- A failure is noticed with the last byte of the header. -/
theorem failed_header {rest : List UInt8} {frames : List (List UInt8)}
    (failed : (frameScanner maxFrameSize).scan expected input = (frames, .failed rest)) :
    kFrameHeaderSize ≤ rest.length := by
  obtain ⟨⟨stands, fails⟩, _⟩ := Scanner.move_of_failed failed
  change frameMove maxFrameSize stands rest = .fail at fails
  rcases frameMove_cases (by rw [fails]; exact nofun) with ⟨_, full⟩ | ⟨waiting, full⟩
  · exact full
  · rw [frameMove_payload waiting full] at fails
    cases fails

namespace FrameDecoder

/-! ### One call -/

variable {buffer : List UInt8} {cursor : Nat} {frames : List (List UInt8)}

/-- What reading the header of a round means for the scan of the unread bytes. -/
theorem scan_readHeader :
    match readHeader maxFrameSize buffer cursor expected with
    | .short => expected = 0 ∧
        (frameScanner maxFrameSize).move expected (buffer.drop cursor) = .wait
    | .invalid => (frameScanner maxFrameSize).move expected (buffer.drop cursor) = .fail
    | .ready start size => size ≠ 0 ∧
        (frameScanner maxFrameSize).scan expected (buffer.drop cursor) =
          (frameScanner maxFrameSize).scan size (buffer.drop start) := by
  unfold readHeader
  by_cases waiting : expected ≠ 0
  · rw [if_pos waiting]
    exact ⟨waiting, rfl⟩
  · rw [if_neg waiting]
    obtain rfl : expected = 0 := by simpa using waiting
    by_cases short : buffer.length - cursor < kFrameHeaderSize
    · rw [if_pos short]
      refine ⟨rfl, ?_⟩
      change frameMove maxFrameSize 0 (buffer.drop cursor) = .wait
      unfold frameMove
      rw [if_pos rfl, if_pos (by rw [List.length_drop]; exact short)]
    · rw [if_neg short]
      have full : kFrameHeaderSize ≤ (buffer.drop cursor).length := by
        rw [List.length_drop]
        omega
      have moves : (frameScanner maxFrameSize).move 0 (buffer.drop cursor) = _ :=
        frameMove_header full
      cases accepted : tryReadFrameHeader (buffer.drop cursor) maxFrameSize with
      | none =>
          rw [accepted] at moves
          exact moves
      | some size =>
          rw [accepted] at moves
          refine ⟨(tryReadFrameHeader_eq_some_iff.1 accepted).2.1, ?_⟩
          rw [Scanner.scan_of_take moves, List.drop_drop]
          rfl

theorem scan_short (read : readHeader maxFrameSize buffer cursor expected = .short) :
    (frameScanner maxFrameSize).move expected (buffer.drop cursor) = .wait := by
  have known := @scan_readHeader maxFrameSize expected buffer cursor
  rw [read] at known
  exact known.2

theorem scan_invalid (read : readHeader maxFrameSize buffer cursor expected = .invalid) :
    (frameScanner maxFrameSize).move expected (buffer.drop cursor) = .fail := by
  have known := @scan_readHeader maxFrameSize expected buffer cursor
  rw [read] at known
  exact known

theorem scan_ready {start size : Nat}
    (read : readHeader maxFrameSize buffer cursor expected = .ready start size) :
    size ≠ 0 ∧ (frameScanner maxFrameSize).scan expected (buffer.drop cursor) =
      (frameScanner maxFrameSize).scan size (buffer.drop start) := by
  have known := @scan_readHeader maxFrameSize expected buffer cursor
  rw [read] at known
  exact known

theorem feedLoop_scan :
    match (frameScanner maxFrameSize).scan expected (buffer.drop cursor) with
    | (outputs, .waiting stands rest) => ∃ stop,
        feedLoop maxFrameSize buffer cursor expected frames =
          .stopped stop stands (frames ++ outputs) ∧ buffer.drop stop = rest
    | (_, .failed _) => feedLoop maxFrameSize buffer cursor expected frames = .invalid := by
  induction cursor, expected, frames using feedLoop.induct maxFrameSize buffer with
  | case1 cursor expected frames short =>
      rw [feedLoop_of_short short, Scanner.scan_of_wait (scan_short short)]
      exact ⟨cursor, by rw [List.append_nil], rfl⟩
  | case2 cursor expected frames invalid =>
      rw [feedLoop_of_invalid invalid, Scanner.scan_of_fail (scan_invalid invalid)]
  | case3 cursor expected frames start size ready short =>
      have header := scan_ready ready
      have waits : (frameScanner maxFrameSize).move size (buffer.drop start) = .wait := by
        change frameMove maxFrameSize size (buffer.drop start) = .wait
        unfold frameMove
        rw [if_neg header.1, if_pos (by rw [List.length_drop]; exact short)]
      rw [feedLoop_of_ready ready, if_pos short, header.2, Scanner.scan_of_wait waits]
      exact ⟨start, by rw [List.append_nil], rfl⟩
  | case4 cursor expected frames start size ready enough ih =>
      have header := scan_ready ready
      have taken : (frameScanner maxFrameSize).move size (buffer.drop start) =
          .take size [(buffer.drop start).take size] 0 :=
        frameMove_payload header.1 (by rw [List.length_drop]; omega)
      rw [feedLoop_of_ready ready, if_neg enough, header.2, Scanner.scan_of_take taken,
        List.drop_drop]
      split at ih
      · next outputs stands rest scanned =>
          rw [scanned]
          obtain ⟨stop, ends, unread⟩ := ih
          exact ⟨stop, by rw [ends, List.append_assoc], unread⟩
      · next scanned =>
          rw [scanned]
          exact ih

/-- The bytes a decoder holds and has not used. -/
def pending (decoder : FrameDecoder) : List UInt8 :=
  decoder.buffer.drop decoder.cursor

theorem bufferedBytes_eq (decoder : FrameDecoder) :
    decoder.bufferedBytes = decoder.pending.length := by
  unfold pending bufferedBytes
  rw [List.length_drop]

/-- Compaction only gives up bytes that have been used. -/
theorem compact_keeps (decoder : FrameDecoder) :
    decoder.compact.pending = decoder.pending ∧
      decoder.compact.expectedPayloadSize = decoder.expectedPayloadSize ∧
      decoder.compact.maxFrameSize = decoder.maxFrameSize := by
  unfold compact
  split
  · next consumed =>
      refine ⟨?_, rfl, rfl⟩
      unfold pending
      rw [consumed, List.drop_length]
      rfl
  · split
    · exact ⟨rfl, rfl, rfl⟩
    · refine ⟨?_, rfl, rfl⟩
      unfold pending
      exact List.drop_zero

variable {decoder : FrameDecoder} {data : List UInt8}

theorem drop_append_data : (decoder.buffer ++ data).drop decoder.cursor = decoder.pending ++ data :=
  List.drop_append_of_le_length decoder.within

/-- A call whose bytes contain no invalid header. -/
theorem feed_of_waiting {outputs : List (List UInt8)} {stands : Nat} {rest : List UInt8}
    (scanned : (frameScanner decoder.maxFrameSize).scan decoder.expectedPayloadSize
      (decoder.pending ++ data) = (outputs, .waiting stands rest)) :
    (decoder.feed data).1 = .success ∧ (decoder.feed data).2.1 = outputs ∧
      (decoder.feed data).2.2.pending = rest ∧
      (decoder.feed data).2.2.expectedPayloadSize = stands ∧
      (decoder.feed data).2.2.maxFrameSize = decoder.maxFrameSize := by
  have loop := @feedLoop_scan decoder.maxFrameSize decoder.expectedPayloadSize
    (decoder.buffer ++ data) decoder.cursor []
  rw [drop_append_data, scanned] at loop
  obtain ⟨stop, ends, unread⟩ := loop
  unfold feed
  split
  · next other =>
      rw [ends] at other
      cases other
  · next cursor expected frames stopped =>
      rw [ends] at stopped
      cases stopped
      obtain ⟨kept, size, limit⟩ := compact_keeps
        { decoder with
          buffer := decoder.buffer ++ data
          cursor := stop
          expectedPayloadSize := stands
          within := feedLoop_within ends (by
            rw [List.length_append]
            exact Nat.le_add_right_of_le decoder.within) }
      exact ⟨rfl, rfl, kept.trans unread, size, limit⟩

/-- A call whose bytes complete an invalid header returns no frames and forgets everything. -/
theorem feed_of_failed {outputs : List (List UInt8)} {rest : List UInt8}
    (scanned : (frameScanner decoder.maxFrameSize).scan decoder.expectedPayloadSize
      (decoder.pending ++ data) = (outputs, .failed rest)) :
    decoder.feed data = (.invalidHeader, [], decoder.reset) := by
  have loop := @feedLoop_scan decoder.maxFrameSize decoder.expectedPayloadSize
    (decoder.buffer ++ data) decoder.cursor []
  rw [drop_append_data, scanned] at loop
  unfold feed
  split
  · rfl
  · next stopped =>
      rw [loop] at stopped
      cases stopped

/-! ### All calls -/

/-- The decoder has been fed these bytes without an error and has returned these frames. -/
structure Fed (decoder : FrameDecoder) (consumed : List UInt8) (frames : List (List UInt8)) :
    Prop where
  scanned : frameScan decoder.maxFrameSize consumed =
    (frames, .waiting decoder.expectedPayloadSize decoder.pending)

theorem fed_start : Fed { maxFrameSize := maxFrameSize } [] [] := by
  constructor
  apply Scanner.scan_of_wait
  rfl

/-- The scan of one more chunk goes on from what the decoder holds. -/
theorem Fed.scan_append {consumed : List UInt8} (fed : decoder.Fed consumed frames)
    (data : List UInt8) :
    frameScan decoder.maxFrameSize (consumed ++ data) =
      (frames ++ ((frameScanner decoder.maxFrameSize).scan decoder.expectedPayloadSize
          (decoder.pending ++ data)).1,
        ((frameScanner decoder.maxFrameSize).scan decoder.expectedPayloadSize
          (decoder.pending ++ data)).2) :=
  Scanner.scan_append_waiting fed.scanned data

/-- Calls that succeed: the frames they return together, and the bytes left. -/
structure Succeeds (decoder : FrameDecoder) (chunks : List (List UInt8))
    (frames : List (List UInt8)) (buffered : Nat) : Prop where
  results : ∀ call ∈ (decoder.feedAll chunks).1, call.1 = .success
  frames : (decoder.feedAll chunks).1.flatMap (·.2) = frames
  buffered : (decoder.feedAll chunks).2.bufferedBytes = buffered

/-- The call that receives the byte before `position` is the first to fail: the calls before it
return the frames of their bytes, it returns none, and nothing stays buffered. -/
structure FailsAt (decoder : FrameDecoder) (before : List (List UInt8)) (chunk : List UInt8)
    (frames : List (List UInt8)) (position : Nat) : Prop where
  sooner : ∃ buffered, decoder.Succeeds before frames buffered
  behind : before.flatten.length < position
  reached : position ≤ before.flatten.length + chunk.length
  fails : (decoder.feedAll before).2.feed chunk = (.invalidHeader, [], decoder.reset)

/-- One successful call. -/
theorem Fed.feed {consumed outputs rest : _} {stands : Nat} (fed : decoder.Fed consumed frames)
    (scanned : (frameScanner decoder.maxFrameSize).scan decoder.expectedPayloadSize
      (decoder.pending ++ data) = (outputs, .waiting stands rest)) :
    (decoder.feed data).1 = .success ∧ (decoder.feed data).2.1 = outputs ∧
      (decoder.feed data).2.2.maxFrameSize = decoder.maxFrameSize ∧
      (decoder.feed data).2.2.Fed (consumed ++ data) (frames ++ outputs) := by
  obtain ⟨returned, delivered, unread, size, limit⟩ := feed_of_waiting scanned
  refine ⟨returned, delivered, limit, ⟨?_⟩⟩
  rw [limit, unread, size, fed.scan_append, scanned]

theorem feedAll_cons (chunk : List UInt8) (rest : List (List UInt8)) :
    decoder.feedAll (chunk :: rest) =
      (((decoder.feed chunk).1, (decoder.feed chunk).2.1) ::
          ((decoder.feed chunk).2.2.feedAll rest).1,
        ((decoder.feed chunk).2.2.feedAll rest).2) := rfl

/-- A successful call before other calls. -/
theorem Succeeds.cons {chunks : List (List UInt8)} {chunk : List UInt8} {buffered : Nat}
    {outputs : List (List UInt8)} (returned : (decoder.feed chunk).1 = .success)
    (delivered : (decoder.feed chunk).2.1 = outputs)
    (later : (decoder.feed chunk).2.2.Succeeds chunks frames buffered) :
    decoder.Succeeds (chunk :: chunks) (outputs ++ frames) buffered := by
  constructor
  · rw [feedAll_cons]
    intro call member
    rcases List.mem_cons.1 member with rfl | tail
    · exact returned
    · exact later.results call tail
  · rw [feedAll_cons, List.flatMap_cons, delivered, later.frames]
  · rw [feedAll_cons]
    exact later.buffered

/-- From any point of a stream without an error so far. -/
theorem Fed.feedAll {consumed : List UInt8} (fed : decoder.Fed consumed frames)
    (chunks : List (List UInt8)) :
    (∀ all stands rest,
      frameScan decoder.maxFrameSize (consumed ++ chunks.flatten) = (all, .waiting stands rest) →
        ∃ outputs, all = frames ++ outputs ∧ decoder.Succeeds chunks outputs rest.length) ∧
    (∀ all rest,
      frameScan decoder.maxFrameSize (consumed ++ chunks.flatten) = (all, .failed rest) →
        ∃ before chunk after outputs, chunks = before ++ chunk :: after ∧
          (frameScan decoder.maxFrameSize (consumed ++ before.flatten)).1 = frames ++ outputs ∧
          frames ++ outputs <+: all ∧
          decoder.FailsAt before chunk outputs
            (chunks.flatten.length + kFrameHeaderSize - rest.length)) := by
  induction chunks generalizing decoder consumed frames with
  | nil =>
      rw [List.flatten_nil, List.append_nil, fed.scanned]
      constructor
      · intro all stands rest same
        cases same
        refine ⟨[], (List.append_nil _).symm, ⟨nofun, rfl, ?_⟩⟩
        exact bufferedBytes_eq decoder
      · intro all rest same
        cases same
  | cons chunk later ih =>
      rw [List.flatten_cons, ← List.append_assoc]
      rcases scanned : (frameScanner decoder.maxFrameSize).scan decoder.expectedPayloadSize
        (decoder.pending ++ chunk) with ⟨outputs, ⟨stands, unread⟩ | unread⟩
      · obtain ⟨returned, delivered, limit, next⟩ := fed.feed scanned
        obtain ⟨goesOn, fails⟩ := ih next
        rw [limit] at goesOn fails
        constructor
        · intro all final rest whole
          obtain ⟨others, joined, succeeds⟩ := goesOn all final rest whole
          refine ⟨outputs ++ others, by rw [joined, List.append_assoc], ?_⟩
          exact succeeds.cons returned delivered
        · intro all rest whole
          obtain ⟨before, failing, after, others, cut, sooner, early, failure⟩ := fails all rest whole
          have short := (Scanner.move_of_failed whole).2.length_le
          refine ⟨chunk :: before, failing, after, outputs ++ others, by rw [cut]; rfl, ?_, ?_, ?_⟩
          · rw [List.flatten_cons, ← List.append_assoc, sooner, List.append_assoc]
          · rw [← List.append_assoc]
            exact early
          · obtain ⟨⟨buffered, succeeds⟩, behind, reached, ends⟩ := failure
            have bound : rest.length ≤ later.flatten.length + kFrameHeaderSize := by
              have tail := failed_behind (Scanner.move_of_waiting next.scanned) (by
                have goes := next.scan_append later.flatten
                rw [limit] at goes
                rw [whole] at goes
                rw [limit]
                exact Prod.ext rfl (Prod.mk.inj goes).2.symm)
              omega
            refine ⟨⟨buffered, succeeds.cons returned delivered⟩, ?_, ?_, ?_⟩
            · rw [List.flatten_cons, List.length_append, List.length_append]
              omega
            · rw [List.flatten_cons, List.length_append, List.length_append]
              omega
            · rw [feedAll_cons]
              have same : (decoder.feed chunk).2.2.reset = decoder.reset := by
                unfold reset
                rw [limit]
              rw [← same]
              exact ends
      · have whole := fed.scan_append chunk
        rw [scanned] at whole
        constructor
        · intro all final rest other
          rw [frameScan, Scanner.scan_append_failed whole] at other
          cases other
        · intro all rest other
          rw [frameScan, Scanner.scan_append_failed whole] at other
          cases other
          have enough := failed_header scanned
          have behind := failed_behind (Scanner.move_of_waiting fed.scanned) scanned
          have inside := (Scanner.move_of_failed scanned).2.length_le
          refine ⟨[], chunk, later, [], rfl, ?_, ?_, ⟨⟨_, nofun, rfl, rfl⟩, ?_, ?_, ?_⟩⟩
          · rw [List.flatten_nil, List.append_nil, fed.scanned, List.append_nil]
          · rw [List.append_nil]
            exact List.prefix_append _ _
          · rw [List.length_append, List.length_append, List.flatten_nil, List.length_nil]
            have four : kFrameHeaderSize = 4 := rfl
            omega
          · rw [List.length_append, List.length_append, List.flatten_nil, List.length_nil]
            omega
          · exact feed_of_failed scanned

end FrameDecoder

/-! ### Framed payloads -/

/-- A payload that either encoder accepts. -/
def SendablePayload (maxFrameSize : Nat) (payload : List UInt8) : Prop :=
  payload ≠ [] ∧ payload.length ≤ maxFrameSize

section Payloads

variable {payload : List UInt8} {payloads : List (List UInt8)}

theorem isValidMaxFrameSize_iff :
    isValidMaxFrameSize maxFrameSize = true ↔ maxFrameSize ≠ 0 ∧ maxFrameSize < 2 ^ 32 := by
  unfold isValidMaxFrameSize
  rw [Bool.and_eq_true, decide_eq_true_eq, decide_eq_true_eq]
  constructor
  · rintro ⟨positive, bound⟩
    exact ⟨positive, by omega⟩
  · rintro ⟨positive, bound⟩
    exact ⟨positive, by omega⟩

theorem SendablePayload.length_lt (valid : isValidMaxFrameSize maxFrameSize = true)
    (sendable : SendablePayload maxFrameSize payload) : payload.length < 2 ^ 32 :=
  lt_of_le_of_lt sendable.2 (isValidMaxFrameSize_iff.1 valid).2

theorem encodeFrame_of_sendable (valid : isValidMaxFrameSize maxFrameSize = true)
    (sendable : SendablePayload maxFrameSize payload) :
    encodeFrame payload maxFrameSize =
      (.success, writeBigEndianU32 payload.length ++ payload) := by
  have size : validateFrameSize payload.length maxFrameSize = .success := by
    unfold validateFrameSize
    rw [valid, if_neg (by decide), if_neg (List.length_pos_of_ne_nil sendable.1).ne',
      if_neg (Nat.not_lt.2 sendable.2)]
  unfold encodeFrame
  rw [size]

theorem frameBatch_of_sendable (valid : isValidMaxFrameSize maxFrameSize = true)
    (sendable : ∀ payload ∈ payloads, SendablePayload maxFrameSize payload) :
    frameBatch payloads =
      some (payloads.flatMap fun payload => (encodeFrame payload maxFrameSize).2) := by
  induction payloads with
  | nil => rfl
  | cons payload rest ih =>
      have first := sendable payload List.mem_cons_self
      rw [frameBatch, if_pos (first.length_lt valid),
        ih fun other member => sendable other (List.mem_cons_of_mem payload member),
        List.flatMap_cons, encodeFrame_of_sendable valid first]
      rfl

theorem scan_frame (valid : isValidMaxFrameSize maxFrameSize = true)
    (sendable : SendablePayload maxFrameSize payload) (stream : List UInt8) :
    frameScan maxFrameSize (writeBigEndianU32 payload.length ++ payload ++ stream) =
      (payload :: (frameScan maxFrameSize stream).1, (frameScan maxFrameSize stream).2) := by
  have size := length_writeBigEndianU32 payload.length
  have header : tryReadFrameHeader (writeBigEndianU32 payload.length ++ (payload ++ stream))
      maxFrameSize = some payload.length := by
    rw [tryReadFrameHeader_append size.ge]
    apply tryReadFrameHeader_eq_some_iff.2
    exact ⟨readBigEndianU32_write (sendable.length_lt valid),
      (List.length_pos_of_ne_nil sendable.1).ne', sendable.2⟩
  have headerMove : (frameScanner maxFrameSize).move 0
      (writeBigEndianU32 payload.length ++ (payload ++ stream)) =
      .take kFrameHeaderSize [] payload.length := by
    rw [frameScanner_move, frameMove_header, header]
    rw [List.length_append, size]
    exact Nat.le_add_right _ _
  have payloadMove : (frameScanner maxFrameSize).move payload.length (payload ++ stream) =
      .take payload.length [payload] 0 := by
    rw [frameScanner_move, frameMove_payload (List.length_pos_of_ne_nil sendable.1).ne', List.take_left' rfl]
    rw [List.length_append]
    exact Nat.le_add_right _ _
  unfold frameScan
  rw [List.append_assoc, Scanner.scan_of_take headerMove, List.drop_left' size,
    Scanner.scan_of_take payloadMove, List.drop_left' rfl]
  rfl

theorem frameScan_frames (valid : isValidMaxFrameSize maxFrameSize = true)
    (sendable : ∀ payload ∈ payloads, SendablePayload maxFrameSize payload) :
    frameScan maxFrameSize
        (payloads.flatMap fun payload => (encodeFrame payload maxFrameSize).2) =
      (payloads, .waiting 0 []) := by
  induction payloads with
  | nil => exact Scanner.scan_of_wait rfl
  | cons payload rest ih =>
      have first := sendable payload List.mem_cons_self
      rw [List.flatMap_cons, encodeFrame_of_sendable valid first, scan_frame valid first,
        ih fun other member => sendable other (List.mem_cons_of_mem payload member)]

/-! ### The blocking reader -/

/-- A piece is the start of what the socket still delivers, and is empty only at its end. -/
theorem recvInto_spec {room : Nat} (asks : 0 < room) (pieces : SocketPieces) :
    (recvInto room pieces).1 ++ (recvInto room pieces).2.flatten = pieces.flatten ∧
      ((recvInto room pieces).1 = [] → pieces.flatten = []) := by
  induction pieces with
  | nil => exact ⟨rfl, fun _ => rfl⟩
  | cons piece rest ih =>
      cases piece with
      | nil => exact ih
      | cons byte piece =>
          constructor
          · rw [recvInto, List.flatten_cons, List.flatten_cons, ← List.append_assoc,
              List.take_append_drop]
          · intro nothing
            exfalso
            rw [recvInto, List.take_eq_nil_iff] at nothing
            rcases nothing with none | empty
            · omega
            · cases empty

/-- Exactly the bytes asked for, when the socket delivers that many. -/
theorem recvExact_spec {size : Nat} {pieces : SocketPieces} {wanted later : List UInt8}
    (delivers : pieces.flatten = wanted ++ later) (long : wanted.length = size) :
    ∃ last, recvExact size pieces = (.ok wanted, last) ∧ last.flatten = later := by
  induction size using Nat.strongRecOn generalizing pieces wanted with
  | _ size ih =>
      rw [recvExact]
      split
      · next done =>
          rw [done] at long
          have empty := List.length_eq_zero_iff.1 long
          rw [empty] at delivers ⊢
          exact ⟨pieces, rfl, delivers⟩
      · next asks =>
          obtain ⟨joined, ends⟩ := recvInto_spec (Nat.pos_of_ne_zero asks) pieces
          have bounded := length_recvInto_le size pieces
          dsimp only
          split
          · next nothing =>
              exfalso
              have silent := ends nothing
              rw [delivers] at silent
              rw [(List.append_eq_nil_iff.1 silent).1] at long
              exact asks long.symm
          · next something =>
              have some := List.length_pos_of_ne_nil something
              rw [delivers] at joined
              obtain ⟨rest, split⟩ : (recvInto size pieces).1 <+: wanted := by
                apply List.prefix_of_prefix_length_le _ (List.prefix_append wanted later)
                · rw [long]
                  exact bounded
                · rw [← joined]
                  exact List.prefix_append _ _
              rw [← split, List.append_assoc] at joined
              have remaining := List.append_cancel_left joined
              have sizes := congrArg List.length split
              rw [List.length_append] at sizes
              obtain ⟨last, read, left⟩ := ih (size - (recvInto size pieces).1.length) (by omega)
                remaining (by omega)
              refine ⟨last, ?_, left⟩
              rw [read, ← split]
              rfl

theorem recvFramed_spec (valid : isValidMaxFrameSize maxFrameSize = true)
    (sendable : SendablePayload maxFrameSize payload) {pieces : SocketPieces}
    {later : List UInt8}
    (delivers : pieces.flatten = (encodeFrame payload maxFrameSize).2 ++ later) :
    ∃ last, recvFramed maxFrameSize pieces = (.ok payload, last) ∧ last.flatten = later := by
  rw [encodeFrame_of_sendable valid sendable, List.append_assoc] at delivers
  obtain ⟨rest, header, behind⟩ :=
    recvExact_spec delivers (length_writeBigEndianU32 payload.length)
  obtain ⟨last, body, left⟩ := recvExact_spec behind rfl
  refine ⟨last, ?_, left⟩
  unfold recvFramed
  rw [header]
  dsimp only
  rw [readBigEndianU32_write (sendable.length_lt valid), if_neg (Nat.not_lt.2 sendable.2)]
  exact body

/-- Repeated reading gives the payloads back, in whatever pieces they arrive. -/
theorem recvMessages_spec (valid : isValidMaxFrameSize maxFrameSize = true)
    (sendable : ∀ payload ∈ payloads, SendablePayload maxFrameSize payload)
    {pieces : SocketPieces}
    (delivers : pieces.flatten =
      payloads.flatMap fun payload => (encodeFrame payload maxFrameSize).2) :
    ∃ last, recvMessages maxFrameSize payloads.length pieces = (.ok payloads, last) ∧
      last.flatten = [] := by
  induction payloads generalizing pieces with
  | nil => exact ⟨pieces, rfl, delivers⟩
  | cons payload rest ih =>
      rw [List.flatMap_cons] at delivers
      obtain ⟨middle, first, behind⟩ :=
        recvFramed_spec valid (sendable payload List.mem_cons_self) delivers
      obtain ⟨last, others, left⟩ :=
        ih (fun other member => sendable other (List.mem_cons_of_mem payload member)) behind
      refine ⟨last, ?_, left⟩
      rw [List.length_cons, recvMessages, first]
      dsimp only
      rw [others]
      rfl

end Payloads

/-! ### Chunks -/

/-- However a stream is cut, the decoder returns the frames that the stream has and keeps the bytes
behind them, or fails in the call that receives the last byte of the first invalid header, after
returning the frames that earlier calls completed.  Framed payloads are the frames of their stream,
and the blocking reader returns them too. -/
theorem feedAll_chunks (maxFrameSize : Nat) (valid : isValidMaxFrameSize maxFrameSize = true) :
    (∀ chunks : List (List UInt8),
      match frameScan maxFrameSize chunks.flatten with
      | (frames, .waiting _ rest) =>
          ({ maxFrameSize := maxFrameSize } : FrameDecoder).Succeeds chunks frames rest.length
      | (frames, .failed rest) => ∃ before chunk after,
          chunks = before ++ chunk :: after ∧
            (frameScan maxFrameSize before.flatten).1 <+: frames ∧
            ({ maxFrameSize := maxFrameSize } : FrameDecoder).FailsAt before chunk
              (frameScan maxFrameSize before.flatten).1
              (chunks.flatten.length + kFrameHeaderSize - rest.length)) ∧
      ∀ payloads, (∀ payload ∈ payloads, SendablePayload maxFrameSize payload) →
        ∃ stream, frameBatch payloads = some stream ∧
          (payloads.flatMap fun payload => (encodeFrame payload maxFrameSize).2) = stream ∧
          frameScan maxFrameSize stream = (payloads, .waiting 0 []) ∧
          ∀ pieces : SocketPieces, pieces.flatten = stream →
            ∃ last, recvMessages maxFrameSize payloads.length pieces = (.ok payloads, last) ∧
              last.flatten = [] := by
  constructor
  · intro chunks
    obtain ⟨succeeds, fails⟩ := (@FrameDecoder.fed_start maxFrameSize).feedAll chunks
    rw [List.nil_append] at succeeds fails
    split
    · next frames stands rest scanned =>
        obtain ⟨outputs, same, all⟩ := succeeds frames stands rest scanned
        rw [List.nil_append] at same
        rw [same]
        exact all
    · next frames rest scanned =>
        obtain ⟨before, chunk, after, outputs, cut, sooner, early, failure⟩ :=
          fails frames rest scanned
        rw [List.nil_append, List.nil_append] at sooner
        rw [List.nil_append] at early
        refine ⟨before, chunk, after, cut, ?_, ?_⟩
        · rw [sooner]
          exact early
        · rw [sooner]
          exact failure
  · intro payloads sendable
    exact ⟨_, frameBatch_of_sendable valid sendable, rfl, frameScan_frames valid sendable,
      fun pieces delivers => recvMessages_spec valid sendable delivers⟩

theorem feedAll_chunks_eight :
    (∀ chunks : List (List UInt8),
      match frameScan 8 chunks.flatten with
      | (frames, .waiting _ rest) =>
          ({ maxFrameSize := 8 } : FrameDecoder).Succeeds chunks frames rest.length
      | (frames, .failed rest) => ∃ before chunk after,
          chunks = before ++ chunk :: after ∧ (frameScan 8 before.flatten).1 <+: frames ∧
            ({ maxFrameSize := 8 } : FrameDecoder).FailsAt before chunk
              (frameScan 8 before.flatten).1
              (chunks.flatten.length + kFrameHeaderSize - rest.length)) ∧
      ∀ payloads, (∀ payload ∈ payloads, SendablePayload 8 payload) →
        ∃ stream, frameBatch payloads = some stream ∧
          (payloads.flatMap fun payload => (encodeFrame payload 8).2) = stream ∧
          frameScan 8 stream = (payloads, .waiting 0 []) ∧
          ∀ pieces : SocketPieces, pieces.flatten = stream →
            ∃ last, recvMessages 8 payloads.length pieces = (.ok payloads, last) ∧
              last.flatten = [] :=
  feedAll_chunks 8 (by decide)

/-- A frame with one byte and an invalid header behind it: in one chunk the frame is lost, cut between
the two it is returned. -/
theorem feedAll_depends_on_cut :
    ¬ ∀ (maxFrameSize : Nat) (first second : List (List UInt8)),
      isValidMaxFrameSize maxFrameSize = true → first.flatten = second.flatten →
        (({ maxFrameSize := maxFrameSize } : FrameDecoder).feedAll first).1.flatMap (·.2) =
          (({ maxFrameSize := maxFrameSize } : FrameDecoder).feedAll second).1.flatMap (·.2) := by
  intro same
  have valid : isValidMaxFrameSize 8 = true := by decide
  have sendable : SendablePayload 8 [7] := ⟨by decide, by decide⟩
  have header : frameScan 8 [0, 0, 0, 0] = ([], .failed [0, 0, 0, 0]) :=
    Scanner.scan_of_fail rfl
  have whole : frameScan 8 [0, 0, 0, 1, 7, 0, 0, 0, 0] = ([[7]], .failed [0, 0, 0, 0]) := by
    have framed := scan_frame valid sendable [0, 0, 0, 0]
    rw [header] at framed
    exact framed
  have alone : frameScan 8 [0, 0, 0, 1, 7] = ([[7]], .waiting 0 []) := by
    have framed := scan_frame valid sendable []
    rw [show frameScan 8 [] = ([], .waiting 0 []) from Scanner.scan_of_wait rfl] at framed
    exact framed
  have lost : ({ maxFrameSize := 8 } : FrameDecoder).feed [0, 0, 0, 1, 7, 0, 0, 0, 0] =
      (.invalidHeader, [], { maxFrameSize := 8 }) := FrameDecoder.feed_of_failed whole
  have first : (frameScanner 8).scan 0
      (({ maxFrameSize := 8 } : FrameDecoder).pending ++ [0, 0, 0, 1, 7]) =
      ([[7]], .waiting 0 []) := alone
  have delivered : (({ maxFrameSize := 8 } : FrameDecoder).feed [0, 0, 0, 1, 7]).2.1 = [[7]] :=
    (@FrameDecoder.feed_of_waiting { maxFrameSize := 8 } _ _ _ _ first).2.1
  have both := same 8 [[0, 0, 0, 1, 7, 0, 0, 0, 0]] [[0, 0, 0, 1, 7], [0, 0, 0, 0]] valid rfl
  rw [FrameDecoder.feedAll_cons, FrameDecoder.feedAll_cons, lost, List.flatMap_cons,
    List.flatMap_cons, delivered] at both
  cases both

end UsdConnect
