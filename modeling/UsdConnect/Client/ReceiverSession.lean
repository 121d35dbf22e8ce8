/-
Purpose: The ordered inbox between the connection thread and the consumer: generations, cursors,
  serial counters and the marker of a completed replay. Operations run under the inbox mutex, so
  each is one step.
Trusted boundary: the 32-bit sequences and 64-bit counters do not overflow; a wire sequence below
  one is refused by `accept` and stands here as zero.
Main exports: ReceiverMessageKind, AcceptResult, ReplayState, OrderedReceiverSession
-/
import Mathlib.Data.List.Basic

namespace UsdConnect

inductive ReceiverMessageKind where
  | event
  | layerGraphState
  | resync
  | other
deriving DecidableEq, Repr

/-- Whether messages of this kind take a sequence number. -/
def ReceiverMessageKind.sequenced : ReceiverMessageKind → Bool
  | .event => true
  | .layerGraphState => true
  | .resync => false
  | .other => false

inductive AcceptResult where
  | accepted
  | staleGeneration
  | queueFull
  | duplicate
  | sequenceGap
  | invalidSequence
deriving DecidableEq, Repr

/-- A received `ReplayComplete` and the serial of the last message before it. -/
structure ReplayState where
  generation : Nat
  headSeq : Nat
  epoch : Nat
  serial : Nat
deriving DecidableEq, Repr

structure OrderedReceiverSession (Payload : Type) where
  maxMessages : Nat
  requireContiguous : Bool
  frames : List Payload := []
  requestedReplayFrom : Option Nat := none
  pendingReplay : Option ReplayState := none
  generation : Nat := 0
  incomingSerial : Nat := 0
  drainedSerial : Nat := 0
  lastReceivedSequence : Nat
  lastAppliedSequence : Nat
  replayHeadSequence : Nat := 0
  replayEpoch : Nat := 0
  synchronized : Bool := false
  overflowed : Bool := false
deriving DecidableEq, Repr

namespace OrderedReceiverSession

variable {Payload : Type}

/-- The session as its constructor leaves it. -/
def create (initialSyncFrom maxMessages : Nat) (requireContiguous : Bool) :
    OrderedReceiverSession Payload :=
  { maxMessages := maxMessages
    requireContiguous := requireContiguous
    lastReceivedSequence := initialSyncFrom - 1
    lastAppliedSequence := initialSyncFrom - 1 }

def resetSynchronization (session : OrderedReceiverSession Payload) :
    OrderedReceiverSession Payload :=
  { session with synchronized := false, pendingReplay := none }

/-- The new generation and the cursor the connection asks for. -/
def beginConnection (session : OrderedReceiverSession Payload) :
    Nat × OrderedReceiverSession Payload :=
  (session.requestedReplayFrom.getD (session.lastReceivedSequence + 1),
    { session.resetSynchronization with
      generation := session.generation + 1
      requestedReplayFrom := none })

def disconnect (session : OrderedReceiverSession Payload) (generation : Nat) :
    OrderedReceiverSession Payload :=
  if generation = session.generation then session.resetSynchronization else session

/-- What an accepted message does to the cursors. -/
def receive (session : OrderedReceiverSession Payload) (kind : ReceiverMessageKind)
    (sequence : Nat) : OrderedReceiverSession Payload :=
  match kind with
  | .resync => { session.resetSynchronization with lastReceivedSequence := 0 }
  | .event | .layerGraphState =>
      { session with lastReceivedSequence := max session.lastReceivedSequence sequence }
  | .other => session

def accept (session : OrderedReceiverSession Payload) (generation : Nat)
    (kind : ReceiverMessageKind) (sequence : Nat) (payload : Payload) :
    AcceptResult × OrderedReceiverSession Payload :=
  if kind.sequenced = true ∧ sequence < 1 then (.invalidSequence, session)
  else if generation ≠ session.generation then (.staleGeneration, session)
  else if session.requireContiguous = true ∧ kind.sequenced = true ∧
      sequence ≤ session.lastReceivedSequence then (.duplicate, session)
  else if session.requireContiguous = true ∧ kind.sequenced = true ∧
      sequence ≠ session.lastReceivedSequence + 1 then (.sequenceGap, session)
  else if session.frames.length = session.maxMessages then
    (.queueFull, { session with overflowed := true })
  else
    let session := session.receive kind sequence
    (.accepted, { session with
      frames := session.frames ++ [payload]
      incomingSerial := session.incomingSerial + 1 })

def acceptReplayComplete (session : OrderedReceiverSession Payload)
    (generation headSeq epoch : Nat) : AcceptResult × OrderedReceiverSession Payload :=
  if generation ≠ session.generation then (.staleGeneration, session)
  else (.accepted, { session with
    pendingReplay := some
      { generation := generation
        headSeq := headSeq
        epoch := epoch
        serial := session.incomingSerial } })

/-- Take the first messages, all of them without a limit. -/
def drain (session : OrderedReceiverSession Payload) (maxMessages : Option Nat) :
    List Payload × OrderedReceiverSession Payload :=
  let count := min (maxMessages.getD session.frames.length) session.frames.length
  (session.frames.take count,
    { session with
      frames := session.frames.drop count
      drainedSerial := session.drainedSerial + count })

def tryPop (session : OrderedReceiverSession Payload) :
    Option (Payload × OrderedReceiverSession Payload) :=
  match session.frames with
  | [] => none
  | payload :: frames =>
      some (payload, { session with
        frames := frames
        drainedSerial := session.drainedSerial + 1 })

def markAppliedThrough (session : OrderedReceiverSession Payload) (generation sequence : Nat) :
    Bool × OrderedReceiverSession Payload :=
  if generation ≠ session.generation ∨ sequence < session.lastAppliedSequence ∨
      sequence > session.lastReceivedSequence then (false, session)
  else (true, { session with lastAppliedSequence := sequence })

/-- The fields a published marker sets. -/
def publishReplay (session : OrderedReceiverSession Payload) (marker : ReplayState) :
    OrderedReceiverSession Payload :=
  { session with
    replayHeadSequence := marker.headSeq
    replayEpoch := marker.epoch
    synchronized := true
    pendingReplay := none }

/-- Publish the marker once everything received before it has been drained. -/
def markReplayApplied (session : OrderedReceiverSession Payload) :
    Bool × OrderedReceiverSession Payload :=
  match session.pendingReplay with
  | none => (false, session)
  | some marker =>
      if marker.generation ≠ session.generation ∨ session.drainedSerial < marker.serial then
        (false, session)
      else
        (true, { session.publishReplay marker with
          lastAppliedSequence := max session.lastAppliedSequence marker.headSeq })

/-- The same for a consumer that reports every applied sequence. -/
def tryMarkReplayApplied (session : OrderedReceiverSession Payload) :
    Bool × OrderedReceiverSession Payload :=
  match session.pendingReplay with
  | none => (false, session)
  | some marker =>
      if marker.generation ≠ session.generation ∨ session.drainedSerial < marker.serial ∨
          session.lastAppliedSequence < marker.headSeq then (false, session)
      else (true, session.publishReplay marker)

/-- Discard what is queued and ask for the stream from a sequence on. -/
def requestReplayFrom (session : OrderedReceiverSession Payload) (sequence : Nat) :
    Bool × OrderedReceiverSession Payload :=
  if sequence < 1 then (false, session)
  else (true, { session.resetSynchronization with
    generation := session.generation + 1
    requestedReplayFrom := some sequence
    lastReceivedSequence := sequence - 1
    lastAppliedSequence := sequence - 1
    frames := []
    drainedSerial := session.incomingSerial
    overflowed := false })

def resetAppliedProgress (session : OrderedReceiverSession Payload) :
    OrderedReceiverSession Payload :=
  { session with lastAppliedSequence := 0, synchronized := false }

def clearOverflow (session : OrderedReceiverSession Payload) :
    OrderedReceiverSession Payload :=
  { session with overflowed := false }

/-! ### The serial counters -/

/-- Every message ever received is drained, discarded or still queued. -/
def SerialsBalanced (session : OrderedReceiverSession Payload) : Prop :=
  session.drainedSerial + session.frames.length = session.incomingSerial

theorem receive_frame (session : OrderedReceiverSession Payload) (kind : ReceiverMessageKind)
    (sequence : Nat) :
    (session.receive kind sequence).frames = session.frames ∧
      (session.receive kind sequence).incomingSerial = session.incomingSerial ∧
      (session.receive kind sequence).drainedSerial = session.drainedSerial ∧
      (session.receive kind sequence).generation = session.generation := by
  cases kind <;> exact ⟨rfl, rfl, rfl, rfl⟩

/-- Either nothing but the overflow flag changes, or the message is queued. -/
theorem accept_cases (session : OrderedReceiverSession Payload) (generation : Nat)
    (kind : ReceiverMessageKind) (sequence : Nat) (payload : Payload) :
    ((session.accept generation kind sequence payload).1 ≠ .accepted ∧
      ∃ overflowed, (session.accept generation kind sequence payload).2 =
        { session with overflowed := overflowed }) ∨
    (generation = session.generation ∧
      (kind.sequenced = true → 1 ≤ sequence) ∧
      (session.requireContiguous = true → kind.sequenced = true →
        sequence = session.lastReceivedSequence + 1) ∧
      session.accept generation kind sequence payload =
        (.accepted, { session.receive kind sequence with
          frames := session.frames ++ [payload]
          incomingSerial := session.incomingSerial + 1 })) := by
  unfold accept
  split
  · exact Or.inl ⟨nofun, session.overflowed, rfl⟩
  · next valid =>
      split
      · exact Or.inl ⟨nofun, session.overflowed, rfl⟩
      · next current =>
          split
          · exact Or.inl ⟨nofun, session.overflowed, rfl⟩
          · next new =>
              split
              · exact Or.inl ⟨nofun, session.overflowed, rfl⟩
              · next gapless =>
                  split
                  · exact Or.inl ⟨nofun, true, rfl⟩
                  · refine Or.inr ⟨not_not.1 current, ?_, ?_, ?_⟩
                    · intro sequenced
                      by_contra low
                      exact valid ⟨sequenced, Nat.lt_of_not_le low⟩
                    · intro contiguous sequenced
                      by_contra different
                      exact gapless ⟨contiguous, sequenced, different⟩
                    · obtain ⟨frames, incoming, _, _⟩ := session.receive_frame kind sequence
                      simp only [frames, incoming]

theorem SerialsBalanced.drain {session : OrderedReceiverSession Payload}
    (balanced : session.SerialsBalanced) (maxMessages : Option Nat) :
    (session.drain maxMessages).2.SerialsBalanced := by
  simp only [SerialsBalanced, OrderedReceiverSession.drain, List.length_drop] at balanced ⊢
  omega

end OrderedReceiverSession

end UsdConnect
