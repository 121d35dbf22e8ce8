/-
Purpose: What a receiver reads on one connection, when such a stream follows the histories a server
  has kept, and the frames of an admission and a rewrite.
Trusted boundary: frames arrive on one connection in the order they were sent (TCP).  Handshake,
  layer-stack, playback and ping messages carry no event and are left out.
Main exports: ReplayFrame, Position, follow, ReplayClaim, admitReplay, admissionFrames
-/
import UsdConnect.Server.History

namespace UsdConnect

variable {Record : Type}

/-- A message of the replay stream.  The epoch of a reset is not on the wire: it names the history
whose records follow. -/
inductive ReplayFrame (Record : Type) where
  | event (seq : Nat) (record : Record)
  | resync (epoch : Nat)
  | replayComplete (headSeq epoch : Nat)
deriving DecidableEq, Repr

/-- Where a stream stands: the history it reads, the sequence that comes next, and whether a
replay has still to be completed.  A stream that opens with a reset stands before it at sequence
zero. -/
structure Position where
  epoch : Nat
  next : Nat
  replaying : Bool
deriving DecidableEq, Repr

/-! ### Streams that follow the histories -/

section Follow

variable [DecidableEq Record]

/-- One frame that the stream may continue with.  A record carries the next sequence of its
history, a reset goes to the first record of a newer history or opens the stream, and a completion
ends a replay and names the last sequence and the history. -/
def advance (histories : Nat → List Record) (position : Position) :
    ReplayFrame Record → Option Position
  | .event seq record =>
      if 0 < seq ∧ seq = position.next ∧ (histories position.epoch)[seq - 1]? = some record then
        some { position with next := seq + 1 }
      else none
  | .resync epoch =>
      if position.epoch < epoch ∨ (position.epoch = epoch ∧ position.next = 0) then
        some { epoch := epoch, next := 1, replaying := true }
      else none
  | .replayComplete headSeq epoch =>
      if epoch = position.epoch ∧ headSeq + 1 = position.next ∧ position.replaying = true then
        some { position with replaying := false }
      else none

/-- Follow a whole stream from a position. -/
def follow (histories : Nat → List Record) (position : Position)
    (frames : List (ReplayFrame Record)) : Option Position :=
  frames.foldlM (advance histories) position

theorem follow_nil (histories : Nat → List Record) (position : Position) :
    follow histories position [] = some position :=
  rfl

theorem follow_cons (histories : Nat → List Record) (position : Position)
    (frame : ReplayFrame Record) (frames : List (ReplayFrame Record)) :
    follow histories position (frame :: frames) =
      (advance histories position frame).bind fun next => follow histories next frames :=
  rfl

theorem follow_append (histories : Nat → List Record) (position : Position)
    (first second : List (ReplayFrame Record)) :
    follow histories position (first ++ second) =
      (follow histories position first).bind fun next => follow histories next second :=
  List.foldlM_append

/-- A stream that reaches a position may be continued from there. -/
theorem follow_append_of {histories : Nat → List Record} {position middle : Position}
    {first : List (ReplayFrame Record)} (reached : follow histories position first = some middle)
    (second : List (ReplayFrame Record)) :
    follow histories position (first ++ second) = follow histories middle second := by
  rw [follow_append, reached]
  rfl

/-- Every part of a stream sent so far follows as well. -/
theorem follow_of_append {histories : Nat → List Record} {position final : Position}
    {first second : List (ReplayFrame Record)}
    (reached : follow histories position (first ++ second) = some final) :
    ∃ middle, follow histories position first = some middle ∧
      follow histories middle second = some final := by
  rw [follow_append] at reached
  exact Option.bind_eq_some_iff.1 reached

theorem advance_epoch {histories : Nat → List Record} {position next : Position}
    {frame : ReplayFrame Record} (stepped : advance histories position frame = some next) :
    position.epoch ≤ next.epoch := by
  cases frame with
  | event seq record =>
      simp only [advance] at stepped
      split at stepped
      · cases stepped
        exact Nat.le_refl _
      · cases stepped
  | resync epoch =>
      simp only [advance] at stepped
      split at stepped
      · next newer =>
          cases stepped
          rcases newer with later | ⟨same, _⟩
          · exact later.le
          · exact same.le
      · cases stepped
  | replayComplete headSeq epoch =>
      simp only [advance] at stepped
      split at stepped
      · cases stepped
        exact Nat.le_refl _
      · cases stepped

theorem follow_epoch {histories : Nat → List Record} {position final : Position}
    {frames : List (ReplayFrame Record)} (reached : follow histories position frames = some final) :
    position.epoch ≤ final.epoch := by
  induction frames generalizing position with
  | nil =>
      cases reached
      exact Nat.le_refl _
  | cons frame frames ih =>
      obtain ⟨next, stepped, rest⟩ := Option.bind_eq_some_iff.1 reached
      exact (advance_epoch stepped).trans (ih rest)

/-- Histories that only grow, up to an epoch. -/
def Extends (histories extended : Nat → List Record) (through : Nat) : Prop :=
  ∀ epoch ≤ through, histories epoch <+: extended epoch

theorem advance_mono {histories extended : Nat → List Record} {position next : Position}
    {frame : ReplayFrame Record} (grown : Extends histories extended position.epoch)
    (stepped : advance histories position frame = some next) :
    advance extended position frame = some next := by
  cases frame with
  | event seq record =>
      simp only [advance] at stepped ⊢
      split at stepped
      · next matched =>
          have kept : (extended position.epoch)[seq - 1]? = some record := by
            obtain ⟨later, whole⟩ := grown position.epoch (Nat.le_refl _)
            obtain ⟨inside, _⟩ := List.getElem?_eq_some_iff.1 matched.2.2
            rw [← whole, List.getElem?_append_left inside]
            exact matched.2.2
          rw [if_pos ⟨matched.1, matched.2.1, kept⟩]
          exact stepped
      · cases stepped
  | resync epoch => exact stepped
  | replayComplete headSeq epoch => exact stepped

/-- A stream keeps following histories that have grown. -/
theorem follow_mono {histories extended : Nat → List Record} {position final : Position}
    {frames : List (ReplayFrame Record)} (grown : Extends histories extended final.epoch)
    (reached : follow histories position frames = some final) :
    follow extended position frames = some final := by
  induction frames generalizing position with
  | nil => exact reached
  | cons frame frames ih =>
      obtain ⟨next, stepped, rest⟩ := Option.bind_eq_some_iff.1 reached
      have bound : position.epoch ≤ final.epoch := (advance_epoch stepped).trans (follow_epoch rest)
      have first := advance_mono (fun epoch low => grown epoch (low.trans bound)) stepped
      rw [follow_cons, first]
      exact ih rest

end Follow

/-! ### Frames the server sends -/

/-- Event frames of stored rows. -/
def rowFrames (rows : List (Nat × Record)) : List (ReplayFrame Record) :=
  rows.map fun row => .event row.1 row.2

/-- Event frames of records numbered upwards. -/
def eventFrames (first : Nat) (records : List Record) : List (ReplayFrame Record) :=
  rowFrames (numberFrom first records)

theorem eventFrames_cons (first : Nat) (record : Record) (records : List Record) :
    eventFrames first (record :: records) =
      .event first record :: eventFrames (first + 1) records := by
  simp [eventFrames, rowFrames, numberFrom, List.range'_succ]

/-- Records that stand in a history after its first ones are followed one by one. -/
theorem follow_eventFrames [DecidableEq Record] {histories : Nat → List Record} {epoch : Nat}
    (front records back : List Record) (whole : histories epoch = front ++ records ++ back)
    (replaying : Bool) :
    follow histories ⟨epoch, front.length + 1, replaying⟩
        (eventFrames (front.length + 1) records) =
      some ⟨epoch, front.length + records.length + 1, replaying⟩ := by
  induction records generalizing front with
  | nil => rfl
  | cons record records ih =>
      have here : (histories epoch)[front.length + 1 - 1]? = some record := by
        rw [whole]
        simp
      have rest := ih (front ++ [record]) (by rw [whole]; simp)
      rw [eventFrames_cons, follow_cons, advance, if_pos ⟨Nat.succ_pos _, rfl, here⟩]
      simp only [List.length_append, List.length_cons, List.length_nil, Option.bind_some] at rest ⊢
      rw [rest]
      congr 2
      omega

/-- The identity a receiver claims for the records it holds: the server instance and, when it is
known, the epoch. -/
structure ReplayClaim where
  serverInstance : String
  epoch : Option Nat
deriving DecidableEq, Repr

/-- Whether a claim names another history.  Only a claim about a cursor above one is checked. -/
def resumeIdentityChanged (serverInstance : String) (epoch : Nat) (syncFrom : Int) :
    Option ReplayClaim → Bool
  | none => false
  | some claim =>
      1 < syncFrom && (claim.serverInstance != serverInstance || claim.epoch != some epoch)

/-- `receiver_replay_window`: whether the server resets the receiver, and the first sequence it
replays. -/
def admitReplay (serverInstance : String) (epoch replayEnd : Nat) (syncFrom : Int)
    (claim : Option ReplayClaim) : Bool × Int :=
  let cursorOutOfRange : Bool := (replayEnd : Int) + 1 < syncFrom
  if resumeIdentityChanged serverInstance epoch syncFrom claim || cursorOutOfRange then (true, 1)
  else (false, syncFrom)

/-- The server resets the receiver, or resumes within its log with a claim that was not checked or
is its own identity. -/
theorem admitReplay_cases (serverInstance : String) (epoch replayEnd : Nat) (syncFrom : Int)
    (claim : Option ReplayClaim) :
    admitReplay serverInstance epoch replayEnd syncFrom claim = (true, 1) ∨
      (admitReplay serverInstance epoch replayEnd syncFrom claim = (false, syncFrom) ∧
        syncFrom ≤ replayEnd + 1 ∧
        ∀ claimed, claim = some claimed → 1 < syncFrom →
          claimed = { serverInstance := serverInstance, epoch := some epoch }) := by
  unfold admitReplay
  dsimp only
  split
  · exact Or.inl rfl
  · next kept =>
      simp only [Bool.or_eq_true, not_or, decide_eq_true_eq, Int.not_lt, Bool.not_eq_true]
        at kept
      refine Or.inr ⟨rfl, kept.2, ?_⟩
      rintro ⟨claimedInstance, claimedEpoch⟩ rfl above
      have same := kept.1
      simp only [resumeIdentityChanged, above, decide_true, Bool.true_and, Bool.or_eq_false_iff,
        bne_eq_false_iff_eq] at same
      rw [same.1, same.2]

/-- `get_from_seq_bin`: the first sequence selected, and the records from it. -/
def firstSelected (syncFrom : Int) : Nat :=
  max 1 syncFrom.toNat

/-- Where the stream of an admission starts. -/
def admissionStart (serverInstance : String) (epoch replayEnd : Nat) (syncFrom : Int)
    (claim : Option ReplayClaim) : Position :=
  let admitted := admitReplay serverInstance epoch replayEnd syncFrom claim
  { epoch := epoch
    next := if admitted.1 then 0 else firstSelected admitted.2
    replaying := true }

/-- Frames of an admission: the reset when there is one, the selected records, the completion. -/
def admissionFrames (serverInstance : String) (epoch : Nat) (log : List Record) (syncFrom : Int)
    (claim : Option ReplayClaim) : List (ReplayFrame Record) :=
  let admitted := admitReplay serverInstance epoch log.length syncFrom claim
  let first := firstSelected admitted.2
  (if admitted.1 then [.resync epoch] else []) ++ eventFrames first (log.drop (first - 1)) ++
    [.replayComplete log.length epoch]

/-- Frames of a replaced history. -/
def resyncFrames (epoch : Nat) (log : List Record) : List (ReplayFrame Record) :=
  .resync epoch :: eventFrames 1 log ++ [.replayComplete log.length epoch]

section Sent

variable [DecidableEq Record] {histories : Nat → List Record}

/-- The records of a history from a sequence on, and their completion. -/
theorem follow_replay {epoch first : Nat} {log : List Record} (current : histories epoch = log)
    (positive : 1 ≤ first) (inRange : first ≤ log.length + 1) :
    follow histories ⟨epoch, first, true⟩
      (eventFrames first (log.drop (first - 1)) ++ [.replayComplete log.length epoch]) =
        some ⟨epoch, log.length + 1, false⟩ := by
  have sizes : (log.take (first - 1)).length + 1 = first := by
    rw [List.length_take]
    omega
  have whole : histories epoch = log.take (first - 1) ++ log.drop (first - 1) ++ [] := by
    rw [current, List.append_nil, List.take_append_drop]
  have sent := follow_eventFrames _ _ _ whole true
  rw [sizes] at sent
  rw [follow_append_of sent, follow_cons, advance, if_pos]
  · simp only [Option.bind_some, follow_nil, List.length_drop, Option.some.injEq,
      Position.mk.injEq, true_and, and_true]
    omega
  · simp only [List.length_drop, true_and, and_true]
    omega

theorem follow_resyncFrames {epoch : Nat} {log : List Record} (current : histories epoch = log)
    {position : Position} (older : position.epoch < epoch) :
    follow histories position (resyncFrames epoch log) =
      some ⟨epoch, log.length + 1, false⟩ := by
  have replayed := follow_replay current (Nat.le_refl 1) (Nat.le_add_left 1 log.length)
  rw [Nat.sub_self, List.drop_zero] at replayed
  rw [resyncFrames, List.cons_append, follow_cons, advance, if_pos (Or.inl older)]
  exact replayed

/-- An admission brings the receiver from its own cursor to the end of the current log. -/
theorem follow_admissionFrames {epoch : Nat} {log : List Record}
    (current : histories epoch = log) (serverInstance : String) (syncFrom : Int)
    (claim : Option ReplayClaim) :
    follow histories (admissionStart serverInstance epoch log.length syncFrom claim)
      (admissionFrames serverInstance epoch log syncFrom claim) =
        some ⟨epoch, log.length + 1, false⟩ := by
  unfold admissionFrames admissionStart
  rcases admitReplay_cases serverInstance epoch log.length syncFrom claim with
    reset | ⟨resumed, inRange, _⟩
  · have replayed := follow_replay current (Nat.le_refl 1) (Nat.le_add_left 1 log.length)
    simp only [reset, ↓reduceIte, List.cons_append]
    rw [follow_cons, advance, if_pos (Or.inr ⟨rfl, rfl⟩)]
    exact replayed
  · have bound : firstSelected syncFrom ≤ log.length + 1 := by
      unfold firstSelected
      omega
    simp only [resumed, Bool.false_eq_true, ↓reduceIte, List.nil_append]
    exact follow_replay current (Nat.le_max_left _ _) bound

end Sent

end UsdConnect
