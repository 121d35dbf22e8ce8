/-
Purpose: Scanners that read a stream piece by piece: a move is decided by a prefix of the input, so
  what a scanner puts out does not depend on how the stream is cut.
Trusted boundary: none
Main exports: Scanner, Scanner.scan, Scanner.scan_append_waiting, Scanner.scan_append_failed
-/
import Mathlib.Data.List.Basic

namespace UsdConnect

/-- What a scanner does next. -/
inductive ScannerMove (State Output : Type) where
  /-- More input is needed. -/
  | wait
  | fail
  /-- Consume this many symbols. -/
  | take (count : Nat) (output : List Output) (next : State)

/-- A scanner whose decisions stand when more input arrives. -/
structure Scanner (State Symbol Output : Type) where
  move : State → List Symbol → ScannerMove State Output
  progress : ∀ {state input count output next}, move state input = .take count output next →
    0 < count ∧ count ≤ input.length
  take_append : ∀ {state input count output next} (more : List Symbol),
    move state input = .take count output next →
      move state (input ++ more) = .take count output next
  fail_append : ∀ {state input} (more : List Symbol), move state input = .fail →
    move state (input ++ more) = .fail

/-- Where a scan ends: it waits with unread input, or it has failed at the head of the rest. -/
inductive ScanEnd (State Symbol : Type) where
  | waiting (state : State) (rest : List Symbol)
  | failed (rest : List Symbol)
deriving DecidableEq, Repr

namespace Scanner

variable {State Symbol Output : Type} (scanner : Scanner State Symbol Output)

/-- Move until more input is needed or the scanner fails. -/
def scan (state : State) (input : List Symbol) : List Output × ScanEnd State Symbol :=
  match moved : scanner.move state input with
  | .wait => ([], .waiting state input)
  | .fail => ([], .failed input)
  | .take count output next =>
      have := scanner.progress moved
      let (later, ending) := scan next (input.drop count)
      (output ++ later, ending)
termination_by input.length
decreasing_by
  rw [List.length_drop]
  omega

variable {scanner} {state : State} {input : List Symbol}

theorem scan_of_wait (moved : scanner.move state input = .wait) :
    scanner.scan state input = ([], .waiting state input) := by
  rw [scan]
  split
  · rfl
  · next failed =>
      rw [moved] at failed
      cases failed
  · next taken =>
      rw [moved] at taken
      cases taken

theorem scan_of_fail (moved : scanner.move state input = .fail) :
    scanner.scan state input = ([], .failed input) := by
  rw [scan]
  split
  · next waited =>
      rw [moved] at waited
      cases waited
  · rfl
  · next taken =>
      rw [moved] at taken
      cases taken

theorem scan_of_take {count : Nat} {output : List Output} {next : State}
    (moved : scanner.move state input = .take count output next) :
    scanner.scan state input =
      (output ++ (scanner.scan next (input.drop count)).1,
        (scanner.scan next (input.drop count)).2) := by
  rw [scan]
  split
  · next waited =>
      rw [moved] at waited
      cases waited
  · next failed =>
      rw [moved] at failed
      cases failed
  · next taken =>
      rw [moved] at taken
      cases taken
      rfl

theorem scan_induction {motive : State → List Symbol → Prop}
    (wait : ∀ state input, scanner.move state input = .wait → motive state input)
    (fail : ∀ state input, scanner.move state input = .fail → motive state input)
    (take : ∀ state input count output next, scanner.move state input = .take count output next →
      motive next (input.drop count) → motive state input)
    (state : State) (input : List Symbol) : motive state input := by
  induction size : input.length using Nat.strongRecOn generalizing state input with
  | _ size ih =>
      cases moved : scanner.move state input with
      | wait => exact wait state input moved
      | fail => exact fail state input moved
      | take count output next =>
          obtain ⟨positive, within⟩ := scanner.progress moved
          apply take state input count output next moved
          apply ih (input.drop count).length _ next (input.drop count) rfl
          rw [List.length_drop]
          omega

/-- A waiting scan goes on where it stands when more input arrives. -/
theorem scan_append_waiting {outputs : List Output} {stands : State} {rest : List Symbol}
    (scanned : scanner.scan state input = (outputs, .waiting stands rest)) (more : List Symbol) :
    scanner.scan state (input ++ more) =
      (outputs ++ (scanner.scan stands (rest ++ more)).1,
        (scanner.scan stands (rest ++ more)).2) := by
  induction state, input using scan_induction generalizing outputs with
  | wait state input moved =>
      rw [scan_of_wait moved] at scanned
      cases scanned
      rfl
  | fail state input moved =>
      rw [scan_of_fail moved] at scanned
      cases scanned
  | take state input count output next moved ih =>
      obtain ⟨_, within⟩ := scanner.progress moved
      rw [scan_of_take moved] at scanned
      obtain ⟨joined, ending⟩ := Prod.mk.inj scanned
      have later := ih (Prod.ext rfl ending)
      rw [scan_of_take (scanner.take_append more moved), List.drop_append_of_le_length within, later,
        ← joined, List.append_assoc]

theorem scan_append_failed {outputs : List Output} {rest : List Symbol}
    (scanned : scanner.scan state input = (outputs, .failed rest)) (more : List Symbol) :
    scanner.scan state (input ++ more) = (outputs, .failed (rest ++ more)) := by
  induction state, input using scan_induction generalizing outputs with
  | wait state input moved =>
      rw [scan_of_wait moved] at scanned
      cases scanned
  | fail state input moved =>
      rw [scan_of_fail moved] at scanned
      cases scanned
      exact scan_of_fail (scanner.fail_append more moved)
  | take state input count output next moved ih =>
      obtain ⟨_, within⟩ := scanner.progress moved
      rw [scan_of_take moved] at scanned
      obtain ⟨joined, ending⟩ := Prod.mk.inj scanned
      have later := ih (Prod.ext rfl ending)
      rw [scan_of_take (scanner.take_append more moved), List.drop_append_of_le_length within, later,
        joined]

/-- Where a scan waits, the scanner waits. -/
theorem move_of_waiting {outputs : List Output} {stands : State} {rest : List Symbol}
    (scanned : scanner.scan state input = (outputs, .waiting stands rest)) :
    scanner.move stands rest = .wait := by
  induction state, input using scan_induction generalizing outputs with
  | wait state input moved =>
      rw [scan_of_wait moved] at scanned
      cases scanned
      exact moved
  | fail state input moved =>
      rw [scan_of_fail moved] at scanned
      cases scanned
  | take state input count output next moved ih =>
      rw [scan_of_take moved] at scanned
      exact ih (Prod.ext rfl (Prod.mk.inj scanned).2)

/-- Where a scan has failed, the scanner fails in some state, and what was read lies before. -/
theorem move_of_failed {outputs : List Output} {rest : List Symbol}
    (scanned : scanner.scan state input = (outputs, .failed rest)) :
    (∃ stands, scanner.move stands rest = .fail) ∧ rest <:+ input := by
  induction state, input using scan_induction generalizing outputs with
  | wait state input moved =>
      rw [scan_of_wait moved] at scanned
      cases scanned
  | fail state input moved =>
      rw [scan_of_fail moved] at scanned
      cases scanned
      exact ⟨⟨state, moved⟩, List.suffix_refl _⟩
  | take state input count output next moved ih =>
      rw [scan_of_take moved] at scanned
      obtain ⟨fails, behind⟩ := ih (Prod.ext rfl (Prod.mk.inj scanned).2)
      exact ⟨fails, behind.trans (List.drop_suffix count input)⟩

end Scanner

end UsdConnect
