/-
Purpose: Programs that read a state, make edits one after the other and may raise: the list of edits
  made from a state together with the result.
Trusted boundary: none
Main exports: Edit, Edit.after, LawfulMonad instance, Edit.Passes, Edit.Preserves
-/
import Mathlib.Data.List.Basic

namespace UsdConnect

/-- A program over states that change by executing edits. -/
def Edit {State Op : Type} (_exec : Op → State → State) (Error α : Type) : Type :=
  State → List Op × Except Error α

namespace Edit

variable {State Op Error α β : Type} {exec : Op → State → State}

/-- State after a list of edits. -/
def execute (exec : Op → State → State) (edits : List Op) (state : State) : State :=
  edits.foldl (fun current edit => exec edit current) state

@[simp] theorem execute_cons (edit : Op) (edits : List Op) (state : State) :
    execute exec (edit :: edits) state = execute exec edits (exec edit state) := rfl

@[simp] theorem execute_append (first second : List Op) (state : State) :
    execute exec (first ++ second) state = execute exec second (execute exec first state) :=
  List.foldl_append ..

/-- Edits a program makes from a state. -/
def edits (program : Edit exec Error α) (state : State) : List Op :=
  (program state).1

def result (program : Edit exec Error α) (state : State) : Except Error α :=
  (program state).2

/-- State a program leaves behind, also when it raises. -/
def after (program : Edit exec Error α) (state : State) : State :=
  execute exec (program.edits state) state

/-- Read something from the current state. -/
def look (view : State → α) : Edit exec Error α :=
  fun state => ([], .ok (view state))

/-- Make one edit. -/
def act (edit : Op) : Edit exec Error Unit :=
  fun _ => ([edit], .ok ())

def raise (error : Error) : Edit exec Error α :=
  fun _ => ([], .error error)

/-- Run a program and hand its exception to the caller as a value. -/
def attempt (program : Edit exec Error α) : Edit exec Error (Except Error α) :=
  fun state => ((program state).1, .ok (program state).2)

instance : Monad (Edit exec Error) where
  pure value := fun _ => ([], .ok value)
  bind program next := fun state =>
    match program state with
    | (made, .error error) => (made, .error error)
    | (made, .ok value) =>
        let (later, final) := next value (execute exec made state)
        (made ++ later, final)

/-! ### What a sequence does -/

theorem bind_of_error {program : Edit exec Error α} {next : α → Edit exec Error β} {state : State}
    {error : Error} (raised : program.result state = .error error) :
    (program >>= next) state = (program.edits state, .error error) := by
  unfold result at raised
  unfold edits
  change (match program state with
    | (made, .error error) => (made, Except.error error)
    | (made, .ok value) =>
        let (later, final) := next value (execute exec made state)
        (made ++ later, final)) = _
  rcases ran : program state with ⟨made, outcome⟩
  rw [ran] at raised
  subst raised
  rfl

theorem bind_of_ok {program : Edit exec Error α} {next : α → Edit exec Error β} {state : State}
    {value : α} (finished : program.result state = .ok value) :
    (program >>= next) state =
      (program.edits state ++ (next value).edits (program.after state),
        (next value).result (program.after state)) := by
  unfold result at finished
  unfold after edits
  change (match program state with
    | (made, .error error) => (made, Except.error error)
    | (made, .ok value) =>
        let (later, final) := next value (execute exec made state)
        (made ++ later, final)) = _
  rcases ran : program state with ⟨made, outcome⟩
  rw [ran] at finished
  subst finished
  rfl

@[simp] theorem look_bind (view : State → α) (next : α → Edit exec Error β) (state : State) :
    ((look view : Edit exec Error α) >>= next) state = next (view state) state := rfl

theorem after_bind_of_error {program : Edit exec Error α} {next : α → Edit exec Error β}
    {state : State} {error : Error} (raised : program.result state = .error error) :
    (program >>= next).after state = program.after state := by
  unfold after edits
  rw [bind_of_error raised]
  rfl

theorem edits_bind_of_ok {program : Edit exec Error α} {next : α → Edit exec Error β}
    {state : State} {value : α} (finished : program.result state = .ok value) :
    (program >>= next).edits state =
      program.edits state ++ (next value).edits (program.after state) := by
  unfold edits
  rw [bind_of_ok finished]
  rfl

theorem after_bind_of_ok {program : Edit exec Error α} {next : α → Edit exec Error β}
    {state : State} {value : α} (finished : program.result state = .ok value) :
    (program >>= next).after state = (next value).after (program.after state) := by
  unfold after
  rw [edits_bind_of_ok finished, execute_append]
  rfl

theorem result_bind_of_ok {program : Edit exec Error α} {next : α → Edit exec Error β}
    {state : State} {value : α} (finished : program.result state = .ok value) :
    (program >>= next).result state = (next value).result (program.after state) := by
  unfold result
  rw [bind_of_ok finished]
  rfl

theorem edits_bind_of_error {program : Edit exec Error α} {next : α → Edit exec Error β}
    {state : State} {error : Error} (raised : program.result state = .error error) :
    (program >>= next).edits state = program.edits state := by
  unfold edits
  rw [bind_of_error raised]
  rfl

theorem result_bind_of_error {program : Edit exec Error α} {next : α → Edit exec Error β}
    {state : State} {error : Error} (raised : program.result state = .error error) :
    (program >>= next).result state = .error error := by
  unfold result
  rw [bind_of_error raised]

theorem bind_pure_id (program : Edit exec Error α) :
    (program >>= fun value => pure value) = program := by
  funext state
  cases outcome : program.result state with
  | error error =>
      rw [bind_of_error outcome, ← outcome]
      rfl
  | ok value =>
      rw [bind_of_ok outcome]
      exact Prod.ext (List.append_nil _) outcome.symm

theorem bind_assoc {γ : Type} (program : Edit exec Error α) (next : α → Edit exec Error β)
    (later : β → Edit exec Error γ) :
    program >>= next >>= later = program >>= fun value => next value >>= later := by
  funext state
  cases first : program.result state with
  | error error =>
      rw [bind_of_error (result_bind_of_error first), bind_of_error first,
        edits_bind_of_error first]
  | ok value =>
      rw [bind_of_ok first]
      cases second : (next value).result (program.after state) with
      | error error =>
          have stopped : (program >>= next).result state = .error error :=
            (result_bind_of_ok first).trans second
          rw [bind_of_error stopped, edits_bind_of_ok first, edits_bind_of_error second,
            result_bind_of_error second]
      | ok other =>
          have finished : (program >>= next).result state = .ok other :=
            (result_bind_of_ok first).trans second
          rw [bind_of_ok finished, edits_bind_of_ok first, edits_bind_of_ok second,
            result_bind_of_ok second, after_bind_of_ok first, List.append_assoc]

/-- Edits are only appended, so sequences associate. -/
instance : LawfulMonad (Edit exec Error) :=
  LawfulMonad.mk' _ bind_pure_id (fun _ _ => rfl) bind_assoc

/-- A sequence that returns: its first part has returned, and the rest from there. -/
theorem bind_returned {program : Edit exec Error α} {next : α → Edit exec Error β} {state : State}
    {final : β} (returned : (program >>= next).result state = .ok final) :
    ∃ value, program.result state = .ok value ∧
      (next value).result (program.after state) = .ok final ∧
      (program >>= next).after state = (next value).after (program.after state) := by
  cases outcome : program.result state with
  | error error =>
      rw [result_bind_of_error outcome] at returned
      cases returned
  | ok value =>
      rw [result_bind_of_ok outcome] at returned
      exact ⟨value, rfl, returned, after_bind_of_ok outcome⟩

theorem after_forM_cons {item : α} {rest : List α} {step : α → Edit exec Error Unit}
    {state : State} (finished : (step item).result state = .ok ()) :
    ((item :: rest).forM step).after state = (rest.forM step).after ((step item).after state) :=
  after_bind_of_ok finished

@[simp] theorem after_look_bind (view : State → α) (next : α → Edit exec Error β) (state : State) :
    ((look view : Edit exec Error α) >>= next).after state = (next (view state)).after state := rfl

@[simp] theorem result_look_bind (view : State → α) (next : α → Edit exec Error β)
    (state : State) :
    ((look view : Edit exec Error α) >>= next).result state = (next (view state)).result state := rfl

@[simp] theorem after_act (edit : Op) (state : State) :
    (act edit : Edit exec Error Unit).after state = exec edit state := rfl

@[simp] theorem after_attempt (program : Edit exec Error α) (state : State) :
    program.attempt.after state = program.after state := rfl

/-! ### Invariants of a run

An invariant is proved edit by edit.  What an edit may do can depend on where the run stands, so
the rules carry a condition that is known of every state the run passes through.
-/

/-- Every state the program passes through, the first and the last included. -/
def Passes (condition : State → Prop) (program : Edit exec Error α) (state : State) : Prop :=
  ∀ made, made <+: program.edits state → condition (execute exec made state)

/-- A run from `state` that only passes through good states ends in the invariant. -/
structure Preserves (condition invariant : State → Prop) (program : Edit exec Error α)
    (state : State) : Prop where
  kept : program.Passes condition state → invariant state → invariant (program.after state)

variable {condition invariant : State → Prop} {state : State}

theorem Passes.start {program : Edit exec Error α} (passes : program.Passes condition state) :
    condition state :=
  passes [] List.nil_prefix

theorem Passes.first {program : Edit exec Error α} {next : α → Edit exec Error β}
    (passes : (program >>= next).Passes condition state) : program.Passes condition state := by
  intro made early
  apply passes made
  cases outcome : program.result state with
  | error error =>
      unfold edits
      rw [bind_of_error outcome]
      exact early
  | ok value =>
      rw [edits_bind_of_ok outcome]
      exact early.trans (List.prefix_append _ _)

theorem Passes.second {program : Edit exec Error α} {next : α → Edit exec Error β} {value : α}
    (finished : program.result state = .ok value)
    (passes : (program >>= next).Passes condition state) :
    (next value).Passes condition (program.after state) := by
  intro made late
  have reached := passes (program.edits state ++ made) (by
    rw [edits_bind_of_ok finished]
    exact (List.prefix_append_right_inj _).2 late)
  rw [execute_append] at reached
  exact reached

theorem preserves_pure (value : α) :
    Preserves condition invariant (pure value : Edit exec Error α) state :=
  ⟨fun _ holds => holds⟩

theorem preserves_raise (error : Error) :
    Preserves condition invariant (raise error : Edit exec Error α) state :=
  ⟨fun _ holds => holds⟩

theorem preserves_look (view : State → α) :
    Preserves condition invariant (look view : Edit exec Error α) state :=
  ⟨fun _ holds => holds⟩

/-- One edit has to keep the invariant from the state it is made in. -/
theorem preserves_act {edit : Op}
    (kept : condition state → invariant state → invariant (exec edit state)) :
    Preserves condition invariant (act edit : Edit exec Error Unit) state :=
  ⟨fun passes holds => kept passes.start holds⟩

theorem preserves_bind {program : Edit exec Error α} {next : α → Edit exec Error β}
    (first : Preserves condition invariant program state)
    (second : ∀ value, program.result state = .ok value →
      Preserves condition invariant (next value) (program.after state)) :
    Preserves condition invariant (program >>= next) state := by
  constructor
  intro passes holds
  have middle := first.kept passes.first holds
  cases outcome : program.result state with
  | error error =>
      rw [after_bind_of_error outcome]
      exact middle
  | ok value =>
      rw [after_bind_of_ok outcome]
      exact (second value outcome).kept (passes.second outcome) middle

theorem preserves_look_bind {view : State → α} {next : α → Edit exec Error β}
    (rest : Preserves condition invariant (next (view state)) state) :
    Preserves condition invariant ((look view : Edit exec Error α) >>= next) state :=
  ⟨rest.kept⟩

/-- What holds where the run starts may be used to prove that it keeps the invariant. -/
theorem preserves_from {program : Edit exec Error α}
    (kept : condition state → invariant state → Preserves condition invariant program state) :
    Preserves condition invariant program state :=
  ⟨fun passes holds => (kept passes.start holds).kept passes holds⟩

theorem preserves_attempt {program : Edit exec Error α}
    (rest : Preserves condition invariant program state) :
    Preserves condition invariant program.attempt state :=
  ⟨rest.kept⟩

theorem preserves_forM {items : List α} {step : α → Edit exec Error Unit}
    (each : ∀ item ∈ items, ∀ current, Preserves condition invariant (step item) current) :
    Preserves condition invariant (items.forM step) state := by
  induction items generalizing state with
  | nil => exact preserves_pure ()
  | cons item rest ih =>
      apply preserves_bind
      · exact each item List.mem_cons_self state
      · intro _ _
        apply ih
        intro other member
        exact each other (List.mem_cons_of_mem item member)

/-! ### What a run returns -/

/-- What every value a program returns satisfies, from any state. -/
structure Returns (program : Edit exec Error α) (post : α → Prop) : Prop where
  holds : ∀ {state value}, program.result state = .ok value → post value

theorem returns_pure {post : α → Prop} {value : α} (known : post value) :
    (pure value : Edit exec Error α).Returns post := by
  constructor
  intro state other finished
  cases finished
  exact known

theorem returns_bind_of {program : Edit exec Error α} {next : α → Edit exec Error β}
    {middle : α → Prop} {post : β → Prop} (first : program.Returns middle)
    (rest : ∀ value, middle value → (next value).Returns post) :
    (program >>= next).Returns post := by
  constructor
  intro state value finished
  cases outcome : program.result state with
  | error error =>
      rw [result_bind_of_error outcome] at finished
      cases finished
  | ok reached =>
      rw [result_bind_of_ok outcome] at finished
      exact (rest reached (first.holds outcome)).holds finished

theorem returns_bind {program : Edit exec Error α} {next : α → Edit exec Error β} {post : β → Prop}
    (rest : ∀ value, (next value).Returns post) : (program >>= next).Returns post :=
  returns_bind_of ⟨fun _ => trivial⟩ fun value (_ : True) => rest value

end Edit

end UsdConnect
