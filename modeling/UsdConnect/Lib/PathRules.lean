/-
Purpose: Rules attached to the paths of a tree, where a new rule replaces those at and below its
  path: which assignments can be exchanged, and what moving a subtree does.
Trusted boundary: none
Main exports: PathRules, PathRules.assign, PathRules.assignAll, PathRules.relocate
-/
import Mathlib.Data.List.Infix

namespace UsdConnect

/-- The rule of every path that has one. -/
abbrev PathRules (Name Value : Type) := List Name → Option Value

namespace PathRules

/-! ### Paths -/

section Paths

variable {Name : Type}

/-- Neither path lies at or below the other. -/
def Apart (first second : List Name) : Prop :=
  ¬ first <+: second ∧ ¬ second <+: first

theorem Apart.symm {first second : List Name} (apart : Apart first second) : Apart second first :=
  ⟨apart.2, apart.1⟩

theorem Apart.not_below {first second : List Name} (apart : Apart first second)
    {path : List Name} (below : first <+: path) : ¬ second <+: path := by
  intro under
  rcases List.prefix_or_prefix_of_prefix below under with up | down
  · exact apart.1 up
  · exact apart.2 down

/-- Two children of one parent. -/
structure Siblings (source destination : List Name) : Prop where
  apart : Apart source destination
  above : ∀ path, path <+: source → path ≠ source → path <+: destination
  above' : ∀ path, path <+: destination → path ≠ destination → path <+: source

theorem siblings {parent : List Name} {name newName : Name} (different : name ≠ newName) :
    Siblings (parent ++ [name]) (parent ++ [newName]) := by
  have climb : ∀ (last : Name) (path : List Name), path <+: parent ++ [last] →
      path ≠ parent ++ [last] → path <+: parent := by
    intro last path inside proper
    rcases List.prefix_concat_iff.1 inside with same | up
    · exact absurd same proper
    · exact up
  have distinct : ∀ first second : Name, first ≠ second →
      ¬ parent ++ [first] <+: parent ++ [second] := by
    intro first second apart inside
    have tails := (List.prefix_append_right_inj parent).1 inside
    exact apart (List.cons.inj (tails.eq_of_length rfl)).1
  constructor
  · exact ⟨distinct _ _ different, distinct _ _ different.symm⟩
  · intro path inside proper
    exact (climb _ path inside proper).trans (List.prefix_append _ _)
  · intro path inside proper
    exact (climb _ path inside proper).trans (List.prefix_append _ _)

end Paths

/-! ### Assignments -/

variable {Name Value : Type} [DecidableEq Name]

/-- Set the rule of a path and drop the rules below it. -/
def assign (path : List Name) (value : Value) (rules : PathRules Name Value) :
    PathRules Name Value :=
  fun other =>
    if other = path then some value else if path <+: other then none else rules other

/-- Assign one after the other. -/
def assignAll (entries : List (List Name × Value)) (rules : PathRules Name Value) :
    PathRules Name Value :=
  entries.foldl (fun current entry => assign entry.1 entry.2 current) rules

variable {path other : List Name} {value : Value} {rules : PathRules Name Value}
  {entries : List (List Name × Value)}

theorem assign_self (path : List Name) (value : Value) (rules : PathRules Name Value) :
    assign path value rules path = some value := if_pos rfl

theorem assign_below (proper : other ≠ path) (below : path <+: other) :
    assign path value rules other = none := by
  unfold assign
  rw [if_neg proper, if_pos below]

theorem assign_away (away : ¬ path <+: other) : assign path value rules other = rules other := by
  have different : other ≠ path := by
    rintro rfl
    exact away List.prefix_rfl
  unfold assign
  rw [if_neg different, if_neg away]

theorem assign_assign (path : List Name) (first second : Value) (rules : PathRules Name Value) :
    assign path second (assign path first rules) = assign path second rules := by
  funext other
  unfold assign
  split
  · rfl
  · split
    · rfl
    · rfl

theorem assign_comm {first second : List Name} (apart : Apart first second) (one two : Value)
    (rules : PathRules Name Value) :
    assign first one (assign second two rules) = assign second two (assign first one rules) := by
  funext path
  unfold assign
  by_cases below : first <+: path
  · have away := apart.not_below below
    have different : path ≠ second := by
      rintro rfl
      exact away List.prefix_rfl
    rw [if_neg different, if_neg away, if_neg different, if_neg away]
  · have different : path ≠ first := by
      rintro rfl
      exact below List.prefix_rfl
    rw [if_neg different, if_neg below, if_neg different, if_neg below]

@[simp] theorem assignAll_cons (entry : List Name × Value) (entries : List (List Name × Value))
    (rules : PathRules Name Value) :
    assignAll (entry :: entries) rules = assignAll entries (assign entry.1 entry.2 rules) := rfl

@[simp] theorem assignAll_append (first second : List (List Name × Value))
    (rules : PathRules Name Value) :
    assignAll (first ++ second) rules = assignAll second (assignAll first rules) :=
  List.foldl_append

/-- An assignment goes past assignments at paths apart from its own. -/
theorem assignAll_assign (apart : ∀ entry ∈ entries, Apart entry.1 path) :
    assignAll entries (assign path value rules) = assign path value (assignAll entries rules) := by
  induction entries generalizing rules with
  | nil => rfl
  | cons entry rest ih =>
      rw [assignAll_cons, assign_comm (apart entry List.mem_cons_self),
        ih fun other member => apart other (List.mem_cons_of_mem entry member), assignAll_cons]

/-- Changing an earlier value is the same as assigning again, when everything later is apart. -/
theorem assignAll_replace (earlier later : List (List Name × Value)) (old new : Value)
    (apart : ∀ entry ∈ later, Apart entry.1 path) :
    assignAll (earlier ++ (path, new) :: later) rules =
      assign path new (assignAll (earlier ++ (path, old) :: later) rules) := by
  rw [assignAll_append, assignAll_append, assignAll_cons, assignAll_cons, ← assignAll_assign apart,
    assign_assign]

/-- Some entries can be assigned last when every other entry behind one of them is apart from it. -/
theorem assignAll_filter (last : List Name × Value → Bool)
    (apart : ∀ earlier entry later, entries = earlier ++ entry :: later → last entry = true →
      ∀ other ∈ later, last other = false → Apart other.1 entry.1) :
    assignAll (entries.filter (fun entry => !last entry) ++ entries.filter last) rules =
      assignAll entries rules := by
  induction entries generalizing rules with
  | nil => rfl
  | cons entry rest ih =>
      have inner : ∀ earlier item later, rest = earlier ++ item :: later → last item = true →
          ∀ other ∈ later, last other = false → Apart other.1 item.1 := by
        intro earlier item later split
        exact apart (entry :: earlier) item later (by rw [split]; rfl)
      cases kept : last entry with
      | false =>
          rw [List.filter_cons_of_pos (by rw [kept]; rfl),
            List.filter_cons_of_neg (by rw [kept]; exact Bool.false_ne_true), List.cons_append,
            assignAll_cons, assignAll_cons]
          exact ih inner
      | true =>
          rw [List.filter_cons_of_neg (by rw [kept]; decide), List.filter_cons_of_pos kept,
            assignAll_append, assignAll_cons, assignAll_cons, ← assignAll_assign,
            ← assignAll_append]
          · exact ih inner
          · intro other member
            obtain ⟨inside, before⟩ := List.mem_filter.1 member
            exact apart [] entry rest rfl kept other inside (by simpa using before)

/-- No path at or below the root has a rule. -/
def Clean (root : List Name) (rules : PathRules Name Value) : Prop :=
  ∀ path, root <+: path → rules path = none

/-- Assignments elsewhere leave no rule at or below a clean root. -/
theorem Clean.assign {root : List Name} (clean : Clean root rules) (free : ¬ root <+: path) :
    Clean root (assign path value rules) := by
  intro other below
  have different : other ≠ path := by
    rintro rfl
    exact free below
  unfold PathRules.assign
  rw [if_neg different, clean other below, ite_self]

theorem Clean.assignAll {root : List Name} (clean : Clean root rules)
    (free : ∀ entry ∈ entries, ¬ root <+: entry.1) : Clean root (assignAll entries rules) := by
  induction entries generalizing rules with
  | nil => exact clean
  | cons entry rest ih =>
      rw [assignAll_cons]
      exact ih (clean.assign (free entry List.mem_cons_self))
        fun other member => free other (List.mem_cons_of_mem entry member)

/-! ### Moving a subtree -/

/-- Path after `source` has been moved to `destination`. -/
def relocatePath (source destination path : List Name) : List Name :=
  if source <+: path then destination ++ path.drop source.length else path

/-- Move the rules at and below a path; where the destination has rules of its own they stay unless
a moved rule takes their place. -/
def relocate (source destination : List Name) (rules : PathRules Name Value) :
    PathRules Name Value :=
  fun path =>
    if destination <+: path then
      (rules (source ++ path.drop destination.length)).or (rules path)
    else if source <+: path then none
    else rules path

section Values

variable {source destination : List Name}

theorem relocate_below (tail : List Name) :
    relocate source destination rules (destination ++ tail) =
      (rules (source ++ tail)).or (rules (destination ++ tail)) := by
  unfold relocate
  rw [if_pos (List.prefix_append destination tail), List.drop_left' rfl]

theorem relocate_left (below : ¬ destination <+: path) (moved : source <+: path) :
    relocate source destination rules path = none := by
  unfold relocate
  rw [if_neg below, if_pos moved]

theorem relocate_away (below : ¬ destination <+: path) (away : ¬ source <+: path) :
    relocate source destination rules path = rules path := by
  unfold relocate
  rw [if_neg below, if_neg away]

end Values

theorem relocatePath_inside {source destination : List Name} (tail : List Name) :
    relocatePath source destination (source ++ tail) = destination ++ tail := by
  unfold relocatePath
  rw [if_pos (List.prefix_append source tail), List.drop_left' rfl]

theorem relocatePath_outside {source destination : List Name} (outside : ¬ source <+: path) :
    relocatePath source destination path = path := by
  unfold relocatePath
  rw [if_neg outside]

theorem relocatePath_self (source path : List Name) : relocatePath source source path = path := by
  by_cases inside : source <+: path
  · obtain ⟨tail, rfl⟩ := inside
    exact relocatePath_inside tail
  · exact relocatePath_outside inside

theorem relocate_self (source : List Name) (rules : PathRules Name Value) :
    relocate source source rules = rules := by
  funext path
  unfold relocate
  by_cases inside : source <+: path
  · obtain ⟨tail, rfl⟩ := inside
    rw [if_pos (List.prefix_append source tail), List.drop_left' rfl, Option.or_self]
  · rw [if_neg inside, if_neg inside]

/-- Where there is nothing to move, the rules stay as they are. -/
theorem relocate_of_clean {source : List Name} (clean : Clean source rules)
    (destination : List Name) : relocate source destination rules = rules := by
  funext path
  by_cases below : destination <+: path
  · obtain ⟨tail, rfl⟩ := below
    rw [relocate_below, clean _ (List.prefix_append source tail), Option.none_or]
  · by_cases moved : source <+: path
    · rw [relocate_left below moved, clean path moved]
    · rw [relocate_away below moved]

section Siblings

variable {source destination : List Name} (family : Siblings source destination)

include family

/-- An assignment inside the moved subtree is made at the new place. -/
theorem relocate_assign_inside (clean : Clean destination rules)
    (tail : List Name) :
    relocate source destination (assign (source ++ tail) value rules) =
      assign (destination ++ tail) value (relocate source destination rules) := by
  have under : ∀ {path}, destination <+: path → ¬ source <+: path :=
    fun below => family.apart.symm.not_below below
  funext path
  by_cases below : destination <+: path
  · obtain ⟨rest, rfl⟩ := below
    have away : ¬ source ++ tail <+: destination ++ rest := fun inside =>
      under (List.prefix_append destination rest) ((List.prefix_append source tail).trans inside)
    rw [relocate_below, assign_away away, clean _ (List.prefix_append destination rest),
      Option.or_none]
    by_cases same : rest = tail
    · rw [same, assign_self, assign_self]
    · by_cases lower : tail <+: rest
      · rw [assign_below (by simpa using same) ((List.prefix_append_right_inj source).2 lower),
          assign_below (by simpa using same) ((List.prefix_append_right_inj destination).2 lower)]
      · rw [assign_away (fun inside => lower ((List.prefix_append_right_inj source).1 inside)),
          assign_away (fun inside => lower ((List.prefix_append_right_inj destination).1 inside)),
          relocate_below, clean _ (List.prefix_append destination rest), Option.or_none]
  · have lower : ¬ destination ++ tail <+: path :=
      fun inside => below ((List.prefix_append destination tail).trans inside)
    rw [assign_away lower]
    by_cases moved : source <+: path
    · rw [relocate_left below moved, relocate_left below moved]
    · have beside : ¬ source ++ tail <+: path :=
        fun inside => moved ((List.prefix_append source tail).trans inside)
      rw [relocate_away below moved, relocate_away below moved, assign_away beside]

theorem relocate_assign_outside (away : ¬ source <+: path) (free : ¬ destination <+: path) :
    relocate source destination (assign path value rules) =
      assign path value (relocate source destination rules) := by
  have ancestor : path <+: source ↔ path <+: destination := by
    constructor
    · intro above
      exact family.above path above (by rintro rfl; exact away List.prefix_rfl)
    · intro above
      exact family.above' path above (by rintro rfl; exact free List.prefix_rfl)
  have through : ∀ {root : List Name} (tail : List Name), ¬ root <+: path →
      (path <+: root ++ tail ↔ path <+: root) := by
    intro root tail outside
    constructor
    · intro above
      rcases List.prefix_or_prefix_of_prefix above (List.prefix_append root tail) with up | down
      · exact up
      · exact absurd down outside
    · intro above
      exact above.trans (List.prefix_append root tail)
  funext other
  by_cases below : destination <+: other
  · obtain ⟨tail, rfl⟩ := below
    have second : destination ++ tail ≠ path := by
      rintro rfl
      exact free (List.prefix_append destination tail)
    rw [relocate_below]
    by_cases above : path <+: destination
    · have first : source ++ tail ≠ path := by
        rintro rfl
        exact away (List.prefix_append source tail)
      rw [assign_below first ((through tail away).2 (ancestor.2 above)),
        assign_below second ((through tail free).2 above),
        assign_below second ((through tail free).2 above)]
      rfl
    · rw [assign_away fun inside => above (ancestor.1 ((through tail away).1 inside)),
        assign_away fun inside => above ((through tail free).1 inside),
        assign_away fun inside => above ((through tail free).1 inside), relocate_below]
  · by_cases moved : source <+: other
    · have different : other ≠ path := by
        rintro rfl
        exact away moved
      rw [relocate_left below moved]
      by_cases above : path <+: other
      · rw [assign_below different above]
      · rw [assign_away above, relocate_left below moved]
    · rw [relocate_away below moved]
      unfold assign
      rw [relocate_away below moved]

/-- Moving the subtree after all assignments is the same as assigning at the moved paths. -/
theorem relocate_assignAll (clean : Clean destination rules)
    (free : ∀ entry ∈ entries, ¬ destination <+: entry.1) :
    relocate source destination (assignAll entries rules) =
      assignAll (entries.map fun entry => (relocatePath source destination entry.1, entry.2))
        (relocate source destination rules) := by
  induction entries generalizing rules with
  | nil => rfl
  | cons entry rest ih =>
      have open' := free entry List.mem_cons_self
      rw [assignAll_cons, ih (clean.assign open') fun other member => free other (List.mem_cons_of_mem entry member),
        List.map_cons, assignAll_cons]
      by_cases inside : source <+: entry.1
      · obtain ⟨tail, same⟩ := inside
        rw [← same, relocate_assign_inside family clean, relocatePath_inside]
      · rw [relocate_assign_outside family inside open', relocatePath_outside inside]

end Siblings

end PathRules

end UsdConnect
