/-
Purpose: Breadth-first search with a queue and a list of visited nodes, bounded by a step count that
  an adjacency list supplies, and finite maps restricted to a set of keys.
Trusted boundary: none
Main exports: Worklist.search, Worklist.mem_search_iff, require, Dict.keepKeys
-/
import Mathlib.Logic.Relation
import Mathlib.Data.List.AList
import Mathlib.Logic.Function.Basic

namespace UsdConnect

namespace Worklist

variable {α : Type} [DecidableEq α]

/-- Visit the queue in order.  A node is expanded the first time it is met; `steps` bounds the
number of nodes taken from the queue. -/
def search (next : α → List α) : Nat → List α → List α → List α
  | 0, _, visited => visited
  | _ + 1, [], visited => visited
  | steps + 1, node :: queue, visited =>
      if node ∈ visited then search next steps queue visited
      else search next steps (queue ++ next node) (visited ++ [node])

/-- Nodes reached from `start` along `next`. -/
def Reaches (next : α → List α) : α → α → Prop :=
  Relation.ReflTransGen fun node child => child ∈ next node

/-- A measure of the work left: expanding a new node pays for the children it enqueues. -/
def Pays (next : α → List α) (work : List α → Nat) : Prop :=
  ∀ visited node, node ∉ visited →
    (next node).length + work (visited ++ [node]) ≤ work visited

theorem visited_subset_search (next : α → List α) (steps : Nat) (queue visited : List α) :
    visited ⊆ search next steps queue visited := by
  induction steps generalizing queue visited with
  | zero => exact List.Subset.refl _
  | succ steps ih =>
      cases queue with
      | nil => exact List.Subset.refl _
      | cons node queue =>
          unfold search
          split
          · exact ih queue visited
          · exact fun _ member => ih _ _ (List.mem_append_left _ member)

/-- Everything found was visited before or is reached from the queue. -/
theorem search_sound (next : α → List α) (steps : Nat) (queue visited : List α) {node : α}
    (found : node ∈ search next steps queue visited) :
    node ∈ visited ∨ ∃ start ∈ queue, Reaches next start node := by
  induction steps generalizing queue visited with
  | zero => exact Or.inl found
  | succ steps ih =>
      cases queue with
      | nil => exact Or.inl found
      | cons head queue =>
          unfold search at found
          split at found
          · rcases ih _ _ found with old | ⟨start, queued, path⟩
            · exact Or.inl old
            · exact Or.inr ⟨start, List.mem_cons_of_mem _ queued, path⟩
          · rcases ih _ _ found with old | ⟨start, queued, path⟩
            · rcases List.mem_append.1 old with seen | new
              · exact Or.inl seen
              · rw [List.mem_singleton.1 new]
                exact Or.inr ⟨head, List.mem_cons_self, Relation.ReflTransGen.refl⟩
            · rcases List.mem_append.1 queued with waiting | child
              · exact Or.inr ⟨start, List.mem_cons_of_mem _ waiting, path⟩
              · exact Or.inr ⟨head, List.mem_cons_self, path.head child⟩

/-- With enough steps the result contains the queue and is closed under `next`.  The invariant is
that a child of a visited node is visited or still waits in the queue. -/
theorem search_closed {next : α → List α} {work : List α → Nat} (pays : Pays next work)
    (steps : Nat) (queue visited : List α) (enough : queue.length + work visited ≤ steps)
    (waiting : ∀ node ∈ visited, ∀ child ∈ next node, child ∈ visited ∨ child ∈ queue) :
    (∀ node ∈ queue, node ∈ search next steps queue visited) ∧
    ∀ node ∈ search next steps queue visited, ∀ child ∈ next node,
      child ∈ search next steps queue visited := by
  induction steps generalizing queue visited with
  | zero =>
      have empty : queue = [] := List.length_eq_zero_iff.1 (by omega)
      subst empty
      refine ⟨fun _ member => (nomatch member), ?_⟩
      intro node member child edge
      rcases waiting node member child edge with seen | queued
      · exact seen
      · exact nomatch queued
  | succ steps ih =>
      cases queue with
      | nil =>
          refine ⟨fun _ member => (nomatch member), ?_⟩
          intro node member child edge
          rcases waiting node member child edge with seen | queued
          · exact seen
          · exact nomatch queued
      | cons head queue =>
          rw [List.length_cons] at enough
          unfold search
          split
          · next seen =>
              obtain ⟨contains, closed⟩ := ih queue visited (by omega) (by
                intro node member child edge
                rcases waiting node member child edge with old | queued
                · exact Or.inl old
                · rcases List.mem_cons.1 queued with rfl | later
                  · exact Or.inl seen
                  · exact Or.inr later)
              refine ⟨?_, closed⟩
              intro node member
              rcases List.mem_cons.1 member with rfl | later
              · exact visited_subset_search next steps queue visited seen
              · exact contains node later
          · next new =>
              have paid := pays visited head new
              obtain ⟨contains, closed⟩ := ih (queue ++ next head) (visited ++ [head])
                (by rw [List.length_append]; omega) (by
                  intro node member child edge
                  rcases List.mem_append.1 member with old | current
                  · rcases waiting node old child edge with seen | queued
                    · exact Or.inl (List.mem_append_left _ seen)
                    · rcases List.mem_cons.1 queued with rfl | later
                      · exact Or.inl (List.mem_append_right _ List.mem_cons_self)
                      · exact Or.inr (List.mem_append_left _ later)
                  · rw [List.mem_singleton.1 current] at edge
                    exact Or.inr (List.mem_append_right _ edge))
              refine ⟨?_, closed⟩
              intro node member
              rcases List.mem_cons.1 member with rfl | later
              · exact visited_subset_search _ _ _ _
                  (List.mem_append_right _ List.mem_cons_self)
              · exact contains node (List.mem_append_left _ later)

/-- With enough steps the search from one node finds exactly what the node reaches. -/
theorem mem_search_iff {next : α → List α} {work : List α → Nat} (pays : Pays next work)
    {steps : Nat} (start : α) (enough : 1 + work [] ≤ steps) {node : α} :
    node ∈ search next steps [start] [] ↔ Reaches next start node := by
  obtain ⟨contains, closed⟩ := search_closed pays steps [start] [] (by simpa using enough)
    (fun _ member => nomatch member)
  constructor
  · intro found
    rcases search_sound next steps [start] [] found with old | ⟨other, queued, path⟩
    · exact nomatch old
    · rw [List.mem_singleton.1 queued] at path
      exact path
  · intro path
    induction path with
    | refl => exact contains start List.mem_cons_self
    | tail _ edge found => exact closed _ found _ edge

theorem search_nodup (next : α → List α) (steps : Nat) (queue visited : List α)
    (distinct : visited.Nodup) : (search next steps queue visited).Nodup := by
  induction steps generalizing queue visited with
  | zero => exact distinct
  | succ steps ih =>
      cases queue with
      | nil => exact distinct
      | cons node queue =>
          unfold search
          split
          · exact ih queue visited distinct
          · next new =>
              exact ih _ _ (distinct.append (List.nodup_singleton node)
                (List.disjoint_singleton.2 new))

omit [DecidableEq α] in
/-- Two successor functions that agree on what one of them reaches reach the same nodes. -/
theorem reaches_congr {next other : α → List α} {start : α}
    (agree : ∀ node, Reaches next start node → other node = next node) {node : α} :
    Reaches other start node ↔ Reaches next start node := by
  constructor
  · intro path
    induction path with
    | refl => exact Relation.ReflTransGen.refl
    | tail _ edge reached =>
        rw [agree _ reached] at edge
        exact reached.tail edge
  · intro path
    induction path with
    | refl => exact Relation.ReflTransGen.refl
    | tail before edge reached =>
        rw [← agree _ before] at edge
        exact reached.tail edge

omit [DecidableEq α] in
/-- More edges reach more nodes. -/
theorem Reaches.mono {next other : α → List α} {start node : α}
    (included : ∀ node, next node ⊆ other node) (path : Reaches next start node) :
    Reaches other start node :=
  Relation.ReflTransGen.mono (fun first _ edge => included first edge) _ _ path

omit [DecidableEq α] in
/-- Editing the edges of one reached node does not cut it off. -/
theorem reaches_edited {next other : α → List α} {start edited : α}
    (elsewhere : ∀ node, node ≠ edited → other node = next node)
    (path : Reaches next start edited) : Reaches other start edited := by
  have either : ∀ node, Reaches next start node →
      Reaches other start node ∨ Reaches other start edited := by
    intro node reached
    induction reached with
    | refl => exact Or.inl Relation.ReflTransGen.refl
    | @tail node child _ edge before =>
        rcases before with here | done
        · by_cases same : node = edited
          · exact Or.inr (same ▸ here)
          · rw [← elsewhere node same] at edge
            exact Or.inl (here.tail edge)
        · exact Or.inr done
  rcases either edited path with here | done
  · exact here
  · exact done

/-! ### Adjacency lists -/

section Adjacency

variable {β : Type}

/-- Length of the lists stored under keys that were not visited yet. -/
def unvisitedWork : List (Sigma fun _ : α => List β) → List α → Nat
  | [], _ => 0
  | entry :: rest, visited =>
      (if entry.1 ∈ visited then 0 else entry.2.length) + unvisitedWork rest visited

theorem unvisitedWork_append_le (adjacency : List (Sigma fun _ : α => List β))
    (visited : List α) (node : α) :
    unvisitedWork adjacency (visited ++ [node]) ≤ unvisitedWork adjacency visited := by
  induction adjacency with
  | nil => exact Nat.le_refl _
  | cons entry rest ih =>
      simp only [unvisitedWork]
      by_cases seen : entry.1 ∈ visited
      · simpa [seen] using ih
      · rw [if_neg seen]
        split <;> omega

/-- Expanding a stored node pays for the list stored under it. -/
theorem unvisitedWork_pays {adjacency : List (Sigma fun _ : α => List β)} {visited : List α}
    {node : α} {children : List β} (stored : ⟨node, children⟩ ∈ adjacency)
    (new : node ∉ visited) :
    children.length + unvisitedWork adjacency (visited ++ [node]) ≤
      unvisitedWork adjacency visited := by
  induction adjacency with
  | nil => exact nomatch stored
  | cons entry rest ih =>
      simp only [unvisitedWork]
      rcases List.mem_cons.1 stored with rfl | member
      · have later := unvisitedWork_append_le rest visited node
        rw [if_neg new, if_pos (by simp)]
        show children.length + (0 + _) ≤ children.length + _
        omega
      · have there := ih member
        by_cases seen : entry.1 ∈ visited
        · simpa [seen] using there
        · rw [if_neg seen]
          split <;> omega

/-- The successors read off the stored lists. -/
theorem pays_of_stored (adjacency : List (Sigma fun _ : α => List β)) (next : α → List α)
    (stored : ∀ node, next node = [] ∨
      ∃ children, ⟨node, children⟩ ∈ adjacency ∧ (next node).length ≤ children.length) :
    Pays next (unvisitedWork adjacency) := by
  intro visited node new
  rcases stored node with none | ⟨children, present, short⟩
  · rw [none]
    simpa using unvisitedWork_append_le adjacency visited node
  · have paid := unvisitedWork_pays present new
    omega

end Adjacency

end Worklist

/-- Raise unless the condition holds. -/
def require (condition : Prop) [Decidable condition] : Option Unit :=
  if condition then some () else none

@[simp] theorem require_eq_some {condition : Prop} [Decidable condition] {value : Unit} :
    require condition = some value ↔ condition := by
  unfold require
  by_cases holds : condition
  · simp [holds]
  · simp [holds]

namespace Dict

variable {α β : Type} [DecidableEq α]

/-- A finite map restricted to the keys a predicate keeps. -/
def keepKeys (map : AList fun _ : α => β) (keep : α → Bool) : AList fun _ : α => β where
  entries := map.entries.filter fun entry => keep entry.1
  nodupKeys := (List.Sublist.map _ List.filter_sublist).nodup map.nodupKeys

theorem lookup_keepKeys (map : AList fun _ : α => β) (keep : α → Bool) (key : α) :
    (keepKeys map keep).lookup key = if keep key then map.lookup key else none := by
  have stored : ∀ value, value ∈ (keepKeys map keep).lookup key ↔
      value ∈ (if keep key then map.lookup key else none) := by
    intro value
    rw [AList.mem_lookup_iff]
    simp only [keepKeys, List.mem_filter]
    by_cases kept : keep key = true
    · rw [if_pos kept, AList.mem_lookup_iff]
      simp [kept]
    · rw [if_neg kept]
      simp [kept]
  exact Option.ext stored

/-- Two maps that are inverse to each other stay so when one consistent pair is added. -/
theorem update_inverse {γ : Type} [DecidableEq γ] {forward : α → Option γ}
    {backward : γ → Option α}
    (inverse : ∀ key value, forward key = some value ↔ backward value = some key)
    {key : α} {value : γ} (sameValue : ∀ other, forward key = some other → other = value)
    (sameKey : ∀ other, backward value = some other → other = key) (otherKey : α)
    (otherValue : γ) :
    Function.update forward key (some value) otherKey = some otherValue ↔
      Function.update backward value (some key) otherValue = some otherKey := by
  by_cases here : otherKey = key
  · by_cases there : otherValue = value
    · simp [here, there]
    · subst here
      rw [Function.update_self, Function.update_of_ne there, Option.some.injEq]
      constructor
      · intro same
        exact absurd same.symm there
      · intro same
        exact absurd (sameValue otherValue ((inverse _ _).2 same)) there
  · by_cases there : otherValue = value
    · subst there
      rw [Function.update_self, Function.update_of_ne here, Option.some.injEq]
      constructor
      · intro same
        exact absurd (sameKey otherKey ((inverse _ _).1 same)) here
      · intro same
        exact absurd same.symm here
    · rw [Function.update_of_ne here, Function.update_of_ne there]
      exact inverse otherKey otherValue

/-- A map within another stays within it when it takes over one of its pairs. -/
theorem update_within {γ : Type} (small large : α → Option γ)
    (within : ∀ key value, small key = some value → large key = some value) {key : α}
    {value : γ} (known : large key = some value) {otherKey : α} {otherValue : γ}
    (same : Function.update small key (some value) otherKey = some otherValue) :
    large otherKey = some otherValue := by
  by_cases here : otherKey = key
  · subst here
    rw [Function.update_self] at same
    rw [← same]
    exact known
  · rw [Function.update_of_ne here] at same
    exact within _ _ same

theorem within_update {γ : Type} {map : α → Option γ} {key : α} {value : γ}
    (only : ∀ other, map key = some other → other = value) {otherKey : α} {otherValue : γ}
    (same : map otherKey = some otherValue) :
    Function.update map key (some value) otherKey = some otherValue := by
  by_cases here : otherKey = key
  · subst here
    rw [Function.update_self, only otherValue same]
  · rw [Function.update_of_ne here]
    exact same

end Dict

end UsdConnect
