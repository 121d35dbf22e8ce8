/-
Purpose: Application of one baseline to a replica with what an exception leaves behind: the backups,
  their restoration through the validating writer, and the maps.
Trusted boundary: as in SharedStage.LayerGraph; layers can be edited, and a layer stays open while the
  graph holds it
Main exports: applyStateInner, applyStateReply, Installed, Unchanged, StateApplied
-/
import UsdConnect.SharedStage.LayerGraph

namespace UsdConnect

namespace LayerGraph

variable {Layer : Type} [DecidableEq Layer]

/-- `_materialize_states` with backups: the graph reached, the lists that were replaced, and whether no
exception stopped it. -/
def materializeStates (paths : AssetPaths Layer) (openable : Layer → Bool) :
    Nat → List LayerKey → List LayerKey → List (Layer × List SublayerEntry) → LayerGraph Layer →
      LayerGraph Layer × List (Layer × List SublayerEntry) × Bool
  | _, [], _, backups, graph => (graph, backups, true)
  | 0, _ :: _, _, backups, graph => (graph, backups, false)
  | steps + 1, parentKey :: queue, visited, backups, graph =>
      if parentKey ∈ visited then
        materializeStates paths openable steps queue visited backups graph
      else
        match graph.layers parentKey with
        | none =>
            materializeStates paths openable steps queue (visited ++ [parentKey]) backups graph
        | some parent =>
            match graph.states.lookup parentKey with
            | none => (graph, backups, false)
            | some entries =>
                let backups :=
                  if parent ∈ backups.map (·.1) then backups
                  else backups ++ [(parent, graph.readSublayerEntries parent)]
                match graph.applySublayerEntries paths parent entries with
                | none => (graph, backups, false)
                | some authored =>
                    match refreshEntries paths openable parent entries authored with
                    | (graph, none) => (graph, backups, false)
                    | (graph, some queued) =>
                        materializeStates paths openable steps (queue ++ queued)
                          (visited ++ [parentKey]) backups graph

/-- The lists written back one after the other; `false` when one is refused. -/
def restoreLists (paths : AssetPaths Layer) :
    List (Layer × List SublayerEntry) → LayerGraph Layer → LayerGraph Layer × Bool
  | [], graph => (graph, true)
  | (layer, entries) :: rest, graph =>
      match graph.applySublayerEntries paths layer entries with
      | none => (graph, false)
      | some restored => restoreLists paths rest restored

/-- The graph with the maps of a message, before anything is bound. -/
def adoptState (graph : LayerGraph Layer) (state : GraphState)
    (states : AList (fun _ : LayerKey => List SublayerEntry))
    (revisions : LayerKey → Option Nat) : LayerGraph Layer :=
  { graph with
    generation := state.generation
    revision := state.revision
    rootLayerKey := state.rootLayerKey
    layers := fun _ => none
    keysByIdentifier := fun _ => none
    identityKeysByIdentifier := fun _ => none
    identityIdentifiersByKey := fun _ => none
    states := states
    parentRevisions := revisions }

/-- `_apply_state_inner`; `false` when it raises. -/
def applyStateInner (paths : AssetPaths Layer) (openable : Layer → Bool) (graph : LayerGraph Layer)
    (state : GraphState) : LayerGraph Layer × Bool :=
  match validateTopology paths.portable state with
  | none => (graph, false)
  | some (states, revisions) =>
      let adopted := graph.adoptState state states revisions
      -- the root is bound before the block whose exceptions are rolled back
      match adopted.bindKey state.rootLayerKey graph.rootLayer with
      | none => (adopted, false)
      | some rooted =>
          match materializeStates paths openable rooted.searchSteps [state.rootLayerKey] [] []
              rooted with
          | (after, _, true) => (after, true)
          | (after, backups, false) =>
              match restoreLists paths backups after with
              | (after, false) => (after, false)
              | (after, true) => (graph.rollback after, false)

/-- What a call of `apply_state` does: it returns `True` or `False`, or it raises. -/
inductive StateReply where
  | installed
  | ignored
  | raised
deriving DecidableEq, Repr

/-- `LayerKeyRouter.apply_state`. -/
def applyStateReply (paths : AssetPaths Layer) (openable : Layer → Bool) (graph : LayerGraph Layer)
    (state : GraphState) : LayerGraph Layer × StateReply :=
  if state.generation = graph.generation ∧ (state.revision : Int) ≤ graph.revision then
    (graph, .ignored)
  else
    match graph.applyStateInner paths openable state with
    | (after, false) => (after, .raised)
    | (after, true) =>
        ({ after with generation := state.generation, revision := state.revision, ready := true },
          .installed)

/-! ### What a message says -/

/-- The layers that the keys of a baseline name here: the root, and the children that are found. -/
inductive Names (paths : AssetPaths Layer) (openable : Layer → Bool) (rootLayer : Layer)
    (rootKey : LayerKey) (states : AList (fun _ : LayerKey => List SublayerEntry)) :
    LayerKey → Layer → Prop
  | root : Names paths openable rootLayer rootKey states rootKey rootLayer
  | child {layerKey childKey : LayerKey} {layer : Layer} {entries : List SublayerEntry}
      {entry : SublayerEntry} (parent : Names paths openable rootLayer rootKey states layerKey layer)
      (stored : states.lookup layerKey = some entries) (listed : entry ∈ entries)
      (keyed : entry.layerKey = some childKey)
      (found : openable (paths.target layer entry.authoredPath) = true ∨
        paths.target layer entry.authoredPath = rootLayer) :
      Names paths openable rootLayer rootKey states childKey
        (paths.target layer entry.authoredPath)

/-- The graph holds exactly the topology and the routing of a message, and every named layer its
list. -/
structure Installed (paths : AssetPaths Layer) (openable : Layer → Bool) (state : GraphState)
    (before after : LayerGraph Layer) : Prop where
  generation : after.generation = state.generation
  revision : after.revision = state.revision
  rootLayerKey : after.rootLayerKey = state.rootLayerKey
  ready : after.ready = true
  states : validateTopology paths.portable state = some (after.states, after.parentRevisions)
  layers : ∀ layerKey layer, after.layers layerKey = some layer ↔
    Names paths openable before.rootLayer state.rootLayerKey after.states layerKey layer
  keysByIdentifier : ∀ layerKey layer, after.keysByIdentifier layer = some layerKey ↔
    after.layers layerKey = some layer
  identityKeys : after.identityKeysByIdentifier = after.keysByIdentifier
  identityIdentifiers : after.identityIdentifiersByKey = after.layers
  authoredNamed : ∀ layerKey layer entries, after.layers layerKey = some layer →
    after.states.lookup layerKey = some entries →
      after.readSublayerEntries layer = entries.map SublayerEntry.withoutKey
  authoredOther : ∀ layer, after.keysByIdentifier layer = none →
    after.readSublayerEntries layer = before.readSublayerEntries layer
  rootLayer : after.rootLayer = before.rootLayer

/-- Generation, revision, maps and all authored lists are as they were. -/
structure Unchanged (before after : LayerGraph Layer) : Prop where
  generation : after.generation = before.generation
  revision : after.revision = before.revision
  ready : after.ready = before.ready
  rootLayerKey : after.rootLayerKey = before.rootLayerKey
  layers : after.layers = before.layers
  keysByIdentifier : after.keysByIdentifier = before.keysByIdentifier
  states : after.states = before.states
  parentRevisions : after.parentRevisions = before.parentRevisions
  identityKeys : after.identityKeysByIdentifier = before.identityKeysByIdentifier
  identityIdentifiers : after.identityIdentifiersByKey = before.identityIdentifiersByKey
  authored : ∀ layer, after.readSublayerEntries layer = before.readSublayerEntries layer
  rootLayer : after.rootLayer = before.rootLayer

/-- A message is installed, or it changes nothing. -/
def StateApplied (paths : AssetPaths Layer) (openable : Layer → Bool) (graph : LayerGraph Layer)
    (state : GraphState) : Prop :=
  match graph.applyStateReply paths openable state with
  | (after, .installed) => Installed paths openable state graph after
  | (after, _) => Unchanged graph after

/-! ### The order in which keys meet layers -/

/-- A breadth-first walk over a message: which layer each key met, and the layers come to so far. -/
structure StateWalk (Layer : Type) where
  layers : LayerKey → Option Layer := fun _ => none
  keys : Layer → Option LayerKey := fun _ => none
  cameTo : List Layer := []

namespace StateWalk

/-- A key meets a layer; `none` when either has met another one. -/
def meet (walk : StateWalk Layer) (layerKey : LayerKey) (layer : Layer) : Option (StateWalk Layer) :=
  if (walk.keys layer).any (· ≠ layerKey) ∨ (walk.layers layerKey).any (· ≠ layer) then none
  else some { walk with
    layers := Function.update walk.layers layerKey (some layer)
    keys := Function.update walk.keys layer (some layerKey) }

/-- The keyed children of one parent that are found; no keys when two of them conflict. -/
def children (paths : AssetPaths Layer) (openable : Layer → Bool) (parent : Layer) :
    List SublayerEntry → StateWalk Layer → StateWalk Layer × Option (List LayerKey)
  | [], walk => (walk, some [])
  | entry :: rest, walk =>
      let child := paths.target parent entry.authoredPath
      match entry.layerKey with
      | none => children paths openable parent rest walk
      | some childKey =>
          if (walk.keys child).isSome || openable child then
            match walk.meet childKey child with
            | none => (walk, none)
            | some met =>
                let (walk, queued) := children paths openable parent rest met
                (walk, queued.map (childKey :: ·))
          else children paths openable parent rest walk

/-- The walk, and whether no key met two layers and no layer two keys. -/
def follow (paths : AssetPaths Layer) (openable : Layer → Bool)
    (states : AList (fun _ : LayerKey => List SublayerEntry)) :
    Nat → List LayerKey → List LayerKey → StateWalk Layer → StateWalk Layer × Bool
  | _, [], _, walk => (walk, true)
  | 0, _ :: _, _, walk => (walk, false)
  | steps + 1, parentKey :: queue, visited, walk =>
      if parentKey ∈ visited then follow paths openable states steps queue visited walk
      else
        match walk.layers parentKey with
        | none => follow paths openable states steps queue (visited ++ [parentKey]) walk
        | some parent =>
            let entries := (states.lookup parentKey).getD []
            let here := { walk with cameTo := walk.cameTo ++ [parent] }
            match children paths openable parent entries here with
            | (walk, none) => (walk, false)
            | (walk, some queued) =>
                follow paths openable states steps (queue ++ queued) (visited ++ [parentKey]) walk

end StateWalk

/-- The walk over the states of a message, from the root. -/
def walkState (paths : AssetPaths Layer) (openable : Layer → Bool) (graph : LayerGraph Layer)
    (state : GraphState) (states : AList (fun _ : LayerKey => List SublayerEntry)) :
    StateWalk Layer × Bool :=
  StateWalk.follow paths openable states (1 + Worklist.unvisitedWork states.entries [])
    [state.rootLayerKey] []
    { layers := Function.update (fun _ => none) state.rootLayerKey (some graph.rootLayer)
      keys := Function.update (fun _ => none) graph.rootLayer (some state.rootLayerKey) }

/-- Where a new valid message makes a key meet two layers or a layer two keys, the writer takes the
present list of every layer that was come to by then. -/
def RollbackFits (paths : AssetPaths Layer) (openable : Layer → Bool) (graph : LayerGraph Layer)
    (state : GraphState) : Prop :=
  ¬ (state.generation = graph.generation ∧ (state.revision : Int) ≤ graph.revision) →
    ∀ states revisions, validateTopology paths.portable state = some (states, revisions) →
      (graph.walkState paths openable state states).2 = false →
        ∀ layer ∈ (graph.walkState paths openable state states).1.cameTo,
          validSublayerEntries paths.portable [] (graph.readSublayerEntries layer) = true

end LayerGraph

end UsdConnect
