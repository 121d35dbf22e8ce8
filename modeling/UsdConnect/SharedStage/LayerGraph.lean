/-
Purpose: The shared layer graph: portable layer keys, the list and revision of every reachable key,
  the authoritative operations and those of a replica.
Trusted boundary: keys and generations are fresh numbers (the source draws UUIDs); whether an asset
  path is portable and which layer it names are parameters; a layer already held by the graph is
  found again, any other layer is opened when `openable` says so.
Main exports: LayerGraph, SublayerEntry, TopologyEvent, GraphState and the graph operations
-/
import UsdConnect.Lib.Worklist
import Mathlib.Data.Rat.Defs

namespace UsdConnect

/-- Protocol identity of a layer.  Zero is the empty key. -/
abbrev LayerKey := Nat

/-- A Python float of a layer offset. -/
inductive OffsetNumber where
  | finite (value : Rat)
  | nonFinite
deriving DecidableEq, Repr

/-- One authored sublayer; a missing layer key is an unresolved child. -/
structure SublayerEntry where
  authoredPath : String
  offset : OffsetNumber := .finite 0
  scale : OffsetNumber := .finite 1
  layerKey : Option LayerKey := none
deriving DecidableEq, Repr

/-- What the layer itself stores of an entry. -/
def SublayerEntry.withoutKey (entry : SublayerEntry) : SublayerEntry :=
  { entry with layerKey := none }

/-- A `set_sublayers` event: the full list of one parent in one revision domain. -/
structure TopologyEvent where
  generation : Nat
  revision : Nat
  sublayers : List SublayerEntry
deriving DecidableEq, Repr

/-- Canonical topology event and the child mappings it establishes. -/
structure PreparedSublayers (Layer : Type) where
  parentKey : LayerKey
  event : TopologyEvent
  mappings : List (Layer × LayerKey)

/-- One layer of a baseline. -/
structure LayerState where
  layerKey : LayerKey
  revision : Nat
  sublayers : List SublayerEntry
deriving DecidableEq, Repr

/-- The complete reachable graph as a baseline. -/
structure GraphState where
  generation : Nat
  revision : Nat
  rootLayerKey : LayerKey
  layers : List LayerState
deriving DecidableEq, Repr

/-- Routing state of one process, and the sublayer list each of its layers holds. -/
structure LayerGraph (Layer : Type) where
  authoritative : Bool
  rootLayer : Layer
  generation : Nat := 0
  revision : Int := -1
  ready : Bool := false
  rootLayerKey : LayerKey := 0
  layers : LayerKey → Option Layer := fun _ => none
  keysByIdentifier : Layer → Option LayerKey := fun _ => none
  states : AList (fun _ : LayerKey => List SublayerEntry) := ∅
  parentRevisions : LayerKey → Option Nat := fun _ => none
  identityKeysByIdentifier : Layer → Option LayerKey := fun _ => none
  identityIdentifiersByKey : LayerKey → Option Layer := fun _ => none
  authored : Layer → List SublayerEntry
  nextKey : Nat := 1
  nextGeneration : Nat := 1

/-- What is fixed about asset paths: which are portable, and which layer a path names relative to
its parent. -/
structure AssetPaths (Layer : Type) where
  portable : String → Bool
  target : Layer → String → Layer

/-- Validate a complete authored sublayer list; `seen` holds the earlier paths. -/
def validSublayerEntries (portable : String → Bool) (seen : List String) :
    List SublayerEntry → Bool
  | [] => true
  | entry :: rest =>
      entry.authoredPath != "" && portable entry.authoredPath &&
        decide (entry.authoredPath ∉ seen) && entry.offset != .nonFinite &&
        entry.scale != .nonFinite &&
        validSublayerEntries portable (entry.authoredPath :: seen) rest

def normalizeSublayerEntries (portable : String → Bool) (entries : List SublayerEntry) :
    Option (List SublayerEntry) :=
  if validSublayerEntries portable [] entries then some entries else none

namespace LayerGraph

variable {Layer : Type} [DecidableEq Layer]

/-! ### Routing -/

/-- The key maps with one more pair. -/
def routeKey (graph : LayerGraph Layer) (layerKey : LayerKey) (layer : Layer) :
    LayerGraph Layer :=
  { graph with
    layers := Function.update graph.layers layerKey (some layer)
    keysByIdentifier := Function.update graph.keysByIdentifier layer (some layerKey)
    identityKeysByIdentifier :=
      Function.update graph.identityKeysByIdentifier layer (some layerKey)
    identityIdentifiersByKey :=
      Function.update graph.identityIdentifiersByKey layerKey (some layer) }

/-- Map one key to one layer; `none` when a conflicting map exists. -/
def bindKey (graph : LayerGraph Layer) (layerKey : LayerKey) (layer : Layer) :
    Option (LayerGraph Layer) :=
  if (graph.identityKeysByIdentifier layer).any (· ≠ layerKey) then none
  else if (graph.identityIdentifiersByKey layerKey).any (· ≠ layer) then none
  else if (graph.layers layerKey).any (· ≠ layer) then none
  else if (graph.keysByIdentifier layer).any (· ≠ layerKey) then none
  else some (graph.routeKey layerKey layer)

def bindKeys (graph : LayerGraph Layer) : List (Layer × LayerKey) → Option (LayerGraph Layer)
  | [] => some graph
  | (layer, layerKey) :: rest => do
      let graph ← graph.bindKey layerKey layer
      graph.bindKeys rest

/-- Restore detached layer keys; `none` when one conflicts with the graph. -/
def restoreIdentityRecords (graph : LayerGraph Layer) :
    List (Layer × LayerKey) → Option (LayerGraph Layer)
  | [] => some graph
  | (layer, layerKey) :: rest =>
      if (graph.identityKeysByIdentifier layer).any (· ≠ layerKey) ∨
          (graph.identityIdentifiersByKey layerKey).any (· ≠ layer) then none
      else
        restoreIdentityRecords
          { graph with
            identityKeysByIdentifier :=
              Function.update graph.identityKeysByIdentifier layer (some layerKey)
            identityIdentifiersByKey :=
              Function.update graph.identityIdentifiersByKey layerKey (some layer) }
          rest

/-- All known identifier and key pairs, by key. -/
def identityRecords (graph : LayerGraph Layer) : List (Layer × LayerKey) :=
  (List.range graph.nextKey).filterMap fun layerKey =>
    (graph.identityIdentifiersByKey layerKey).map fun layer => (layer, layerKey)

def parentRevision (graph : LayerGraph Layer) (layerKey : LayerKey) : Nat :=
  (graph.parentRevisions layerKey).getD 0

def sublayersFor (graph : LayerGraph Layer) (layerKey : LayerKey) :
    Option (List SublayerEntry) :=
  graph.states.lookup layerKey

/-- Keys of the resolved children of one key. -/
def childKeys (graph : LayerGraph Layer) (layerKey : LayerKey) : List LayerKey :=
  ((graph.states.lookup layerKey).getD []).filterMap (·.layerKey)

/-- Every queue of the graph is bounded by the number of stored entries. -/
def searchSteps (graph : LayerGraph Layer) : Nat :=
  1 + Worklist.unvisitedWork graph.states.entries []

def reachableLayerKeys (graph : LayerGraph Layer) : List LayerKey :=
  if graph.ready then
    Worklist.search graph.childKeys graph.searchSteps [graph.rootLayerKey] []
  else []

/-- The layer a path names, when it can be found or opened. -/
def resolve (paths : AssetPaths Layer) (openable : Layer → Bool) (graph : LayerGraph Layer)
    (parent : Layer) (authoredPath : String) : Option Layer :=
  let layer := paths.target parent authoredPath
  if (graph.keysByIdentifier layer).isSome || openable layer then some layer else none

/-- One layer's ordered authored paths and offsets. -/
def readSublayerEntries (graph : LayerGraph Layer) (layer : Layer) : List SublayerEntry :=
  (graph.authored layer).map SublayerEntry.withoutKey

/-- Replace one layer's authored sublayer list. -/
def applySublayerEntries (paths : AssetPaths Layer) (graph : LayerGraph Layer) (layer : Layer)
    (entries : List SublayerEntry) : Option (LayerGraph Layer) := do
  let normalized ← normalizeSublayerEntries paths.portable entries
  some { graph with
    authored := Function.update graph.authored layer
      (normalized.map SublayerEntry.withoutKey) }

def pruneUnreachableStates (graph : LayerGraph Layer) : LayerGraph Layer :=
  let reachable := graph.reachableLayerKeys
  { graph with
    states := Dict.keepKeys graph.states fun layerKey => decide (layerKey ∈ reachable)
    parentRevisions := fun layerKey =>
      if layerKey ∈ reachable then graph.parentRevisions layerKey else none }

/-- What `transaction` restores of the routing state when an exception leaves it. -/
def rollback (saved current : LayerGraph Layer) : LayerGraph Layer :=
  { current with
    generation := saved.generation
    revision := saved.revision
    rootLayerKey := saved.rootLayerKey
    layers := saved.layers
    keysByIdentifier := saved.keysByIdentifier
    states := saved.states
    parentRevisions := saved.parentRevisions
    identityKeysByIdentifier := saved.identityKeysByIdentifier
    identityIdentifiersByKey := saved.identityIdentifiersByKey }

/-! ### Authoritative operations -/

/-- The entries of a layer with the keys its children already have. -/
def describeEntries (paths : AssetPaths Layer) (openable : Layer → Bool)
    (graph : LayerGraph Layer) (layer : Layer) (entries : List SublayerEntry) :
    List SublayerEntry :=
  entries.map fun entry =>
    match graph.resolve paths openable layer entry.authoredPath with
    | none => entry
    | some child =>
        match graph.keysByIdentifier child with
        | none => entry
        | some layerKey => { entry with layerKey := some layerKey }

/-- A full-parent topology event for one mapped layer. -/
def describeSublayers (paths : AssetPaths Layer) (openable : Layer → Bool)
    (graph : LayerGraph Layer) (layer : Layer) : Option TopologyEvent := do
  let layerKey ← graph.keysByIdentifier layer
  require (graph.ready = true)
  let entries ← normalizeSublayerEntries paths.portable (graph.readSublayerEntries layer)
  some
    { generation := graph.generation
      revision := graph.parentRevision layerKey
      sublayers := graph.describeEntries paths openable layer entries }

/-- Accumulators of the canonicalization loop. -/
structure Canonical (Layer : Type) where
  sublayers : List SublayerEntry
  mappings : List (Layer × LayerKey)
  nextKey : Nat

/-- The key of a child: routed, assigned earlier in this list, or remembered. -/
def knownKey (graph : LayerGraph Layer) (pending : List (Layer × LayerKey)) (child : Layer) :
    Option LayerKey :=
  match graph.keysByIdentifier child with
  | some layerKey => some layerKey
  | none =>
      match (pending.find? fun entry => entry.1 = child).map (·.2) with
      | some layerKey => some layerKey
      | none => graph.identityKeysByIdentifier child

/-- Assign a key to every child that resolves.  `none` is a stale key supplied by the client. -/
def canonicalizeEntries (paths : AssetPaths Layer) (openable : Layer → Bool)
    (graph : LayerGraph Layer) (parent : Layer) :
    List SublayerEntry → List (Layer × LayerKey) → Nat → Option (Canonical Layer)
  | [], _, nextKey => some ⟨[], [], nextKey⟩
  | entry :: rest, pending, nextKey =>
      match graph.resolve paths openable parent entry.authoredPath with
      | none => do
          let canonical ← canonicalizeEntries paths openable graph parent rest pending nextKey
          some { canonical with
            sublayers := entry.withoutKey :: canonical.sublayers }
      | some child =>
          match graph.knownKey pending child with
          | some layerKey =>
              if entry.layerKey.any (· ≠ layerKey) then none
              else do
                let canonical ←
                  canonicalizeEntries paths openable graph parent rest pending nextKey
                some { canonical with
                  sublayers := { entry with layerKey := some layerKey } :: canonical.sublayers
                  mappings := (child, layerKey) :: canonical.mappings }
          | none => do
              let canonical ← canonicalizeEntries paths openable graph parent rest
                ((child, nextKey) :: pending) (nextKey + 1)
              some { canonical with
                sublayers := { entry with layerKey := some nextKey } :: canonical.sublayers
                mappings := (child, nextKey) :: canonical.mappings }

/-- Assign authoritative child keys without touching routing.  The graph is returned with its key
supply advanced. -/
def canonicalizeSublayers (paths : AssetPaths Layer) (openable : Layer → Bool)
    (graph : LayerGraph Layer) (parentKey : LayerKey) (event : TopologyEvent) :
    Option (PreparedSublayers Layer × LayerGraph Layer) := do
  require (graph.authoritative = true)
  require (event.generation = graph.generation)
  let parent ← graph.layers parentKey
  require (parentKey ∈ graph.reachableLayerKeys)
  let currentRevision := graph.parentRevision parentKey
  require (event.revision = currentRevision)
  let entries ← normalizeSublayerEntries paths.portable event.sublayers
  let canonical ← graph.canonicalizeEntries paths openable parent entries [] graph.nextKey
  some
    ({ parentKey := parentKey
       event :=
        { generation := graph.generation
          revision := currentRevision + 1
          sublayers := canonical.sublayers }
       mappings := canonical.mappings },
      { graph with nextKey := canonical.nextKey })

/-- Commit routing state for an applied topology event. -/
def acceptSublayers (paths : AssetPaths Layer) (graph : LayerGraph Layer)
    (prepared : PreparedSublayers Layer) : Option (LayerGraph Layer) := do
  let expectedRevision := graph.parentRevision prepared.parentKey + 1
  require (prepared.event.generation = graph.generation)
  require (prepared.event.revision = expectedRevision)
  let bound ← graph.bindKeys prepared.mappings
  let entries ← normalizeSublayerEntries paths.portable prepared.event.sublayers
  some { bound with
    states := bound.states.insert prepared.parentKey entries
    parentRevisions :=
      Function.update bound.parentRevisions prepared.parentKey (some expectedRevision)
    revision := bound.revision + 1 }

/-- Describe, key and accept the layers that have no state yet.  `none` is an exception, or more
than `steps` queue entries. -/
def discoverLoop (paths : AssetPaths Layer) (openable : Layer → Bool) :
    Nat → List (Layer × LayerKey) → List LayerKey → LayerGraph Layer →
      Option (List (LayerKey × TopologyEvent) × LayerGraph Layer)
  | _, [], _, graph => some ([], graph)
  | 0, _ :: _, _, _ => none
  | steps + 1, (layer, layerKey) :: queue, visited, graph =>
      if layerKey ∈ visited ∨ layerKey ∈ graph.states then
        discoverLoop paths openable steps queue visited graph
      else do
        let event ← graph.describeSublayers paths openable layer
        let (prepared, graph) ← graph.canonicalizeSublayers paths openable layerKey event
        let graph ← graph.acceptSublayers paths prepared
        let (records, graph) ← discoverLoop paths openable steps (queue ++ prepared.mappings)
          (layerKey :: visited) graph
        some ((layerKey, prepared.event) :: records, graph)

def discoverSublayerStates (paths : AssetPaths Layer) (openable : Layer → Bool) (steps : Nat)
    (graph : LayerGraph Layer) (childMappings : List (Layer × LayerKey)) :
    Option (List (LayerKey × TopologyEvent) × LayerGraph Layer) := do
  require (graph.authoritative = true)
  let (records, graph) ← discoverLoop paths openable steps childMappings [] graph
  some (records, graph.pruneUnreachableStates)

/-- The topology part of `_commit_shared`: canonicalize, apply to the layer, accept, discover. -/
def commitSublayers (paths : AssetPaths Layer) (openable : Layer → Bool) (steps : Nat)
    (graph : LayerGraph Layer) (layerKey : LayerKey) (event : TopologyEvent) :
    Option (List (LayerKey × TopologyEvent) × LayerGraph Layer) := do
  let target ← graph.layers layerKey
  require (layerKey ∈ graph.reachableLayerKeys)
  let (prepared, graph) ← graph.canonicalizeSublayers paths openable layerKey event
  let graph ← graph.applySublayerEntries paths target prepared.event.sublayers
  let graph ← graph.acceptSublayers paths prepared
  let (records, graph) ←
    graph.discoverSublayerStates paths openable steps prepared.mappings
  some ((layerKey, prepared.event) :: records, graph)

/-- Re-resolve the parents that have an unresolved child, in the given order. -/
def refreshLoop (paths : AssetPaths Layer) (openable : Layer → Bool) (steps : Nat) :
    List LayerKey → LayerGraph Layer →
      Option (List (LayerKey × TopologyEvent) × LayerGraph Layer)
  | [], graph => some ([], graph)
  | parentKey :: rest, graph =>
      match graph.layers parentKey with
      | none => refreshLoop paths openable steps rest graph
      | some parent =>
          let current := (graph.states.lookup parentKey).getD []
          if current.all (·.layerKey.isSome) then refreshLoop paths openable steps rest graph
          else do
            let event ← graph.describeSublayers paths openable parent
            let (prepared, keyed) ← graph.canonicalizeSublayers paths openable parentKey event
            if prepared.event.sublayers = current then
              refreshLoop paths openable steps rest graph
            else do
              let graph ← keyed.acceptSublayers paths prepared
              let (discovered, graph) ←
                graph.discoverSublayerStates paths openable steps prepared.mappings
              let (later, graph) ← refreshLoop paths openable steps rest graph
              some ((parentKey, prepared.event) :: discovered ++ later, graph)

/-- Assign keys to graph edges that have become resolvable. -/
def refreshResolvedSublayers (paths : AssetPaths Layer) (openable : Layer → Bool) (steps : Nat)
    (graph : LayerGraph Layer) :
    Option (List (LayerKey × TopologyEvent) × LayerGraph Layer) := do
  require (graph.authoritative = true)
  let (records, graph) ← refreshLoop paths openable steps graph.reachableLayerKeys graph
  some (records, graph.pruneUnreachableStates)

/-- Rotate the revision domain without changing layer keys. -/
def startNewGeneration (graph : LayerGraph Layer) : Option (LayerGraph Layer) :=
  if graph.ready = false then none
  else
    let reachable := graph.reachableLayerKeys
    some { graph with
      generation := graph.nextGeneration
      nextGeneration := graph.nextGeneration + 1
      revision := 1
      parentRevisions := fun layerKey => if layerKey ∈ reachable then some 1 else none }

/-- One layer of the baseline; `none` when its state or its revision is missing. -/
def layerState (graph : LayerGraph Layer) (layerKey : LayerKey) : Option LayerState := do
  let sublayers ← graph.states.lookup layerKey
  let revision ← graph.parentRevisions layerKey
  some ⟨layerKey, revision, sublayers⟩

/-- The complete reachable graph as a baseline. -/
def stateMessage (graph : LayerGraph Layer) : Option GraphState := do
  require (graph.ready = true)
  let layers ← graph.reachableLayerKeys.mapM graph.layerState
  some
    { generation := graph.generation
      revision := graph.revision.toNat
      rootLayerKey := graph.rootLayerKey
      layers := layers }

/-! ### Construction of the authoritative graph -/

/-- Read the entries of one layer, giving a key to every child that resolves. -/
def captureEntries (paths : AssetPaths Layer) (openable : Layer → Bool) (layer : Layer) :
    List SublayerEntry → LayerGraph Layer →
      Option (List SublayerEntry × List Layer × LayerGraph Layer)
  | [], graph => some ([], [], graph)
  | entry :: rest, graph =>
      match graph.resolve paths openable layer entry.authoredPath with
      | none => do
          let (entries, children, graph) ← captureEntries paths openable layer rest graph
          some (entry :: entries, children, graph)
      | some child =>
          match graph.keysByIdentifier child with
          | some layerKey => do
              let (entries, children, graph) ← captureEntries paths openable layer rest graph
              some ({ entry with layerKey := some layerKey } :: entries, child :: children, graph)
          | none => do
              let layerKey := graph.nextKey
              let graph ←
                ({ graph with nextKey := layerKey + 1 } : LayerGraph Layer).bindKey layerKey child
              let (entries, children, graph) ← captureEntries paths openable layer rest graph
              some ({ entry with layerKey := some layerKey } :: entries, child :: children, graph)

/-- Capture the states of the layers reachable from the queue. -/
def captureLoop (paths : AssetPaths Layer) (openable : Layer → Bool) :
    Nat → List Layer → List Layer → AList (fun _ : LayerKey => List SublayerEntry) →
      LayerGraph Layer →
      Option (AList (fun _ : LayerKey => List SublayerEntry) × LayerGraph Layer)
  | _, [], _, states, graph => some (states, graph)
  | 0, _ :: _, _, _, _ => none
  | steps + 1, layer :: queue, visited, states, graph =>
      if layer ∈ visited then captureLoop paths openable steps queue visited states graph
      else do
        let (layerKey, graph) ← match graph.keysByIdentifier layer with
          | some layerKey => some (layerKey, graph)
          | none =>
              (({ graph with nextKey := graph.nextKey + 1 } : LayerGraph Layer).bindKey
                graph.nextKey layer).map fun bound => (graph.nextKey, bound)
        let normalized ← normalizeSublayerEntries paths.portable (graph.readSublayerEntries layer)
        let (entries, children, graph) ←
          captureEntries paths openable layer normalized graph
        captureLoop paths openable steps (queue ++ children) (layer :: visited)
          (states.insert layerKey entries) graph

/-- The authoritative graph of a stage, as the constructor builds it. -/
def createAuthoritative (paths : AssetPaths Layer) (openable : Layer → Bool) (steps : Nat)
    (rootLayer : Layer) (authored : Layer → List SublayerEntry) :
    Option (LayerGraph Layer) := do
  let fresh : LayerGraph Layer :=
    { authoritative := true
      rootLayer := rootLayer
      generation := 1
      revision := 1
      ready := true
      rootLayerKey := 1
      authored := authored
      nextKey := 2
      nextGeneration := 2 }
  let rooted ← fresh.bindKey 1 rootLayer
  let (states, graph) ← captureLoop paths openable steps [rootLayer] [] ∅ rooted
  some { graph with
    states := states
    parentRevisions := fun layerKey =>
      if layerKey ∈ states then some ((graph.parentRevisions layerKey).getD 1) else none }

/-! ### Replica operations -/

/-- The states and revisions of a baseline, checked one layer after the other. -/
def validateLayers (portable : String → Bool) :
    List LayerState → AList (fun _ : LayerKey => List SublayerEntry) → (LayerKey → Option Nat) →
      Option (AList (fun _ : LayerKey => List SublayerEntry) × (LayerKey → Option Nat))
  | [], states, revisions => some (states, revisions)
  | state :: rest, states, revisions =>
      if state.layerKey = 0 ∨ state.layerKey ∈ states then none
      else do
        let sublayers ← normalizeSublayerEntries portable state.sublayers
        require (1 ≤ state.revision)
        validateLayers portable rest (states.insert state.layerKey sublayers)
          (Function.update revisions state.layerKey (some state.revision))

/-- Every child key of the baseline is declared by the baseline. -/
def declaresChildren (states : AList (fun _ : LayerKey => List SublayerEntry)) : Bool :=
  states.entries.all fun state =>
    state.2.all fun entry => entry.layerKey.all fun child => decide (child ∈ states)

def validateTopology (portable : String → Bool) (state : GraphState) :
    Option (AList (fun _ : LayerKey => List SublayerEntry) × (LayerKey → Option Nat)) := do
  require (state.generation ≠ 0)
  require (state.rootLayerKey ≠ 0)
  require (1 ≤ state.revision)
  let (states, revisions) ← validateLayers portable state.layers ∅ fun _ => none
  require (state.rootLayerKey ∈ states)
  require (declaresChildren states = true)
  some (states, revisions)

/-- Bind the keyed children of one parent that resolve, and queue their keys. -/
def materializeEntries (paths : AssetPaths Layer) (openable : Layer → Bool) (parent : Layer) :
    List SublayerEntry → LayerGraph Layer → Option (LayerGraph Layer × List LayerKey)
  | [], graph => some (graph, [])
  | entry :: rest, graph =>
      match entry.layerKey with
      | none => materializeEntries paths openable parent rest graph
      | some childKey =>
          match graph.resolve paths openable parent entry.authoredPath with
          | none => materializeEntries paths openable parent rest graph
          | some child => do
              let graph ← graph.bindKey childKey child
              let (graph, queued) ← materializeEntries paths openable parent rest graph
              some (graph, childKey :: queued)

/-- Author the declared states into the layers that resolve.  `none` is an exception. -/
def materializeLoop (paths : AssetPaths Layer) (openable : Layer → Bool) :
    Nat → List LayerKey → List LayerKey → LayerGraph Layer → Option (LayerGraph Layer)
  | _, [], _, graph => some graph
  | 0, _ :: _, _, _ => none
  | steps + 1, parentKey :: queue, visited, graph =>
      if parentKey ∈ visited then materializeLoop paths openable steps queue visited graph
      else
        match graph.layers parentKey with
        | none => materializeLoop paths openable steps queue (visited ++ [parentKey]) graph
        | some parent => do
            let entries ← graph.states.lookup parentKey
            let graph ← graph.applySublayerEntries paths parent entries
            let (graph, queued) ← materializeEntries paths openable parent entries graph
            materializeLoop paths openable steps (queue ++ queued) (visited ++ [parentKey]) graph

/-- Apply one authoritative baseline; an older or repeated one of the same generation is ignored.
`none` is an exception, after which the graph is as it was. -/
def applyState (paths : AssetPaths Layer) (openable : Layer → Bool) (graph : LayerGraph Layer)
    (state : GraphState) : Option (LayerGraph Layer) := do
  if state.generation = graph.generation ∧ (state.revision : Int) ≤ graph.revision then
    some graph
  else do
    let (states, revisions) ← validateTopology paths.portable state
    let cleared : LayerGraph Layer :=
      { graph with
        generation := state.generation
        revision := state.revision
        rootLayerKey := state.rootLayerKey
        layers := fun _ => none
        keysByIdentifier := fun _ => none
        identityKeysByIdentifier := fun _ => none
        identityIdentifiersByKey := fun _ => none
        states := states
        parentRevisions := revisions }
    let rooted ← cleared.bindKey state.rootLayerKey graph.rootLayer
    let materialized ←
      materializeLoop paths openable rooted.searchSteps [state.rootLayerKey] [] rooted
    some { materialized with ready := true }

/-- Bind the keyed children of one parent that resolve, and queue their keys.  Nothing takes back
the bindings made before an exception. -/
def refreshEntries (paths : AssetPaths Layer) (openable : Layer → Bool) (parent : Layer) :
    List SublayerEntry → LayerGraph Layer → LayerGraph Layer × Option (List LayerKey)
  | [], graph => (graph, some [])
  | entry :: rest, graph =>
      match entry.layerKey with
      | none => refreshEntries paths openable parent rest graph
      | some childKey =>
          match graph.resolve paths openable parent entry.authoredPath with
          | none => refreshEntries paths openable parent rest graph
          | some child =>
              match graph.bindKey childKey child with
              | none => (graph, none)
              | some bound =>
                  let (graph, queued) := refreshEntries paths openable parent rest bound
                  (graph, queued.map (childKey :: ·))

/-- `_materialize_states` outside a baseline: the graph reached, and whether no exception stopped
it. -/
def refreshStates (paths : AssetPaths Layer) (openable : Layer → Bool) :
    Nat → List LayerKey → List LayerKey → LayerGraph Layer → LayerGraph Layer × Bool
  | _, [], _, graph => (graph, true)
  | 0, _ :: _, _, graph => (graph, false)
  | steps + 1, parentKey :: queue, visited, graph =>
      if parentKey ∈ visited then refreshStates paths openable steps queue visited graph
      else
        match graph.layers parentKey with
        | none => refreshStates paths openable steps queue (visited ++ [parentKey]) graph
        | some parent =>
            match graph.states.lookup parentKey with
            | none => (graph, false)
            | some entries =>
                match graph.applySublayerEntries paths parent entries with
                | none => (graph, false)
                | some authored =>
                    match refreshEntries paths openable parent entries authored with
                    | (graph, none) => (graph, false)
                    | (graph, some queued) =>
                        refreshStates paths openable steps (queue ++ queued)
                          (visited ++ [parentKey]) graph

/-- Retry unresolved keyed edges under the stage's resolver context. -/
def refreshDependencies (paths : AssetPaths Layer) (openable : Layer → Bool)
    (graph : LayerGraph Layer) : LayerGraph Layer × Bool :=
  refreshStates paths openable graph.searchSteps [graph.rootLayerKey] [] graph

/-- Child mappings of an applied event: the keyed entries that resolve. -/
def childMappings (paths : AssetPaths Layer) (openable : Layer → Bool) (graph : LayerGraph Layer)
    (parent : Layer) (entries : List SublayerEntry) : List (Layer × LayerKey) :=
  entries.filterMap fun entry =>
    match entry.layerKey with
    | none => none
    | some childKey =>
        (graph.resolve paths openable parent entry.authoredPath).map fun child =>
          (child, childKey)

/-- Apply one canonical server event and advance local routing state. -/
def applySublayers (paths : AssetPaths Layer) (openable : Layer → Bool) (graph : LayerGraph Layer)
    (parentKey : LayerKey) (event : TopologyEvent) : Option (LayerGraph Layer) := do
  require (event.generation = graph.generation)
  require (parentKey ∈ graph.reachableLayerKeys)
  require (event.revision = graph.parentRevision parentKey + 1)
  let entries ← normalizeSublayerEntries paths.portable event.sublayers
  let (authored, mappings) ← match graph.layers parentKey with
    | none => some (graph, [])
    | some parent => do
        let authored ← graph.applySublayerEntries paths parent entries
        some (authored, authored.childMappings paths openable parent entries)
  let accepted ← authored.acceptSublayers paths ⟨parentKey, event, mappings⟩
  some accepted.pruneUnreachableStates

/-! ### Authoritative runs and the messages they emit -/

/-- What the server persists and broadcasts about its graph. -/
inductive GraphMessage where
  | state (state : GraphState)
  | sublayers (layerKey : LayerKey) (event : TopologyEvent)
deriving DecidableEq, Repr

/-- The authoritative operations, with the layers that can be opened while they run. -/
inductive GraphOperation (Layer : Type) where
  | editSublayers (layerKey : LayerKey) (event : TopologyEvent) (openable : Layer → Bool)
      (steps : Nat)
  | refreshResolved (openable : Layer → Bool) (steps : Nat)
  | newGeneration

def topologyMessages (records : List (LayerKey × TopologyEvent)) : List GraphMessage :=
  records.map fun record => .sublayers record.1 record.2

/-- One operation.  An exception rolls the graph back and emits nothing. -/
def operate (paths : AssetPaths Layer) (graph : LayerGraph Layer) :
    GraphOperation Layer → List GraphMessage × LayerGraph Layer
  | .editSublayers layerKey event openable steps =>
      match graph.commitSublayers paths openable steps layerKey event with
      | none => ([], graph)
      | some (records, graph) => (topologyMessages records, graph)
  | .refreshResolved openable steps =>
      match graph.refreshResolvedSublayers paths openable steps with
      | none => ([], graph)
      | some (records, graph) => (topologyMessages records, graph)
  | .newGeneration =>
      match graph.startNewGeneration with
      | none => ([], graph)
      | some rotated =>
          match rotated.stateMessage with
          | none => ([], graph)
          | some state => ([.state state], rotated)

/-- Perform operations in order and collect their messages. -/
def operateAll (paths : AssetPaths Layer) :
    LayerGraph Layer → List (GraphOperation Layer) → List GraphMessage × LayerGraph Layer
  | graph, [] => ([], graph)
  | graph, operation :: rest =>
      let (emitted, graph) := graph.operate paths operation
      let (later, graph) := operateAll paths graph rest
      (emitted ++ later, graph)

/-- A replica takes one message; `none` is an exception. -/
def receive (paths : AssetPaths Layer) (openable : Layer → Bool) (graph : LayerGraph Layer) :
    GraphMessage → Option (LayerGraph Layer)
  | .state state => graph.applyState paths openable state
  | .sublayers layerKey event => graph.applySublayers paths openable layerKey event

/-- A replica takes messages in order, each with the layers it can open at that time. -/
def receiveAll (paths : AssetPaths Layer) :
    LayerGraph Layer → List (GraphMessage × (Layer → Bool)) → Option (LayerGraph Layer)
  | graph, [] => some graph
  | graph, (message, openable) :: rest => do
      let graph ← graph.receive paths openable message
      receiveAll paths graph rest

end LayerGraph

end UsdConnect
