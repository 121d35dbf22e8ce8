/-
Purpose: A managed group that raises leaves layers, journal and tracking as they were, as long as
  its events stay inside the rollback scopes.
Trusted boundary: none
Main exports: GroupContained, commitManagedGroup_atomic
-/
import Mathlib.Data.List.Dedup
import UsdConnect.Proofs.GroupRollback
import UsdConnect.Usd.Plain

namespace UsdConnect

section Group

variable {Tracking Record : Type} (context : CommitContext Tracking Record)

/-! ### The condition -/

/-- Every scene the application of a group passes through, up to the step that raises. -/
def GroupPasses (condition : Scene → Prop) (encodeNow : Bool) :
    ManagedServer Tracking Record → List PreparedTransaction → Prop
  | _, [] => True
  | server, transaction :: rest =>
      (applyValidated context.usd context.session transaction.targetLayer
        (server.scene.objects transaction.request.body.events)).Passes condition
          server.scene.scene ∧
      match applyTransaction context server transaction with
      | (_, .error _) => True
      | (server, .ok ()) =>
          match if encodeNow then encodeManaged context server transaction
            else (server, .ok []) with
          | (_, .error _) => True
          | (server, .ok _) => GroupPasses condition encodeNow server rest

/-- Whenever an event of the group is being applied, what it writes beyond its own prim lies inside
the rollback scope of its layer. -/
def GroupContained (server : ManagedServer Tracking Record) (requests : List ManagedRequest) :
    Prop :=
  match prepareAll context server.scene.objects requests with
  | .error _ => True
  | .ok prepared =>
      let encodeNow := needsSceneFields server.scene.objects prepared
      let snapshots := enterAtomicEdit context server.scene.scene prepared
      match if encodeNow then (server, .ok []) else encodeAll context server prepared with
      | (_, .error _) => True
      | (server, .ok _) =>
          GroupPasses context
            (Scene.Contained context.usd (ScopePlace snapshots) (ScopeRemovable snapshots))
            encodeNow server prepared

/-! ### Scopes cover the routed paths -/

/-- The prepared coverage is that of the request's events. -/
def PreparedTransaction.Describes (objects : EventsRef → List Event)
    (transaction : PreparedTransaction) : Prop :=
  transaction.collaborationPaths = managedRollbackPaths (objects transaction.request.body.events) ∧
    transaction.hasSessionEvents =
      (objects transaction.request.body.events).any fun event => event.kind.nonCollaboration

theorem describes_of_prepared {objects : EventsRef → List Event} {request : ManagedRequest}
    {transaction : PreparedTransaction}
    (prepared : prepareManagedTransaction context objects request = .ok transaction) :
    transaction.Describes objects := by
  unfold prepareManagedTransaction at prepared
  dsimp only at prepared
  split at prepared
  · cases prepared
  · split at prepared
    · cases prepared
    · cases prepared
      exact ⟨rfl, rfl⟩

theorem describes_of_prepareAll {objects : EventsRef → List Event} {requests : List ManagedRequest}
    {prepared : List PreparedTransaction}
    (all : prepareAll context objects requests = .ok prepared) :
    ∀ transaction ∈ prepared, transaction.Describes objects := by
  unfold prepareAll at all
  induction requests generalizing prepared with
  | nil =>
      cases all
      simp
  | cons request rest ih =>
      rw [List.mapM_cons] at all
      cases first : prepareManagedTransaction context objects request with
      | error error =>
          rw [first] at all
          cases all
      | ok transaction =>
          cases later : rest.mapM (prepareManagedTransaction context objects) with
          | error error =>
              rw [first, later] at all
              cases all
          | ok others =>
              rw [first, later] at all
              cases all
              intro other member
              rcases List.mem_cons.1 member with rfl | tail
              · exact describes_of_prepared context first
              · exact ih later other tail

end Group

theorem pathsByLayer_mono {prepared : List PreparedTransaction} {layer : LayerId} {prim : ScenePath}
    {paths : OrderedDict LayerId (List ScenePath)}
    (known : ∃ found, paths.get? layer = some found ∧ prim ∈ found) :
    ∃ found, (prepared.foldl
      (fun paths transaction =>
        if transaction.collaborationPaths = [] then paths
        else paths.set transaction.targetLayer
          (((paths.get? transaction.targetLayer).getD []) ++
            transaction.collaborationPaths).dedup) paths).get? layer = some found ∧
      prim ∈ found := by
  induction prepared generalizing paths with
  | nil => exact known
  | cons transaction rest ih =>
      rw [List.foldl_cons]
      apply ih
      obtain ⟨found, here, member⟩ := known
      split
      · exact ⟨found, here, member⟩
      · by_cases same : layer = transaction.targetLayer
        · subst same
          refine ⟨_, OrderedDict.get?_set_self .., ?_⟩
          rw [here, List.mem_dedup]
          exact List.mem_append_left _ member
        · refine ⟨found, ?_, member⟩
          rw [OrderedDict.get?_set_of_ne _ _ same]
          exact here

theorem pathsByLayer_covers {prepared : List PreparedTransaction}
    {transaction : PreparedTransaction} (member : transaction ∈ prepared) {prim : ScenePath}
    (touched : prim ∈ transaction.collaborationPaths) :
    ∃ found, (pathsByLayer prepared).get? transaction.targetLayer = some found ∧
      prim ∈ found := by
  unfold pathsByLayer
  generalize (OrderedDict.empty : OrderedDict LayerId (List ScenePath)) = paths
  induction prepared generalizing paths with
  | nil => exact absurd member List.not_mem_nil
  | cons first rest ih =>
      rcases List.mem_cons.1 member with rfl | tail
      · rw [List.foldl_cons]
        apply pathsByLayer_mono
        rw [if_neg (List.ne_nil_of_mem touched)]
        refine ⟨_, OrderedDict.get?_set_self .., ?_⟩
        rw [List.mem_dedup]
        exact List.mem_append_right _ touched
      · exact ih tail _

theorem mem_managedRollbackPaths {events : List Event} {event : Event} {prim : ScenePath}
    (member : event ∈ events) (collaboration : event.kind.nonCollaboration = false)
    (own : event.prim = some prim) : prim ∈ managedRollbackPaths events := by
  unfold managedRollbackPaths
  dsimp only
  rw [List.mem_dedup]
  apply List.mem_append_left
  rw [List.mem_filterMap]
  refine ⟨event, member, ?_⟩
  rw [collaboration]
  exact own

theorem renamed_mem_managedRollbackPaths {events : List Event} {prim : ScenePath}
    {newName : String} (member : .renamePrim prim newName ∈ events) :
    prim.dropLast ++ [newName] ∈ managedRollbackPaths events := by
  unfold managedRollbackPaths
  dsimp only
  rw [List.mem_dedup]
  apply List.mem_append_right
  rw [List.mem_filterMap]
  exact ⟨_, member, rfl⟩

section Scopes

variable {Tracking Record : Type} {context : CommitContext Tracking Record} {scene : Scene}
  {prepared : List PreparedTransaction}

theorem takenOf_enterAtomicEdit (context : CommitContext Tracking Record) (scene : Scene)
    (prepared : List PreparedTransaction) :
    ∀ entry ∈ enterAtomicEdit context scene prepared,
      entry.2.TakenOf (scene.layers entry.1) := by
  intro entry member
  unfold enterAtomicEdit at member
  rcases List.mem_append.1 member with paths | session
  · obtain ⟨⟨layer, touched⟩, _, rfl⟩ := List.mem_map.1 paths
    dsimp only
    apply LayerSnapshot.takenOf_enter
  · split at session
    · rw [List.mem_singleton.1 session]
      dsimp only
      apply LayerSnapshot.takenOf_enter
    · exact absurd session List.not_mem_nil

theorem scopeOf_isSome {snapshots : List (LayerId × LayerSnapshot)} {layer : LayerId}
    {snapshot : LayerSnapshot} (member : (layer, snapshot) ∈ snapshots) :
    ∃ found, scopeOf snapshots layer = some found := by
  have present : (snapshots.reverse.find? fun entry => entry.1 = layer).isSome := by
    rw [List.find?_isSome]
    exact ⟨(layer, snapshot), List.mem_reverse.2 member, by simp⟩
  obtain ⟨entry, found⟩ := Option.isSome_iff_exists.1 present
  exact ⟨entry.2, by unfold scopeOf; rw [found]; rfl⟩

/-- The session layer is saved as a whole when the group writes to it. -/
theorem place_session (context : CommitContext Tracking Record) (scene : Scene)
    (writes : prepared.any (·.hasSessionEvents) = true) (prim : PrimPath) :
    ScopePlace (enterAtomicEdit context scene prepared) context.session prim := by
  refine ⟨.full (scene.layers context.session), ?_, trivial⟩
  unfold scopeOf enterAtomicEdit
  rw [if_pos writes, List.reverse_append, List.reverse_singleton, List.singleton_append,
    List.find?_cons_of_pos (by simp)]
  rfl

theorem place_touched {transaction : PreparedTransaction} (member : transaction ∈ prepared)
    {prim : ScenePath} (touched : prim ∈ transaction.collaborationPaths) :
    ScopePlace (enterAtomicEdit context scene prepared) transaction.targetLayer
      prim.specPath := by
  obtain ⟨paths, found, listed⟩ := pathsByLayer_covers member touched
  have entered : (transaction.targetLayer,
      LayerSnapshot.enter (scene.layers transaction.targetLayer)
        (some (context.setOrder paths))) ∈ enterAtomicEdit context scene prepared := by
    apply List.mem_append_left
    exact List.mem_map.2 ⟨_, OrderedDict.mem_of_get? found, rfl⟩
  obtain ⟨snapshot, scope⟩ := scopeOf_isSome entered
  refine ⟨snapshot, scope, ?_⟩
  -- the layer has one set of paths, and the session's snapshot is a full one
  have known := mem_of_scopeOf scope
  unfold enterAtomicEdit at known
  rcases List.mem_append.1 known with paths' | session
  · obtain ⟨⟨layer, touched'⟩, present, same⟩ := List.mem_map.1 paths'
    cases same
    rw [OrderedDict.get?_of_mem present] at found
    cases found
    apply LayerSnapshot.place_enter
    exact (context.setOrder_perm paths).mem_iff.2 listed
  · split at session
    · have full : snapshot = .full (scene.layers context.session) :=
        congrArg Prod.snd (List.mem_singleton.1 session)
      rw [full]
      trivial
    · exact absurd session List.not_mem_nil

/-- Every event of a prepared transaction is routed to places of its layer. -/
theorem placed_of_describes {objects : EventsRef → List Event} {transaction : PreparedTransaction}
    (member : transaction ∈ prepared) (describes : transaction.Describes objects) :
    ∀ event ∈ objects transaction.request.body.events,
      event.Placed (ScopePlace (enterAtomicEdit context scene prepared)
        (routedLayer context.session transaction.targetLayer event)) := by
  intro event present
  cases routing : event.kind.nonCollaboration with
  | true =>
      have session : routedLayer context.session transaction.targetLayer event =
          context.session := if_pos routing
      have writes : prepared.any (·.hasSessionEvents) = true := by
        rw [List.any_eq_true]
        refine ⟨transaction, member, ?_⟩
        rw [describes.2, List.any_eq_true]
        exact ⟨event, present, routing⟩
      have everywhere := place_session context scene writes
      rw [session]
      cases event with
      | setStageMetadata values => exact everywhere []
      | renamePrim prim newName => exact ⟨everywhere _, everywhere _⟩
      | _ => exact fun prim _ => everywhere prim.specPath
  | false =>
      have collaboration : routedLayer context.session transaction.targetLayer event =
          transaction.targetLayer := if_neg (by simp [routing])
      have own : ∀ prim, event.prim = some prim →
          ScopePlace (enterAtomicEdit context scene prepared) transaction.targetLayer
            prim.specPath := by
        intro prim routed
        apply place_touched member
        rw [describes.1]
        exact mem_managedRollbackPaths present routing routed
      rw [collaboration]
      cases event with
      | setStageMetadata values => cases routing
      | renamePrim prim newName =>
          refine ⟨own prim rfl, ?_⟩
          have renamed : ScopePlace (enterAtomicEdit context scene prepared)
              transaction.targetLayer (ScenePath.specPath (prim.dropLast ++ [newName])) := by
            apply place_touched member
            rw [describes.1]
            exact renamed_mem_managedRollbackPaths present
          unfold ScenePath.specPath at renamed ⊢
          rw [List.map_append, List.map_dropLast] at renamed
          exact renamed
      | _ => exact own

end Scopes

/-! ### What an attempt leaves alone -/

/-- Only sequence numbers have been reserved since `before`. -/
structure Reserved {Tracking Record : Type} (before server : ManagedServer Tracking Record) :
    Prop where
  journal : server.journal = { before.journal with nextSeq := server.journal.nextSeq }
  tracking : server.scene.tracking = before.scene.tracking

theorem Reserved.refl {Tracking Record : Type} (server : ManagedServer Tracking Record) :
    Reserved server server :=
  ⟨rfl, rfl⟩

theorem Reserved.trans {Tracking Record : Type} {first second third : ManagedServer Tracking Record}
    (one : Reserved first second) (two : Reserved second third) : Reserved first third := by
  refine ⟨?_, two.tracking.trans one.tracking⟩
  rw [two.journal, one.journal]

section Attempt

variable {Tracking Record : Type} {context : CommitContext Tracking Record}
  {server : ManagedServer Tracking Record}

theorem encodeEvents_journal {clientId layerKey : String} {journal : EventJournal Record}
    {events : List Event} :
    (encodeEvents context clientId layerKey journal events).1 =
      { journal with
        nextSeq := (encodeEvents context clientId layerKey journal events).1.nextSeq } := by
  induction events generalizing journal with
  | nil => rfl
  | cons event rest ih =>
      have later := @ih journal.assignSeq.2
      unfold encodeEvents
      dsimp only
      split
      · rfl
      · split
        · next ended =>
            rw [ended] at later
            exact later
        · next ended =>
            rw [ended] at later
            exact later

/-- Encoding reserves sequence numbers and touches nothing else. -/
theorem encodeManaged_keeps (context : CommitContext Tracking Record)
    (server : ManagedServer Tracking Record) (transaction : PreparedTransaction) :
    Reserved server (encodeManaged context server transaction).1 ∧
      (encodeManaged context server transaction).1.scene = server.scene :=
  ⟨⟨encodeEvents_journal, rfl⟩, rfl⟩

theorem encodeAll_keeps (context : CommitContext Tracking Record)
    (server : ManagedServer Tracking Record) (prepared : List PreparedTransaction) :
    Reserved server (encodeAll context server prepared).1 ∧
      (encodeAll context server prepared).1.scene = server.scene := by
  induction prepared generalizing server with
  | nil => exact ⟨Reserved.refl server, rfl⟩
  | cons transaction rest ih =>
      obtain ⟨reserved, same⟩ := encodeManaged_keeps context server transaction
      unfold encodeAll
      split
      · next middle error encoded =>
          rw [encoded] at reserved same
          exact ⟨reserved, same⟩
      · next middle rows encoded =>
          rw [encoded] at reserved same
          obtain ⟨later, unchanged⟩ := ih middle
          split
          · next final error ended =>
              rw [ended] at later unchanged
              exact ⟨reserved.trans later, unchanged.trans same⟩
          · next final others ended =>
              rw [ended] at later unchanged
              exact ⟨reserved.trans later, unchanged.trans same⟩

theorem applyTransaction_reserved (context : CommitContext Tracking Record)
    (server : ManagedServer Tracking Record) (transaction : PreparedTransaction) :
    Reserved server (applyTransaction context server transaction).1 := by
  unfold applyTransaction
  dsimp only
  split
  · exact ⟨rfl, rfl⟩
  · exact ⟨rfl, rfl⟩

variable {place removable : LayerId → PrimPath → Prop} {base : Scene → Prop}

/-- Every event of the transactions is routed to permitted places. -/
def AllPlaced (context : CommitContext Tracking Record) (place : LayerId → PrimPath → Prop)
    (objects : EventsRef → List Event) (prepared : List PreparedTransaction) : Prop :=
  ∀ transaction ∈ prepared, ∀ event ∈ objects transaction.request.body.events,
    event.Placed (place (routedLayer context.session transaction.targetLayer event))

theorem applyTransaction_guarded (shielded : Shielded base place removable)
    {transaction : PreparedTransaction}
    (placed : ∀ event ∈ server.scene.objects transaction.request.body.events,
      event.Placed (place (routedLayer context.session transaction.targetLayer event)))
    (passes : (applyValidated context.usd context.session transaction.targetLayer
      (server.scene.objects transaction.request.body.events)).Passes
        (Scene.Contained context.usd place removable) server.scene.scene)
    (holds : base server.scene.scene) :
    base (applyTransaction context server transaction).1.scene.scene := by
  have kept := (shielded.preserves_applyValidated placed).kept passes holds
  unfold applyTransaction
  dsimp only
  split
  · exact kept
  · exact kept

theorem applyTransaction_placed {transaction : PreparedTransaction}
    {prepared : List PreparedTransaction}
    (placed : AllPlaced context place server.scene.objects prepared) :
    AllPlaced context place (applyTransaction context server transaction).1.scene.objects
      prepared := by
  intro other member
  unfold applyTransaction
  dsimp only
  split
  · exact placed other member
  · next events outcome ended =>
      dsimp only
      by_cases same : other.request.body.events = transaction.request.body.events
      · rw [same, Function.update_self]
        have returned : (applyValidated context.usd context.session transaction.targetLayer
            (server.scene.objects transaction.request.body.events)).Returns fun value =>
              ∀ event ∈ value.1,
                event.Placed (place (routedLayer context.session other.targetLayer event)) := by
          apply returns_applyValidated
          · exact fun delta layer known => placed_completed known
          · rw [← same]
            exact placed other member
        exact returned.holds ended
      · rw [Function.update_of_ne same]
        exact placed other member

/-- A group whose events stay inside the permitted places keeps the invariant, also when it
raises on the way. -/
theorem applyAll_guarded (shielded : Shielded base place removable) {encodeNow : Bool}
    {prepared : List PreparedTransaction} {server : ManagedServer Tracking Record}
    (placed : AllPlaced context place server.scene.objects prepared)
    (passes : GroupPasses context (Scene.Contained context.usd place removable) encodeNow server
      prepared)
    (holds : base server.scene.scene) :
    Reserved server (applyAll context encodeNow server prepared).1 ∧
      base (applyAll context encodeNow server prepared).1.scene.scene := by
  induction prepared generalizing server with
  | nil => exact ⟨Reserved.refl server, holds⟩
  | cons transaction rest ih =>
      have first := applyTransaction_guarded shielded (placed transaction List.mem_cons_self)
        passes.1 holds
      have reserved := applyTransaction_reserved context server transaction
      have others : AllPlaced context place
          (applyTransaction context server transaction).1.scene.objects rest :=
        applyTransaction_placed
          fun other member => placed other (List.mem_cons_of_mem transaction member)
      have continues := passes.2
      unfold applyAll
      split
      · next middle error ended =>
          rw [ended] at first reserved
          exact ⟨reserved, first⟩
      · next middle ended =>
          rw [ended] at first reserved others continues
          dsimp only at continues
          have encoded : Reserved middle (if encodeNow then encodeManaged context middle transaction
              else (middle, .ok [])).1 ∧
              (if encodeNow then encodeManaged context middle transaction
                else (middle, .ok [])).1.scene = middle.scene := by
            split
            · exact encodeManaged_keeps context middle transaction
            · exact ⟨Reserved.refl middle, rfl⟩
          generalize (if encodeNow then encodeManaged context middle transaction
            else (middle, .ok [])) = step at continues encoded ⊢
          rcases step with ⟨next, outcome⟩
          cases outcome with
          | error error =>
              refine ⟨reserved.trans encoded.1, ?_⟩
              rw [encoded.2]
              exact first
          | ok rows =>
              dsimp only at encoded
              rw [← encoded.2] at first others
              obtain ⟨later, final⟩ := ih others continues first
              dsimp only
              split
              · next last error finished =>
                  rw [finished] at later final
                  exact ⟨reserved.trans (encoded.1.trans later), final⟩
              · next last records finished =>
                  rw [finished] at later final
                  exact ⟨reserved.trans (encoded.1.trans later), final⟩

end Attempt

/-! ### Atomicity -/

section Atomicity

variable {Tracking Record : Type} {context : CommitContext Tracking Record}
  {server next : ManagedServer Tracking Record}

theorem rollback_keeps (snapshots : List (LayerId × LayerSnapshot))
    (server : ManagedServer Tracking Record) : Reserved server (rollback snapshots server) :=
  ⟨rfl, rfl⟩

/-- Leaving the rollback contexts with an exception gives the layers back. -/
theorem applyAndPersist_atomic {prepared : List PreparedTransaction} {error : EditError}
    (describes : ∀ transaction ∈ prepared, transaction.Describes server.scene.objects)
    (contained : match if needsSceneFields server.scene.objects prepared then (server, .ok [])
        else encodeAll context server prepared with
      | (_, .error _) => True
      | (server', .ok _) =>
          GroupPasses context
            (Scene.Contained context.usd
              (ScopePlace (enterAtomicEdit context server.scene.scene prepared))
              (ScopeRemovable (enterAtomicEdit context server.scene.scene prepared)))
            (needsSceneFields server.scene.objects prepared) server' prepared)
    (failed : applyAndPersistManaged context server prepared = (next, .error error)) :
    Reserved server next ∧ next.scene.scene.layers = server.scene.scene.layers := by
  unfold applyAndPersistManaged at failed
  dsimp only at failed
  generalize needsSceneFields server.scene.objects prepared = encodeNow at contained failed
  have encoded : Reserved server (if encodeNow then (server, .ok [])
      else encodeAll context server prepared).1 ∧
      (if encodeNow then (server, .ok [])
        else encodeAll context server prepared).1.scene = server.scene := by
    split
    · exact ⟨Reserved.refl server, rfl⟩
    · exact encodeAll_keeps context server prepared
  generalize (if encodeNow then (server, .ok [])
    else encodeAll context server prepared) = step at contained failed encoded
  rcases step with ⟨middle, outcome⟩
  obtain ⟨reserved, same⟩ := encoded
  cases outcome with
  | error raised =>
      cases failed
      exact ⟨reserved, by rw [same]⟩
  | ok first =>
      dsimp only at contained failed same reserved
      rw [← same] at contained describes
      have taken := takenOf_enterAtomicEdit context middle.scene.scene prepared
      have start : LayersGuarded (enterAtomicEdit context middle.scene.scene prepared)
          middle.scene.scene middle.scene.scene := by
        intro layer
        exact ⟨fun _ => rfl, fun snapshot scope => (taken _ (mem_of_scopeOf scope)).guards⟩
      have placed : AllPlaced context
          (ScopePlace (enterAtomicEdit context middle.scene.scene prepared))
          middle.scene.objects prepared :=
        fun transaction member => placed_of_describes member (describes transaction member)
      obtain ⟨later, guarded⟩ :=
        applyAll_guarded (shielded_layersGuarded taken) placed contained start
      -- both ways out with an exception leave the rollback contexts
      have undone : ∀ (last : ManagedServer Tracking Record), Reserved middle last →
          LayersGuarded (enterAtomicEdit context middle.scene.scene prepared)
            middle.scene.scene last.scene.scene →
          next = rollback (enterAtomicEdit context middle.scene.scene prepared) last →
          Reserved server next ∧ next.scene.scene.layers = server.scene.scene.layers := by
        intro last kept held back
        subst back
        refine ⟨reserved.trans (kept.trans (rollback_keeps _ last)), ?_⟩
        rw [← same]
        exact restoreLayers_layers taken held
      split at failed
      · next last raised ended =>
          rw [ended] at later guarded
          cases failed
          exact undone last later guarded rfl
      · next last rows ended =>
          rw [ended] at later guarded
          split at failed
          · cases failed
            exact undone last later guarded rfl
          · cases failed

/-- A managed group that raises leaves every layer, the journal and the tracking indexes as they
were. -/
theorem commitManagedGroup_atomic (context : CommitContext Tracking Record)
    (server next : ManagedServer Tracking Record) (requests : List ManagedRequest)
    (error : EditError) (contained : GroupContained context server requests)
    (failed : commitManagedGroup context server requests = (next, .error error)) :
    next.scene.scene.layers = server.scene.scene.layers ∧ next.journal = server.journal ∧
      next.scene.tracking = server.scene.tracking := by
  unfold commitManagedGroup at failed
  unfold GroupContained at contained
  -- leaving `reserve_sequences` gives the sequence numbers back
  have released : ∀ {last : ManagedServer Tracking Record} {raised : EditError},
      Reserved server last → last.scene.scene.layers = server.scene.scene.layers →
      reserveSequences server.journal (last, (.error raised : Except EditError (List (List Record))))
        = (next, .error error) →
      next.scene.scene.layers = server.scene.scene.layers ∧ next.journal = server.journal ∧
        next.scene.tracking = server.scene.tracking := by
    intro last raised reserved layers ended
    cases ended
    refine ⟨layers, ?_, reserved.tracking⟩
    dsimp only
    rw [reserved.journal]
  cases all : prepareAll context server.scene.objects requests with
  | error raised =>
      rw [all] at failed
      exact released (Reserved.refl server) rfl failed
  | ok prepared =>
      rw [all] at failed contained
      dsimp only at failed contained
      cases attempt : applyAndPersistManaged context server prepared with
      | mk last outcome =>
          rw [attempt] at failed
          cases outcome with
          | error raised =>
              obtain ⟨reserved, layers⟩ := applyAndPersist_atomic
                (describes_of_prepareAll context all) contained attempt
              exact released reserved layers failed
          | ok encoded => cases failed

end Atomicity

/-! ### Inside and outside the scope -/

/-- A server with one collaboration layer whose store refuses the second record. -/
def singleLayerContext : CommitContext Unit Nat where
  usd := .plain {}
  session := "session"
  editLayer := "edits"
  keyForLayer := fun layer => if layer = "edits" then some "key" else none
  track := fun tracking _ => tracking
  encode := fun seq _ _ _ => .ok seq
  appendError := fun rows => if rows.any (·.1 = 2) then some "disk full" else none
  setOrder := id
  setOrder_perm := fun _ => List.Perm.refl _

/-- Requests in memory: a material, a second definition of it, and a connection of the material to
a shader that does not exist. -/
def requestObjects : EventsRef → List Event
  | 0 => [.ensurePrim ["M"] "Material" []]
  | 1 => [.setInstanceable ["M"] true]
  | 2 => [.setConnectableConnection ["M"]
      ⟨[(⟨false, "surface"⟩, ⟨["S"], ⟨false, "out"⟩⟩)], by decide⟩ []]
  | _ => []

def materialRequest (txnId : Nat) (events : EventsRef) : ManagedRequest :=
  ⟨("client", "session"), txnId, { events := events }⟩

/-- The server after the material has been committed. -/
def materialServer : ManagedServer Unit Nat :=
  (commitManagedGroup singleLayerContext
    ⟨⟨{ layers := fun _ => .empty }, (), requestObjects⟩, {}⟩ [materialRequest 1 0]).1

/-- While the flag of the material is set, no other event is being applied. -/
theorem applying_setInstanceable :
    ∀ made ∈ ((applyValidated singleLayerContext.usd "session" "edits"
        [.setInstanceable ["M"] true]).edits materialServer.scene.scene).inits,
      (Edit.execute Scene.exec made materialServer.scene.scene).applying ∈
        [none, some ("edits", .setInstanceable ["M"] true)] := by
  decide +kernel

theorem contained_setInstanceable :
    GroupContained singleLayerContext materialServer [materialRequest 2 1] := by
  refine ⟨?_, trivial⟩
  intro made early target event marked
  have listed := applying_setInstanceable made ((List.mem_inits _ _).2 early)
  rw [marked] at listed
  rcases List.mem_cons.1 listed with none | some
  · cases none
  · cases List.mem_singleton.1 some
    intro _ outer above
    have top : ScenePath.ancestors ["M"] = [] := by decide
    rw [top] at above
    exact absurd above List.not_mem_nil

/-- Setting a flag of the material fails in the store and leaves no trace. -/
theorem atomic_setInstanceable :
    ∃ next, commitManagedGroup singleLayerContext materialServer [materialRequest 2 1] =
        (next, .error "disk full") ∧
      GroupContained singleLayerContext materialServer [materialRequest 2 1] ∧
      next.scene.scene.layers = materialServer.scene.scene.layers ∧
      next.journal = materialServer.journal ∧
      next.scene.tracking = materialServer.scene.tracking := by
  have failed : commitManagedGroup singleLayerContext materialServer [materialRequest 2 1] =
      ((commitManagedGroup singleLayerContext materialServer [materialRequest 2 1]).1,
        .error "disk full") := rfl
  refine ⟨_, failed, contained_setInstanceable, ?_⟩
  exact commitManagedGroup_atomic singleLayerContext materialServer _ _ _
    contained_setInstanceable failed

/-- The source shader that a failed connection defined stays in the layer. -/
theorem not_atomic_connectionSource :
    ∃ next, commitManagedGroup singleLayerContext materialServer [materialRequest 2 2] =
        (next, .error "disk full") ∧
      (materialServer.scene.scene.layers "edits").hasPrim [.child "S"] = false ∧
      (next.scene.scene.layers "edits").hasPrim [.child "S"] = true := by
  refine ⟨(commitManagedGroup singleLayerContext materialServer [materialRequest 2 2]).1, ?_, ?_, ?_⟩
  · rfl
  · decide +kernel
  · decide +kernel

end UsdConnect
