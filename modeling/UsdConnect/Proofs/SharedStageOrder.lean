/-
Purpose: Per-layer order on the shared-stage client: where nothing overtakes waiting records and
  replays repeat what was not applied, every layer gets its records in order, each once.
Trusted boundary: none
Main exports: contentRecords, PerLayerOrder, StepInOrder, perLayerOrder_of_stepsInOrder
-/
import UsdConnect.Lib.Machine
import UsdConnect.Proofs.SharedStageContent
import UsdConnect.Usd.Plain

namespace UsdConnect

/-! ### What the stream says about a layer -/

/-- The numbered items of the stream after one sequence and up to another. -/
def streamItems (stream : Nat → SharedItem) (after upto : Nat) : List (Nat × SharedItem) :=
  (List.range' (after + 1) (upto - after)).map fun seq => (seq, stream (seq - 1))

/-- The content records of one layer. -/
def contentOf (layerKey : LayerKey) (records : List SharedRecord) : List SharedRecord :=
  records.filter fun record => record.isContent && decide (record.layerKey = layerKey)

/-- The content records that the stream holds for a layer, in sequence order. -/
def contentRecords (stream : Nat → SharedItem) (after upto : Nat) (layerKey : LayerKey) :
    List SharedRecord :=
  contentOf layerKey (SharedStageClient.receivedRecords (streamItems stream after upto))

theorem mem_streamItems {stream : Nat → SharedItem} {after upto : Nat} {entry : Nat × SharedItem}
    (member : entry ∈ streamItems stream after upto) : after < entry.1 ∧ entry.1 ≤ upto := by
  obtain ⟨seq, inside, rfl⟩ := List.mem_map.1 member
  obtain ⟨lower, upper⟩ := List.mem_range'_1.1 inside
  omega

theorem streamItems_split (stream : Nat → SharedItem) {after middle upto : Nat}
    (first : after ≤ middle) (second : middle ≤ upto) :
    streamItems stream after upto =
      streamItems stream after middle ++ streamItems stream middle upto := by
  unfold streamItems
  rw [← List.map_append]
  have range : List.range' (after + 1) (upto - after) =
      List.range' (after + 1) (middle - after) ++ List.range' (middle + 1) (upto - middle) := by
    rw [show middle + 1 = after + 1 + (middle - after) by omega, List.range'_append_1]
    congr 1
    omega
  rw [range]

theorem numberedRecord_seq {seq : Nat} {item : SharedItem} {record : SharedRecord}
    (made : item.numberedRecord seq = some record) : record.seq = seq := by
  cases item with
  | graphState state => cases made
  | record layerKey event =>
      cases made
      rfl

theorem mem_receivedRecords {received : List (Nat × SharedItem)} {record : SharedRecord}
    (member : record ∈ SharedStageClient.receivedRecords received) :
    ∃ entry ∈ received, record.seq = entry.1 := by
  obtain ⟨entry, present, made⟩ := List.mem_filterMap.1 member
  exact ⟨entry, present, numberedRecord_seq made⟩

theorem mem_graphStates {received : List (Nat × SharedItem)} {state : Nat × GraphState}
    (member : state ∈ SharedStageClient.graphStates received) :
    ∃ entry ∈ received, state.1 = entry.1 := by
  obtain ⟨entry, present, made⟩ := List.mem_filterMap.1 member
  refine ⟨entry, present, ?_⟩
  rcases entry with ⟨seq, item⟩
  cases item with
  | graphState graph =>
      cases made
      rfl
  | record layerKey event => cases made

theorem contentRecords_split (stream : Nat → SharedItem) {after middle upto : Nat}
    (first : after ≤ middle) (second : middle ≤ upto) (layerKey : LayerKey) :
    contentRecords stream after upto layerKey =
      contentRecords stream after middle layerKey ++ contentRecords stream middle upto layerKey := by
  unfold contentRecords contentOf SharedStageClient.receivedRecords
  rw [streamItems_split stream first second, List.filterMap_append, List.filter_append]

theorem mem_contentRecords {stream : Nat → SharedItem} {after upto : Nat} {layerKey : LayerKey}
    {record : SharedRecord} (member : record ∈ contentRecords stream after upto layerKey) :
    after < record.seq ∧ record.seq ≤ upto := by
  obtain ⟨entry, present, same⟩ := mem_receivedRecords (List.mem_filter.1 member).1
  rw [same]
  exact mem_streamItems present

theorem contentRecords_ascending (stream : Nat → SharedItem) (after upto : Nat)
    (layerKey : LayerKey) :
    (contentRecords stream after upto layerKey).Pairwise fun first second =>
      first.seq < second.seq := by
  apply List.Pairwise.filter
  unfold SharedStageClient.receivedRecords
  apply List.pairwise_filterMap.2
  apply List.pairwise_map.2
  have seqs : (List.range' (after + 1) (upto - after)).Pairwise (· < ·) := List.pairwise_lt_range'
  apply List.Pairwise.imp _ seqs
  intro first second later one made two next
  rw [numberedRecord_seq made, numberedRecord_seq next]
  exact later

/-- What reaches one sequence is the part at or below it of what reaches a later one. -/
theorem contentRecords_upto (stream : Nat → SharedItem) {after middle upto : Nat}
    (first : after ≤ middle) (second : middle ≤ upto) (layerKey : LayerKey) :
    contentRecords stream after middle layerKey =
      (contentRecords stream after upto layerKey).filter fun record =>
        decide (record.seq ≤ middle) := by
  rw [contentRecords_split stream first second, List.filter_append, List.filter_eq_self.2,
    List.filter_eq_nil_iff.2, List.append_nil]
  · intro record member
    have above := (mem_contentRecords member).1
    rw [decide_eq_true_eq]
    omega
  · intro record member
    rw [decide_eq_true_eq]
    exact (mem_contentRecords member).2

/-! ### The property -/

namespace SharedStageClient

/-- Records applied to the layer of a key, in the order they were applied. -/
def appliedTo (client : SharedStageClient) (layerKey : LayerKey) : List SharedRecord :=
  (client.applied.map (·.record)).filter fun record => decide (record.layerKey = layerKey)

/-- Records that wait for the layer of a key. -/
def waitingFor (client : SharedStageClient) (layerKey : LayerKey) : List SharedRecord :=
  client.pendingRecords.filter fun record => decide (record.layerKey = layerKey)

/-- Every layer has its content records in ascending order; those applied and those that wait are
the records that the stream holds up to the cursor, each once; and the content of a layer is what
they make of it. -/
structure PerLayerOrder (libraries : SharedStageLibraries) (stream : Nat → SharedItem)
    (start client : SharedStageClient) : Prop where
  ascending : ∀ layerKey, (client.appliedTo layerKey).Pairwise fun first second =>
    first.seq < second.seq
  once : ∀ layerKey, client.appliedTo layerKey ++ client.waitingFor layerKey =
    contentRecords stream start.lastSeq client.lastSeq layerKey
  content : ∀ layer, client.contents layer =
    replayContent libraries.usd
      (client.applied.filter fun application => decide (application.layer = layer))
      (start.contents layer)

/-! ### Where the steps keep it -/

variable (libraries : SharedStageLibraries)

/-- No record of the key waits. -/
def NoneWaits (client : SharedStageClient) (layerKey : LayerKey) : Prop :=
  ∀ record ∈ client.pendingRecords, record.layerKey ≠ layerKey

/-- The events themselves raise, inside the rollback context, rather than what follows them. -/
def RaisesInside (client : SharedStageClient) (layer : LayerId) (records : List SharedRecord)
    (fault : ApplyFault) : Prop :=
  ∃ error, (client.layerProgram libraries layer records fault).result (client.contents layer) =
    .error error

/-- A content record of a mapped layer is applied when no other waits for the layer, or raises
before its content is kept. -/
def RecordInOrder (client : SharedStageClient) (openable : LayerId → Bool) (fault : ApplyFault)
    (record : SharedRecord) : Prop :=
  ∀ layer, record.isContent = true → client.graph.layers record.layerKey = some layer →
    let applied := client.applyRecord libraries openable fault record
    (applied.2 = true → client.NoneWaits record.layerKey) ∧
      (applied.2 = false → client.RaisesInside libraries layer [record] fault)

/-- Groups in which only the first may raise, before its content is kept and where the rollback
context can put it back. -/
def GroupsInOrder (fault : Nat → ApplyFault) (client : SharedStageClient) :
    List (LayerId × List SharedRecord) → Prop
  | [] => True
  | (layer, records) :: rest =>
      let first := client.applyLayerEvents libraries layer records (fault (groupSeq records))
      (first.2 = false → client.RaisesInside libraries layer records (fault (groupSeq records)) ∧
        Restorable (client.contents layer) (records.filterMap SharedRecord.sceneEvent)) ∧
      (first.2 = true → (applyGroups libraries fault rest first.1).2 = true)

/-- The waiting records that are applied when the graph has changed. -/
def FlushInOrder (client : SharedStageClient) (fault : Nat → ApplyFault) : Prop :=
  client.GroupsInOrder libraries fault (pendingGroups client.graph client.pendingRecords)

/-- No content record that a batch has still to apply lies at or below the cursor. -/
def AheadOf (appliedSeq : Nat) (records : List SharedRecord) : Prop :=
  ∀ record ∈ records, record.isContent = true → appliedSeq < record.seq

/-- A baseline that raises leaves no record of the batch behind the cursor. -/
def StatesInOrder (circumstances : Circumstances) (records : List SharedRecord) :
    List (Nat × GraphState) → SharedStageClient → Nat → Prop
  | [], _, _ => True
  | (seq, state) :: rest, client, appliedSeq =>
      let applied := client.applyGraphState libraries (circumstances.openable seq)
        (circumstances.fault seq) state
      (applied.2 = false → AheadOf appliedSeq records) ∧
        (applied.2 = true → StatesInOrder circumstances records rest applied.1 (max appliedSeq seq))

/-- Every record is in order when its turn comes, and one that raises leaves none behind the
cursor. -/
def RecordsInOrder (circumstances : Circumstances) :
    List SharedRecord → SharedStageClient → Nat → Prop
  | [], _, _ => True
  | record :: rest, client, appliedSeq =>
      let openable := circumstances.openable record.seq
      let fault := circumstances.fault record.seq
      let applied := client.applyRecord libraries openable fault record
      client.RecordInOrder libraries openable fault record ∧
        (applied.2 = false → AheadOf appliedSeq (record :: rest)) ∧
        (applied.2 = true →
          RecordsInOrder circumstances rest applied.1 (max appliedSeq record.seq))

/-- The parts of a batch, as far as it is applied. -/
def BatchInOrder (circumstances : Circumstances) (received : List (Nat × SharedItem))
    (client : SharedStageClient) (appliedSeq : Nat) : Prop :=
  let states := applyGraphStates libraries circumstances (graphStates received) client appliedSeq
  let records := applyRecords libraries circumstances (receivedRecords received) states.1 states.2.1
  StatesInOrder libraries circumstances (receivedRecords received) (graphStates received) client
      appliedSeq ∧
    (states.2.2 = true →
      RecordsInOrder libraries circumstances (receivedRecords received) states.1 states.2.1 ∧
        (records.2.2 = true → records.1.FlushInOrder libraries circumstances.fault))

/-- The condition on one step. -/
def StepInOrder (stream : Nat → SharedItem) (client : SharedStageClient) :
    SharedStageAction → Prop
  | .incoming frames circumstances =>
      BatchInOrder libraries circumstances
        (decodeMessages (frames.map (·.carry stream)) { lastSeq := client.lastSeq }).received client
        client.lastSeq
  | .refresh openable fault =>
      let refreshed := client.graph.refreshDependencies libraries.paths openable
      refreshed.2 = true → FlushInOrder libraries { client with graph := refreshed.1 } fault

/-! ### What an operation applies -/

variable {libraries} {client next : SharedStageClient}

/-- An operation took these records: those with content are applied or wait, behind the earlier
ones of their layer, and the contents changed by what was applied. -/
structure Advances (libraries : SharedStageLibraries) (client next : SharedStageClient)
    (records : List SharedRecord) : Prop where
  settled : ∀ layerKey, next.appliedTo layerKey ++ next.waitingFor layerKey =
    client.appliedTo layerKey ++ client.waitingFor layerKey ++ contentOf layerKey records
  applied : ∃ made, next.applied = client.applied ++ made ∧ ∀ layer, next.contents layer =
    replayContent libraries.usd
      (made.filter fun application => decide (application.layer = layer)) (client.contents layer)
  waiting : (∀ record ∈ client.pendingRecords, record.isContent = true) →
    ∀ record ∈ next.pendingRecords, record.isContent = true
  cursor : next.lastSeq = client.lastSeq

theorem contentOf_append (layerKey : LayerKey) (first second : List SharedRecord) :
    contentOf layerKey (first ++ second) = contentOf layerKey first ++ contentOf layerKey second :=
  List.filter_append ..

theorem Advances.of_graph (graph : LayerGraph LayerId) :
    Advances libraries client { client with graph := graph } [] where
  settled := by
    intro layerKey
    exact (List.append_nil _).symm
  applied := ⟨[], (List.append_nil _).symm, fun _ => rfl⟩
  waiting := id
  cursor := rfl

theorem Advances.refl (libraries : SharedStageLibraries) (client : SharedStageClient) :
    Advances libraries client client [] :=
  Advances.of_graph client.graph

theorem Advances.trans {final : SharedStageClient} {first second : List SharedRecord}
    (before : Advances libraries client next first) (after : Advances libraries next final second) :
    Advances libraries client final (first ++ second) where
  settled := by
    intro layerKey
    rw [after.settled, before.settled, contentOf_append, List.append_assoc]
  applied := by
    obtain ⟨early, made, contents⟩ := before.applied
    obtain ⟨late, further, changed⟩ := after.applied
    refine ⟨early ++ late, ?_, ?_⟩
    · rw [further, made, List.append_assoc]
    · intro layer
      rw [changed, contents, List.filter_append, replayContent_append]
  waiting := fun known => after.waiting (before.waiting known)
  cursor := after.cursor.trans before.cursor

/-- A record without content changes nothing that is counted. -/
theorem Advances.skip {record : SharedRecord} (other : record.isContent = false)
    (advances : Advances libraries client next []) : Advances libraries client next [record] where
  settled := by
    intro layerKey
    have none : contentOf layerKey [record] = [] := by
      unfold contentOf
      rw [List.filter_cons_of_neg]
      · rfl
      · rw [other]
        exact Bool.false_ne_true
    rw [none]
    exact advances.settled layerKey
  applied := advances.applied
  waiting := advances.waiting
  cursor := advances.cursor

theorem contentOf_singleton {record : SharedRecord} (content : record.isContent = true)
    (layerKey : LayerKey) :
    contentOf layerKey [record] =
      [record].filter fun record => decide (record.layerKey = layerKey) := by
  unfold contentOf
  apply List.filter_congr
  intro other member
  rw [List.mem_singleton.1 member, content, Bool.true_and]

/-! ### One application -/

/-- An application that returns has replayed its records. -/
theorem applyLayerEvents_returned {layer : LayerId} {records : List SharedRecord}
    {fault : ApplyFault} (content : ∀ record ∈ records, record.isContent = true)
    (returned : client.applyLayerEvents libraries layer records fault = (next, true)) :
    ∃ made : List ContentApplication, made.map (·.record) = records ∧
      (∀ application ∈ made, application.layer = layer) ∧
      next =
        { client.withContent layer (replayContent libraries.usd made (client.contents layer)) with
          applied := client.applied ++ made } := by
  unfold applyLayerEvents at returned
  dsimp only at returned
  split at returned
  · cases returned
  · next flags outcome =>
      obtain ⟨same, replayed⟩ := applyContentEvents_spec layer content outcome
      refine ⟨applicationsOf layer records flags, applicationsOf_records same, ?_, ?_⟩
      · exact fun application member => applicationsOf_layer member
      · rw [← replayed]
        exact (congrArg Prod.fst returned).symm

/-- One that raises inside its rollback context leaves the client as it was. -/
theorem applyLayerEvents_raised {layer : LayerId} {records : List SharedRecord}
    {fault : ApplyFault} (inside : client.RaisesInside libraries layer records fault)
    (restorable : Restorable (client.contents layer) (records.filterMap SharedRecord.sceneEvent)) :
    client.applyLayerEvents libraries layer records fault = (client, false) := by
  obtain ⟨error, raised⟩ := inside
  unfold applyLayerEvents
  dsimp only
  rw [raised]
  unfold layerProgram withContent
  rw [applyContentEvents_restored restorable, Function.update_eq_self]

theorem contents_of_applied {layer : LayerId} {made : List ContentApplication}
    (own : ∀ application ∈ made, application.layer = layer) (other : LayerId) :
    (client.withContent layer (replayContent libraries.usd made (client.contents layer))).contents
        other =
      replayContent libraries.usd
        (made.filter fun application => decide (application.layer = other))
        (client.contents other) := by
  unfold withContent
  dsimp only
  rcases eq_or_ne other layer with rfl | away
  · rw [Function.update_self, List.filter_eq_self.2]
    intro application member
    exact decide_eq_true (own application member)
  · rw [Function.update_of_ne away, List.filter_eq_nil_iff.2]
    · rfl
    · intro application member same
      exact away ((of_decide_eq_true same).symm.trans (own application member))

theorem appliedTo_append {made : List ContentApplication} {records : List SharedRecord}
    (same : made.map (·.record) = records)
    (grown : next.applied = client.applied ++ made) (layerKey : LayerKey) :
    next.appliedTo layerKey = client.appliedTo layerKey ++
      records.filter fun record => decide (record.layerKey = layerKey) := by
  unfold appliedTo
  rw [grown, List.map_append, same, List.filter_append]

/-! ### One record -/

theorem isContent_scene {record : SharedRecord} {event : Event}
    (scene : record.event = .scene event) : record.isContent = event.isLayerContent := by
  unfold SharedRecord.isContent SharedRecord.sceneEvent
  rw [scene]
  rfl

/-- A deferred record waits behind the others of its layer. -/
theorem Advances.of_defer {record : SharedRecord} (content : record.isContent = true) :
    Advances libraries client (client.defer record) [record] where
  settled := by
    intro layerKey
    rw [contentOf_singleton content, List.append_assoc]
    exact congrArg (client.appliedTo layerKey ++ ·) (List.filter_append _ _)
  applied := ⟨[], (List.append_nil _).symm, fun _ => rfl⟩
  waiting := by
    intro known other member
    rcases List.mem_append.1 member with earlier | new
    · exact known other earlier
    · rw [List.mem_singleton.1 new]
      exact content
  cursor := rfl

/-- A record applied directly comes behind the others of its layer when none of them waits. -/
theorem Advances.of_direct {layer : LayerId} {record : SharedRecord}
    {fault : ApplyFault} (content : record.isContent = true)
    (noneWaits : client.NoneWaits record.layerKey)
    (returned : client.applyLayerEvents libraries layer [record] fault = (next, true)) :
    Advances libraries client next [record] := by
  obtain ⟨made, same, own, rfl⟩ := applyLayerEvents_returned
    (fun other member => List.mem_singleton.1 member ▸ content) returned
  constructor
  · intro layerKey
    rw [appliedTo_append same rfl, contentOf_singleton content]
    change client.appliedTo layerKey ++ _ ++ client.waitingFor layerKey = _
    rcases eq_or_ne record.layerKey layerKey with rfl | away
    · have empty : client.waitingFor record.layerKey = [] := by
        apply List.filter_eq_nil_iff.2
        intro other member
        rw [decide_eq_true_eq]
        exact noneWaits other member
      rw [empty, List.append_nil, List.append_nil]
    · have nothing : [record].filter (fun record => decide (record.layerKey = layerKey)) = [] := by
        rw [List.filter_cons_of_neg (by simpa using away)]
        rfl
      rw [nothing, List.append_nil, List.append_nil]
  · exact ⟨made, rfl, contents_of_applied own⟩
  · exact id
  · rfl

theorem applyRecord_returned {openable : LayerId → Bool} {fault : ApplyFault}
    {record : SharedRecord} (inOrder : client.RecordInOrder libraries openable fault record)
    (returned : client.applyRecord libraries openable fault record = (next, true)) :
    Advances libraries client next [record] := by
  have outcome := congrArg Prod.snd returned
  rcases record with ⟨seq, layerKey, event⟩
  unfold applyRecord at returned
  split at returned
  · cases returned
  · dsimp only at returned
    cases event with
    | setSublayers topology =>
        apply Advances.skip rfl
        dsimp only at returned
        split at returned
        · cases returned
        · split at returned
          · cases returned
          · cases congrArg Prod.fst returned
            exact Advances.of_graph _
    | scene event =>
        dsimp only at returned
        split at returned
        · next content =>
            have known : SharedRecord.isContent ⟨seq, layerKey, .scene event⟩ = true :=
              (isContent_scene rfl).trans content
            split at returned
            · cases returned
              exact Advances.of_defer known
            · next layer mapped =>
                exact Advances.of_direct known ((inOrder layer known mapped).1 outcome) returned
        · cases returned

theorem applyRecord_raised {openable : LayerId → Bool} {fault : ApplyFault}
    {record : SharedRecord} (inOrder : client.RecordInOrder libraries openable fault record)
    (raised : client.applyRecord libraries openable fault record = (next, false)) :
    Advances libraries client next [] := by
  have outcome := congrArg Prod.snd raised
  rcases record with ⟨seq, layerKey, event⟩
  unfold applyRecord at raised
  split at raised
  · cases raised
    exact Advances.refl libraries client
  · dsimp only at raised
    cases event with
    | setSublayers topology =>
        dsimp only at raised
        split at raised
        · cases raised
          exact Advances.refl libraries client
        · split at raised
          · cases raised
            exact Advances.refl libraries client
          · cases congrArg Prod.fst raised
            exact Advances.of_graph _
    | scene event =>
        dsimp only at raised
        split at raised
        · next content =>
            have known : SharedRecord.isContent ⟨seq, layerKey, .scene event⟩ = true :=
              (isContent_scene rfl).trans content
            split at raised
            · cases raised
            · next layer mapped =>
                have inside := (inOrder layer known mapped).2 outcome
                rw [applyLayerEvents_raised inside restorable_singleton] at raised
                cases raised
                exact Advances.refl libraries client
        · cases raised
          exact Advances.refl libraries client

/-! ### The waiting records -/

theorem flatten_joinGroup (layer : LayerId) (record : SharedRecord)
    (groups : List (LayerId × List SharedRecord)) :
    (joinGroup layer record groups).flatMap (·.2) = record :: groups.flatMap (·.2) := by
  cases groups with
  | nil => rfl
  | cons group rest =>
      rcases group with ⟨other, records⟩
      unfold joinGroup
      dsimp only
      split
      · rfl
      · rfl

/-- The groups hold the records of mapped layers in their order. -/
theorem flatten_pendingGroups (graph : LayerGraph LayerId) (records : List SharedRecord) :
    (pendingGroups graph records).flatMap (·.2) =
      records.filter fun record => (graph.layers record.layerKey).isSome := by
  induction records with
  | nil => rfl
  | cons record rest ih =>
      unfold pendingGroups
      split
      · next unmapped =>
          rw [List.filter_cons_of_neg (by rw [unmapped]; exact Bool.false_ne_true)]
          exact ih
      · next layer mapped =>
          rw [List.filter_cons_of_pos (by rw [mapped]; rfl), flatten_joinGroup, ih]

/-- What a sequence of groups applies; the waiting list is not touched. -/
theorem applyGroups_returned {fault : Nat → ApplyFault}
    {groups : List (LayerId × List SharedRecord)}
    (content : ∀ group ∈ groups, ∀ record ∈ group.2, record.isContent = true)
    (returned : applyGroups libraries fault groups client = (next, true)) :
    ∃ made, made.map (·.record) = groups.flatMap (·.2) ∧ next.applied = client.applied ++ made ∧
      (∀ layer, next.contents layer = replayContent libraries.usd
        (made.filter fun application => decide (application.layer = layer))
        (client.contents layer)) ∧
      next.pendingRecords = client.pendingRecords ∧ next.lastSeq = client.lastSeq := by
  induction groups generalizing client with
  | nil =>
      cases returned
      exact ⟨[], rfl, (List.append_nil _).symm, fun _ => rfl, rfl, rfl⟩
  | cons group rest ih =>
      unfold applyGroups at returned
      split at returned
      · cases returned
      · next middle first =>
          obtain ⟨early, records, own, rfl⟩ := applyLayerEvents_returned
            (content group List.mem_cons_self) first
          obtain ⟨late, others, grown, contents, pending, cursor⟩ :=
            ih (fun other member => content other (List.mem_cons_of_mem group member)) returned
          refine ⟨early ++ late, ?_, ?_, ?_, pending, cursor⟩
          · rw [List.map_append, records, others, List.flatMap_cons]
          · rw [grown, List.append_assoc]
          · intro layer
            rw [contents, List.filter_append, replayContent_append]
            exact congrArg _ (contents_of_applied own layer)

theorem applyGroups_raised {fault : Nat → ApplyFault}
    {groups : List (LayerId × List SharedRecord)}
    (inOrder : client.GroupsInOrder libraries fault groups)
    (raised : applyGroups libraries fault groups client = (next, false)) : next = client := by
  cases groups with
  | nil => cases raised
  | cons group rest =>
      obtain ⟨undone, others⟩ := inOrder
      unfold applyGroups at raised
      split at raised
      · next stopped first =>
          cases raised
          obtain ⟨inside, restorable⟩ := undone (congrArg Prod.snd first)
          rw [applyLayerEvents_raised inside restorable] at first
          cases first
          rfl
      · next middle first =>
          have finished := others (congrArg Prod.snd first)
          rw [first, raised] at finished
          cases finished

theorem mapped_append_retained (graph : LayerGraph LayerId) (records : List SharedRecord)
    (layerKey : LayerKey) :
    ((records.filter fun record => (graph.layers record.layerKey).isSome).filter fun record =>
          decide (record.layerKey = layerKey)) ++
        ((retainedRecords graph records).filter fun record =>
          decide (record.layerKey = layerKey)) =
      records.filter fun record => decide (record.layerKey = layerKey) := by
  unfold retainedRecords
  rw [List.filter_filter, List.filter_filter]
  cases mapped : graph.layers layerKey with
  | none =>
      have none : (records.filter fun record => decide (record.layerKey = layerKey) &&
          (graph.layers record.layerKey).isSome) = [] := by
        apply List.filter_eq_nil_iff.2
        intro record _ both
        obtain ⟨same, found⟩ := Bool.and_eq_true_iff.1 both
        rw [of_decide_eq_true same, mapped] at found
        cases found
      rw [none, List.nil_append]
      apply List.filter_congr
      intro record _
      rcases eq_or_ne record.layerKey layerKey with rfl | away
      · rw [mapped, Option.isNone_none, Bool.and_true]
      · rw [decide_eq_false away, Bool.false_and]
  | some layer =>
      have none : (records.filter fun record => decide (record.layerKey = layerKey) &&
          (graph.layers record.layerKey).isNone) = [] := by
        apply List.filter_eq_nil_iff.2
        intro record _ both
        obtain ⟨same, missing⟩ := Bool.and_eq_true_iff.1 both
        rw [of_decide_eq_true same, mapped] at missing
        cases missing
      rw [none, List.append_nil]
      apply List.filter_congr
      intro record _
      rcases eq_or_ne record.layerKey layerKey with rfl | away
      · rw [mapped, Option.isSome_some, Bool.and_true]
      · rw [decide_eq_false away, Bool.false_and]

/-- Waiting records that are applied go behind the earlier ones of their layer. -/
theorem applyPending_returned {fault : Nat → ApplyFault}
    (content : ∀ record ∈ client.pendingRecords, record.isContent = true)
    (returned : client.applyPending libraries fault = (next, true)) :
    Advances libraries client next [] := by
  have groupContent : ∀ group ∈ pendingGroups client.graph client.pendingRecords,
      ∀ record ∈ group.2, record.isContent = true := by
    intro group member record inside
    have listed : record ∈ (pendingGroups client.graph client.pendingRecords).flatMap (·.2) :=
      List.mem_flatMap.2 ⟨group, member, inside⟩
    rw [flatten_pendingGroups] at listed
    exact content record (List.mem_filter.1 listed).1
  unfold applyPending at returned
  split at returned
  · cases returned
  · next flushed groups =>
      cases returned
      obtain ⟨made, records, grown, contents, pending, cursor⟩ :=
        applyGroups_returned groupContent groups
      constructor
      · intro layerKey
        rw [flatten_pendingGroups] at records
        have applied := appliedTo_append records grown layerKey
        change flushed.appliedTo layerKey ++
          List.filter _ (retainedRecords client.graph client.pendingRecords) = _
        unfold contentOf
        rw [applied, List.filter_nil, List.append_nil, List.append_assoc]
        congr 1
        exact mapped_append_retained client.graph client.pendingRecords layerKey
      · exact ⟨made, grown, contents⟩
      · intro known record member
        exact known record (List.mem_filter.1 member).1
      · exact cursor

theorem applyPending_raised {fault : Nat → ApplyFault}
    (inOrder : client.FlushInOrder libraries fault)
    (raised : client.applyPending libraries fault = (next, false)) : next = client := by
  unfold applyPending at raised
  split at raised
  · next stopped groups =>
      cases raised
      exact applyGroups_raised inOrder groups
  · cases raised

theorem groupsInOrder_of_returned {fault : Nat → ApplyFault}
    {groups : List (LayerId × List SharedRecord)}
    (returned : applyGroups libraries fault groups client = (next, true)) :
    client.GroupsInOrder libraries fault groups := by
  cases groups with
  | nil => trivial
  | cons group rest =>
      unfold applyGroups at returned
      unfold GroupsInOrder
      dsimp only
      split at returned
      · cases returned
      · next middle first =>
          rw [first]
          exact ⟨nofun, fun _ => congrArg Prod.snd returned⟩

theorem flushInOrder_of_returned {fault : Nat → ApplyFault}
    (returned : (client.applyPending libraries fault).2 = true) :
    client.FlushInOrder libraries fault := by
  unfold applyPending at returned
  split at returned
  · cases returned
  · next flushed groups => exact groupsInOrder_of_returned groups

/-! ### Batches -/

/-- Where a part of a batch ends: the records it took come before the cursor, the content records
it left come after, and it left none when it returned. -/
structure BatchEffect (libraries : SharedStageLibraries) (client next : SharedStageClient)
    (records : List SharedRecord) (appliedSeq last : Nat) (finished : Bool) : Prop where
  parted : ∃ taken left, records = taken ++ left ∧ Advances libraries client next taken ∧
    (∀ record ∈ taken, record.seq ≤ last) ∧ AheadOf last left ∧ (finished = true → left = [])
  reached : appliedSeq ≤ last
  bounded : ∀ bound, appliedSeq ≤ bound → (∀ record ∈ records, record.seq ≤ bound) → last ≤ bound

theorem applyRecords_effect {circumstances : Circumstances} {records : List SharedRecord}
    {appliedSeq last : Nat} {finished : Bool}
    (inOrder : RecordsInOrder libraries circumstances records client appliedSeq)
    (outcome : applyRecords libraries circumstances records client appliedSeq =
      (next, last, finished)) :
    BatchEffect libraries client next records appliedSeq last finished := by
  induction records generalizing client appliedSeq with
  | nil =>
      cases outcome
      exact ⟨⟨[], [], rfl, Advances.refl libraries _, nofun, nofun, fun _ => rfl⟩, le_refl _,
        fun _ bound _ => bound⟩
  | cons record rest ih =>
      obtain ⟨ordered, ahead, others⟩ := inOrder
      unfold applyRecords at outcome
      split at outcome
      · next stopped first =>
          cases outcome
          have advances := applyRecord_raised ordered first
          exact ⟨⟨[], record :: rest, rfl, advances, nofun, ahead (congrArg Prod.snd first), nofun⟩,
            le_refl _, fun _ bound _ => bound⟩
      · next middle first =>
          have advances := applyRecord_returned ordered first
          have remaining := others (congrArg Prod.snd first)
          rw [first] at remaining
          obtain ⟨⟨taken, left, parted, further, below, above, whole⟩, reached, bounded⟩ :=
            ih remaining outcome
          refine ⟨⟨record :: taken, left, ?_, advances.trans further, ?_, above, whole⟩, ?_, ?_⟩
          · rw [parted]
            rfl
          · intro other member
            rcases List.mem_cons.1 member with rfl | later
            · omega
            · exact below other later
          · omega
          · intro bound start inside
            apply bounded bound
            · have own := inside record List.mem_cons_self
              omega
            · exact fun other member => inside other (List.mem_cons_of_mem record member)

/-- Baselines change nothing but the graph and the cursor. -/
theorem applyGraphState_advances (libraries : SharedStageLibraries) (client : SharedStageClient)
    (openable : LayerId → Bool) (fault : ApplyFault) (state : GraphState) :
    Advances libraries client (client.applyGraphState libraries openable fault state).1 [] := by
  unfold applyGraphState
  split
  · exact Advances.refl libraries client
  · split
    · exact Advances.refl libraries client
    · exact Advances.of_graph _

theorem applyGraphStates_effect {circumstances : Circumstances} {records : List SharedRecord}
    {states : List (Nat × GraphState)} {appliedSeq last : Nat} {finished : Bool}
    (inOrder : StatesInOrder libraries circumstances records states client appliedSeq)
    (outcome : applyGraphStates libraries circumstances states client appliedSeq =
      (next, last, finished)) :
    Advances libraries client next [] ∧ appliedSeq ≤ last ∧
      (finished = false → AheadOf last records) ∧
      ∀ bound, appliedSeq ≤ bound → (∀ state ∈ states, state.1 ≤ bound) → last ≤ bound := by
  induction states generalizing client appliedSeq with
  | nil =>
      cases outcome
      exact ⟨Advances.refl libraries _, le_refl _, nofun, fun _ bound _ => bound⟩
  | cons state rest ih =>
      obtain ⟨ahead, others⟩ := inOrder
      have first := applyGraphState_advances libraries client (circumstances.openable state.1)
        (circumstances.fault state.1) state.2
      unfold applyGraphStates at outcome
      split at outcome
      · next stopped raised =>
          cases outcome
          rw [raised] at first
          exact ⟨first, le_refl _, fun _ => ahead (congrArg Prod.snd raised), fun _ bound _ => bound⟩
      · next middle returned =>
          rw [returned] at first
          have remaining := others (congrArg Prod.snd returned)
          rw [returned] at remaining
          obtain ⟨further, reached, behind, bounded⟩ := ih remaining outcome
          refine ⟨first.trans further, by omega, behind, ?_⟩
          intro bound start inside
          apply bounded bound
          · have own := inside state List.mem_cons_self
            omega
          · exact fun other member => inside other (List.mem_cons_of_mem state member)

/-- A batch takes the records up to its cursor. -/
theorem applyDecoded_effect {circumstances : Circumstances} {received : List (Nat × SharedItem)}
    {appliedSeq last : Nat} {finished : Bool}
    (content : ∀ record ∈ client.pendingRecords, record.isContent = true)
    (inOrder : client.BatchInOrder libraries circumstances received appliedSeq)
    (outcome : client.applyDecoded libraries circumstances received appliedSeq =
      (next, last, finished))
    {bound : Nat} (start : appliedSeq ≤ bound) (inside : ∀ entry ∈ received, entry.1 ≤ bound) :
    appliedSeq ≤ last ∧ last ≤ bound ∧
      ∃ taken left, receivedRecords received = taken ++ left ∧
        Advances libraries client next taken ∧ (∀ record ∈ taken, record.seq ≤ last) ∧
        AheadOf last left ∧ (finished = true → left = []) := by
  have stateBound : ∀ state ∈ graphStates received, state.1 ≤ bound := by
    intro state member
    obtain ⟨entry, present, same⟩ := mem_graphStates member
    exact same.le.trans (inside entry present)
  have recordBound : ∀ record ∈ receivedRecords received, record.seq ≤ bound := by
    intro record member
    obtain ⟨entry, present, same⟩ := mem_receivedRecords member
    exact same.le.trans (inside entry present)
  obtain ⟨states, afterStates⟩ := inOrder
  unfold applyDecoded at outcome
  split at outcome
  · next stopped reached raised =>
      cases outcome
      obtain ⟨advances, above, behind, bounded⟩ := applyGraphStates_effect states raised
      exact ⟨above, bounded bound start stateBound,
        [], receivedRecords received, rfl, advances, nofun, behind rfl, nofun⟩
  · next ready reached applied =>
      rw [applied] at afterStates
      obtain ⟨records, flush⟩ := afterStates rfl
      obtain ⟨advances, above, _, bounded⟩ := applyGraphStates_effect states applied
      have readyBound := bounded bound start stateBound
      split at outcome
      · next stopped final raised =>
          cases outcome
          obtain ⟨⟨taken, left, parted, further, below, ahead, _⟩, behind, limited⟩ :=
            applyRecords_effect records raised
          exact ⟨above.trans behind, limited bound readyBound recordBound, taken, left, parted,
            advances.trans further, below, ahead, nofun⟩
      · next done final returned =>
          obtain ⟨⟨taken, left, parted, further, below, ahead, whole⟩, behind, limited⟩ :=
            applyRecords_effect records returned
          rw [returned] at flush
          have early := advances.trans further
          have later : Advances libraries done (done.applyPending libraries circumstances.fault).1
              [] := by
            rcases flushed : done.applyPending libraries circumstances.fault with ⟨last, returned⟩
            cases returned with
            | true => exact applyPending_returned (early.waiting content) flushed
            | false =>
                rw [applyPending_raised (flush rfl) flushed]
                exact Advances.refl libraries done
          have all := early.trans later
          rw [List.append_nil] at all
          cases outcome
          exact ⟨above.trans behind, limited bound readyBound recordBound, taken, left, parted, all,
            below, ahead, fun _ => whole rfl⟩

/-! ### Decoded batches -/

/-- A batch decoded from the stream holds its items from the cursor on, without a gap. -/
theorem decodeMessages_stream {stream : Nat → SharedItem} {lastSeq : Nat}
    {frames : List StreamFrame} :
    ∀ {result : DecodeResult SharedItem}, result.resyncRequested = false →
      lastSeq ≤ result.lastSeq → result.received = streamItems stream lastSeq result.lastSeq →
      ∀ {decoded : DecodeResult SharedItem},
        decodeMessages (frames.map (·.carry stream)) result = decoded →
        decoded.resyncRequested = false ∧ lastSeq ≤ decoded.lastSeq ∧
          decoded.received = streamItems stream lastSeq decoded.lastSeq := by
  induction frames with
  | nil =>
      intro result plain above received decoded outcome
      cases outcome
      exact ⟨plain, above, received⟩
  | cons frame rest ih =>
      intro result plain above received decoded outcome
      cases frame with
      | other => exact ih plain above received outcome
      | malformed kind sequence =>
          cases outcome
          exact ⟨plain, above, received⟩
      | item index =>
          simp only [List.map_cons, StreamFrame.carry, decodeMessages] at outcome
          split at outcome
          · exact ih plain above received outcome
          · split at outcome
            · cases outcome
              exact ⟨plain, above, received⟩
            · next gapless =>
                have position : index = result.lastSeq := by
                  by_contra different
                  exact gapless ⟨Nat.succ_ne_zero index, by omega⟩
                subst position
                rw [if_pos (Nat.succ_ne_zero _)] at outcome
                apply ih _ _ _ outcome
                · exact plain
                · exact above.trans (Nat.le_succ _)
                · have last : streamItems stream result.lastSeq (result.lastSeq + 1) =
                      [(result.lastSeq + 1, stream result.lastSeq)] := by
                    unfold streamItems
                    rw [Nat.add_sub_cancel_left]
                    rfl
                  dsimp only
                  rw [streamItems_split stream above (Nat.le_succ _), last, received]

/-! ### Runs -/

/-- What every reachable state satisfies. -/
structure Sound (libraries : SharedStageLibraries) (stream : Nat → SharedItem)
    (start client : SharedStageClient) : Prop where
  cursor : start.lastSeq ≤ client.lastSeq
  once : ∀ layerKey, client.appliedTo layerKey ++ client.waitingFor layerKey =
    contentRecords stream start.lastSeq client.lastSeq layerKey
  content : ∀ layer, client.contents layer =
    replayContent libraries.usd
      (client.applied.filter fun application => decide (application.layer = layer))
      (start.contents layer)
  waiting : ∀ record ∈ client.pendingRecords, record.isContent = true

theorem Sound.perLayerOrder {stream : Nat → SharedItem} {start : SharedStageClient}
    (sound : Sound libraries stream start client) :
    PerLayerOrder libraries stream start client where
  ascending := by
    intro layerKey
    have whole := contentRecords_ascending stream start.lastSeq client.lastSeq layerKey
    rw [← sound.once layerKey] at whole
    exact whole.sublist (List.sublist_append_left _ _)
  once := sound.once
  content := sound.content

/-- Taking records that bring the cursor to where the stream has them keeps the invariant. -/
theorem Sound.advance {stream : Nat → SharedItem} {start : SharedStageClient}
    (sound : Sound libraries stream start client) {records : List SharedRecord} {last : Nat}
    (advances : Advances libraries client next records) (above : client.lastSeq ≤ last)
    (taken : ∀ layerKey, contentOf layerKey records =
      contentRecords stream client.lastSeq last layerKey) :
    Sound libraries stream start { next with lastSeq := last } where
  cursor := sound.cursor.trans above
  once := by
    intro layerKey
    have settled := advances.settled layerKey
    rw [sound.once, taken, ← contentRecords_split stream sound.cursor above] at settled
    exact settled
  content := by
    intro layer
    obtain ⟨made, grown, contents⟩ := advances.applied
    change next.contents layer = replayContent libraries.usd
      (next.applied.filter fun application => decide (application.layer = layer)) _
    rw [grown, List.filter_append, replayContent_append, contents, sound.content layer]
  waiting := advances.waiting sound.waiting

/-- A step that takes no record. -/
theorem Sound.still {stream : Nat → SharedItem} {start : SharedStageClient}
    (sound : Sound libraries stream start client) (advances : Advances libraries client next []) :
    Sound libraries stream start next := by
  have nothing : ∀ layerKey, contentOf layerKey [] =
      contentRecords stream client.lastSeq client.lastSeq layerKey := by
    intro layerKey
    unfold contentRecords streamItems
    rw [Nat.sub_self]
    rfl
  have same := sound.advance advances (le_refl _) nothing
  rw [← advances.cursor] at same
  exact same

/-- A decoded batch keeps the invariant, whether it is applied or an exception stops it. -/
theorem sound_applyIncoming {stream : Nat → SharedItem} {start : SharedStageClient}
    (sound : Sound libraries stream start client) {circumstances : Circumstances}
    {frames : List StreamFrame}
    (inOrder : client.StepInOrder libraries stream (.incoming frames circumstances)) :
    Sound libraries stream start
      (client.applyIncoming libraries circumstances (frames.map (·.carry stream))).1 := by
  simp only [StepInOrder] at inOrder
  unfold applyIncoming
  generalize decoded : decodeMessages (frames.map (·.carry stream))
    { lastSeq := client.lastSeq } = result at inOrder
  obtain ⟨plain, above, received⟩ : result.resyncRequested = false ∧
      client.lastSeq ≤ result.lastSeq ∧
      result.received = streamItems stream client.lastSeq result.lastSeq := by
    apply decodeMessages_stream _ _ _ decoded
    · rfl
    · exact le_refl _
    · unfold streamItems
      rw [Nat.sub_self]
      rfl
  dsimp only
  rw [plain, if_neg Bool.false_ne_true, if_neg Bool.false_ne_true]
  rcases outcome : client.applyDecoded libraries circumstances result.received client.lastSeq with
    ⟨next, last, finished⟩
  obtain ⟨reached, limited, taken, left, parted, advances, below, ahead, whole⟩ :=
    applyDecoded_effect sound.waiting inOrder outcome above (by
      intro entry member
      rw [received] at member
      exact (mem_streamItems member).2)
  -- the records taken are the stream's up to the cursor
  have upto : ∀ layerKey, contentOf layerKey taken =
      contentRecords stream client.lastSeq last layerKey := by
    intro layerKey
    rw [contentRecords_upto stream reached limited]
    unfold contentRecords
    rw [← received, parted, contentOf_append, List.filter_append, List.filter_eq_self.2,
      List.filter_eq_nil_iff.2, List.append_nil]
    · intro record member
      obtain ⟨present, content⟩ := List.mem_filter.1 member
      have later := ahead record present (Bool.and_eq_true_iff.1 content).1
      rw [decide_eq_true_eq]
      omega
    · intro record member
      exact decide_eq_true (below record (List.mem_filter.1 member).1)
  cases finished with
  | false => exact sound.advance advances reached upto
  | true =>
      dsimp only
      rw [max_eq_right limited]
      apply sound.advance advances above
      intro layerKey
      rw [contentRecords, ← received, parted, whole rfl, List.append_nil]

theorem sound_refresh {stream : Nat → SharedItem} {start : SharedStageClient}
    (sound : Sound libraries stream start client) {openable : LayerId → Bool}
    {fault : Nat → ApplyFault}
    (inOrder : client.StepInOrder libraries stream (.refresh openable fault)) :
    Sound libraries stream start (client.refreshLayerGraph libraries openable fault).1 := by
  unfold refreshLayerGraph
  split
  · exact sound.still (Advances.of_graph _)
  · next graph refreshed =>
      have mapped : Sound libraries stream start { client with graph := graph } :=
        sound.still (Advances.of_graph graph)
      rcases flushed : applyPending libraries { client with graph := graph } fault with
        ⟨last, returned⟩
      cases returned with
      | true => exact mapped.still (applyPending_returned mapped.waiting flushed)
      | false =>
          simp only [StepInOrder, refreshed] at inOrder
          rw [applyPending_raised (inOrder trivial) flushed]
          exact mapped

/-- A client that has applied nothing yet. -/
def Fresh (client : SharedStageClient) : Prop :=
  client.pendingRecords = [] ∧ client.applied = []

/-- Per-layer order holds in every state that steps in order reach. -/
theorem perLayerOrder_of_stepsInOrder {stream : Nat → SharedItem}
    {start : SharedStageClient} (fresh : start.Fresh) {actions : List SharedStageAction}
    (inOrder : Machine.StepsMeet (step libraries stream) (StepInOrder libraries stream) start actions)
    (reached : Machine.run (step libraries stream) start actions = some client) :
    PerLayerOrder libraries stream start client := by
  apply Sound.perLayerOrder
  refine Machine.run_preserves ?_ actions start client ?_ inOrder reached
  · intro state action next sound meets stepped
    cases action with
    | incoming frames circumstances =>
        cases stepped
        exact sound_applyIncoming sound meets
    | refresh openable fault =>
        cases stepped
        exact sound_refresh sound meets
  · obtain ⟨nothingWaits, nothingApplied⟩ := fresh
    constructor
    · exact le_refl _
    · intro layerKey
      unfold appliedTo waitingFor contentRecords streamItems
      rw [nothingWaits, nothingApplied, Nat.sub_self]
      rfl
    · intro layer
      rw [nothingApplied]
      rfl
    · rw [nothingWaits]
      exact nofun

/-! ### Concrete runs -/

/-- Layer text in which every fragment is empty. -/
def plainLibraries : SharedStageLibraries where
  paths := { portable := fun _ => true, target := fun _ path => path }
  usd := Usd.plain { importFromString := fun _ => some .empty }
  drops := fun _ _ _ => false

/-- The root layer names one child, first under a path that does not resolve here. -/
def childStream : Nat → SharedItem
  | 0 => .graphState ⟨1, 1, 1, [⟨1, 1, [{ authoredPath := "a.usda", layerKey := some 2 }]⟩,
      ⟨2, 1, []⟩]⟩
  | 1 => .record 2 (.scene (.replaceSdfLayerContent "old"))
  | 2 => .record 1 (.setSublayers ⟨1, 2, [{ authoredPath := "b.usda", layerKey := some 2 }]⟩)
  | _ => .record 2 (.scene (.replaceSdfLayerContent "new"))

/-- A client whose root layer is bound. -/
def newClient : SharedStageClient where
  graph := { authoritative := false, rootLayer := "root.usda", authored := fun _ => [] }
  contents := fun _ => .empty

/-- Only the second path can be opened. -/
def childCircumstances : Circumstances where
  openable := fun _ layer => layer = "b.usda"

/-- The client after one more batch of the stream. -/
def batched (client : SharedStageClient) (frames : List StreamFrame) : SharedStageClient :=
  (client.applyIncoming plainLibraries childCircumstances
    (frames.map (·.carry childStream))).1

/-- Batches that map the child before its next record: the first record waits, is applied with the
second batch, and the third finds nothing waiting. -/
theorem perLayerOrder_of_stepsInOrder_child :
    PerLayerOrder plainLibraries childStream newClient
      (batched (batched (batched newClient [.item 0, .item 1]) [.item 2]) [.item 3]) := by
  have ran : Machine.run (step plainLibraries childStream) newClient
      [.incoming [.item 0, .item 1] childCircumstances, .incoming [.item 2] childCircumstances,
        .incoming [.item 3] childCircumstances] =
      some (batched (batched (batched newClient [.item 0, .item 1]) [.item 2]) [.item 3]) := rfl
  refine perLayerOrder_of_stepsInOrder ⟨rfl, rfl⟩ ?_ ran
  apply Machine.stepsMeet_cons _ rfl
  · apply Machine.stepsMeet_cons _ rfl
    · refine Machine.stepsMeet_cons ?_ rfl trivial
      refine ⟨trivial, fun _ => ⟨⟨?_, ?_, fun _ => trivial⟩, ?_⟩⟩
      · intro layer _ _
        refine ⟨fun _ => ?_, fun raised => absurd raised (by decide +kernel)⟩
        have nothingWaits : (batched (batched newClient [.item 0, .item 1])
            [.item 2]).pendingRecords.isEmpty = true := by decide +kernel
        intro record member
        change record ∈ (batched (batched newClient [.item 0, .item 1]) [.item 2]).pendingRecords
          at member
        rw [List.isEmpty_iff.1 nothingWaits] at member
        cases member
      · intro raised
        exact absurd raised (by decide +kernel)
      · exact fun _ => flushInOrder_of_returned (by decide +kernel)
    · refine ⟨trivial, fun _ => ⟨⟨fun _ => nofun, ?_, fun _ => trivial⟩, ?_⟩⟩
      · intro raised
        exact absurd raised (by decide +kernel)
      · exact fun _ => flushInOrder_of_returned (by decide +kernel)
  · refine ⟨⟨?_, fun _ => trivial⟩, fun _ => ⟨⟨?_, ?_, fun _ => trivial⟩, ?_⟩⟩
    · intro raised
      exact absurd raised (by decide +kernel)
    · intro layer _ mapped
      have unmapped : ((batched newClient [.item 0]).graph.layers 2).isNone = true := by
        decide +kernel
      exact absurd (mapped.symm.trans (Option.isNone_iff_eq_none.1 unmapped)) nofun
    · intro raised
      exact absurd raised (by decide +kernel)
    · exact fun _ => flushInOrder_of_returned (by decide +kernel)

theorem batched_appliedTo :
    ((batched newClient [.item 0, .item 1, .item 2, .item 3]).appliedTo 2).map SharedRecord.seq =
      [4, 2] := by
  decide +kernel

/-- The child is mapped inside the batch, and its newest record is applied before the one that
waits. -/
theorem not_perLayerOrder_mappedInBatch :
    ∃ client, Machine.run (step plainLibraries childStream) newClient
        [.incoming [.item 0, .item 1, .item 2, .item 3] childCircumstances] = some client ∧
      (client.appliedTo 2).map SharedRecord.seq = [4, 2] ∧
      ¬ PerLayerOrder plainLibraries childStream newClient client := by
  refine ⟨batched newClient [.item 0, .item 1, .item 2, .item 3], rfl, batched_appliedTo, ?_⟩
  intro order
  have ascending := List.pairwise_map.2 (order.ascending 2)
  rw [batched_appliedTo] at ascending
  exact absurd ascending (by decide)

end SharedStageClient

end UsdConnect
