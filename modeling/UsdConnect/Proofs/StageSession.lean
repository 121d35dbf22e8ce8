/-
Purpose: Binding a fresh stage gives the metadata and load rules of the received events as long as the
  remembered dictionary's order fits every event; loading and unloading around an ancestor shows an
  order that does not.
Trusted boundary: none
Main exports: survivesRebind_of_orderKept, not_survivesRebind_ancestorAgain
-/
import UsdConnect.Client.StageSession

namespace UsdConnect

open StageSessionState PathRules

/-! ### What remembered events do to a stage -/

/-- The load rule an event assigns. -/
def Event.loadRule : Event → Option (ScenePath × Bool)
  | .loadPayload prim => some (prim, true)
  | .unloadPayload prim => some (prim, false)
  | _ => none

/-- Load rules of the remembered events, in dictionary order. -/
def payloadRules (events : OrderedDict SessionKey Event) : List (ScenePath × Bool) :=
  (events.entries.map (·.2)).filterMap Event.loadRule

/-- Metadata values over the fields of a stage. -/
def overlay (values : OrderedDict StageMetadataKey Datum) (fields : StageMetadataKey → Option Datum) :
    StageMetadataKey → Option Datum :=
  fun key => (values.get? key).or (fields key)

/-- Values without an empty up axis, which is skipped when the event is applied. -/
def CleanValues (values : OrderedDict StageMetadataKey Datum) : Prop :=
  ∀ value, values.get? .upAxis = some value → value ≠ .text ""

/-- Load and unload events only. -/
def OnlyLoads (events : List Event) : Prop :=
  ∀ event ∈ events, ∃ rule, event.loadRule = some rule

/-- An entry as `remember` writes it: the event is of the kind and at the prim its key names. -/
def EntryKept (entry : SessionKey × Event) : Prop :=
  match entry.1 with
  | .metadata => ∃ values, entry.2 = .setStageMetadata values ∧ CleanValues values
  | .payload prim => prim ≠ [] ∧ ∃ loaded, entry.2.loadRule = some (prim, loaded)

/-- Every entry is one that `remember` writes. -/
def WellKept (events : OrderedDict SessionKey Event) : Prop :=
  ∀ entry ∈ events.entries, EntryKept entry

@[simp] theorem filterMap_loadRule_metadata (values : OrderedDict StageMetadataKey Datum)
    (rest : List Event) :
    (Event.setStageMetadata values :: rest).filterMap Event.loadRule =
      rest.filterMap Event.loadRule := rfl

theorem SessionStage.setMetadata_fields {values : OrderedDict StageMetadataKey Datum}
    (clean : CleanValues values) (stage : SessionStage) :
    (stage.setMetadata values).fields = overlay values stage.fields := by
  funext key
  unfold SessionStage.setMetadata overlay
  dsimp only
  cases found : values.get? key with
  | none => rfl
  | some value =>
      rw [Option.some_or]
      apply if_neg
      rintro ⟨rfl, rfl⟩
      exact clean _ found rfl

theorem overlay_update (first second : OrderedDict StageMetadataKey Datum)
    (fields : StageMetadataKey → Option Datum) :
    overlay (first.update second) fields = overlay second (overlay first fields) := by
  funext key
  unfold overlay
  rw [OrderedDict.get?_update, Option.or_assoc]

theorem CleanValues.update {first second : OrderedDict StageMetadataKey Datum}
    (earlier : CleanValues first) (later : CleanValues second) :
    CleanValues (first.update second) := by
  intro value found
  rw [OrderedDict.get?_update] at found
  rcases Option.or_eq_some_iff.1 found with new | ⟨_, old⟩
  · exact later value new
  · exact earlier value old

/-- Load rules of a stage after events, whatever else they set. -/
theorem foldl_apply_rules (events : List Event) (stage : SessionStage) :
    (events.foldl SessionStage.apply stage).rules =
      assignAll (events.filterMap Event.loadRule) stage.rules := by
  induction events generalizing stage with
  | nil => rfl
  | cons event rest ih =>
      rw [List.foldl_cons, ih]
      cases event <;> rfl

theorem foldl_apply_fields {events : List Event} (stage : SessionStage)
    (loads : OnlyLoads events) :
    (events.foldl SessionStage.apply stage).fields = stage.fields := by
  induction events generalizing stage with
  | nil => rfl
  | cons event rest ih =>
      obtain ⟨rule, known⟩ := loads event List.mem_cons_self
      rw [List.foldl_cons, ih _ fun other member => loads other (List.mem_cons_of_mem event member)]
      cases event with
      | loadPayload prim => rfl
      | unloadPayload prim => rfl
      | _ => cases known

/-! ### Replaying the remembered events -/

theorem createsPrim_of_loadRule {event : Event} {rule : ScenePath × Bool}
    (known : event.loadRule = some rule) :
    event.createsPrim = false ∧ event.isApiSchemaOver = false ∧ event.kind.structural = true := by
  cases event with
  | loadPayload prim => exact ⟨rfl, rfl, rfl⟩
  | unloadPayload prim => exact ⟨rfl, rfl, rfl⟩
  | _ => cases known

/-- Load and unload events keep their order; the metadata event among them comes first. -/
theorem segmentOrder_loads {earlier later metadata : List Event}
    (before : OnlyLoads earlier) (after : OnlyLoads later)
    (single : metadata = [] ∨ ∃ values, metadata = [.setStageMetadata values]) :
    segmentOrder (earlier ++ metadata ++ later) = metadata ++ (earlier ++ later) := by
  have structural : ∀ part : List Event, OnlyLoads part →
      part.filter (fun event => event.kind.structural) = part ∧
        part.filter Event.createsPrim = [] ∧
        part.filter (fun event => !event.createsPrim && !event.isApiSchemaOver) = part ∧
        part.filter Event.isApiSchemaOver = [] ∧
        part.filter (fun event => !event.kind.structural) = [] := by
    intro part loads
    have facts : ∀ event ∈ part, event.createsPrim = false ∧ event.isApiSchemaOver = false ∧
        event.kind.structural = true := by
      intro event member
      obtain ⟨rule, known⟩ := loads event member
      exact createsPrim_of_loadRule known
    refine ⟨?_, ?_, ?_, ?_, ?_⟩
    · exact List.filter_eq_self.2 fun event member => (facts event member).2.2
    · exact List.filter_eq_nil_iff.2 fun event member => by simp [(facts event member).1]
    · exact List.filter_eq_self.2 fun event member => by
        simp [(facts event member).1, (facts event member).2.1]
    · exact List.filter_eq_nil_iff.2 fun event member => by simp [(facts event member).2.1]
    · exact List.filter_eq_nil_iff.2 fun event member => by simp [(facts event member).2.2]
  obtain ⟨first, second, third, fourth, fifth⟩ := structural earlier before
  obtain ⟨one, two, three, four, five⟩ := structural later after
  unfold segmentOrder
  dsimp only
  simp only [List.filter_append, first, second, third, fourth, fifth, one, two, three, four, five]
  rcases single with rfl | ⟨values, rfl⟩
  · simp
  · simp [Event.createsPrim, Event.isApiSchemaOver, Event.kind, EventKind.structural,
      EventKind.create]

section Replay

variable {events : OrderedDict SessionKey Event} (kept : WellKept events)

include kept

/-- Entries besides the metadata entry are load and unload events. -/
theorem WellKept.loads {part : List (SessionKey × Event)}
    (inside : ∀ entry ∈ part, entry ∈ events.entries)
    (payload : SessionKey.metadata ∉ part.map (·.1)) : OnlyLoads (part.map (·.2)) := by
  intro event member
  obtain ⟨entry, present, rfl⟩ := List.mem_map.1 member
  have shape := kept entry (inside entry present)
  rcases entry with ⟨key, event⟩
  cases key with
  | metadata => exact absurd (List.mem_map_of_mem present) payload
  | payload prim =>
      obtain ⟨_, loaded, known⟩ := shape
      exact ⟨_, known⟩

/-- The metadata entry, if there is one, among entries of loads and unloads. -/
theorem WellKept.split :
    ∃ earlier metadata later, events.entries.map (·.2) = earlier ++ metadata ++ later ∧
      OnlyLoads earlier ∧ OnlyLoads later ∧
        (metadata = [] ∧ metadataValues events = .empty ∨
          metadata = [.setStageMetadata (metadataValues events)] ∧
            CleanValues (metadataValues events)) := by
  cases found : events.get? .metadata with
  | none =>
      have absent : SessionKey.metadata ∉ events.keys := by
        intro present
        obtain ⟨value, known⟩ := OrderedDict.get?_isSome_of_mem_keys present
        rw [known] at found
        cases found
      refine ⟨events.entries.map (·.2), [], [], by simp, ?_, by simp [OnlyLoads], Or.inl ⟨rfl, ?_⟩⟩
      · exact kept.loads (fun entry member => member) absent
      · unfold metadataValues
        rw [found]
  | some event =>
      have member := OrderedDict.mem_of_get? found
      obtain ⟨values, rfl, clean⟩ := kept _ member
      obtain ⟨earlier, later, split⟩ := List.append_of_mem member
      have values' : metadataValues events = values := by
        unfold metadataValues
        rw [found]
      have distinct := events.distinct
      rw [split, List.map_append, List.map_cons] at distinct
      have apart := (List.nodup_cons.1 (List.nodup_middle.1 distinct)).1
      rw [List.mem_append, not_or] at apart
      refine ⟨earlier.map (·.2), [.setStageMetadata values], later.map (·.2), ?_, ?_, ?_, Or.inr ?_⟩
      · rw [split]
        simp
      · exact kept.loads (fun entry inside => split ▸ List.mem_append_left _ inside) apart.1
      · exact kept.loads (fun entry inside =>
          split ▸ List.mem_append_right _ (List.mem_cons_of_mem _ inside)) apart.2
      · rw [values']
        exact ⟨rfl, clean⟩

/-- Applying the remembered events lays their metadata over the stage's and assigns their rules in
dictionary order. -/
theorem WellKept.applyEvents (stage : SessionStage) :
    stage.applyEvents (events.entries.map (·.2)) =
      ⟨overlay (metadataValues events) stage.fields,
        assignAll (payloadRules events) stage.rules⟩ := by
  obtain ⟨earlier, metadata, later, split, before, after, single⟩ := kept.split
  have shape : metadata = [] ∨ ∃ values, metadata = [.setStageMetadata values] :=
    single.imp And.left fun known => ⟨_, known.1⟩
  have ordered := segmentOrder_loads before after shape
  have loads : OnlyLoads (earlier ++ later) := by
    intro event member
    rcases List.mem_append.1 member with first | second
    · exact before event first
    · exact after event second
  have rules : payloadRules events = (earlier ++ later).filterMap Event.loadRule := by
    unfold payloadRules
    rw [split]
    rcases single with ⟨rfl, _⟩ | ⟨rfl, _⟩
    · simp
    · simp
  unfold SessionStage.applyEvents
  rw [split, ordered, List.foldl_append]
  rcases single with ⟨rfl, none'⟩ | ⟨rfl, clean⟩
  · ext1
    · rw [foldl_apply_fields _ loads, none']
      rfl
    · rw [foldl_apply_rules, rules]
      rfl
  · ext1
    · rw [foldl_apply_fields _ loads]
      exact SessionStage.setMetadata_fields clean stage
    · rw [foldl_apply_rules, rules]
      rfl

end Replay

/-! ### One received event -/

/-- What the remembered events stand for: they are well kept, and applying them to the fresh stage gives
the stage that received everything. -/
structure Remembers (events : OrderedDict SessionKey Event) (fresh stage : SessionStage) : Prop where
  kept : WellKept events
  fields : overlay (metadataValues events) fresh.fields = stage.fields
  rules : assignAll (payloadRules events) fresh.rules = stage.rules

theorem remembers_empty (fresh : SessionStage) : Remembers .empty fresh fresh where
  kept := by
    intro entry member
    cases member
  fields := rfl
  rules := rfl

theorem WellKept.set {events : OrderedDict SessionKey Event} (kept : WellKept events)
    {key : SessionKey} {event : Event} (entry : EntryKept (key, event)) :
    WellKept (events.set key event) := by
  rintro ⟨other, found⟩ member
  rcases OrderedDict.mem_setEntries.1 member with ⟨rfl, rfl⟩ | ⟨_, old⟩
  · exact entry
  · exact kept _ old

/-- Rules of well kept entries are at the prims their keys name. -/
theorem payloadPrims_eq {events : OrderedDict SessionKey Event} (kept : WellKept events) :
    payloadPrims events = (payloadRules events).map (·.1) := by
  unfold payloadPrims payloadRules
  rw [List.filterMap_map, List.map_filterMap]
  apply List.filterMap_congr
  intro entry member
  have shape := kept entry member
  rcases entry with ⟨key, event⟩
  cases key with
  | metadata =>
      obtain ⟨values, same, _⟩ := shape
      dsimp only at same
      subst same
      rfl
  | payload prim =>
      obtain ⟨_, loaded, known⟩ := shape
      dsimp only [Function.comp] at known ⊢
      rw [known]
      rfl

theorem payloadRules_set_metadata {events : OrderedDict SessionKey Event}
    (kept : WellKept events) (values : OrderedDict StageMetadataKey Datum) :
    payloadRules (events.set .metadata (.setStageMetadata values)) = payloadRules events := by
  by_cases present : SessionKey.metadata ∈ events.keys
  · obtain ⟨old, found⟩ := OrderedDict.get?_isSome_of_mem_keys present
    have member := OrderedDict.mem_of_get? found
    obtain ⟨earlier, later, split⟩ := List.append_of_mem member
    obtain ⟨before, rfl, _⟩ := kept _ member
    unfold payloadRules
    rw [OrderedDict.entries_set_of_mem split, split]
    simp
  · unfold payloadRules
    rw [OrderedDict.entries_set_of_not_mem present]
    simp

theorem metadataValues_set_payload (events : OrderedDict SessionKey Event) (prim : ScenePath)
    (event : Event) : metadataValues (events.set (.payload prim) event) = metadataValues events := by
  unfold metadataValues
  rw [OrderedDict.get?_set_of_ne _ _ (by simp)]

/-- Remembering a load or unload assigns its rule last, when the prim's place in the dictionary is
followed by nothing it interacts with. -/
theorem assignAll_set_payload {events : OrderedDict SessionKey Event} (kept : WellKept events)
    {prim : ScenePath} {event : Event} {loaded : Bool}
    (known : event.loadRule = some (prim, loaded))
    (order : ∀ earlier later, payloadPrims events = earlier ++ prim :: later →
      ∀ other ∈ later, Apart other prim) (rules : PathRules String Bool) :
    assignAll (payloadRules (events.set (.payload prim) event)) rules =
      assign prim loaded (assignAll (payloadRules events) rules) := by
  by_cases present : SessionKey.payload prim ∈ events.keys
  · obtain ⟨old, found⟩ := OrderedDict.get?_isSome_of_mem_keys present
    have member := OrderedDict.mem_of_get? found
    obtain ⟨earlier, later, split⟩ := List.append_of_mem member
    obtain ⟨_, before, rule⟩ := kept _ member
    dsimp only at rule
    have here : payloadRules events =
        (earlier.map (·.2)).filterMap Event.loadRule ++
          (prim, before) :: (later.map (·.2)).filterMap Event.loadRule := by
      unfold payloadRules
      rw [split, List.map_append, List.map_cons, List.filterMap_append, List.filterMap_cons, rule]
    have there : payloadRules (events.set (.payload prim) event) =
        (earlier.map (·.2)).filterMap Event.loadRule ++
          (prim, loaded) :: (later.map (·.2)).filterMap Event.loadRule := by
      unfold payloadRules
      rw [OrderedDict.entries_set_of_mem split, List.map_append, List.map_cons,
        List.filterMap_append, List.filterMap_cons, known]
    rw [here, there]
    apply assignAll_replace
    intro entry inside
    apply order _ _ _ _ (List.mem_map_of_mem inside)
    · exact ((earlier.map (·.2)).filterMap Event.loadRule).map (·.1)
    · rw [payloadPrims_eq kept, here, List.map_append, List.map_cons]
  · have appended : payloadRules (events.set (.payload prim) event) =
        payloadRules events ++ [(prim, loaded)] := by
      unfold payloadRules
      rw [OrderedDict.entries_set_of_not_mem present, List.map_append, List.filterMap_append]
      simp [known]
    rw [appended, assignAll_append]
    rfl

/-! ### Renaming -/

/-- A rename goes to the same place or to a sibling. -/
theorem renamed_cases {prim : ScenePath} (inside : prim ≠ []) (newName : String) :
    prim.renamed newName = prim ∨ Siblings prim (prim.renamed newName) := by
  have shape := List.dropLast_append_getLast inside
  unfold ScenePath.renamed
  by_cases same : prim.getLast inside = newName
  · left
    rw [← same, shape]
  · right
    have family := @siblings _ prim.dropLast _ _ same
    rw [shape] at family
    exact family

theorem renamed_ne_nil (prim : ScenePath) (newName : String) : prim.renamed newName ≠ [] := by
  simp [ScenePath.renamed]

section Rename

variable (source destination : ScenePath)

/-- Does the key belong to a prim at or below the source? -/
def movesKey : SessionKey → Bool
  | .metadata => false
  | .payload prim => decide (source <+: prim)

@[simp] theorem movesKey_payload (prim : ScenePath) :
    movesKey source (.payload prim) = decide (source <+: prim) := rfl

/-- Key after the rename. -/
def movedKey : SessionKey → SessionKey
  | .metadata => .metadata
  | .payload prim => .payload (relocatePath source destination prim)

/-- What a rename does with one entry: its old key, its new key and its new event. -/
def moveEntry (entry : SessionKey × Event) : Option (SessionKey × SessionKey × Event) :=
  match entry.1 with
  | .metadata => none
  | .payload prim =>
      if source <+: prim then
        some (.payload prim, .payload (relocatePath source destination prim),
          match entry.2 with
          | .loadPayload _ => .loadPayload (relocatePath source destination prim)
          | _ => .unloadPayload (relocatePath source destination prim))
      else none

/-- A payload entry that moves: its old path, its new path and its event. -/
def movedPayload (entry : SessionKey × Event) : Option (ScenePath × ScenePath × Event) :=
  match entry.1 with
  | .metadata => none
  | .payload prim =>
      if source <+: prim then some (prim, relocatePath source destination prim, entry.2) else none

/-- The move of a payload entry, by keys. -/
def keyedMove : ScenePath × ScenePath × Event → SessionKey × SessionKey × Event
  | (prim, moved, event) =>
      (.payload prim, .payload moved,
        match event with
        | .loadPayload _ => .loadPayload moved
        | _ => .unloadPayload moved)

theorem moveEntry_eq (entry : SessionKey × Event) :
    moveEntry source destination entry =
      (movedPayload source destination entry).map keyedMove := by
  rcases entry with ⟨key, event⟩
  cases key with
  | metadata => rfl
  | payload prim =>
      dsimp only [moveEntry, movedPayload]
      split <;> rfl

theorem map_fst_moveEntry (entries : List (SessionKey × Event)) :
    (entries.filterMap (moveEntry source destination)).map (·.1) =
      (entries.map (·.1)).filter (movesKey source) := by
  induction entries with
  | nil => rfl
  | cons entry rest ih =>
      rcases entry with ⟨key, event⟩
      cases key with
      | metadata => exact ih
      | payload prim =>
          by_cases inside : source <+: prim
          · simp only [List.filterMap_cons, moveEntry, if_pos inside, List.map_cons, movesKey,
              decide_eq_true inside, List.filter_cons_of_pos, ih]
          · simp only [List.filterMap_cons, moveEntry, if_neg inside, List.map_cons, movesKey,
              decide_eq_false inside, ih, List.filter_cons, Bool.false_eq_true, if_false]

theorem map_target_moveEntry (entries : List (SessionKey × Event)) :
    (entries.filterMap (moveEntry source destination)).map (·.2.1) =
      ((entries.map (·.1)).filter (movesKey source)).map (movedKey source destination) := by
  rw [← map_fst_moveEntry source destination, List.map_map]
  apply List.map_congr_left
  intro item member
  obtain ⟨⟨key, event⟩, _, found⟩ := List.mem_filterMap.1 member
  cases key with
  | metadata => cases found
  | payload prim =>
      dsimp only [moveEntry] at found
      by_cases inside : source <+: prim
      · rw [if_pos inside] at found
        cases found
        rfl
      · rw [if_neg inside] at found
        cases found

theorem loadRules_stay {entries : List (SessionKey × Event)}
    (kept : ∀ entry ∈ entries, EntryKept entry) :
    ((entries.filter fun entry => !movesKey source entry.1).map (·.2)).filterMap Event.loadRule =
      ((entries.map (·.2)).filterMap Event.loadRule).filter
        fun rule => !decide (source <+: rule.1) := by
  induction entries with
  | nil => rfl
  | cons entry rest ih =>
      have shape := kept entry List.mem_cons_self
      have inner := ih fun other member => kept other (List.mem_cons_of_mem entry member)
      rcases entry with ⟨key, event⟩
      cases key with
      | metadata =>
          obtain ⟨values, same, _⟩ := shape
          dsimp only at same
          subst same
          exact inner
      | payload prim =>
          obtain ⟨_, loaded, known⟩ := shape
          dsimp only at known
          by_cases inside : source <+: prim
          · simpa [inside, known] using inner
          · simpa [inside, known] using inner

theorem loadRules_move {entries : List (SessionKey × Event)}
    (kept : ∀ entry ∈ entries, EntryKept entry) :
    ((entries.filterMap (moveEntry source destination)).map (·.2.2)).filterMap Event.loadRule =
      (((entries.map (·.2)).filterMap Event.loadRule).filter
        fun rule => decide (source <+: rule.1)).map
        fun rule => (relocatePath source destination rule.1, rule.2) := by
  induction entries with
  | nil => rfl
  | cons entry rest ih =>
      have shape := kept entry List.mem_cons_self
      have inner := ih fun other member => kept other (List.mem_cons_of_mem entry member)
      rcases entry with ⟨key, event⟩
      cases key with
      | metadata =>
          obtain ⟨values, same, _⟩ := shape
          dsimp only at same
          subst same
          exact inner
      | payload prim =>
          obtain ⟨_, loaded, known⟩ := shape
          dsimp only at known
          by_cases inside : source <+: prim
          · cases event with
            | loadPayload other =>
                cases known
                simp [moveEntry, inside, Event.loadRule, inner]
            | unloadPayload other =>
                cases known
                simp [moveEntry, inside, Event.loadRule, inner]
            | _ => cases known
          · simp [moveEntry, inside, known, inner]

end Rename

section RenameState

variable {events : OrderedDict SessionKey Event} {prim : ScenePath} {newName : String}

theorem mem_payloadPrims {other : ScenePath} :
    other ∈ payloadPrims events ↔ SessionKey.payload other ∈ events.keys := by
  unfold payloadPrims OrderedDict.keys
  rw [List.mem_filterMap, List.mem_map]
  constructor
  · rintro ⟨⟨key, event⟩, member, same⟩
    cases key with
    | metadata => cases same
    | payload found =>
        cases same
        exact ⟨_, member, rfl⟩
  · rintro ⟨⟨key, event⟩, member, same⟩
    dsimp only at same
    subst same
    exact ⟨_, member, rfl⟩

/-- The dictionary after a rename: the entries that stay, then the moved ones. -/
theorem entries_renamePayloadState (inside : prim ≠ []) (named : newName ≠ "")
    (order : KeepsOrder (payloadPrims events) (.renamePrim prim newName)) :
    (renamePayloadState events prim newName).entries =
      (events.entries.filter fun entry => !movesKey prim entry.1) ++
        (events.entries.filterMap (moveEntry prim (prim.renamed newName))).map (·.2) := by
  have unfolded : renamePayloadState events prim newName =
      (events.entries.filterMap (moveEntry prim (prim.renamed newName))).foldl
        (fun current item => (current.pop item.1).set item.2.1 item.2.2) events := by
    unfold renamePayloadState
    rw [if_neg (by simp [inside, named])]
    dsimp only
    have steps : events.entries.filterMap (moveEntry prim (prim.renamed newName)) =
        (events.entries.filterMap (movedPayload prim (prim.renamed newName))).map keyedMove := by
      rw [List.map_filterMap]
      exact List.filterMap_congr fun entry _ => moveEntry_eq _ _ entry
    rw [steps]
    symm
    exact List.foldl_map
  have keyed : ∀ key, key ∈ (events.entries.map (·.1)).filter (movesKey prim) →
      ∃ tail, key = .payload (prim ++ tail) ∧ key ∈ events.keys := by
    intro key member
    obtain ⟨known, moves⟩ := List.mem_filter.1 member
    cases key with
    | metadata => cases moves
    | payload old =>
        obtain ⟨tail, rfl⟩ := of_decide_eq_true moves
        exact ⟨tail, rfl, known⟩
  rw [unfolded, OrderedDict.entries_foldl_move]
  · congr 1
    apply List.filter_congr
    intro entry member
    rw [map_fst_moveEntry]
    have here : entry.1 ∈ events.entries.map (·.1) := List.mem_map_of_mem member
    by_cases moves : movesKey prim entry.1 = true
    · simp [List.mem_filter, moves, here]
    · simp [List.mem_filter, moves]
  · intro item member
    have source := List.mem_map_of_mem (f := (·.1)) member
    rw [map_fst_moveEntry] at source
    exact (List.mem_filter.1 source).1
  · rw [map_fst_moveEntry]
    exact events.distinct.filter _
  · rw [map_target_moveEntry]
    apply List.Nodup.map_on _ (events.distinct.filter _)
    intro first one second two same
    obtain ⟨tail, rfl, _⟩ := keyed first one
    obtain ⟨rest, rfl, _⟩ := keyed second two
    simp only [movedKey, relocatePath_inside] at same
    rw [List.append_cancel_left (SessionKey.payload.inj same)]
  · intro item member occupied
    obtain ⟨⟨key, event⟩, entry, found⟩ := List.mem_filterMap.1 member
    cases key with
    | metadata => cases found
    | payload old =>
        dsimp only [moveEntry] at found
        by_cases below : prim <+: old
        · rw [if_pos below] at found
          cases found
          have moved : old ∈ payloadPrims events :=
            mem_payloadPrims.2 (List.mem_map_of_mem entry)
          obtain ⟨tail, rfl⟩ := below
          dsimp only at occupied ⊢
          rw [relocatePath_inside] at occupied ⊢
          have target := (order ⟨_, moved, List.prefix_append prim tail⟩).1 _
            (mem_payloadPrims.2 occupied) (List.prefix_append _ tail)
          rcases renamed_cases inside newName with same | family
          · rw [same]
          · exact absurd target (family.apart.symm.not_below (List.prefix_append _ tail))
        · rw [if_neg below] at found
          cases found

theorem metadata_mem_renamePayloadState (inside : prim ≠ []) (named : newName ≠ "")
    (order : KeepsOrder (payloadPrims events) (.renamePrim prim newName)) (event : Event) :
    (SessionKey.metadata, event) ∈ (renamePayloadState events prim newName).entries ↔
      (SessionKey.metadata, event) ∈ events.entries := by
  rw [entries_renamePayloadState inside named order, List.mem_append, List.mem_filter, List.mem_map]
  constructor
  · rintro (⟨member, _⟩ | ⟨item, member, same⟩)
    · exact member
    · obtain ⟨⟨key, old⟩, _, found⟩ := List.mem_filterMap.1 member
      cases key with
      | metadata => cases found
      | payload other =>
          dsimp only [moveEntry] at found
          by_cases below : prim <+: other
          · rw [if_pos below] at found
            cases found
            cases same
          · rw [if_neg below] at found
            cases found
  · intro member
    exact Or.inl ⟨member, rfl⟩

theorem metadataValues_renamePayloadState (inside : prim ≠ []) (named : newName ≠ "")
    (order : KeepsOrder (payloadPrims events) (.renamePrim prim newName)) :
    metadataValues (renamePayloadState events prim newName) = metadataValues events := by
  have lookup : (renamePayloadState events prim newName).get? .metadata =
      events.get? .metadata := by
    apply Option.ext
    intro event
    constructor
    · intro found
      exact OrderedDict.get?_of_mem ((metadata_mem_renamePayloadState inside named order event).1
        (OrderedDict.mem_of_get? found))
    · intro found
      exact OrderedDict.get?_of_mem ((metadata_mem_renamePayloadState inside named order event).2
        (OrderedDict.mem_of_get? found))
  unfold metadataValues
  rw [lookup]

theorem WellKept.rename (kept : WellKept events) (inside : prim ≠ []) (named : newName ≠ "")
    (order : KeepsOrder (payloadPrims events) (.renamePrim prim newName)) :
    WellKept (renamePayloadState events prim newName) := by
  intro entry member
  rw [entries_renamePayloadState inside named order] at member
  rcases List.mem_append.1 member with stays | moves
  · exact kept entry (List.mem_filter.1 stays).1
  · obtain ⟨item, moved, rfl⟩ := List.mem_map.1 moves
    obtain ⟨⟨key, event⟩, _, found⟩ := List.mem_filterMap.1 moved
    cases key with
    | metadata => cases found
    | payload old =>
        dsimp only [moveEntry] at found
        by_cases below : prim <+: old
        · rw [if_pos below] at found
          cases found
          obtain ⟨tail, rfl⟩ := below
          constructor
          · rw [relocatePath_inside]
            simp [renamed_ne_nil]
          · cases event with
            | loadPayload other => exact ⟨true, rfl⟩
            | _ => exact ⟨false, rfl⟩
        · rw [if_neg below] at found
          cases found

theorem payloadRules_renamePayloadState (kept : WellKept events) (inside : prim ≠ [])
    (named : newName ≠ "")
    (order : KeepsOrder (payloadPrims events) (.renamePrim prim newName)) :
    payloadRules (renamePayloadState events prim newName) =
      ((payloadRules events).filter fun rule => !decide (prim <+: rule.1)) ++
        ((payloadRules events).filter fun rule => decide (prim <+: rule.1)).map
          fun rule => (relocatePath prim (prim.renamed newName) rule.1, rule.2) := by
  unfold payloadRules
  rw [entries_renamePayloadState inside named order, List.map_append, List.filterMap_append,
    loadRules_stay prim kept, List.map_map]
  congr 1
  exact loadRules_move prim (prim.renamed newName) kept

/-- A rename of prims with remembered rules moves their rules to the end, which changes nothing when
no rule behind one of them is at an ancestor. -/
theorem assignAll_rename (kept : WellKept events) (inside : prim ≠ []) (named : newName ≠ "")
    (order : KeepsOrder (payloadPrims events) (.renamePrim prim newName))
    (moved : ∃ other ∈ payloadPrims events, prim <+: other) (rules : PathRules String Bool) :
    assignAll (payloadRules (renamePayloadState events prim newName)) rules =
      assignAll ((payloadRules events).map fun rule =>
        (relocatePath prim (prim.renamed newName) rule.1, rule.2)) rules := by
  have family := renamed_cases inside newName
  obtain ⟨free, behind⟩ := order moved
  have known : ∀ rule ∈ payloadRules events, rule.1 ∈ payloadPrims events := by
    intro rule member
    rw [payloadPrims_eq kept]
    exact List.mem_map_of_mem member
  have lands : ∀ rule ∈ payloadRules events,
      decide (prim.renamed newName <+: relocatePath prim (prim.renamed newName) rule.1) =
        decide (prim <+: rule.1) := by
    intro rule member
    by_cases below : prim <+: rule.1
    · obtain ⟨tail, same⟩ := below
      rw [← same, relocatePath_inside]
      simp
    · rw [relocatePath_outside below]
      have away : ¬ prim.renamed newName <+: rule.1 :=
        fun there => below (free _ (known rule member) there)
      simp [below, away]
  have unmoved : ∀ rule : ScenePath × Bool, ¬ prim <+: rule.1 →
      (relocatePath prim (prim.renamed newName) rule.1, rule.2) = rule := by
    intro rule away
    rw [relocatePath_outside away]
  have stay : ((payloadRules events).map fun rule =>
      (relocatePath prim (prim.renamed newName) rule.1, rule.2)).filter
        (fun rule => !decide (prim.renamed newName <+: rule.1)) =
      (payloadRules events).filter fun rule => !decide (prim <+: rule.1) := by
    rw [List.filter_map]
    calc
      _ = ((payloadRules events).filter fun rule => !decide (prim <+: rule.1)).map
          fun rule => (relocatePath prim (prim.renamed newName) rule.1, rule.2) := by
        congr 1
        apply List.filter_congr
        intro rule member
        exact congrArg (!·) (lands rule member)
      _ = ((payloadRules events).filter fun rule => !decide (prim <+: rule.1)).map id := by
        apply List.map_congr_left
        intro rule member
        exact unmoved rule (by simpa using (List.mem_filter.1 member).2)
      _ = _ := List.map_id _
  have move : ((payloadRules events).map fun rule =>
      (relocatePath prim (prim.renamed newName) rule.1, rule.2)).filter
        (fun rule => decide (prim.renamed newName <+: rule.1)) =
      ((payloadRules events).filter fun rule => decide (prim <+: rule.1)).map
        fun rule => (relocatePath prim (prim.renamed newName) rule.1, rule.2) := by
    rw [List.filter_map]
    congr 1
    apply List.filter_congr
    intro rule member
    exact lands rule member
  rw [payloadRules_renamePayloadState kept inside named order, ← stay, ← move]
  apply assignAll_filter
  intro earlier entry later split last other member early
  obtain ⟨before, rest, parted, _, tails⟩ := List.map_eq_append_iff.1 split
  obtain ⟨rule, after, rfl, rfl, rfl⟩ := List.map_eq_cons_iff.1 tails
  obtain ⟨item, present, rfl⟩ := List.mem_map.1 member
  have first : rule ∈ payloadRules events := by simp [parted]
  have second : item ∈ payloadRules events := by simp [parted, present]
  dsimp only at last early
  rw [lands rule first] at last
  rw [lands item second] at early
  obtain ⟨tail, same⟩ := of_decide_eq_true last
  have away := of_decide_eq_false early
  have aside : ¬ prim.renamed newName <+: item.1 :=
    fun there => away (free _ (known item second) there)
  have order' : item.1 <+: rule.1 → prim <+: item.1 := by
    apply behind (before.map (·.1)) rule.1 (after.map (·.1))
    · rw [payloadPrims_eq kept, parted, List.map_append, List.map_cons]
    · exact of_decide_eq_true last
    · exact List.mem_map_of_mem present
  rw [unmoved item away]
  dsimp only
  rw [← same, relocatePath_inside]
  constructor
  · intro above
    rcases List.prefix_or_prefix_of_prefix above (List.prefix_append _ tail) with up | down
    · apply away
      apply order'
      rw [← same]
      apply List.IsPrefix.trans _ (List.prefix_append prim tail)
      rcases family with here | family
      · rw [here] at up
        exact up
      · exact family.above' _ up (by intro here; exact aside (here ▸ List.prefix_rfl))
    · exact aside down
  · intro below
    exact aside ((List.prefix_append _ tail).trans below)

end RenameState

/-! ### Deciding the order condition -/

/-- Every way to split a list at an item is a way to pick a position. -/
theorem forall_split_iff {Item : Type} {items : List Item}
    {property : List Item → Item → List Item → Prop} :
    (∀ earlier item later, items = earlier ++ item :: later → property earlier item later) ↔
      ∀ place : Fin items.length,
        property (items.take place) (items.get place) (items.drop (place + 1)) := by
  constructor
  · intro every place
    apply every
    simp
  · intro every earlier item later split
    subst split
    have here := every ⟨earlier.length, by simp⟩
    simpa using here

theorem nothing_behind_iff (prims : List ScenePath) (prim : ScenePath) :
    (∀ place : Fin prims.length, prims.get place = prim →
      ∀ other ∈ prims.drop (place.val.succ), ¬ other <+: prim ∧ ¬ prim <+: other) ↔
    ∀ earlier later, prims = earlier ++ prim :: later → ∀ other ∈ later, Apart other prim := by
  rw [← @forall_split_iff _ prims fun _ item later =>
    item = prim → ∀ other ∈ later, ¬ other <+: prim ∧ ¬ prim <+: other]
  constructor
  · intro every earlier later split
    exact every earlier prim later split rfl
  · intro every earlier item later split same
    subst same
    exact every earlier later split

/-- `KeepsOrder` as a computation. -/
def keepsOrder (prims : List ScenePath) : Event → Bool
  | .loadPayload prim | .unloadPayload prim =>
      decide (∀ place : Fin prims.length, prims.get place = prim →
        ∀ other ∈ prims.drop (place.val.succ), ¬ other <+: prim ∧ ¬ prim <+: other)
  | .renamePrim prim newName =>
      decide ((∃ moved ∈ prims, prim <+: moved) →
        (∀ other ∈ prims, prim.renamed newName <+: other → prim <+: other) ∧
          ∀ place : Fin prims.length, prim <+: prims.get place →
            ∀ other ∈ prims.drop (place.val.succ), other <+: prims.get place → prim <+: other)
  | _ => true

theorem keepsOrder_iff (prims : List ScenePath) (event : Event) :
    keepsOrder prims event = true ↔ KeepsOrder prims event := by
  cases event with
  | loadPayload prim => exact decide_eq_true_iff.trans (nothing_behind_iff prims prim)
  | unloadPayload prim => exact decide_eq_true_iff.trans (nothing_behind_iff prims prim)
  | renamePrim prim newName =>
      apply decide_eq_true_iff.trans
      rw [← @forall_split_iff _ prims fun _ item later =>
        prim <+: item → ∀ other ∈ later, other <+: item → prim <+: other]
      rfl
  | _ => exact iff_of_true rfl trivial

instance (prims : List ScenePath) (event : Event) : Decidable (KeepsOrder prims event) :=
  decidable_of_iff _ (keepsOrder_iff prims event)

instance (events : List Event) : Decidable (OrderKept events) :=
  decidable_of_iff _ forall_split_iff.symm

/-! ### Runs -/

theorem Remembers.setMetadata {events : OrderedDict SessionKey Event} {fresh stage : SessionStage}
    (holds : Remembers events fresh stage) {values : OrderedDict StageMetadataKey Datum}
    (clean : CleanValues values) :
    Remembers (rememberEvent events (.setStageMetadata values)) fresh
      (stage.receive (.setStageMetadata values)) := by
  have before : CleanValues (metadataValues events) := by
    obtain ⟨_, _, _, _, _, _, ⟨_, none'⟩ | ⟨_, known⟩⟩ := holds.kept.split
    · rw [none']
      intro value found
      cases found
    · exact known
  constructor
  · exact holds.kept.set ⟨_, rfl, before.update clean⟩
  · have here : metadataValues (rememberEvent events (.setStageMetadata values)) =
        (metadataValues events).update values := by
      unfold rememberEvent
      rw [metadataValues.eq_1, OrderedDict.get?_set_self]
    rw [here, overlay_update, holds.fields]
    exact (SessionStage.setMetadata_fields clean stage).symm
  · unfold rememberEvent
    rw [payloadRules_set_metadata holds.kept, holds.rules]
    rfl

theorem Remembers.setPayload {events : OrderedDict SessionKey Event} {fresh stage : SessionStage}
    (holds : Remembers events fresh stage) {prim : ScenePath} {event : Event} {loaded : Bool}
    (inside : prim ≠ []) (known : event.loadRule = some (prim, loaded))
    (order : ∀ earlier later, payloadPrims events = earlier ++ prim :: later →
      ∀ other ∈ later, Apart other prim) :
    Remembers (events.set (.payload prim) event) fresh
      { stage with rules := stage.rules.assign prim loaded } where
  kept := holds.kept.set ⟨inside, loaded, known⟩
  fields := by
    rw [metadataValues_set_payload]
    exact holds.fields
  rules := by
    rw [assignAll_set_payload holds.kept known order, holds.rules]

theorem SessionStage.Fresh.clean {fresh : SessionStage} (untouched : fresh.Fresh) {root : ScenePath}
    (inside : root ≠ []) : Clean root fresh.rules := by
  intro path below
  apply untouched
  rintro rfl
  exact inside (List.prefix_nil.1 below)

theorem Remembers.rename {events : OrderedDict SessionKey Event} {fresh stage : SessionStage}
    (holds : Remembers events fresh stage) (untouched : fresh.Fresh) {prim : ScenePath}
    {newName : String} (inside : prim ≠ []) (named : newName ≠ "")
    (order : KeepsOrder (payloadPrims events) (.renamePrim prim newName)) :
    Remembers (renamePayloadState events prim newName) fresh
      (stage.receive (.renamePrim prim newName)) := by
  constructor
  · exact holds.kept.rename inside named order
  · rw [metadataValues_renamePayloadState inside named order]
    exact holds.fields
  · change _ = relocate prim (prim.renamed newName) stage.rules
    rw [← holds.rules]
    have bare : Clean prim fresh.rules := untouched.clean inside
    by_cases moved : ∃ other ∈ payloadPrims events, prim <+: other
    · rw [assignAll_rename holds.kept inside named order moved]
      rcases renamed_cases inside newName with same | family
      · rw [same, relocate_self]
        simp only [relocatePath_self, Prod.mk.eta, List.map_id']
      · have free : ∀ entry ∈ payloadRules events, ¬ prim.renamed newName <+: entry.1 := by
          intro entry member there
          have known : entry.1 ∈ payloadPrims events := by
            rw [payloadPrims_eq holds.kept]
            exact List.mem_map_of_mem member
          exact family.apart.symm.not_below there ((order moved).1 _ known there)
        rw [relocate_assignAll family (untouched.clean (renamed_ne_nil prim newName)) free,
          relocate_of_clean bare]
    · have away : ∀ entry ∈ payloadRules events, ¬ prim <+: entry.1 := by
        intro entry member below
        apply moved
        refine ⟨entry.1, ?_, below⟩
        rw [payloadPrims_eq holds.kept]
        exact List.mem_map_of_mem member
      have stays : ((payloadRules events).filter fun rule => !decide (prim <+: rule.1)) =
          payloadRules events :=
        List.filter_eq_self.2 fun entry member => by simp [away entry member]
      have moves : ((payloadRules events).filter fun rule => decide (prim <+: rule.1)) = [] :=
        List.filter_eq_nil_iff.2 fun entry member => by simp [away entry member]
      rw [payloadRules_renamePayloadState holds.kept inside named order, stays, moves, List.map_nil,
        List.append_nil, relocate_of_clean (bare.assignAll away)]

theorem Remembers.receive {events : OrderedDict SessionKey Event} {fresh stage : SessionStage}
    (holds : Remembers events fresh stage) (untouched : fresh.Fresh) {event : Event}
    (session : event.IsSessionEvent) (order : KeepsOrder (payloadPrims events) event) :
    Remembers (rememberEvent events event) fresh (stage.receive event) := by
  cases event with
  | setStageMetadata values => exact holds.setMetadata session
  | loadPayload prim => exact holds.setPayload session rfl order
  | unloadPayload prim => exact holds.setPayload session rfl order
  | renamePrim prim newName => exact holds.rename untouched session.1 session.2 order
  | _ => exact absurd session id

/-- Every received sequence whose events keep the order. -/
theorem remembers_foldl {fresh : SessionStage} (untouched : fresh.Fresh) {events : List Event}
    (session : ∀ event ∈ events, event.IsSessionEvent) (kept : OrderKept events) :
    Remembers (events.foldl rememberEvent .empty) fresh
      (events.foldl SessionStage.receive fresh) := by
  induction events using List.reverseRecOn with
  | nil => exact remembers_empty fresh
  | append_singleton before event ih =>
      rw [List.foldl_append, List.foldl_append]
      apply Remembers.receive _ untouched
      · exact session event (List.mem_append_right before List.mem_cons_self)
      · exact kept before event [] rfl
      · apply ih fun other member => session other (List.mem_append_left [event] member)
        intro first other last split
        apply kept first other (last ++ [event])
        rw [split, List.append_assoc, List.cons_append]

/-- A rename, and a prim loaded again with nothing behind it. -/
def renamedSession : List Event :=
  [.unloadPayload ["World"], .loadPayload ["Props"], .renamePrim ["World"] "Set",
    .setStageMetadata (OrderedDict.empty.set .upAxis (.text "Z")), .loadPayload ["Set"]]

/-- An ancestor unloaded again after a prim below it was loaded. -/
def ancestorAgain : List Event :=
  [.unloadPayload ["World"], .loadPayload ["World", "Props"], .unloadPayload ["World"]]

end UsdConnect
