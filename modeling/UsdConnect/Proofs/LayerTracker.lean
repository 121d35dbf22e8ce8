/-
Purpose: The difference of two layers applied to a snapshot of the earlier one reproduces the later
  layer, but for sublayers and reserved layer data, with an exact index.
Trusted boundary: none
Main exports: diff_reproduces
-/
import UsdConnect.Proofs.SnapshotIndex
import UsdConnect.Proofs.SpecTransport

namespace UsdConnect.LayerTracker

variable {rules : TrackerRules} {usd : Usd} {previous current : CapturedLayer usd}

theorem indexed_indexSnapshot (layer : Layer) : Indexed rules usd (indexSnapshot rules usd layer) :=
  rfl

theorem diff_outcome (rules : TrackerRules) (lists : ListsOwnFields usd)
    (flat : ∀ key, ¬ CopiesNested previous current key)
    (texts : FragmentsReadBack previous current) :
    ∃ events after, diffSpecs rules previous current = .ok events ∧
      applySnapshotEvents rules usd (indexSnapshot rules usd previous.content)
        (specRecords events) = .ok (indexSnapshot rules usd after) ∧
      Reproduces previous.content current.content after ∧
      ∀ before delta rest, events = before ++ delta :: rest →
        FindsPlace ((applySpecDeltas usd before).after previous.content) delta := by
  obtain ⟨events, made, batch⟩ := diffSpecs_of_flat rules flat
  obtain ⟨returned, reproduced⟩ := batch.reproduces texts
  obtain ⟨result, applied, layer⟩ := @applySnapshotEvents_specRecords rules usd events
    (indexSnapshot rules usd previous.content) returned
  have indexed : Indexed rules usd result := 
    indexed_applySnapshotEvents lists (indexed_indexSnapshot _) applied
  rw [indexed, layer] at applied
  exact ⟨events, _, made, applied, reproduced, fun before delta rest split =>
    batch.findsPlace texts split⟩

/-- Libraries over layers whose specs have one named field. -/
def oneField (name : String) (schema : Schema) : Usd :=
  .plain { schema with
    listInfoKeys := fun layer path => if (layer.info path name).isSome then [name] else [] }

theorem listsOwnFields_oneField {name : String} (plain : name ≠ "timeSamples") (schema : Schema) :
    ListsOwnFields (oneField name schema) := by
  intro first second path other same
  have listed : ∀ layer : Layer, other ∈ (oneField name schema).listInfoKeys layer path ↔
      other = name ∧ layer.Authors path name := by
    intro layer
    unfold Layer.Authors
    rw [if_neg plain]
    show other ∈ (if _ then [name] else []) ↔ _
    split <;> simp_all
  rw [listed, listed]
  refine and_congr_right fun here => ?_
  rw [← here]
  exact same

def doorLibraries : Usd :=
  oneField "documentation" SpecSession.doorTexts

def capturedDoor (kind : SpecKind) (property : kind.isProperty = true) :
    CapturedLayer doorLibraries where
  toSourceLayer := SpecSession.doorSource kind property
  listed := by
    intro path
    show (if path = SpecSession.handlePath then ["documentation"] else []) =
      if ((SpecSession.doorLayer kind).info path "documentation").isSome then ["documentation"]
        else []
    unfold Layer.info
    rw [SpecSession.value_doorLayer]
    by_cases handle : path = SpecSession.handlePath <;> simp [handle]
  sampleTimes _ := []
  mem_sampleTimes := by
    intro path time
    show _ ↔ ((SpecSession.doorLayer kind).value path (.sample time)).isSome = true
    rw [SpecSession.value_doorLayer]
    simp

def trackerRules : TrackerRules where
  text _ := ""
  portable _ := true
  readSublayers _ _ := []
  writeSublayers _ := (none, none)

theorem eventOf_door {key : SpecKey} {delta : SpecDelta}
    (event : EventOf (capturedDoor .attribute rfl) (capturedDoor .relationship rfl) key delta)
    (kept : delta.removed = false) : key = ⟨.relationship, SpecSession.handlePath⟩ ∧
      delta = fieldsEvent doorLibraries (SpecSession.doorSource .relationship rfl) key
        ["documentation"] := by
  have here : (SpecSession.doorLayer .relationship).specKind key.path = some key.kind :=
    event.of_kept kept
  have same : ∀ path : SpecPath, path ≠ SpecSession.handlePath → key.path = path →
      (SpecSession.doorLayer .attribute).specKind key.path = some key.kind := by
    intro path away there
    rw [← here, SpecSession.specKind_doorLayer, SpecSession.specKind_doorLayer, there, if_neg away,
      if_neg away]
  rcases key with ⟨kind, path⟩
  rw [SpecSession.specKind_doorLayer] at here
  dsimp only at here same
  by_cases handle : path = SpecSession.handlePath
  · obtain rfl := handle
    obtain rfl : SpecKind.relationship = kind := Option.some.inj here
    refine ⟨rfl, ?_⟩
    cases event with
    | gone _ _ => cases kept
    | new _ _ =>
        have fields : indexedFields doorLibraries (capturedDoor .relationship rfl).content
            ⟨.relationship, SpecSession.handlePath⟩ = ["documentation"] := by decide +kernel
        rw [fields]
        rfl
    | changed before _ _ =>
        have other : (SpecSession.doorLayer .attribute).specKind SpecSession.handlePath =
            some .attribute := by
          rw [SpecSession.specKind_doorLayer]
          rfl
        cases other.symm.trans before
  · exfalso
    have unchanged : changedFields (capturedDoor .attribute rfl) (capturedDoor .relationship rfl)
        ⟨kind, path⟩ = [] := by
      split at here
      · next top =>
          rw [top, ← Option.some.inj here]
          decide +kernel
      · split at here
        · next door =>
            rw [door, ← Option.some.inj here]
            decide +kernel
        · cases here
    cases event with
    | gone _ _ => cases kept
    | new missing _ => exact missing (same path handle rfl)
    | changed _ _ differs => exact differs unchanged

theorem fragmentsReadBack_door :
    FragmentsReadBack (capturedDoor .attribute rfl) (capturedDoor .relationship rfl) := by
  intro key delta found kept
  obtain ⟨rfl, rfl⟩ := eventOf_door (specEvent_eq_some_iff.1 found) kept
  rfl

theorem flat_door (key : SpecKey) :
    ¬ CopiesNested (capturedDoor .attribute rfl) (capturedDoor .relationship rfl) key := by
  rintro ⟨nested, copies⟩
  obtain ⟨delta, found, kept⟩ := (Option.any_eq_true _ _).1 copies
  obtain ⟨rfl, _⟩ := eventOf_door (specEvent_eq_some_iff.1 found) (by simpa using kept)
  cases nested

/-- A layer with nothing but the collaboration's own entry. -/
def reservedLayer : Layer :=
  (LayerEdit.author .root .layer (.info "customLayerData")
    (.dictionary [(reservedLayerDataKey, "session")])).apply .empty

theorem value_reservedLayer (path : SpecPath) (field : Field) :
    reservedLayer.value path field =
      if path = .root ∧ field = .info "customLayerData" then
        some (.dictionary [(reservedLayerDataKey, "session")])
      else if path = .root ∧ field = .spec then some .present else none := by
  have top : Layer.empty.Holds .root .layer := (specKind_iff_holds rfl).1 Layer.empty.specKind_root
  exact value_author top _ _ path field

theorem hasSpec_reservedLayer {path : SpecPath} :
    reservedLayer.hasSpec path = true ↔ path = .root := by
  unfold Layer.hasSpec
  rw [value_reservedLayer]
  by_cases top : path = .root <;> simp [top]

/-- The layer text of the one fragment about an empty layer. -/
def layerDataLibraries : Usd :=
  oneField "customLayerData"
    { importFromString := fun _ => some (serializedLayer .empty .root .layer ["customLayerData"]) }

def capturedReserved : CapturedLayer layerDataLibraries where
  content := reservedLayer
  paths := [.root]
  infoKeys path := if path = .root then ["customLayerData"] else []
  mem_paths := by
    intro path
    rw [hasSpec_reservedLayer, List.mem_singleton]
  mem_infoKeys := by
    intro path name
    unfold Layer.Authors Layer.info
    simp only [value_reservedLayer]
    by_cases samples : name = "timeSamples"
    · by_cases top : path = .root <;> simp [samples, top]
    · by_cases top : path = .root
      · by_cases data : name = "customLayerData" <;> simp [top, data, samples]
      · simp [top, samples]
  named := by
    intro path
    by_cases top : path = .root <;> simp [top]
  standing := by
    intro path kind found
    have top : path = .root := by
      rw [← hasSpec_reservedLayer, ← Layer.specKind_isSome, found]
      rfl
    rw [top, Layer.specKind_root] at found
    rw [top, ← Option.some.inj found]
    rfl
  selecting := SpecSession.emptySource.selecting
  listed := by
    intro path
    show _ = if (reservedLayer.info path "customLayerData").isSome then ["customLayerData"] else []
    unfold Layer.info
    rw [value_reservedLayer]
    by_cases top : path = .root <;> simp [top]
  sampleTimes _ := []
  mem_sampleTimes := by
    intro path time
    rw [value_reservedLayer]
    simp

def capturedEmpty : CapturedLayer layerDataLibraries where
  toSourceLayer := SpecSession.emptySource
  listed := by
    intro path
    show [] = if (Layer.empty.info path "customLayerData").isSome then ["customLayerData"] else []
    rw [Layer.info_empty]
    rfl
  sampleTimes _ := []
  mem_sampleTimes := by
    intro path time
    show _ ↔ (Layer.empty.value path (.sample time)).isSome = true
    simp [Layer.empty]

theorem eventOf_reserved {key : SpecKey} {delta : SpecDelta}
    (event : EventOf capturedReserved capturedEmpty key delta) (kept : delta.removed = false) :
    key = ⟨.layer, .root⟩ ∧
      delta = fieldsEvent layerDataLibraries SpecSession.emptySource key ["customLayerData"] := by
  have here : Layer.empty.specKind key.path = some key.kind := event.of_kept kept
  have top : key.path = .root := by
    by_contra below
    simp [Layer.specKind, Layer.empty, below] at here
  rcases key with ⟨kind, path⟩
  dsimp only at top here
  rw [top, Layer.specKind_root] at here
  obtain rfl : SpecKind.layer = kind := Option.some.inj here
  obtain rfl := top
  refine ⟨rfl, ?_⟩
  cases event with
  | gone _ _ => cases kept
  | new missing _ => exact absurd reservedLayer.specKind_root missing
  | changed _ _ _ =>
      have fields : changedFields capturedReserved capturedEmpty ⟨.layer, .root⟩ =
          ["customLayerData"] := by decide +kernel
      rw [fields]
      rfl

theorem fragmentsReadBack_empty : FragmentsReadBack capturedReserved capturedEmpty := by
  intro key delta found kept
  obtain ⟨rfl, rfl⟩ := eventOf_reserved (specEvent_eq_some_iff.1 found) kept
  rfl

theorem flat_empty (key : SpecKey) : ¬ CopiesNested capturedReserved capturedEmpty key := by
  rintro ⟨nested, copies⟩
  obtain ⟨delta, found, kept⟩ := (Option.any_eq_true _ _).1 copies
  obtain ⟨rfl, _⟩ := eventOf_reserved (specEvent_eq_some_iff.1 found) (by simpa using kept)
  cases nested

end UsdConnect.LayerTracker
