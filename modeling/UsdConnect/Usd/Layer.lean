/-
Purpose: The content of one `Sdf.Layer` as fields on specs, and its elementary edits: creating,
  authoring, clearing, removing and copying.
Trusted boundary: sibling order is left out
Main exports: Datum, Field, Layer, LayerEdit, LayerEdit.apply
-/
import Mathlib.Data.Rat.Defs
import UsdConnect.Usd.Path

namespace UsdConnect

abbrev TimeCode := Rat

/-- Kinds of concrete specs; `layer` is the pseudo-root. -/
inductive SpecKind where
  | layer
  | prim
  | variantSet
  | variant
  | attribute
  | relationship
deriving DecidableEq, Repr

/-- A path without a property determines the kind of its spec. -/
def PrimPath.kind (path : PrimPath) : SpecKind :=
  match path.getLast? with
  | none => .layer
  | some (.child _) => .prim
  | some (.variantSet _) => .variantSet
  | some (.variant _) => .variant

/-- One entry of an authored reference or payload list op. -/
structure ArcItem where
  assetPath : String := ""
  primPath : Option ScenePath := none
  layerOffset : Rat := 0
  layerScale : Rat := 1
  customData : String := ""
  listPosition : String := "prepended"
deriving DecidableEq, Repr

/-- A value of a field or of one time sample.  The spec itself is `present`, for a property with
its kind. -/
inductive Datum where
  | present
  | property (kind : SpecKind)
  | flag (value : Bool)
  | number (value : Rat)
  | text (value : String)
  | texts (values : List String)
  | paths (targets : List SpecPath)
  | arcs (explicit : Bool) (items : List ArcItem)
  | dictionary (entries : List (String × String))
deriving DecidableEq, Repr

/-- What can be authored at a spec path: the spec itself, one info field, one time sample.  An
unauthored `specifier` reads as `over`. -/
inductive Field where
  | spec
  | info (name : String)
  | sample (time : TimeCode)
deriving DecidableEq, Repr

/-- Authored content of a layer.  Every spec stands below existing specs, and only specs carry
fields. -/
@[ext] structure Layer where
  value : SpecPath → Field → Option Datum
  pseudoRoot : value .root .spec = some .present
  plain : ∀ prim : PrimPath, value ⟨prim, none⟩ .spec = none ∨
    value ⟨prim, none⟩ .spec = some .present
  rooted : ∀ path outer : SpecPath, path.Inside outer →
    (value path .spec).isSome → (value outer .spec).isSome
  tidy : ∀ (path : SpecPath) (field : Field),
    (value path field).isSome → (value path .spec).isSome

namespace Layer

/-- A layer without opinions. -/
def empty : Layer where
  value := fun path field => if path = .root ∧ field = .spec then some .present else none
  pseudoRoot := rfl
  plain := by
    intro prim
    split
    · exact Or.inr rfl
    · exact Or.inl rfl
  rooted := by
    intro path outer inside present
    by_cases top : path = .root
    · rw [top] at inside
      have outermost : outer = .root := SpecPath.eq_root_of_inside inside
      simp [outermost]
    · simp [top] at present
  tidy := by
    intro path field present
    by_cases top : path = .root
    · simp [top]
    · simp [top] at present

/-- `GetObjectAtPath` finds a spec. -/
def hasSpec (layer : Layer) (path : SpecPath) : Bool :=
  (layer.value path .spec).isSome

def hasPrim (layer : Layer) (path : PrimPath) : Bool :=
  layer.hasSpec ⟨path, none⟩

def info (layer : Layer) (path : SpecPath) (name : String) : Option Datum :=
  layer.value path (.info name)

/-- Kind of the spec at a path. -/
def specKind (layer : Layer) (path : SpecPath) : Option SpecKind :=
  match layer.value path .spec with
  | some (.property kind) => some kind
  | some _ => some path.prim.kind
  | none => none

end Layer

/-- Elementary edits of a layer. -/
inductive LayerEdit where
  /-- The spec and its missing ancestors; a property gets the given kind. -/
  | create (path : SpecPath) (kind : SpecKind)
  /-- One field of a spec, which is created when missing. -/
  | author (path : SpecPath) (kind : SpecKind) (field : Field) (value : Datum)
  | clear (path : SpecPath) (field : Field)
  /-- The whole sample table of an attribute. -/
  | samples (path : SpecPath) (table : TimeCode → Option Datum)
  /-- A spec with everything below it. -/
  | remove (path : SpecPath)
  /-- Replace the subtree at a prim path by the subtree of `source` at another one. -/
  | graft (path : PrimPath) (source : Layer) (origin : PrimPath)
  /-- Replace all content. -/
  | replace (content : Layer)

namespace LayerEdit

/-- What the spec field of a path holds: properties are told their kind. -/
def specDatum (path : SpecPath) (propertyKind : SpecKind) : Datum :=
  match path.property with
  | some _ => .property propertyKind
  | none => .present

/-- The specs that must exist for `path` to exist. -/
def createdBy (path : SpecPath) (kind : SpecKind) (other : SpecPath) (field : Field) :
    Option (Option Datum) :=
  if field = .spec ∧ path.Inside other then some (some (specDatum other kind)) else none

/-- New value of every field the edit writes; `none` leaves the field as it is. -/
def written : LayerEdit → SpecPath → Field → Option (Option Datum)
  | .create path kind, other, field => createdBy path kind other field
  | .author path kind authored value, other, field =>
      if other = path ∧ field = authored ∧ field ≠ .spec then some (some value)
      else createdBy path kind other field
  | .clear path cleared, other, field =>
      if other = path ∧ field = cleared ∧ field ≠ .spec then some none else none
  | .samples path table, other, field =>
      match field with
      | .sample time => if other = path then some (table time) else none
      | field => createdBy path .attribute other field
  | .remove path, other, _ => if other.Inside path then some none else none
  | .graft path source origin, other, field =>
      if path <+: other.prim then
        some (source.value ⟨origin ++ other.prim.drop path.length, other.property⟩ field)
      else createdBy ⟨path, none⟩ .prim other field
  | .replace content, other, field => some (content.value other field)

/-- The pseudo-root itself is never written. -/
def changes (edit : LayerEdit) (path : SpecPath) (field : Field) : Option (Option Datum) :=
  if path = .root ∧ field = .spec then none else edit.written path field

/-- Field values after an edit. -/
def edited (edit : LayerEdit) (layer : Layer) (path : SpecPath) (field : Field) : Option Datum :=
  (edit.changes path field).getD (layer.value path field)

theorem edited_pseudoRoot (edit : LayerEdit) (layer : Layer) :
    edit.edited layer .root .spec = some .present := by
  simp only [edited, changes, and_self, if_true, Option.getD_none]
  exact layer.pseudoRoot

theorem edited_of_ne_root {edit : LayerEdit} {layer : Layer} {path : SpecPath} {field : Field}
    (below : path ≠ .root) :
    edit.edited layer path field = (edit.written path field).getD (layer.value path field) := by
  unfold edited changes
  rw [if_neg (fun top => below top.1)]

theorem createdBy_spec {path other : SpecPath} {kind : SpecKind} (above : path.Inside other) :
    createdBy path kind other .spec = some (some (specDatum other kind)) := by
  unfold createdBy
  rw [if_pos ⟨rfl, above⟩]

theorem createdBy_none {path other : SpecPath} {kind : SpecKind} (outside : ¬ path.Inside other)
    (field : Field) : createdBy path kind other field = none := by
  unfold createdBy
  rw [if_neg (fun above => outside above.2)]

theorem createdBy_field {path other : SpecPath} {kind : SpecKind} {field : Field}
    (data : field ≠ .spec) : createdBy path kind other field = none := by
  unfold createdBy
  rw [if_neg (fun isSpec => data isSpec.1)]

/-- The subtree copied by a graft lies at the matching place of its source. -/
theorem graft_inside {path origin : PrimPath} {inner outer : SpecPath}
    (below : path <+: outer.prim) (inside : inner.Inside outer) :
    (⟨origin ++ inner.prim.drop path.length, inner.property⟩ : SpecPath).Inside
      ⟨origin ++ outer.prim.drop path.length, outer.property⟩ := by
  obtain ⟨rest, joined⟩ := below
  rcases outer with ⟨prim, property⟩
  cases property with
  | none =>
      obtain ⟨tail, appended⟩ := inside.prim
      refine ⟨tail, ?_⟩
      dsimp only at joined appended ⊢
      rw [← appended, ← joined, List.drop_left' rfl, List.append_assoc, List.append_assoc,
        List.drop_left' rfl]
  | some name =>
      have same : inner = ⟨prim, some name⟩ := inside
      rw [same]
      rfl

/-- An edit that only adds specs adds them together with their ancestors. -/
theorem created_rooted {layer : Layer} {target path outer : SpecPath} {kind : SpecKind}
    (inside : path.Inside outer)
    (present : ((createdBy target kind path .spec).getD (layer.value path .spec)).isSome) :
    ((createdBy target kind outer .spec).getD (layer.value outer .spec)).isSome := by
  by_cases above : target.Inside outer
  · rw [createdBy_spec above]
    rfl
  · have outside : ¬ target.Inside path := fun within => above (within.trans inside)
    rw [createdBy_none outside] at present
    rw [createdBy_none above]
    exact layer.rooted path outer inside present

/-- A field that stays or is copied has its spec. -/
theorem created_tidy {layer : Layer} {target path : SpecPath} {kind : SpecKind} {field : Field}
    (present : ((createdBy target kind path field).getD (layer.value path field)).isSome) :
    ((createdBy target kind path .spec).getD (layer.value path .spec)).isSome := by
  by_cases above : target.Inside path
  · rw [createdBy_spec above]
    rfl
  · rw [createdBy_none above] at present ⊢
    exact layer.tidy path field present

theorem edited_rooted (edit : LayerEdit) (layer : Layer) (path outer : SpecPath)
    (inside : path.Inside outer) (present : (edit.edited layer path .spec).isSome) :
    (edit.edited layer outer .spec).isSome := by
  by_cases top : outer = .root
  · rw [top, edited_pseudoRoot]
    rfl
  by_cases start : path = .root
  · rw [start] at inside
    exact absurd (SpecPath.eq_root_of_inside inside) top
  rw [edited_of_ne_root start] at present
  rw [edited_of_ne_root top]
  cases edit with
  | create target kind => exact created_rooted inside present
  | author target kind field value =>
      have plain : ∀ other, written (.author target kind field value) other .spec =
          createdBy target kind other .spec := by simp [written]
      rw [plain] at present ⊢
      exact created_rooted inside present
  | clear target field =>
      have plain : ∀ other, written (.clear target field) other .spec = none := by simp [written]
      rw [plain] at present ⊢
      exact layer.rooted path outer inside present
  | samples target table => exact created_rooted inside present
  | remove target =>
      by_cases gone : path.Inside target
      · simp [written, gone] at present
      · have kept : ¬ outer.Inside target := fun within => gone (inside.trans within)
        simp only [written, gone, kept, if_false, Option.getD_none] at present ⊢
        exact layer.rooted path outer inside present
  | graft target source origin =>
      by_cases below : target <+: outer.prim
      · have deeper : target <+: path.prim := below.trans inside.prim
        simp only [written, below, deeper, if_true, Option.getD_some] at present ⊢
        exact source.rooted _ _ (graft_inside below inside) present
      · by_cases above : (⟨target, none⟩ : SpecPath).Inside outer
        · simp only [written, below, if_false, createdBy_spec above]
          rfl
        · -- neither inside nor above the grafted subtree, and so is everything below
          have beside : ¬ target <+: path.prim := by
            intro deeper
            cases property : outer.property with
            | none =>
                rcases List.prefix_or_prefix_of_prefix deeper inside.prim with first | second
                · exact below first
                · exact above (by rw [SpecPath.Inside, property]; exact second)
            | some name =>
                rw [SpecPath.Inside, property] at inside
                exact below (inside ▸ deeper)
          have outside : ¬ (⟨target, none⟩ : SpecPath).Inside path :=
            fun within => above (within.trans inside)
          simp only [written, beside, below, if_false, createdBy_none outside, createdBy_none above,
            Option.getD_none] at present ⊢
          exact layer.rooted path outer inside present
  | replace content => exact content.rooted path outer inside present

theorem edited_plain (edit : LayerEdit) (layer : Layer) (prim : PrimPath) :
    edit.edited layer ⟨prim, none⟩ .spec = none ∨
      edit.edited layer ⟨prim, none⟩ .spec = some .present := by
  by_cases top : (⟨prim, none⟩ : SpecPath) = .root
  · rw [top, edited_pseudoRoot]
    exact Or.inr rfl
  rw [edited_of_ne_root top]
  have created : ∀ target kind,
      (createdBy target kind ⟨prim, none⟩ .spec).getD (layer.value ⟨prim, none⟩ .spec) = none ∨
        (createdBy target kind ⟨prim, none⟩ .spec).getD (layer.value ⟨prim, none⟩ .spec) =
          some .present := by
    intro target kind
    unfold createdBy
    split
    · exact Or.inr rfl
    · exact layer.plain prim
  cases edit with
  | create target kind => exact created target kind
  | author target kind field value =>
      have plain : written (.author target kind field value) ⟨prim, none⟩ .spec =
          createdBy target kind ⟨prim, none⟩ .spec := by simp [written]
      rw [plain]
      exact created target kind
  | clear target field =>
      have plain : written (.clear target field) ⟨prim, none⟩ .spec = none := by simp [written]
      rw [plain]
      exact layer.plain prim
  | samples target table => exact created target .attribute
  | remove target =>
      simp only [written]
      split
      · exact Or.inl rfl
      · exact layer.plain prim
  | graft target source origin =>
      simp only [written]
      split
      · exact source.plain _
      · exact created ⟨target, none⟩ .prim
  | replace content => exact content.plain prim

theorem edited_tidy (edit : LayerEdit) (layer : Layer) (path : SpecPath) (field : Field)
    (present : (edit.edited layer path field).isSome) :
    (edit.edited layer path .spec).isSome := by
  by_cases top : path = .root
  · rw [top, edited_pseudoRoot]
    rfl
  rw [edited_of_ne_root top] at present ⊢
  cases edit with
  | create target kind => exact created_tidy present
  | author target kind authored value =>
      have plain : written (.author target kind authored value) path .spec =
          createdBy target kind path .spec := by simp [written]
      rw [plain]
      by_cases here : path = target ∧ field = authored ∧ field ≠ .spec
      · rw [createdBy_spec (here.1 ▸ SpecPath.Inside.refl path)]
        rfl
      · simp only [written, here, if_false] at present
        exact created_tidy present
  | clear target cleared =>
      have plain : written (.clear target cleared) path .spec = none := by simp [written]
      rw [plain]
      by_cases here : path = target ∧ field = cleared ∧ field ≠ .spec
      · simp only [written] at present
        rw [if_pos here] at present
        cases present
      · simp only [written, here, if_false] at present
        exact layer.tidy path field present
  | samples target table =>
      by_cases here : path = target
      · rw [here]
        simp only [written]
        rw [createdBy_spec (SpecPath.Inside.refl target)]
        rfl
      · cases field with
        | sample time =>
            simp only [written, here, if_false, Option.getD_none] at present
            have untouched : createdBy target .attribute path (.sample time) = none :=
              createdBy_field (by simp)
            have kept : ((createdBy target .attribute path (.sample time)).getD
                (layer.value path (.sample time))).isSome := by
              rw [untouched]
              exact present
            exact created_tidy kept
        | spec => exact present
        | info name => exact created_tidy present
  | remove target =>
      by_cases gone : path.Inside target
      · simp [written, gone] at present
      · simp only [written, gone, if_false, Option.getD_none] at present ⊢
        exact layer.tidy path field present
  | graft target source origin =>
      by_cases below : target <+: path.prim
      · simp only [written, below, if_true, Option.getD_some] at present ⊢
        exact source.tidy _ _ present
      · simp only [written, below, if_false] at present ⊢
        exact created_tidy present
  | replace content => exact content.tidy path field present

/-- The layer after an edit. -/
def apply (edit : LayerEdit) (layer : Layer) : Layer where
  value := edit.edited layer
  pseudoRoot := edit.edited_pseudoRoot layer
  plain := edit.edited_plain layer
  rooted := edit.edited_rooted layer
  tidy := edit.edited_tidy layer

end LayerEdit

end UsdConnect
