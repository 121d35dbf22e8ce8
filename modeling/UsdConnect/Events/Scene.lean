/-
Purpose: The live scene with its cached transform ops, and the authoring calls the event appliers
  make into the edit target.
Trusted boundary: edit targets map scene paths to equal spec paths
Main exports: Scene, SceneEdit, definePrim, setValue
-/
import UsdConnect.Lib.Edit
import UsdConnect.Usd.Stage
import UsdConnect.Events.Event

namespace UsdConnect

/-- A cached `UsdGeom.XformOp`: `None`, a usable handle, or one whose prim has been destroyed. -/
inductive OpHandle where
  | missing
  | live
  | expired
deriving DecidableEq, Repr

/-- Translate, orient and scale handles of one prim. -/
structure CachedOps where
  translate : OpHandle
  orient : OpHandle
  scale : OpHandle
deriving DecidableEq, Repr

namespace OpHandle

def expire : OpHandle → OpHandle
  | .live => .expired
  | handle => handle

end OpHandle

/-- Layer contents and the runtime state the appliers use. -/
@[ext] structure Scene where
  layers : LayerId → Layer
  muted : LayerId → Bool := fun _ => false
  loadRules : ScenePath → Option Bool := fun _ => none
  opCache : ScenePath → Option CachedOps := fun _ => none
  /-- The layer the cached handles were last used for. -/
  opCacheLayer : Option LayerId := none
  /-- Auxiliary: the event being applied and its layer.  No function reads it. -/
  applying : Option (LayerId × Event) := none

/-- Elementary changes of a scene. -/
inductive SceneOp where
  | layer (target : LayerId) (edit : LayerEdit)
  | mute (target : LayerId) (muted : Bool)
  /-- A load rule for a prim and everything below it. -/
  | load (prim : ScenePath) (loaded : Bool)
  | cacheOps (prim : ScenePath) (ops : CachedOps)
  | forgetOps (stale : ScenePath → Bool)
  /-- Handles of destroyed prims stay cached but no longer work. -/
  | expireOps (destroyed : ScenePath → Bool)
  /-- `_op_cache_for`: handles are kept for consecutive edits of one layer only. -/
  | useOps (target : LayerId)
  | clearOps
  /-- Auxiliary: an applier starts or ends. -/
  | mark (current : Option (LayerId × Event))

namespace Scene

/-- What the libraries see of a scene. -/
def stage (scene : Scene) (target : LayerId) : Stage :=
  ⟨scene.layers, scene.muted, scene.loadRules, target⟩

def withLayer (scene : Scene) (target : LayerId) (layer : Layer) : Scene :=
  { scene with layers := fun other => if other = target then layer else scene.layers other }

@[simp] theorem withLayer_layers (scene : Scene) (target : LayerId) (layer : Layer) :
    (scene.withLayer target layer).layers target = layer :=
  if_pos rfl

theorem withLayer_other (scene : Scene) {target other : LayerId} (layer : Layer)
    (away : other ≠ target) : (scene.withLayer target layer).layers other = scene.layers other :=
  if_neg away

@[simp] theorem withLayer_withLayer (scene : Scene) (target : LayerId) (first second : Layer) :
    (scene.withLayer target first).withLayer target second = scene.withLayer target second := by
  unfold withLayer
  congr 1
  funext other
  split
  · rfl
  · next away => exact if_neg away

@[simp] theorem withLayer_self (scene : Scene) (target : LayerId) :
    scene.withLayer target (scene.layers target) = scene := by
  unfold withLayer
  congr 1
  funext other
  split
  · next same => rw [same]
  · rfl

def exec : SceneOp → Scene → Scene
  | .layer target edit, scene => scene.withLayer target (edit.apply (scene.layers target))
  | .mute target muted, scene =>
      { scene with muted := fun other => if other = target then muted else scene.muted other }
  | .load prim loaded, scene =>
      { scene with
        loadRules := fun other =>
          if other = prim then some loaded
          else if prim <+: other then none
          else scene.loadRules other }
  | .cacheOps prim ops, scene =>
      { scene with
        opCache := fun other => if other = prim then some ops else scene.opCache other }
  | .forgetOps stale, scene =>
      { scene with opCache := fun other => if stale other then none else scene.opCache other }
  | .expireOps destroyed, scene =>
      { scene with
        opCache := fun other =>
          if destroyed other then
            (scene.opCache other).map fun ops =>
              ⟨ops.translate.expire, ops.orient.expire, ops.scale.expire⟩
          else scene.opCache other }
  | .useOps target, scene =>
      if scene.opCacheLayer = some target then scene
      else { scene with opCache := fun _ => none, opCacheLayer := some target }
  | .clearOps, scene => { scene with opCache := fun _ => none, opCacheLayer := none }
  | .mark current, scene => { scene with applying := current }

@[simp] theorem exec_useOps_layers (target : LayerId) (scene : Scene) :
    (exec (.useOps target) scene).layers = scene.layers := by
  dsimp only [exec]
  split <;> rfl

end Scene

/-- Authoring programs over scenes. -/
abbrev SceneEdit := Edit Scene.exec EditError

/-- Run an applier with the auxiliary record set, also when it raises. -/
def applyingEvent (target : LayerId) (event : Event) (program : SceneEdit Unit) :
    SceneEdit Unit := do
  Edit.act (.mark (some (target, event)))
  let outcome ← program.attempt
  Edit.act (.mark none)
  match outcome with
  | .error error => Edit.raise error
  | .ok () => pure ()

section Authoring

variable (usd : Usd) (target : LayerId)

/-- The stage at this point of a program. -/
def stageNow : SceneEdit Stage :=
  Edit.look fun scene => scene.stage target

def editLayer (edit : LayerEdit) : SceneEdit Unit :=
  Edit.act (.layer target edit)

/-- Raise when the libraries refuse an authoring call on a prim. -/
def guardAuthoring (prim : ScenePath) : SceneEdit Unit := do
  let stage ← stageNow target
  match usd.refuses stage prim with
  | some error => Edit.raise error
  | none => pure ()

/-- Author one field of the prim spec at a scene path. -/
def authorPrimInfo (prim : ScenePath) (name : String) (value : Datum) : SceneEdit Unit :=
  editLayer target (.author ⟨prim.specPath, none⟩ .prim (.info name) value)

/-- `stage.DefinePrim`: a `def` at the path and at every ancestor that is not defined. -/
def definePrim (prim : ScenePath) (typeName : String) : SceneEdit Unit := do
  guardAuthoring usd target prim
  let stage ← stageNow target
  (prim.ancestors.filter fun outer => !usd.isDefined stage outer).forM fun outer =>
    authorPrimInfo target outer "specifier" (.text "def")
  authorPrimInfo target prim "specifier" (.text "def")
  if typeName ≠ "" then authorPrimInfo target prim "typeName" (.text typeName)

/-- `stage.OverridePrim`: an `over` where the prim has no spec. -/
def overridePrim (prim : ScenePath) : SceneEdit Unit := do
  guardAuthoring usd target prim
  editLayer target (.create ⟨prim.specPath, none⟩ .prim)

/-- Field that holds a value at default time or at a sample. -/
def timeField : Option TimeCode → Field
  | none => .info "default"
  | some time => .sample time

/-- Declare an attribute spec in the edit target when it has none. -/
def declareAttribute (prim : ScenePath) (name typeName : String) : SceneEdit Unit := do
  let stage ← stageNow target
  if !stage.layer.hasSpec ⟨prim.specPath, some name⟩ then
    editLayer target
      (.author ⟨prim.specPath, some name⟩ .attribute (.info "typeName") (.text typeName))

/-- `attr.Set(value, time)` on a valid attribute of the given type. -/
def setValue (prim : ScenePath) (name typeName : String) (time : Option TimeCode)
    (value : Datum) : SceneEdit Unit := do
  guardAuthoring usd target prim
  declareAttribute target prim name typeName
  editLayer target (.author ⟨prim.specPath, some name⟩ .attribute (timeField time) value)

/-- Author an info field of an attribute, declaring its spec when missing. -/
def setAttributeInfo (prim : ScenePath) (name typeName key : String) (value : Datum) :
    SceneEdit Unit := do
  guardAuthoring usd target prim
  declareAttribute target prim name typeName
  editLayer target (.author ⟨prim.specPath, some name⟩ .attribute (.info key) value)

/-- Convert a value, raising what the conversion raises. -/
def converted (typeName : String) (value : Datum) : SceneEdit Datum :=
  match usd.coerce typeName value with
  | .ok converted => pure converted
  | .error error => Edit.raise error

end Authoring

end UsdConnect
