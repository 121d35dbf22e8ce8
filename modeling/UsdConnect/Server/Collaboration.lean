/-
Purpose: Department assignments and replay compatibility for a managed layer stack: the operations of
  the collaboration policy, the admission of receivers around it, and its restoration at startup.
Trusted boundary: each operation holds the scene lock, so calls take effect one after the other; the
  content of layers is that of Server.LayerMerge
Main exports: CollaborationPolicy, CollaborationServer, CollaborationServer.step
-/
import UsdConnect.Lib.Machine
import UsdConnect.Server.StackStore

namespace UsdConnect

/-- `_DEPARTMENT_LAYER_KEY_PREFIX`. -/
def departmentLayerKeyPrefix : String := "department:"

/-- `_layer_key_for_department`. -/
def layerKeyForDepartment (department : String) : String :=
  if department = "" then defaultLayerKey else departmentLayerKeyPrefix ++ department

/-- `department_for_layer_key`. -/
def departmentForLayerKey (layerKey : String) : Option String :=
  if layerKey = defaultLayerKey then none
  else if departmentLayerKeyPrefix.toList <+: layerKey.toList then
    let department := String.ofList (layerKey.toList.drop departmentLayerKeyPrefix.length)
    if department ≠ "" then some department else none
  else none

/-- `label_for_layer_key`. -/
def labelForLayerKey (layerKey : String) : String :=
  match departmentForLayerKey layerKey with
  | some department => department
  | none => if layerKey = defaultLayerKey then "Default" else layerKey

/-- What an operation publishes after it has released the lock. -/
inductive PolicyNotice where
  | bumpSnapshotEpoch (action : String)
  | broadcastLayerStackState
deriving DecidableEq, Repr

/-- What an operation returns. -/
inductive PolicyReply where
  | layer (identifier : Nat)
  | admitted (accepted : Bool) (reason : String)
  | done (changed : Bool)
deriving DecidableEq, Repr

/-- Whether a hello goes on after `reserve_receiver_replay_mode`. -/
def admits : Except String PolicyReply → Bool
  | .ok (.admitted accepted _) => accepted
  | _ => false

/-- The fields of a `CollaborationPolicy`, with the stack of its scene. -/
structure CollaborationPolicy where
  stack : StackStore := .initial
  /-- `scene.edit_layer`, the default layer. -/
  editLayer : Nat := 0
  clientLayerKeys : OrderedDict String String := .empty
  departmentPriority : List String
  flatReceiverCount : Nat := 0
deriving Repr

/-- A call's answer or exception, its notices, and the policy it leaves behind in either case. -/
structure PolicyOutcome where
  reply : Except String PolicyReply
  notices : List PolicyNotice := []
  policy : CollaborationPolicy

def layerStackConflict : String :=
  "layer-stack changes require all connected receivers to use layered replay"

def reservationUnderflow : String := "flat receiver reservation underflow"

/-- `_validate_priority`. -/
def validatePriority (departments : List String) : Except String (List String) :=
  if "" ∈ departments then .error "department names must be non-empty"
  else if ¬ departments.Nodup then .error "department priority contains duplicates"
  else .ok departments

namespace CollaborationPolicy

/-- The order that `_apply_department_order_locked` asks for. -/
def departmentOrder (policy : CollaborationPolicy) : List String :=
  let priorityKeys :=
    (policy.departmentPriority.map layerKeyForDepartment).filter policy.stack.hasLayer
  let unlistedKeys := policy.stack.order.filter fun layerKey =>
    layerKey ≠ defaultLayerKey ∧ layerKey ∉ priorityKeys
  priorityKeys ++ unlistedKeys ++ [defaultLayerKey]

/-- `_apply_department_order_locked`. -/
def applyDepartmentOrder (policy : CollaborationPolicy) :
    Except String (CollaborationPolicy × Bool) :=
  match policy.stack.setOrder policy.departmentOrder with
  | .error message => .error message
  | .ok (stack, changed) => .ok ({ policy with stack := stack }, changed)

/-- `get_or_create_client_layer`; no department is the empty one. -/
def getOrCreateClientLayer (policy : CollaborationPolicy) (clientId department : String) :
    PolicyOutcome :=
  let layerKey := layerKeyForDepartment department
  if department = "" then
    { reply := .ok (.layer policy.editLayer)
      policy := { policy with clientLayerKeys := policy.clientLayerKeys.set clientId layerKey } }
  else if ¬ policy.stack.hasLayer layerKey ∧ policy.flatReceiverCount ≠ 0 then
    { reply := .error layerStackConflict, policy := policy }
  else
    match policy.stack.ensureLayer layerKey department with
    | .error message => { reply := .error message, policy := policy }
    | .ok (stack, layer, added) =>
        let created := { policy with stack := stack }
        match if added then created.applyDepartmentOrder else .ok (created, false) with
        | .error message => { reply := .error message, policy := created }
        | .ok (ordered, _) =>
            { reply := .ok (.layer layer)
              notices :=
                if added then
                  [.bumpSnapshotEpoch ("create_department_layer:" ++ department),
                    .broadcastLayerStackState]
                else []
              policy :=
                { ordered with clientLayerKeys := ordered.clientLayerKeys.set clientId layerKey } }

/-- `_flat_replay_rejection_reason_locked`. -/
def flatReplayRejectionReason (policy : CollaborationPolicy) : Except String String :=
  if policy.departmentPriority ≠ [] then .ok "department collaboration requires layered replay"
  else
    match policy.stack.order with
    | [layerKey] =>
        match policy.stack.layerFor layerKey with
        | .error message => .error message
        | .ok layer =>
            if policy.stack.isLayerMuted layer then
              .ok "muted collaboration layers require layered replay"
            else .ok ""
    | _ => .ok "multiple collaboration layers require layered replay"

/-- `reserve_receiver_replay_mode`. -/
def reserveReceiverReplayMode (policy : CollaborationPolicy) (layered : Bool) : PolicyOutcome :=
  if layered then { reply := .ok (.admitted true ""), policy := policy }
  else
    match policy.flatReplayRejectionReason with
    | .error message => { reply := .error message, policy := policy }
    | .ok reason =>
        if reason ≠ "" then { reply := .ok (.admitted false reason), policy := policy }
        else
          { reply := .ok (.admitted true "")
            policy := { policy with flatReceiverCount := policy.flatReceiverCount + 1 } }

/-- `release_receiver_replay_mode`. -/
def releaseReceiverReplayMode (policy : CollaborationPolicy) (layered : Bool) : PolicyOutcome :=
  if layered then { reply := .ok (.done true), policy := policy }
  else if policy.flatReceiverCount = 0 then { reply := .error reservationUnderflow, policy := policy }
  else
    { reply := .ok (.done true)
      policy := { policy with flatReceiverCount := policy.flatReceiverCount - 1 } }

/-- `resolve_layer_key`. -/
def resolveLayerKey (policy : CollaborationPolicy) (key : String) : Option String :=
  let clientKey := (policy.clientLayerKeys.get? key).getD ""
  if clientKey ≠ "" then some clientKey
  else if policy.stack.hasLayer (layerKeyForDepartment key) then some (layerKeyForDepartment key)
  else if policy.stack.hasLayer key then some key
  else none

/-- `release_client_assignment`: `merge_layer`, which copies the layer's opinions first, or
`delete_layer`. -/
def releaseClientAssignment (policy : CollaborationPolicy) (clientId : String)
    (mergeIntoRoot : Bool) : PolicyOutcome :=
  let layerKey := (policy.clientLayerKeys.get? clientId).getD ""
  if layerKey = "" ∨ layerKey = defaultLayerKey then { reply := .ok (.done false), policy := policy }
  else
    match if mergeIntoRoot then policy.stack.layerFor layerKey else .ok 0 with
    | .error message => { reply := .error message, policy := policy }
    | .ok _ =>
        let left := { policy with clientLayerKeys := policy.clientLayerKeys.pop clientId }
        let removed : Bool := layerKey ∉ left.clientLayerKeys.entries.map (·.2)
        match if removed then left.stack.removeLayer layerKey else .ok left.stack with
        | .error message => { reply := .error message, policy := left }
        | .ok stack =>
            let action := if mergeIntoRoot then "merge_layer" else "delete_layer"
            { reply := .ok (.done true)
              notices := .bumpSnapshotEpoch (action ++ ":" ++ clientId) ::
                if removed then [.broadcastLayerStackState] else []
              policy := { left with stack := stack } }

/-- `set_department_priority`. -/
def setDepartmentPriority (policy : CollaborationPolicy) (orderedDepartments : List String) :
    PolicyOutcome :=
  match validatePriority orderedDepartments with
  | .error message => { reply := .error message, policy := policy }
  | .ok orderedDepartments =>
      let policyChanged : Bool := orderedDepartments ≠ policy.departmentPriority
      if policyChanged ∧ policy.flatReceiverCount ≠ 0 then
        { reply := .error layerStackConflict, policy := policy }
      else
        let configured := { policy with departmentPriority := orderedDepartments }
        match configured.applyDepartmentOrder with
        | .error message => { reply := .error message, policy := configured }
        | .ok (ordered, orderChanged) =>
            { reply := .ok (.done true)
              notices :=
                if orderChanged ∨ policyChanged then
                  [.bumpSnapshotEpoch "set_department_priority", .broadcastLayerStackState]
                else []
              policy := ordered }

/-- `set_muted`: `mute_layer` or `unmute_layer`. -/
def setMuted (policy : CollaborationPolicy) (key : String) (muted : Bool) : PolicyOutcome :=
  match policy.resolveLayerKey key with
  | none => { reply := .ok (.done false), policy := policy }
  | some layerKey =>
      match policy.stack.layerFor layerKey with
      | .error message => { reply := .error message, policy := policy }
      | .ok layer =>
          if policy.stack.isLayerMuted layer = muted then
            { reply := .ok (.done true), policy := policy }
          else if policy.flatReceiverCount ≠ 0 then
            { reply := .error layerStackConflict, policy := policy }
          else
            match policy.stack.setMuted layerKey muted with
            | .error message => { reply := .error message, policy := policy }
            | .ok (stack, _) =>
                let action := if muted then "mute_layer" else "unmute_layer"
                { reply := .ok (.done true)
                  notices := [.bumpSnapshotEpoch (action ++ ":" ++ key), .broadcastLayerStackState]
                  policy := { policy with stack := stack } }

/-- What `_replay_log_into_stage` does for one persisted opinion. -/
def restoreRecord (policy : CollaborationPolicy) (clientId layerKey : String) :
    Except String CollaborationPolicy :=
  if layerKey = "" then .error "persisted collaboration opinion is missing layer_key"
  else
    match policy.stack.ensureLayer layerKey (labelForLayerKey layerKey) with
    | .error message => .error message
    | .ok (stack, _, _) =>
        let restored := { policy with stack := stack }
        .ok (if clientId = "" then restored
          else { restored with clientLayerKeys := restored.clientLayerKeys.set clientId layerKey })

/-- The policy of a new server: the persisted opinions, as client and layer key, then the configured
order. -/
def start (departmentPriority : List String) (records : List (String × String)) :
    Except String CollaborationPolicy := do
  let departmentPriority ← validatePriority departmentPriority
  let fresh : CollaborationPolicy := { departmentPriority := departmentPriority }
  let restored ← records.foldlM (fun policy record => restoreRecord policy record.1 record.2) fresh
  let (ordered, _) ← restored.applyDepartmentOrder
  return ordered

end CollaborationPolicy

/-! ### The server around it -/

/-- The policy, and the connection handlers that hold a receiver reservation with their
`layered_replay`. -/
structure CollaborationServer where
  policy : CollaborationPolicy
  reserved : OrderedDict Nat Bool := .empty
deriving Repr

/-- Calls of clients, connection handlers and operators. -/
inductive CollaborationCall where
  | getOrCreateClientLayer (clientId department : String)
  | receiverHello (handler : Nat) (layered : Bool)
  | releaseReceiverReplayReservation (handler : Nat)
  | mergeLayer (clientId : String)
  | deleteLayer (clientId : String)
  | setDepartmentPriority (orderedDepartments : List String)
  | muteLayer (key : String)
  | unmuteLayer (key : String)
deriving DecidableEq, Repr

namespace CollaborationServer

/-- What a call does to the policy; `none` for a second hello, which no handler reads. -/
def outcome (server : CollaborationServer) (call : CollaborationCall) : Option PolicyOutcome :=
  match call with
  | .getOrCreateClientLayer clientId department =>
      some (server.policy.getOrCreateClientLayer clientId department)
  | .receiverHello handler layered =>
      if handler ∈ server.reserved.keys then none
      else some (server.policy.reserveReceiverReplayMode layered)
  | .releaseReceiverReplayReservation handler =>
      match server.reserved.get? handler with
      | none => some { reply := .ok (.done false), policy := server.policy }
      | some layered => some (server.policy.releaseReceiverReplayMode layered)
  | .mergeLayer clientId => some (server.policy.releaseClientAssignment clientId true)
  | .deleteLayer clientId => some (server.policy.releaseClientAssignment clientId false)
  | .setDepartmentPriority orderedDepartments =>
      some (server.policy.setDepartmentPriority orderedDepartments)
  | .muteLayer key => some (server.policy.setMuted key true)
  | .unmuteLayer key => some (server.policy.setMuted key false)

/-- The reservations after a call: those of admitted receivers, each released once. -/
def reservedAfter (server : CollaborationServer) (call : CollaborationCall)
    (reply : Except String PolicyReply) : OrderedDict Nat Bool :=
  match call with
  | .receiverHello handler layered =>
      if admits reply then server.reserved.set handler layered else server.reserved
  | .releaseReceiverReplayReservation handler => server.reserved.pop handler
  | _ => server.reserved

/-- One call. -/
def step (server : CollaborationServer) (call : CollaborationCall) : Option CollaborationServer :=
  (server.outcome call).map fun outcome =>
    { policy := outcome.policy, reserved := server.reservedAfter call outcome.reply }

end CollaborationServer

end UsdConnect
