/-
Purpose: Transaction admission, the individual and the grouped commit, and the fallback from a
  failed group. How one transaction changes the scene is a parameter.
Trusted boundary: none
Main exports: TransactionRequest, TransactionOutcome, checkTransactionId, commit
-/
import UsdConnect.Server.Journal

namespace UsdConnect

/-- A producer command: identity, transaction id and the edits it carries. -/
structure TransactionRequest (Body : Type) where
  producer : Producer
  txnId : Nat
  body : Body
deriving DecidableEq, Repr

/-- Terminal result of one request.  `unexpectedId` is the rejection of a gap; `failed` is any
exception of the commit itself. -/
inductive TransactionOutcome (Record Error : Type) where
  | committed (txnId : Nat) (records : List Record)
  | duplicate (txnId : Nat)
  | unexpectedId (expected received : Nat)
  | failed (error : Error)
deriving DecidableEq, Repr

/-- Live scene and journal of the authoritative server. -/
structure ServerState (Scene Record : Type) where
  scene : Scene
  journal : EventJournal Record

variable {Body Scene Record Error : Type}

/-- A duplicate or a rejection; `none` admits the next producer write. -/
def checkTransactionId (txnId committedThrough : Nat) :
    Option (TransactionOutcome Record Error) :=
  if txnId ≤ committedThrough then some (.duplicate committedThrough)
  else if txnId ≠ committedThrough + 1 then some (.unexpectedId (committedThrough + 1) txnId)
  else none

/-- Commit one admitted request.  An exception may leave the scene changed, so `commitEvents`
returns the server also when it raises. -/
def commit
    (commitEvents : ServerState Scene Record → TransactionRequest Body →
      ServerState Scene Record × Except Error (List Record))
    (server : ServerState Scene Record) (request : TransactionRequest Body) :
    ServerState Scene Record × TransactionOutcome Record Error :=
  let (committedThrough, journal) := server.journal.committedThrough request.producer
  let server := { server with journal := journal }
  match checkTransactionId request.txnId committedThrough with
  | some outcome => (server, outcome)
  | none =>
      match commitEvents server request with
      | (server, .error error) => (server, .failed error)
      | (server, .ok records) =>
          ({ server with
              journal := server.journal.rememberProgress [(request.producer, request.txnId)] },
            .committed request.txnId records)

/-- State of the admission loop: the overlay `next_by_session` and the journal whose cache the
loop fills. -/
structure AdmissionState (Record : Type) where
  nextBySession : List (Producer × Nat)
  journal : EventJournal Record

/-- Latest overlay value of a producer; the newest entry stands first. -/
def overlayProgress (nextBySession : List (Producer × Nat)) (producer : Producer) : Option Nat :=
  (nextBySession.find? fun entry => entry.1 = producer).map (·.2)

/-- Progress a request is compared with: the overlay's value, else the journal's. -/
def lookupProgress (state : AdmissionState Record) (producer : Producer) :
    Nat × EventJournal Record :=
  match overlayProgress state.nextBySession producer with
  | some overlay => (overlay, state.journal)
  | none => state.journal.committedThrough producer

/-- Admit requests in order against the overlay.  Each request is returned with its early outcome,
or `none` when it is accepted. -/
def admitRequests :
    List (TransactionRequest Body) → AdmissionState Record →
      List (TransactionRequest Body × Option (TransactionOutcome Record Error)) ×
        AdmissionState Record
  | [], state => ([], state)
  | request :: rest, state =>
      let (committedThrough, journal) := lookupProgress state request.producer
      match (checkTransactionId request.txnId committedThrough :
          Option (TransactionOutcome Record Error)) with
      | some outcome =>
          let (admitted, final) := admitRequests rest { state with journal := journal }
          ((request, some outcome) :: admitted, final)
      | none =>
          let (admitted, final) := admitRequests rest
            { nextBySession := (request.producer, request.txnId) :: state.nextBySession
              journal := journal }
          ((request, none) :: admitted, final)

/-- The accepted requests of an admission result, in input order. -/
def acceptedRequests
    (admitted : List (TransactionRequest Body × Option (TransactionOutcome Record Error))) :
    List (TransactionRequest Body) :=
  admitted.filterMap fun entry => match entry.2 with
    | none => some entry.1
    | some _ => none

/-- One outcome per request in input order: the early ones as they are, the accepted ones with
their encoded records. -/
def fillOutcomes :
    List (TransactionRequest Body × Option (TransactionOutcome Record Error)) →
      List (List Record) → List (TransactionOutcome Record Error)
  | [], _ => []
  | (_, some outcome) :: rest, encoded => outcome :: fillOutcomes rest encoded
  | (request, none) :: rest, records :: encoded =>
      .committed request.txnId records :: fillOutcomes rest encoded
  | (request, none) :: rest, [] => .committed request.txnId [] :: fillOutcomes rest []

/-- Commit a group with one persistence boundary.  An error is the exception that the coordinator
answers by committing the members one by one. -/
def commitGroup
    (applyAndPersist : ServerState Scene Record → List (TransactionRequest Body) →
      ServerState Scene Record × Except Error (List (List Record)))
    (server : ServerState Scene Record) (requests : List (TransactionRequest Body)) :
    ServerState Scene Record × Except Error (List (TransactionOutcome Record Error)) :=
  let (admitted, state) :
      List (TransactionRequest Body × Option (TransactionOutcome Record Error)) ×
        AdmissionState Record :=
    admitRequests requests { nextBySession := [], journal := server.journal }
  let server := { server with journal := state.journal }
  match acceptedRequests admitted with
  | [] => (server, .ok (fillOutcomes admitted []))
  | accepted =>
      match applyAndPersist server accepted with
      | (server, .error error) => (server, .error error)
      | (server, .ok encoded) =>
          ({ server with
              journal := server.journal.rememberProgress state.nextBySession.reverse },
            .ok (fillOutcomes admitted encoded))

/-- Commit requests one by one in order, collecting their outcomes. -/
def commitEach
    (commitEvents : ServerState Scene Record → TransactionRequest Body →
      ServerState Scene Record × Except Error (List Record)) :
    ServerState Scene Record → List (TransactionRequest Body) →
      ServerState Scene Record × List (TransactionOutcome Record Error)
  | server, [] => (server, [])
  | server, request :: rest =>
      let (server, outcome) := commit commitEvents server request
      let (server, outcomes) := commitEach commitEvents server rest
      (server, outcome :: outcomes)

/-- The coordinator's `_execute`: try the group, retry its members separately when it raises. -/
def executeRequests
    (commitEvents : ServerState Scene Record → TransactionRequest Body →
      ServerState Scene Record × Except Error (List Record))
    (applyAndPersist : ServerState Scene Record → List (TransactionRequest Body) →
      ServerState Scene Record × Except Error (List (List Record)))
    (server : ServerState Scene Record) (requests : List (TransactionRequest Body)) :
    ServerState Scene Record × List (TransactionOutcome Record Error) :=
  match commitGroup applyAndPersist server requests with
  | (server, .ok outcomes) => (server, outcomes)
  | (server, .error _) => commitEach commitEvents server requests

end UsdConnect
