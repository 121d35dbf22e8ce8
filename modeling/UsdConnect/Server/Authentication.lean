/-
Purpose: Trust on first use: the token store, the server's `authenticate`, and the interleavings of
  many calls of it as sequences of store calls.
Trusted boundary: the tokens that the random source yields
Main exports: TokenStore, authenticate, AuthServer.step
-/
import UsdConnect.Lib.FloatFormat
import UsdConnect.Lib.Machine
import Mathlib.Logic.Function.Basic

namespace UsdConnect

/-! ### The store -/

def isHexDigit (character : Char) : Bool :=
  ('0' ≤ character && character ≤ '9') || ('a' ≤ character && character ≤ 'f')

/-- A token as the random source yields it: 32 bytes in hexadecimal. -/
structure HexToken where
  text : String
  digits : text.toList.all isHexDigit = true
  length : text.toList.length = 64
  deriving DecidableEq

structure TokenRow where
  token : HexToken
  department : Option String
  createdAt : FloatValue
  lastSeen : FloatValue
  deriving DecidableEq

/-- The table's rows, by client id. -/
abbrev TokenStore := String → Option TokenRow

def isAscii (text : String) : Bool :=
  text.toList.all fun character => character.toNat < 128

/-- Strings with other characters than ASCII ones are not compared: an exception is raised. -/
inductive CompareError where
  | nonAscii
  deriving DecidableEq, Repr

def compareDigest (stored presented : String) : Except CompareError Bool :=
  if isAscii stored && isAscii presented then .ok (stored == presented) else .error .nonAscii

namespace TokenStore

/-- Issue a new token for a client id. Overwrites any existing token. -/
def issue (store : TokenStore) (clientId : String) (department : Option String) (token : HexToken)
    (now : FloatValue) : TokenStore :=
  Function.update store clientId
    (some { token, department, createdAt := now, lastSeen := now })

/-- Verify that a token matches the stored one. Updates `lastSeen` on success. -/
def verify (store : TokenStore) (clientId token : String) (now : FloatValue) :
    Except CompareError Bool × TokenStore :=
  match store clientId with
  | none => (.ok false, store)
  | some row =>
      match compareDigest row.token.text token with
      | .error failure => (.error failure, store)
      | .ok false => (.ok false, store)
      | .ok true =>
          (.ok true, Function.update store clientId (some { row with lastSeen := now }))

def hasToken (store : TokenStore) (clientId : String) : Bool :=
  (store clientId).isSome

/-- Revoke a client's token. The result says whether one was deleted. -/
def revoke (store : TokenStore) (clientId : String) : Bool × TokenStore :=
  (store.hasToken clientId, Function.update store clientId none)

end TokenStore

/-! ### One call of `authenticate` -/

/-- How a call ends: accepted, with the token that was issued, or refused, or in the exception of
the comparison. -/
inductive AuthResult where
  | accepted (issued : Option HexToken)
  | rejected
  | raised (failure : CompareError)
  deriving DecidableEq

/-- `if x` on an optional string. -/
def truthy : Option String → Option String
  | some text => if text = "" then none else some text
  | none => none

/-- Authenticate a client on first use, with nothing else going on. `fresh` is the token that would
be issued. -/
def authenticate (requireToken : Bool) (store : TokenStore) (clientId token : Option String)
    (department : Option String) (fresh : HexToken) (now : FloatValue) : AuthResult × TokenStore :=
  if !requireToken then
    (.accepted none, store)
  else
    match truthy clientId with
    | none => (.rejected, store)
    | some clientId =>
        if !store.hasToken clientId then
          (.accepted (some fresh), store.issue clientId department fresh now)
        else
          match truthy token with
          | none => (.rejected, store)
          | some token =>
              match store.verify clientId token now with
              | (.ok true, store) => (.accepted none, store)
              | (.ok false, store) => (.rejected, store)
              | (.error failure, store) => (.raised failure, store)

/-! ### Many calls -/

/-- Where a call stands: before its next call of the store, or done. -/
inductive AuthPhase where
  | checking
  | issuing
  | verifying
  | done (result : AuthResult)
  deriving DecidableEq

/-- A call with its arguments. -/
structure AuthCall where
  clientId : String
  token : Option String
  department : Option String
  phase : AuthPhase
  deriving DecidableEq

/-- The store, and the call of each connection. -/
structure AuthServer where
  store : TokenStore
  calls : Nat → Option AuthCall

/-- The steps of an interleaving. A restart ends every call and keeps the store. -/
inductive AuthAction where
  | call (connection : Nat) (clientId token department : Option String)
  | hasToken (connection : Nat)
  | issue (connection : Nat) (token : HexToken) (now : FloatValue)
  | verify (connection : Nat) (now : FloatValue)
  | revoke (clientId : String)
  | restart
  deriving DecidableEq

/-- The connection whose call takes the step. -/
def AuthAction.connection : AuthAction → Option Nat
  | .call connection .. | .hasToken connection | .issue connection .. | .verify connection _ =>
      some connection
  | .revoke _ | .restart => none

/-- What a step did, with the connection and the client id it did it for. -/
inductive AuthOutcome where
  | called
  | found (connection : Nat) (clientId : String) (present : Bool)
  | issued (connection : Nat) (clientId : String) (token : HexToken)
  | verified (connection : Nat) (clientId : String) (result : Except CompareError Bool)
  | revoked (clientId : String) (deleted : Bool)
  | restarted

namespace AuthServer

def initial : AuthServer where
  store _ := none
  calls _ := none

/-- A call waits in the given phase. -/
def waiting (server : AuthServer) (connection : Nat) (phase : AuthPhase) : Option AuthCall :=
  (server.calls connection).filter fun call => call.phase = phase

def setPhase (server : AuthServer) (connection : Nat) (call : AuthCall) (phase : AuthPhase) :
    AuthServer :=
  { server with calls := Function.update server.calls connection (some { call with phase }) }

/-- The phase after the store was asked whether the id has a token. -/
def phaseAfterLook (call : AuthCall) (present : Bool) : AuthPhase :=
  if !present then .issuing
  else
    match truthy call.token with
    | none => .done .rejected
    | some _ => .verifying

/-- The result of a call whose token was compared. -/
def verdict : Except CompareError Bool → AuthResult
  | .ok true => .accepted none
  | .ok false => .rejected
  | .error failure => .raised failure

/-- The call that a connection makes. -/
def newCall (clientId token department : Option String) : AuthCall :=
  match truthy clientId with
  | none => { clientId := "", token, department, phase := .done .rejected }
  | some clientId => { clientId, token, department, phase := .checking }

/-- One step, with what it did; `none` when it cannot happen. Tokens are required. -/
def perform (server : AuthServer) : AuthAction → Option (AuthOutcome × AuthServer)
  | .call connection clientId token department =>
      if server.calls connection = none then
        some (.called,
          { server with
            calls := Function.update server.calls connection
              (some (newCall clientId token department)) })
      else none
  | .hasToken connection =>
      (server.waiting connection .checking).map fun call =>
        let present := server.store.hasToken call.clientId
        (.found connection call.clientId present,
          server.setPhase connection call (phaseAfterLook call present))
  | .issue connection token now =>
      (server.waiting connection .issuing).map fun call =>
        (.issued connection call.clientId token,
          { server.setPhase connection call (.done (.accepted (some token))) with
            store := server.store.issue call.clientId call.department token now })
  | .verify connection now =>
      (server.waiting connection .verifying).map fun call =>
        let (result, store) := server.store.verify call.clientId (call.token.getD "") now
        (.verified connection call.clientId result,
          { server.setPhase connection call (.done (verdict result)) with store })
  | .revoke clientId =>
      let (deleted, store) := server.store.revoke clientId
      some (.revoked clientId deleted, { server with store })
  | .restart => some (.restarted, { server with calls := fun _ => none })

def step (server : AuthServer) (action : AuthAction) : Option AuthServer :=
  (server.perform action).map Prod.snd

end AuthServer

end UsdConnect
