import Mathlib.Logic.Relation
import VehicleOta.Uds.FlashManager

/-!
# Retries of the DoIP client

`LibraryDoIPClient.transfer_data` of `transport/doip/library_client.py` under the loop of
`FlashManager.transfer_data`, one server, and the two channels between them.  The channels keep
the order of their messages but may lose any of them; a response may come as late as it likes.
-/

namespace VehicleOta.Uds

open ProgrammingServer

def transferRetryLimit : ℕ := 2

/-- Where the loop over the calls of `transfer_data` stands.  `pending` says that the call is
behind a response that announced another one. -/
inductive Client where
  | waiting (call sequence : ℕ) (request : Bytes) (attempt : ℕ) (pending : Bool)
  | returned
  | raised (e : PyError)

/-- The messages under way come oldest first. -/
structure Session (σ : Type) where
  client : Client
  requests : List Bytes := []
  responses : List Bytes := []
  server : σ

inductive Event where
  | deliver (r : Request)
  | loseRequest (k : ℕ)
  | loseResponse (k : ℕ)
  | read
  | timeout
  /-- Any other exception of the transport, and the deadline of `_expect_positive_response`. -/
  | abort (e : PyError)

def Action.response? : Action → Option Bytes
  | .send payload => some payload
  | _ => none

namespace Session

variable {σ : Type} (library? : Option UdsLibrary) (calls : List (ℕ × Bytes))

/-- Call number `call`, or the return of the loop behind the last one. -/
def startCall (call : ℕ) (l : Session σ) : Session σ :=
  match calls[call]? with
  | none => { l with client := .returned }
  | some (sequence, payload) =>
      match buildTransferData library? sequence payload with
      | .error e => { l with client := .raised e }
      | .ok request =>
          { l with
            client := .waiting call sequence request 1 false
            requests := l.requests ++ [request] }

/-- `_expect_positive_response` and the test of the sequence number behind it. -/
def finishCall (call sequence : ℕ) (request : Bytes) (attempt : ℕ) (response : Bytes)
    (l : Session σ) : Session σ :=
  match checkResponse sidTransferData response with
  | none => { l with client := .waiting call sequence request attempt true }
  | some (.error e) => { l with client := .raised e }
  | some (.ok response) =>
      if response.length < 2 ∨ (response.getD 1 0).toNat ≠ sequence &&& 0xFF then
        { l with client := .raised (.runtimeError
            ("Unexpected TransferData sequence response: " ++ Hash.hexDigest response)) }
      else l.startCall library? calls (call + 1)

/-- What the client does with a response.  On a retry a wrong block sequence counter means that
the block was accepted before. -/
def receive (response : Bytes) (l : Session σ) : Session σ :=
  match l.client with
  | .waiting call sequence request attempt pending =>
      if ¬ pending ∧ isNegativeResponse response ∧
          response.getD 2 0 = nrcWrongBlockSequenceCounter ∧ 1 < attempt then
        l.startCall library? calls (call + 1)
      else l.finishCall library? calls call sequence request attempt response
  | _ => l

/-- The request is sent again as long as an attempt is left and no response has come. -/
def expire (l : Session σ) : Session σ :=
  match l.client with
  | .waiting call sequence request attempt pending =>
      if pending ∨ transferRetryLimit ≤ attempt then
        { l with client := .raised (.timeoutError "Timed out waiting for diagnostic response") }
      else
        { l with
          client := .waiting call sequence request (attempt + 1) false
          requests := l.requests ++ [request] }
  | _ => l

/-- `none` where the event cannot happen. -/
def step? (handle : Request → σ → Outcome σ) (l : Session σ) : Event → Option (Session σ)
  | .deliver r =>
      match l.requests with
      | [] => none
      | payload :: requests =>
          if r.payload = payload then
            some { l with
              requests := requests
              responses := l.responses ++ (handle r l.server).actions.filterMap Action.response?
              server := (handle r l.server).state }
          else none
  | .loseRequest k => some { l with requests := l.requests.eraseIdx k }
  | .loseResponse k => some { l with responses := l.responses.eraseIdx k }
  | .read =>
      match l.responses with
      | [] => none
      | response :: responses => some ({ l with responses := responses }.receive library? calls response)
  | .timeout => some (l.expire)
  | .abort e =>
      match l.client with
      | .waiting .. => some { l with client := .raised e }
      | _ => none

variable [ProgrammingServer σ]

/-- The session on the server does not run out before the request is handled. -/
def Unexpired (l : Session σ) : Event → Prop
  | .deliver r => (base l.server).sessionExpired r.expiryClock = false
  | _ => True

def Reachable (handle : Request → σ → Outcome σ) (first l : Session σ) : Prop :=
  Relation.ReflTransGen
    (fun a b ↦ ∃ e, a.Unexpired e ∧ a.step? library? calls handle e = some b) first l

end Session

/-- The client calls `transfer_data` for the first block, on a server in state `s`. -/
def Session.start {σ : Type} (library? : Option UdsLibrary) (calls : List (ℕ × Bytes)) (s : σ) :
    Session σ :=
  Session.startCall library? calls 0 { client := .returned, server := s }

end VehicleOta.Uds
