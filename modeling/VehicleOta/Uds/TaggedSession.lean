import VehicleOta.Uds.Answers
import VehicleOta.Uds.Download

/-!
# Sessions with tagged messages

The client of `transfer_data`, and of the operations behind it, on a connection that loses nothing:
every message carries the call and the attempt it belongs to, which neither side can see.
-/

namespace VehicleOta.Uds

open ProgrammingServer BlockLogic

/-! ## The operations behind the calls -/

/-- An operation that sends one request and returns on its positive response, as
`request_transfer_exit`, `verify_programming`, `activate_image` and `ecu_reset` do. -/
structure ClientOperation where
  serviceId : UInt8
  request : Bytes
  head : request.head? = some serviceId

namespace Session

variable {σ : Type} (library? : Option UdsLibrary) (calls : List (ℕ × Bytes))
  (later : List ClientOperation)

/-- The operations are numbered behind the calls. -/
def operation? (number : ℕ) : Option ClientOperation :=
  if number < calls.length then none else later[number - calls.length]?

/-- Operation number `number`, or the end; it has no sequence number. -/
def startOperation (number : ℕ) (l : Session σ) : Session σ :=
  match operation? calls later number with
  | none => { l with client := .returned }
  | some operation =>
      { l with
        client := .waiting number 0 operation.request 1 false
        requests := l.requests ++ [operation.request] }

/-- Behind the last call comes the first operation. -/
def proceed (l : Session σ) : Session σ :=
  match l.client with
  | .returned => l.startOperation calls later calls.length
  | _ => l

/-- `_receive_raw_diagnostic` returns a response. -/
def readResponse (response : Bytes) (l : Session σ) : Session σ :=
  match l.client with
  | .waiting number sequence request attempt _ =>
      match operation? calls later number with
      | none => (l.receive library? calls response).proceed calls later
      | some operation =>
          match checkResponse operation.serviceId response with
          | none => { l with client := .waiting number sequence request attempt true }
          | some (.error e) => { l with client := .raised e }
          | some (.ok _) => l.startOperation calls later (number + 1)
  | _ => l

/-- `_receive_raw_diagnostic` raises `TimeoutError`, which only `transfer_data` catches. -/
def timeOut (l : Session σ) : Session σ :=
  match l.client with
  | .waiting number _ _ _ _ =>
      if number < calls.length then l.expire
      else { l with client := .raised (.timeoutError "Timed out waiting for diagnostic response") }
  | _ => l

end Session

/-! ## Tagged messages -/

/-- The number of a call or operation, from zero, and one of its attempts, from one. -/
abbrev Tag := ℕ × ℕ

/-- What the client waits for. -/
def Client.tag : Client → Tag
  | .waiting call _ _ attempt _ => (call, attempt)
  | _ => (0, 0)

/-- The client waits in one of the calls. -/
def Client.InCalls (calls : List (ℕ × Bytes)) : Client → Prop
  | .waiting call _ _ _ _ => call < calls.length
  | _ => False

theorem Client.InCalls.waiting {calls : List (ℕ × Bytes)} {client : Client}
    (h : client.InCalls calls) : ∃ call sequence request attempt pending,
      client = .waiting call sequence request attempt pending ∧ call < calls.length := by
  cases client with
  | waiting call sequence request attempt pending => exact ⟨_, _, _, _, _, rfl, h⟩
  | returned => cases h
  | raised e => cases h

/-- A session with its messages tagged; `sent` collects the tags of all requests, `consumed` the
responses with the call or operation that took them. -/
structure Tagged (σ : Type) where
  client : Client
  requests : List (Tag × Bytes) := []
  responses : List (Tag × Bytes) := []
  sent : List Tag := []
  consumed : List (ℕ × Tag × Bytes) := []
  server : σ

namespace Tagged

variable {σ : Type}

def session (t : Tagged σ) : Session σ where
  client := t.client
  requests := t.requests.map Prod.snd
  responses := t.responses.map Prod.snd
  server := t.server

/-- The client goes where `l` has it; the requests it adds are for what it now waits for. -/
def adopt (t : Tagged σ) (l : Session σ) : Tagged σ :=
  let added := (l.requests.drop t.requests.length).map fun payload ↦ (l.client.tag, payload)
  { t with
    client := l.client
    requests := t.requests ++ added
    sent := t.sent ++ added.map Prod.fst }

variable (library? : Option UdsLibrary) (calls : List (ℕ × Bytes)) (later : List ClientOperation)

def start (s : σ) : Tagged σ :=
  adopt { client := .returned, server := s } ((Session.start library? calls s).proceed calls later)

/-- Nothing is lost, and only a waiting client reads. -/
def step? (handle : Request → σ → Outcome σ) (t : Tagged σ) : Event → Option (Tagged σ)
  | .deliver r =>
      match t.requests with
      | [] => none
      | (tag, payload) :: requests =>
          if r.payload = payload then
            some { t with
              requests
              responses := t.responses ++ (handle r t.server).responses.map fun p ↦ (tag, p)
              server := (handle r t.server).state }
          else none
  | .read =>
      match t.client, t.responses with
      | .waiting call _ _ _ _, (tag, response) :: responses =>
          some { t.adopt (t.session.readResponse library? calls later response) with
            responses
            consumed := t.consumed ++ [(call, tag, response)] }
      | _, _ => none
  | .timeout =>
      match t.client with
      | .waiting .. => some (t.adopt (t.session.timeOut calls))
      | _ => none
  | _ => none

def run? (handle : Request → σ → Outcome σ) (t : Tagged σ) (events : List Event) :
    Option (Tagged σ) :=
  events.foldlM (step? library? calls later handle) t

/-- Every response was for the call or operation that consumed it. -/
def Matched (t : Tagged σ) : Prop := ∀ x ∈ t.consumed, x.2.1.1 = x.1

/-- The block was sent again: the first response to it was late. -/
def Resent (t : Tagged σ) (call : ℕ) : Prop := (call, 2) ∈ t.sent

/-- An exception of a run with a late block is the server's refusal of this block, in the answer to
its first request. -/
def Harmless (t : Tagged σ) : Prop :=
  ∀ e, t.client = .raised e → ∀ call, t.Resent call →
    ∃ response, t.consumed.getLast? = some (call, (call, 1), response) ∧
      checkResponse sidTransferData response = some (.error e)

/-- Nothing before the present call or operation was sent again. -/
def NoneResent (t : Tagged σ) : Prop := ∀ call < t.client.tag.1, ¬ t.Resent call

/-- No attempt is left for what the client waits for. -/
def LastAttempt (t : Tagged σ) : Prop :=
  match t.client with
  | .waiting number _ _ attempt pending =>
      calls.length ≤ number ∨ pending = true ∨ transferRetryLimit ≤ attempt
  | _ => False

/-- Nothing is read behind a block that was sent again, and no last attempt times out once a block
was sent again. -/
def Timely (t : Tagged σ) : Event → Prop
  | .read => t.NoneResent
  | .timeout => t.LastAttempt calls → ∀ call, ¬ t.Resent call
  | _ => True

def InTime (handle : Request → σ → Outcome σ) (t : Tagged σ) (events : List Event) : Prop :=
  ∀ before e after u, events = before ++ e :: after →
    run? library? calls later handle t before = some u → u.Timely calls e

end Tagged

/-! ## The server -/

/-- The answers of the server to the request for block number `call`. -/
def AnswersBlock (call : ℕ) (response : Bytes) : Prop :=
  response = [positiveResponseSid sidTransferData, UInt8.ofNat ((call + 1) % 256)] ∨
    ∃ code, code ≠ nrcResponsePending ∧ response = [sidNegativeResponse, sidTransferData, code]

/-- Every request for a block has one answer, whatever state the server is in. -/
theorem ECUContext.responses_handle_block {blockLength c call : ℕ} {firmware : Bytes} {r : Request}
    (hpayload : r.payload = blockRequest c firmware call) (ecu : ECUContext) :
    ∃ response, (handle blockLength r ecu).actions.filterMap Action.response? = [response] ∧
      AnswersBlock call response := by
  have hhead : r.payload.head? = some sidTransferData := by
    rw [hpayload]
    rfl
  have hnumber : r.payload.getD 1 0 = UInt8.ofNat ((call + 1) % 256) := by
    rw [hpayload]
    rfl
  have hrefused (code : UInt8) (hcode : code ≠ nrcResponsePending) (ecu : ECUContext) :
      ∃ response, (negative sidTransferData code ecu).actions.filterMap Action.response? =
        [response] ∧ AnswersBlock call response :=
    ⟨_, rfl, .inr ⟨code, hcode, rfl⟩⟩
  have hserve : handle blockLength r ecu = transferData r ecu := handle_of_head hhead
  rw [hserve, transferData]
  unfold requireProgrammingSession
  rcases expireSessionIfNeeded_cases r ecu with ⟨-, he⟩ | ⟨-, he⟩
  · simp only [he]
    split_ifs
    · exact hrefused _ (by decide) _
    · exact hrefused _ (by decide) _
    · unfold receiveBlock
      dsimp only
      split_ifs
      · exact hrefused _ (by decide) _
      · exact hrefused _ (by decide) _
      · exact ⟨_, rfl, .inl (by rw [hnumber])⟩
    · exact hrefused _ (by decide) _
  · simp only [he]
    rw [if_pos (by rw [currentSession_expired]; decide)]
    exact ⟨_, rfl, .inr ⟨_, by decide, rfl⟩⟩

/-! ## The client -/

section Client

variable {σ : Type} {library? : Option UdsLibrary} {firmware : Bytes} {c call attempt : ℕ}
  {l : Session σ}

theorem Session.startCall_of_lt (hlibrary : DocumentedLibrary library?)
    (hcall : call < blockCount c firmware) :
    l.startCall library? (FlashManager.transferData c firmware) call =
      { l with
        client := .waiting call ((call + 1) % 256) (blockRequest c firmware call) 1 false
        requests := l.requests ++ [blockRequest c firmware call] } := by
  unfold Session.startCall
  rw [FlashManager.transferData_eq, List.getElem?_map, List.getElem?_range hcall, Option.map_some]
  dsimp only
  rw [buildTransferData_eq hlibrary (Nat.mod_lt _ (by decide))]
  rfl

theorem Session.startCall_of_ge (hcall : blockCount c firmware ≤ call) :
    l.startCall library? (FlashManager.transferData c firmware) call =
      { l with client := .returned } := by
  unfold Session.startCall
  rw [FlashManager.transferData_eq, List.getElem?_map,
    List.getElem?_eq_none (by rw [List.length_range]; exact hcall), Option.map_none]

/-- What the client makes of an answer to the request it waits for: the next call, or an
exception that is the refusal in the answer. -/
theorem Session.receive_answer {response : Bytes} (hanswer : AnswersBlock call response)
    (hclient : l.client =
      .waiting call ((call + 1) % 256) (blockRequest c firmware call) attempt false) :
    l.receive library? (FlashManager.transferData c firmware) response =
        l.startCall library? (FlashManager.transferData c firmware) (call + 1) ∨
      ∃ e, l.receive library? (FlashManager.transferData c firmware) response =
        { l with client := .raised e } ∧ checkResponse sidTransferData response = some (.error e) := by
  unfold Session.receive
  rw [hclient]
  dsimp only
  split
  · exact .inl rfl
  rcases hanswer with rfl | ⟨code, hcode, rfl⟩
  · left
    have hsequence : (UInt8.ofNat ((call + 1) % 256)).toNat = (call + 1) % 256 &&& 0xFF := by
      rw [UInt8.toNat_ofNat', show (call + 1) % 256 &&& 0xFF = (call + 1) % 256 % 256 from
        Nat.and_two_pow_sub_one_eq_mod _ 8]
    unfold Session.finishCall
    rw [checkResponse_positive (by decide)]
    dsimp only
    rw [if_neg]
    rw [not_or]
    exact ⟨by simp, not_not.mpr hsequence⟩
  · right
    have hpending : isResponsePending [sidNegativeResponse, sidTransferData, code] sidTransferData =
        false := by
      simp [isResponsePending, hcode]
    have hrefusal : ∃ e, checkResponse sidTransferData
        [sidNegativeResponse, sidTransferData, code] = some (.error e) := by
      rw [checkResponse, hpending]
      exact ⟨_, rfl⟩
    obtain ⟨e, hrefusal⟩ := hrefusal
    refine ⟨e, ?_, hrefusal⟩
    rw [Session.finishCall, hrefusal]

end Client

/-! ## The operations behind the calls -/

section Operations

variable {σ : Type} {library? : Option UdsLibrary} {firmware : Bytes} {c call attempt : ℕ}
  {later : List ClientOperation} {l : Session σ}

theorem length_transferData (c : ℕ) (firmware : Bytes) :
    (FlashManager.transferData c firmware).length = blockCount c firmware := by
  rw [FlashManager.transferData_eq, List.length_map, List.length_range]

theorem Session.operation?_of_lt (hcall : call < blockCount c firmware) :
    operation? (FlashManager.transferData c firmware) later call = none := by
  rw [operation?, length_transferData, if_pos hcall]

theorem Session.le_of_operation? {operation : ClientOperation}
    (h : operation? (FlashManager.transferData c firmware) later call = some operation) :
    blockCount c firmware ≤ call := by
  by_contra hlt
  rw [operation?_of_lt (not_le.mp hlt)] at h
  cases h

theorem Session.proceed_of_returned (calls : List (ℕ × Bytes)) :
    ({ l with client := .returned } : Session σ).proceed calls later =
      l.startOperation calls later calls.length := by
  unfold Session.proceed Session.startOperation
  dsimp only

theorem Session.readResponse_of_block {response : Bytes} {sequence : ℕ} {request : Bytes}
    {pending : Bool} (hcall : call < blockCount c firmware)
    (hclient : l.client = .waiting call sequence request attempt pending) :
    l.readResponse library? (FlashManager.transferData c firmware) later response =
      (l.receive library? (FlashManager.transferData c firmware) response).proceed
        (FlashManager.transferData c firmware) later := by
  unfold Session.readResponse
  rw [hclient]
  dsimp only
  rw [operation?_of_lt hcall]

end Operations

namespace Tagged

section Moves

variable {σ : Type} {library? : Option UdsLibrary} {call attempt : ℕ}
  {later : List ClientOperation} {t t' : Tagged σ}

/-! ## Moves of the client -/

theorem adopt_of_same {l : Session σ} (h : l.requests = t.session.requests) :
    t.adopt l = { t with client := l.client } := by
  have hlength : l.requests.length = t.requests.length := by
    rw [h]
    exact List.length_map _
  unfold adopt
  rw [← hlength, List.drop_length]
  simp

theorem adopt_of_sent {l : Session σ} {payload : Bytes}
    (h : l.requests = t.session.requests ++ [payload]) :
    t.adopt l = { t with
      client := l.client
      requests := t.requests ++ [(l.client.tag, payload)]
      sent := t.sent ++ [l.client.tag] } := by
  have hadded : l.requests.drop t.requests.length = [payload] := by
    have hlength : t.session.requests.length = t.requests.length := List.length_map _
    rw [h, ← hlength, List.drop_left]
  unfold adopt
  rw [hadded]
  rfl

/-- A move of the client that adds requests behind those under way and leaves the rest alone. -/
structure Extends (l l' : Session σ) : Prop where
  requests : l.requests <+: l'.requests
  responses : l'.responses = l.responses
  server : l'.server = l.server

theorem extends_startCall {calls : List (ℕ × Bytes)} {l : Session σ} (call : ℕ) :
    Extends l (l.startCall library? calls call) := by
  unfold Session.startCall
  split
  · exact ⟨List.prefix_refl _, rfl, rfl⟩
  · split
    · exact ⟨List.prefix_refl _, rfl, rfl⟩
    · exact ⟨List.prefix_append _ _, rfl, rfl⟩

theorem extends_receive {calls : List (ℕ × Bytes)} {l : Session σ} (response : Bytes) :
    Extends l (l.receive library? calls response) := by
  unfold Session.receive
  split
  · split
    · exact extends_startCall _
    · unfold Session.finishCall
      split
      · exact ⟨List.prefix_refl _, rfl, rfl⟩
      · exact ⟨List.prefix_refl _, rfl, rfl⟩
      · split
        · exact ⟨List.prefix_refl _, rfl, rfl⟩
        · exact extends_startCall _
  · exact ⟨List.prefix_refl _, rfl, rfl⟩

/-- The client does not look at the responses behind the one it reads. -/
theorem receive_withResponses {calls : List (ℕ × Bytes)} (l : Session σ) (responses : List Bytes)
    (response : Bytes) :
    ({ l with responses := responses } : Session σ).receive library? calls response =
      { l.receive library? calls response with responses := responses } := by
  have hstart (call : ℕ) : ({ l with responses := responses } : Session σ).startCall library? calls
      call = { l.startCall library? calls call with responses := responses } := by
    unfold Session.startCall
    split
    · rfl
    · split
      · rfl
      · rfl
  unfold Session.receive
  dsimp only
  split
  · split
    · exact hstart _
    · unfold Session.finishCall
      split
      · rfl
      · rfl
      · split
        · rfl
        · exact hstart _
  · rfl

theorem Extends.trans {l l' l'' : Session σ} (h : Extends l l') (h' : Extends l' l'') :
    Extends l l'' :=
  ⟨h.requests.trans h'.requests, h'.responses.trans h.responses, h'.server.trans h.server⟩

theorem extends_startOperation {calls : List (ℕ × Bytes)} {l : Session σ} (number : ℕ) :
    Extends l (l.startOperation calls later number) := by
  unfold Session.startOperation
  split
  · exact ⟨List.prefix_refl _, rfl, rfl⟩
  · exact ⟨List.prefix_append _ _, rfl, rfl⟩

theorem extends_proceed {calls : List (ℕ × Bytes)} {l : Session σ} :
    Extends l (l.proceed calls later) := by
  unfold Session.proceed
  split
  · exact extends_startOperation _
  · exact ⟨List.prefix_refl _, rfl, rfl⟩

theorem extends_expire {l : Session σ} : Extends l l.expire := by
  unfold Session.expire
  split
  · split
    · exact ⟨List.prefix_refl _, rfl, rfl⟩
    · exact ⟨List.prefix_append _ _, rfl, rfl⟩
  · exact ⟨List.prefix_refl _, rfl, rfl⟩

theorem session_adopt {l : Session σ} (h : Extends t.session l) : (t.adopt l).session = l := by
  obtain ⟨added, hadded⟩ := h.requests
  have hlength : t.session.requests.length = t.requests.length := List.length_map _
  have hrequests : (t.adopt l).session.requests = l.requests := by
    have hdrop : l.requests.drop t.requests.length = added := by
      rw [← hadded, ← hlength, List.drop_left]
    simp only [session, adopt, List.map_append, List.map_map, hdrop]
    rw [← hadded]
    simp [session, Function.comp_def]
  cases l with
  | mk client requests responses server =>
      exact (Session.mk.injEq _ _ _ _ _ _ _ _).mpr
        ⟨rfl, hrequests, h.responses.symm, h.server.symm⟩

theorem proceed_withResponses {calls : List (ℕ × Bytes)} (l : Session σ) (responses : List Bytes) :
    ({ l with responses := responses } : Session σ).proceed calls later =
      { l.proceed calls later with responses := responses } := by
  unfold Session.proceed Session.startOperation
  dsimp only
  split
  · split
    · rfl
    · rfl
  · rfl

/-! ## Runs in the calls -/

section Runs

variable {calls : List (ℕ × Bytes)} {handle : Request → σ → Outcome σ} {l : Session σ} {r : Request}
  {e : Event} {response : Bytes}

theorem inCalls_of_startCall (h : (l.startCall library? calls call).client.InCalls calls) :
    call < calls.length := by
  unfold Session.startCall at h
  split at h
  · cases h
  · rename_i hsome
    exact (List.getElem?_eq_some_iff.mp hsome).1

theorem inCalls_of_receive (h : (l.receive library? calls response).client.InCalls calls) :
    l.client.InCalls calls := by
  unfold Session.receive at h
  split at h
  · rename_i hclient
    rw [hclient]
    split at h
    · exact Nat.lt_of_succ_lt (inCalls_of_startCall h)
    · unfold Session.finishCall at h
      split at h
      · exact h
      · cases h
      · split at h
        · cases h
        · exact Nat.lt_of_succ_lt (inCalls_of_startCall h)
  · exact h

theorem not_inCalls_startOperation (number : ℕ) :
    ¬ (l.startOperation calls later number).client.InCalls calls := by
  unfold Session.startOperation Session.operation?
  intro h
  split at h
  · cases h
  · rename_i hsome
    split_ifs at hsome with hlt
    exact hlt h

/-- The operations come behind all calls. -/
theorem proceed_of_inCalls (h : (l.proceed calls later).client.InCalls calls) :
    l.proceed calls later = l := by
  unfold Session.proceed at h ⊢
  split
  · rename_i hclient
    rw [hclient] at h
    exact absurd h (not_inCalls_startOperation _)
  · rfl

theorem inCalls_of_readResponse
    (h : (l.readResponse library? calls later response).client.InCalls calls) :
    l.client.InCalls calls := by
  unfold Session.readResponse at h
  split at h
  · rename_i number sequence request attempt pending hclient
    rw [hclient]
    split at h
    · rw [proceed_of_inCalls h] at h
      have hbefore := inCalls_of_receive h
      rwa [hclient] at hbefore
    · split at h
      · exact h
      · cases h
      · exact absurd h (not_inCalls_startOperation _)
  · exact h

theorem inCalls_of_timeOut (h : (l.timeOut calls).client.InCalls calls) :
    l.client.InCalls calls := by
  unfold Session.timeOut at h
  split at h
  · rename_i number sequence request attempt pending hclient
    rw [hclient]
    split at h
    · assumption
    · cases h
  · exact h

theorem session_deliver (hstep : t.step? library? calls later handle (.deliver r) = some t') :
    t.session.step? library? calls handle (.deliver r) = some t'.session ∧ t'.client = t.client := by
  unfold step? at hstep
  dsimp only at hstep
  split at hstep
  · cases hstep
  · rename_i tag payload requests hrequests
    split at hstep
    · rename_i hpayload
      obtain rfl := Option.some.inj hstep
      have hmessages : t.session.requests = payload :: requests.map Prod.snd := by
        rw [session, hrequests]
        rfl
      unfold Session.step?
      dsimp only
      rw [hmessages]
      dsimp only
      rw [if_pos hpayload]
      simp [session, Function.comp_def, Outcome.responses]
    · cases hstep

theorem session_read (h : t.client.InCalls calls)
    (hstep : t.step? library? calls later handle .read = some t') :
    ∃ l, t.session.step? library? calls handle .read = some l ∧
      t'.session = l.proceed calls later := by
  obtain ⟨call, sequence, request, attempt, pending, hclient, hcall⟩ := h.waiting
  have hoperation : Session.operation? calls later call = none := if_pos hcall
  have hsession : t.session.client = .waiting call sequence request attempt pending := hclient
  unfold step? at hstep
  dsimp only at hstep
  split at hstep
  · rename_i number _ _ _ _ tag response responses hwaiting hresponses
    obtain rfl := Option.some.inj hstep
    have hmessages : t.session.responses = response :: responses.map Prod.snd := by
      rw [session, hresponses]
      rfl
    have hread : t.session.readResponse library? calls later response =
        (t.session.receive library? calls response).proceed calls later := by
      rw [Session.readResponse, hsession]
      dsimp only
      rw [hoperation]
    have hadopted : (t.adopt (t.session.readResponse library? calls later response)).session =
        (t.session.receive library? calls response).proceed calls later := by
      rw [hread]
      exact session_adopt ((extends_receive response).trans extends_proceed)
    unfold Session.step?
    dsimp only
    rw [hmessages]
    refine ⟨_, rfl, ?_⟩
    rw [receive_withResponses, proceed_withResponses, ← hadopted]
    rfl
  · cases hstep

theorem session_timeout (h : t.client.InCalls calls)
    (hstep : t.step? library? calls later handle .timeout = some t') :
    t.session.step? library? calls handle .timeout = some t'.session := by
  obtain ⟨call, sequence, request, attempt, pending, hclient, hcall⟩ := h.waiting
  have hsession : t.session.client = .waiting call sequence request attempt pending := hclient
  rw [step?, hclient] at hstep
  obtain rfl := Option.some.inj hstep
  have htimeOut : t.session.timeOut calls = t.session.expire := by
    rw [Session.timeOut, hsession]
    exact if_pos hcall
  rw [htimeOut, session_adopt extends_expire]
  rfl

/-- Where a step leads into a call, the client was in a call before. -/
theorem inCalls_of_step (hstep : t.step? library? calls later handle e = some t')
    (h : t'.client.InCalls calls) : t.client.InCalls calls := by
  cases e with
  | deliver r =>
      obtain ⟨-, hclient⟩ := session_deliver hstep
      rwa [← hclient]
  | read =>
      unfold step? at hstep
      dsimp only at hstep
      split at hstep
      · obtain rfl := Option.some.inj hstep
        exact inCalls_of_readResponse h
      · cases hstep
  | timeout =>
      unfold step? at hstep
      dsimp only at hstep
      split at hstep
      · obtain rfl := Option.some.inj hstep
        exact inCalls_of_timeOut h
      · cases hstep
  | loseRequest k => cases hstep
  | loseResponse k => cases hstep
  | abort e => cases hstep

/-- In the calls, and without the tags, a step is one of the session. -/
theorem session_step (hstep : t.step? library? calls later handle e = some t')
    (h : t'.client.InCalls calls) :
    t.session.step? library? calls handle e = some t'.session := by
  have hbefore : t.client.InCalls calls := inCalls_of_step hstep h
  cases e with
  | deliver r => exact (session_deliver hstep).1
  | read =>
      obtain ⟨l, hl, hproceed⟩ := session_read hbefore hstep
      have hend : (l.proceed calls later).client.InCalls calls := by
        rw [← hproceed]
        exact h
      rw [hl, hproceed, proceed_of_inCalls hend]
  | timeout => exact session_timeout hbefore hstep
  | loseRequest k => cases hstep
  | loseResponse k => cases hstep
  | abort e => cases hstep

theorem run?_concat_eq_some {events : List Event} :
    run? library? calls later handle t (events ++ [e]) = some t' ↔
      ∃ u, run? library? calls later handle t events = some u ∧
        u.step? library? calls later handle e = some t' := by
  rw [run?, List.foldlM_append]
  simp [run?, Option.bind_eq_some_iff]

/-- As long as the client is in the calls, a run without its tags is a run of the session. -/
theorem session_run (s : σ) {events : List Event}
    (hrun : run? library? calls later handle (start library? calls later s) events = some t)
    (h : t.client.InCalls calls) :
    events.foldlM (Session.step? library? calls handle) (Session.start library? calls s) =
      some t.session := by
  induction events using List.reverseRecOn generalizing t with
  | nil =>
      obtain rfl := Option.some.inj hrun
      have hstart : (start library? calls later s).session =
          (Session.start library? calls s).proceed calls later :=
        session_adopt ((extends_startCall 0).trans extends_proceed)
      have hend : ((Session.start library? calls s).proceed calls later).client.InCalls calls := by
        rw [← hstart]
        exact h
      rw [hstart, proceed_of_inCalls hend]
      rfl
  | append_singleton events e ih =>
      obtain ⟨u, hbefore, hstep⟩ := run?_concat_eq_some.mp hrun
      have hsession := ih hbefore (inCalls_of_step hstep h)
      rw [List.foldlM_append, hsession]
      simp [session_step hstep h]

end Runs

end Moves

end Tagged

end VehicleOta.Uds
