import VehicleOta.Uds.Answers
import VehicleOta.Zones.ZoneController

/-!
# The answer behind the gateway

`ZoneController.forward_uds` and `DoIPServer._forward_uds_over_can` read the frames that the ECU
sends while it handles the request, with the flow control for the request in between.
-/

namespace VehicleOta.Uds

open Can

/-! ## Waiting -/

/-- The receive loop on the frames with the id of the ECU; behind the last one only the deadline
is left. -/
def waitForResponses (requester : Requester) (requestSid : UInt8) :
    List Bytes → ResponseLoop → Except PyError (List Bytes)
  | [], _ => .error (.timeoutError "Timed out waiting for response")
  | frame :: frames, loop =>
      let loop := requester.receive requestSid frame loop
      match loop.returned with
      | some responses => .ok responses
      | none => waitForResponses requester requestSid frames loop

def isFlowControl (frame : Bytes) : Bool :=
  match frame with
  | [] => false
  | pci :: _ => frameType pci = 0x3

/-- What `IsoTpAdapter.send` puts on the bus for the responses, up to its first wait. -/
def Outcome.frames {σ : Type} (o : Outcome σ) : List Bytes :=
  o.responses.filterMap fun payload ↦ (startSend payload).1

section Loop

variable {requester : Requester} {requestSid : UInt8} {frame : Bytes} {loop : ResponseLoop}

theorem receive_flowControl (h : isFlowControl frame = true) :
    requester.receive requestSid frame loop = loop := by
  cases frame with
  | nil => cases h
  | cons pci rest =>
      have htype : frameType pci = 0x3 := of_decide_eq_true h
      have hfeed : loop.reassembler.feed (pci :: rest) = (loop.reassembler, none) := by
        simp [IsoTpReassembler.feed, htype]
      rw [requester.receive_eq, receiveResponse, hfeed]

/-- Flow control does not matter to the loop. -/
theorem waitForResponses_filter (frames : List Bytes) (hreturned : loop.returned = none) :
    waitForResponses requester requestSid frames loop =
      waitForResponses requester requestSid (frames.filter (!isFlowControl ·)) loop := by
  induction frames generalizing loop with
  | nil => rfl
  | cons frame frames ih =>
      rw [List.filter_cons]
      cases hflow : isFlowControl frame with
      | true =>
          rw [waitForResponses, receive_flowControl hflow, hreturned]
          exact ih hreturned
      | false =>
          simp only [Bool.not_false, if_true]
          rw [waitForResponses, waitForResponses]
          cases hnext : (requester.receive requestSid frame loop).returned with
          | some responses => rfl
          | none => exact ih hnext

/-- A response in a single frame, at a loop between two messages. -/
theorem receive_singleFrame (requester : Requester) {payload : Bytes}
    (hframe : singleFrame payload = .ok frame)
    (hpos : 0 < payload.length) (hresponse : isResponseForRequest payload requestSid = true)
    (responses : List Bytes) :
    requester.receive requestSid frame { reassembler := {}, responses } =
      if requester.keepsWaiting requestSid payload then
        { reassembler := {}, responses := responses ++ [payload] }
      else
        { reassembler := {}, responses := responses ++ [payload]
          returned := some (responses ++ [payload]) } := by
  have hfeed := feed_singleFrame hframe hpos [] {}
  rw [List.append_nil] at hfeed
  rw [requester.receive_eq, receiveResponse, hfeed]
  dsimp only
  rw [if_neg (not_not.mpr hresponse)]
  rfl

end Loop

/-! ## One request -/

section Answer

variable {σ : Type} {o : Outcome σ} {serviceId : UInt8} {requester : Requester} {frames : List Bytes}
  {final : Bytes}

/-- `forward_uds` and `_forward_uds_over_can` read on behind a response pending only. -/
def Requester.Forwards (requester : Requester) (serviceId : UInt8) : Prop :=
  ∀ payload, requester.keepsWaiting serviceId payload = isResponsePending payload serviceId

theorem accepted_pending (serviceId : UInt8) :
    isResponseForRequest [sidNegativeResponse, serviceId, nrcResponsePending] serviceId = true := by
  simp [isResponseForRequest, isNegativeResponse]

theorem isResponsePending_pending (serviceId : UInt8) :
    isResponsePending [sidNegativeResponse, serviceId, nrcResponsePending] serviceId = true := by
  simp [isResponsePending, isNegativeResponse]

theorem pos_of_accepted {payload : Bytes} (h : isResponseForRequest payload serviceId = true) :
    0 < payload.length := by
  cases payload with
  | nil => cases h
  | cons _ _ => exact Nat.succ_pos _

/-- The final response ends the loop. -/
theorem waitForResponses_final {frame : Bytes} (hframe : singleFrame final = .ok frame)
    (h : FinalResponse serviceId final) (hforwards : Requester.Forwards requester serviceId)
    (responses : List Bytes) :
    waitForResponses requester serviceId [frame] { reassembler := {}, responses } =
      .ok (responses ++ [final]) := by
  have hreceive := receive_singleFrame requester hframe (pos_of_accepted h.accepted) h.accepted
    responses
  rw [hforwards, h.notPending] at hreceive
  rw [waitForResponses, hreceive]
  rfl

/-- A response pending in front of it is kept. -/
theorem waitForResponses_pending {frame : Bytes} {later : List Bytes}
    (hframe : singleFrame [sidNegativeResponse, serviceId, nrcResponsePending] = .ok frame)
    (hforwards : Requester.Forwards requester serviceId) :
    waitForResponses requester serviceId (frame :: later) { reassembler := {} } =
      waitForResponses requester serviceId later
        { reassembler := {}
          responses := [[sidNegativeResponse, serviceId, nrcResponsePending]] } := by
  have hreceive := receive_singleFrame requester hframe (Nat.succ_pos _)
    (accepted_pending serviceId) []
  rw [hforwards, isResponsePending_pending] at hreceive
  rw [waitForResponses, hreceive]
  rfl

theorem waitForResponses_answered {pending : List Bytes} (hresponses : o.responses = pending ++ [final])
    (hpending : pending = [] ∨ pending = [[sidNegativeResponse, serviceId, nrcResponsePending]])
    (hfinal : FinalResponse serviceId final) (hforwards : Requester.Forwards requester serviceId)
    (hshort : ∀ payload ∈ o.responses, payload.length ≤ sfMaxPayload)
    (hframes : frames.filter (!isFlowControl ·) = o.frames) :
    waitForResponses requester serviceId frames { reassembler := {} } = .ok (pending ++ [final]) := by
  rw [hresponses] at hshort
  obtain ⟨frame, hframe, hstart⟩ := startSend_of_short
    (hshort final (List.mem_append_right pending (List.mem_singleton_self final)))
  rw [waitForResponses_filter frames rfl, hframes, Outcome.frames, hresponses]
  rcases hpending with rfl | rfl
  · simp only [List.nil_append, List.filterMap_cons, List.filterMap_nil, hstart]
    exact waitForResponses_final hframe hfinal hforwards []
  · obtain ⟨first, hfirst, hstart'⟩ := startSend_of_short
      (hshort [sidNegativeResponse, serviceId, nrcResponsePending] List.mem_cons_self)
    simp only [List.singleton_append, List.filterMap_cons, List.filterMap_nil, hstart, hstart']
    rw [waitForResponses_pending hfirst hforwards]
    exact waitForResponses_final hframe hfinal hforwards _

end Answer

/-- Every request gets one final answer behind at most one response pending, and where the
responses fit single frames, the gateway gets these and nothing else. -/
theorem request_answered_once (p : UDSCanProgrammer) (r : Request) (serviceId : UInt8)
    (hhead : r.payload.head? = some serviceId) (hr : r.Readable) (hkey : r.security.Usable) :
    let o := p.handleUds r
    ∃ pending final, o.error = none ∧ o.responses = pending ++ [final] ∧
      (pending = [] ∨ pending = [[sidNegativeResponse, serviceId, nrcResponsePending]]) ∧
      isResponsePending final serviceId = false ∧ isResponseForRequest final serviceId = true ∧
      ((∀ payload ∈ o.responses, payload.length ≤ sfMaxPayload) →
        ∀ frames, frames.filter (!isFlowControl ·) = o.frames →
          (∀ (c : ZoneController) (now : ℚ) (logicalAddress : ℤ) (ecu : VehicleTopology.EcuInfo),
            c.enforce now logicalAddress r.payload = .ok ecu →
            c.forwardUds now (fun _ _ ↦ waitForResponses .zoneController serviceId frames
              { reassembler := {} }) logicalAddress r.payload = .ok (pending ++ [final])) ∧
          waitForResponses .doipServer serviceId frames { reassembler := {} } =
            .ok (pending ++ [final])) := by
  intro o
  have hanswered : Answered serviceId o := UDSCanProgrammer.answered_handleUds hhead hr hkey
  obtain ⟨pending, final, hresponses, hpending, hfinal⟩ := hanswered.responses
  refine ⟨pending, final, hanswered.error, hresponses, hpending, hfinal.notPending, hfinal.accepted,
    fun hshort frames hframes ↦ ⟨fun c now logicalAddress ecu henforce ↦ ?_, ?_⟩⟩
  · rw [ZoneController.forwardUds, henforce]
    exact waitForResponses_answered hresponses hpending hfinal (fun _ ↦ rfl) hshort hframes
  · exact waitForResponses_answered hresponses hpending hfinal (fun _ ↦ rfl) hshort hframes

def unlockedBcm : UDSCanProgrammer where
  ecuId := 0x202
  ecuKey := "bcm"
  firmwareFile := "bcm_v2.bin"
  targetVersion := "2.0.0"
  base := { currentSession := defaultSessionProgramming, securityUnlocked := true }

def eraseRequest : Request :=
  { payload := [sidRoutineControl, 0x01, 0xFF, 0x00, 0, 0, 0, 2], original := .ok [] }

/-- An erase in an unlocked session: a response pending, a flow control frame and the answer. -/
theorem request_answered_once_erase :
    waitForResponses .doipServer sidRoutineControl
      [[0x03, 0x7F, 0x31, 0x78], [0x30, 0, 0], [0x04, 0x71, 0x01, 0xFF, 0x00]] { reassembler := {} } =
        .ok [[0x7F, 0x31, 0x78], [0x71, 0x01, 0xFF, 0x00]] := by
  obtain ⟨pending, final, -, hresponses, -, -, -, h⟩ := request_answered_once unlockedBcm eraseRequest
    sidRoutineControl rfl ⟨⟨[], rfl⟩, ⟨"1.0.0", rfl⟩⟩
    fun seed ↦ ⟨deriveDemoSecurityKey seed, if_neg (by decide)⟩
  have hsent : (unlockedBcm.handleUds eraseRequest).responses =
    [[0x7F, 0x31, 0x78], [0x71, 0x01, 0xFF, 0x00]] := by decide
  rw [← hsent, hresponses]
  refine (h ?_ _ ?_).2
  · rw [hsent]
    decide
  · decide

end VehicleOta.Uds
