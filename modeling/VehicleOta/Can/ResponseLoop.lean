import VehicleOta.Can.FlowControl
import VehicleOta.Uds.FlashManager

/-!
# Waiting for a response on the bus

The receive loops of `ZoneController.forward_uds`, `DoIPServer._forward_uds_over_can` and
`CANSender._receive_uds_response`, each against the `IsoTpAdapter.send` of the ECU that answers.
-/

namespace VehicleOta.Can

open Uds

/-! ## The receive loops -/

/-- `_is_response_for_request` -/
def isResponseForRequest (payload : Bytes) (requestSid : UInt8) : Bool :=
  match payload with
  | [] => false
  | head :: _ =>
      head = positiveResponseSid requestSid ∨
        (isNegativeResponse payload ∧ payload.getD 1 0 = requestSid)

/-- The reassembler of the loop, the responses so far, and what the loop has returned. -/
structure ResponseLoop where
  reassembler : IsoTpReassembler
  responses : List Bytes := []
  returned : Option (List Bytes) := none

/-- A frame with the arbitration id of the ECU; frames with other ids are skipped in front of
`feed`.  The flow control that `feed` leaves behind is not popped. -/
def receiveResponse (keepsWaiting : Bytes → Bool) (requestSid : UInt8) (frame : Bytes)
    (loop : ResponseLoop) : ResponseLoop :=
  match loop.reassembler.feed frame with
  | (reassembler, none) => { loop with reassembler }
  | (reassembler, some assembled) =>
      if ¬ isResponseForRequest assembled requestSid then { loop with reassembler }
      else if keepsWaiting assembled then
        { loop with reassembler, responses := loop.responses ++ [assembled] }
      else
        { loop with
          reassembler
          responses := loop.responses ++ [assembled]
          returned := some (loop.responses ++ [assembled]) }

/-- The three loops. -/
inductive Requester where
  | zoneController
  | doipServer
  | canSender
  deriving DecidableEq

/-- The loop of `ZoneController.forward_uds` -/
def forwardUdsLoop (requestSid : UInt8) (frame : Bytes) : ResponseLoop → ResponseLoop :=
  receiveResponse (isResponsePending · requestSid) requestSid frame

/-- The loop of `DoIPServer._forward_uds_over_can` -/
def forwardUdsOverCanLoop (requestSid : UInt8) (frame : Bytes) : ResponseLoop → ResponseLoop :=
  receiveResponse (isResponsePending · requestSid) requestSid frame

/-- The loop of `CANSender._receive_uds_response`, which returns the first response. -/
def receiveUdsResponseLoop (requestSid : UInt8) (frame : Bytes) : ResponseLoop → ResponseLoop :=
  receiveResponse (fun _ ↦ false) requestSid frame

def Requester.receive : Requester → UInt8 → Bytes → ResponseLoop → ResponseLoop
  | .zoneController => forwardUdsLoop
  | .doipServer => forwardUdsOverCanLoop
  | .canSender => receiveUdsResponseLoop

/-- The loop goes on behind a complete response. -/
def Requester.keepsWaiting (requester : Requester) (requestSid : UInt8) (payload : Bytes) : Bool :=
  match requester with
  | .canSender => false
  | _ => isResponsePending payload requestSid

theorem Requester.receive_eq (requester : Requester) (requestSid : UInt8) (frame : Bytes) :
    requester.receive requestSid frame =
      receiveResponse (requester.keepsWaiting requestSid) requestSid frame := by
  cases requester with
  | zoneController => rfl
  | doipServer => rfl
  | canSender => rfl

/-- A frame that completes a response. -/
theorem returned_receiveResponse {keepsWaiting : Bytes → Bool} {requestSid : UInt8} {frame : Bytes}
    {loop : ResponseLoop} {reassembler : IsoTpReassembler} {assembled : Bytes}
    (hfeed : loop.reassembler.feed frame = (reassembler, some assembled))
    (hresponse : isResponseForRequest assembled requestSid) (hreturned : loop.returned = none) :
    (receiveResponse keepsWaiting requestSid frame loop).returned =
      if keepsWaiting assembled then none else some (loop.responses ++ [assembled]) := by
  rw [receiveResponse, hfeed]
  dsimp only
  rw [if_neg (not_not.mpr hresponse)]
  split
  · exact hreturned
  · rfl

/-! ## The exchange -/

/-- The sending ECU, the frames on their way in the two directions, and the loop. -/
structure Exchange where
  sender : Sender
  forward : List Bytes
  backward : List Bytes
  loop : ResponseLoop

namespace Exchange

/-- The ECU's first frame is on the bus; the loop starts with a new reassembler. -/
def start (payload : Bytes) (blockSize stmin : ℤ) : Exchange where
  sender := (startSend payload).2
  forward := (startSend payload).1.toList
  backward := []
  loop := { reassembler := { blockSize, stmin } }

/-- The ECU sends the next consecutive frame. -/
def sendNext? (x : Exchange) : Option Exchange :=
  match x.sender with
  | .ready remaining sequence blockCounter blockSize =>
      let sent := sendConsecutive remaining sequence blockCounter blockSize
      some { x with sender := sent.2, forward := x.forward ++ sent.1.toList }
  | _ => none

/-- The ECU, waiting for flow control, takes a frame. -/
def takeFlowControl? (x : Exchange) : Option Exchange :=
  match x.sender, x.backward with
  | .waiting remaining sequence waitCount, frame :: backward =>
      some { x with
        sender := receiveFlowControl frame remaining sequence waitCount
        backward }
  | _, _ => none

/-- The loop takes a frame; it puts nothing on the bus. -/
def takeFrame? (requester : Requester) (requestSid : UInt8) (x : Exchange) : Option Exchange :=
  match x.loop.returned, x.forward with
  | none, frame :: forward =>
      some { x with forward, loop := requester.receive requestSid frame x.loop }
  | _, _ => none

/-- Without the deadlines: `none` where there is nothing to send or to take. -/
def step? (requester : Requester) (requestSid : UInt8) (x : Exchange) : Move → Option Exchange
  | .send => x.sendNext?
  | .wait => x.takeFlowControl?
  | .receive => x.takeFrame? requester requestSid

def Step (requester : Requester) (requestSid : UInt8) (x y : Exchange) : Prop :=
  ∃ move, x.step? requester requestSid move = some y

def Reachable (requester : Requester) (requestSid : UInt8) : Exchange → Exchange → Prop :=
  Relation.ReflTransGen (Step requester requestSid)

/-- Only a deadline can end the waiting. -/
def Stuck (requester : Requester) (requestSid : UInt8) (x : Exchange) : Prop :=
  ∀ y, ¬ Step requester requestSid x y

/-- The exchange of `payload` comes to an end before any deadline is needed, and then the ECU's
`send` has returned and the loop has returned the payload and nothing else. -/
structure Completes (requester : Requester) (requestSid : UInt8) (payload : Bytes) : Prop where
  ends : ∀ blockSize stmin,
    Acc (fun y x ↦ Step requester requestSid x y) (start payload blockSize stmin)
  done : ∀ blockSize stmin x, Reachable requester requestSid (start payload blockSize stmin) x →
    Stuck requester requestSid x → x.sender = .finished ∧ x.loop.returned = some [payload]

/-! ## What the loops complete -/

/-- A relation without infinite chains has an end behind every state. -/
theorem exists_stuck_of_acc {α : Type*} {step : α → α → Prop} {x : α}
    (h : Acc (fun y x ↦ step x y) x) :
    ∃ y, Relation.ReflTransGen step x y ∧ ∀ z, ¬ step y z := by
  induction h with
  | intro x _ ih =>
      by_cases hstuck : ∀ z, ¬ step x z
      · exact ⟨x, .refl, hstuck⟩
      · push Not at hstuck
        obtain ⟨z, hz⟩ := hstuck
        obtain ⟨y, hy, hend⟩ := ih z hz
        exact ⟨y, .head hz hy, hend⟩

variable {requester : Requester} {requestSid : UInt8} {payload : Bytes} {x y : Exchange}

/-- The ECU is not in front of a consecutive frame, and nothing is on its way to it. -/
structure Silent (x : Exchange) : Prop where
  notReady : ∀ remaining sequence blockCounter blockSize,
    x.sender ≠ .ready remaining sequence blockCounter blockSize
  backward : x.backward = []

/-- Nobody gives the ECU a flow control frame: the only steps are those of the loop. -/
theorem Silent.step_cases (h : Silent x) (hstep : Step requester requestSid x y) :
    ∃ frame forward, x.forward = frame :: forward ∧
      y = { x with forward, loop := requester.receive requestSid frame x.loop } := by
  obtain ⟨move, hmove⟩ := hstep
  cases move with
  | send =>
      rw [step?, sendNext?] at hmove
      split at hmove
      · rename_i remaining sequence blockCounter blockSize hsender
        exact absurd hsender (h.notReady _ _ _ _)
      · cases hmove
  | wait =>
      rw [step?, takeFlowControl?, h.backward] at hmove
      split at hmove
      · rename_i hbackward
        cases hbackward
      · cases hmove
  | receive =>
      rw [step?, takeFrame?] at hmove
      split at hmove
      · rename_i frame forward hreturned hforward
        exact ⟨frame, forward, hforward, (Option.some.inj hmove).symm⟩
      · cases hmove

theorem Silent.step (h : Silent x) (hstep : Step requester requestSid x y) :
    Silent y ∧ y.sender = x.sender ∧ y.forward.length < x.forward.length := by
  obtain ⟨frame, forward, hforward, rfl⟩ := h.step_cases hstep
  refine ⟨⟨h.notReady, h.backward⟩, rfl, ?_⟩
  rw [hforward]
  exact Nat.lt_succ_self _

/-- A silent ECU stays where it stands. -/
theorem Silent.sender_of_reachable (h : Silent x) (hreach : Reachable requester requestSid x y) :
    Silent y ∧ y.sender = x.sender := by
  induction hreach with
  | refl => exact ⟨h, rfl⟩
  | tail _ hstep ih =>
      obtain ⟨hsilent, hsender, -⟩ := ih.1.step hstep
      exact ⟨hsilent, hsender.trans ih.2⟩

theorem Silent.ends (h : Silent x) : Acc (fun y x ↦ Step requester requestSid x y) x := by
  generalize hn : x.forward.length = n
  induction n using Nat.strong_induction_on generalizing x with
  | h n ih =>
      constructor
      intro y hstep
      obtain ⟨hsilent, -, hlt⟩ := h.step hstep
      exact ih _ (hn ▸ hlt) hsilent rfl

theorem silent_start (hlength : payload.length ≤ 0xFFF) (blockSize stmin : ℤ) :
    Silent (start payload blockSize stmin) := by
  refine ⟨fun remaining sequence blockCounter size ↦ ?_, rfl⟩
  rcases le_or_gt payload.length sfMaxPayload with hshort | hlong
  · obtain ⟨frame, -, hstart⟩ := startSend_of_short hshort
    rw [start, hstart]
    exact Sender.noConfusion
  · rw [start, startSend_eq hlong hlength]
    exact Sender.noConfusion

/-- Behind the first frame of a long response the ECU waits for its deadline. -/
theorem waiting_of_reachable (hlong : sfMaxPayload < payload.length)
    (hlength : payload.length ≤ 0xFFF) {blockSize stmin : ℤ}
    (h : Reachable requester requestSid (start payload blockSize stmin) x) :
    x.sender = .waiting (tailOf payload) 1 0 := by
  obtain ⟨-, hsender⟩ := (silent_start hlength blockSize stmin).sender_of_reachable h
  rw [hsender, start, startSend_eq hlong hlength]

/-- What the loop has returned behind a single frame. -/
theorem returned_of_stuck (hpos : 0 < payload.length) (hshort : payload.length ≤ sfMaxPayload)
    (hresponse : isResponseForRequest payload requestSid) {blockSize stmin : ℤ}
    (h : Reachable requester requestSid (start payload blockSize stmin) x)
    (hstuck : Stuck requester requestSid x) :
    x.sender = .finished ∧
      x.loop.returned = if requester.keepsWaiting requestSid payload then none else some [payload] := by
  obtain ⟨frame, hframe, hstart⟩ := startSend_of_short hshort
  have hsilent := silent_start (hshort.trans (by decide)) blockSize stmin
  have hfirst : (start payload blockSize stmin).forward = [frame] := by
    rw [start, hstart]
    rfl
  have hsender : (start payload blockSize stmin).sender = .finished := by
    rw [start, hstart]
  refine ⟨(hsilent.sender_of_reachable h).2.trans hsender, ?_⟩
  rcases Relation.ReflTransGen.cases_head h with rfl | ⟨y, hstep, hrest⟩
  · -- the frame can still be read
    have hread : Step requester requestSid (start payload blockSize stmin)
        { start payload blockSize stmin with
          forward := []
          loop := requester.receive requestSid frame (start payload blockSize stmin).loop } := by
      refine ⟨.receive, ?_⟩
      rw [step?, takeFrame?, hfirst]
      rfl
    exact absurd hread (hstuck _)
  · obtain ⟨first, forward, hforward, rfl⟩ := hsilent.step_cases hstep
    rw [hfirst, List.cons.injEq] at hforward
    obtain ⟨rfl, rfl⟩ := hforward
    rcases Relation.ReflTransGen.cases_head hrest with rfl | ⟨z, hstep', -⟩
    · have hfeed := feed_singleFrame hframe hpos [] { blockSize, stmin }
      rw [List.append_nil] at hfeed
      rw [requester.receive_eq]
      exact returned_receiveResponse hfeed hresponse rfl
    · have hsilent' : Silent { start payload blockSize stmin with
          forward := []
          loop := requester.receive requestSid frame (start payload blockSize stmin).loop } :=
        ⟨hsilent.notReady, hsilent.backward⟩
      obtain ⟨next, rest, hnext, -⟩ := hsilent'.step_cases hstep'
      cases hnext

/-- For a positive response of a length that `send` takes: the exchange completes exactly if the
response fits a single frame, and the loop does not take it for the announcement of a later one
(which only a request with the service id 0x3F could make it do). -/
theorem response_completes_iff (requester : Requester) (requestSid : UInt8) {payload : Bytes}
    (hlength : payload.length ≤ 0xFFF)
    (hpositive : payload.head? = some (positiveResponseSid requestSid)) :
    Completes requester requestSid payload ↔
      payload.length ≤ 62 ∧ ¬ requester.keepsWaiting requestSid payload := by
  obtain ⟨head, rest, rfl⟩ : ∃ head rest, payload = head :: rest := by
    cases payload with
    | nil => cases hpositive
    | cons head rest => exact ⟨head, rest, rfl⟩
  obtain rfl : head = positiveResponseSid requestSid := Option.some.inj hpositive
  have hresponse : isResponseForRequest (positiveResponseSid requestSid :: rest) requestSid := by
    simp [isResponseForRequest]
  have hpos : 0 < (positiveResponseSid requestSid :: rest : Bytes).length := Nat.succ_pos _
  constructor
  · intro hcompletes
    obtain ⟨x, hreach, hstuck⟩ := exists_stuck_of_acc (hcompletes.ends 0 0)
    obtain ⟨hsender, hreturned⟩ := hcompletes.done 0 0 x hreach hstuck
    rcases le_or_gt (positiveResponseSid requestSid :: rest).length sfMaxPayload with hshort | hlong
    · refine ⟨hshort, fun hwaits ↦ ?_⟩
      have hloop := (returned_of_stuck hpos hshort hresponse hreach hstuck).2
      rw [if_pos hwaits, hreturned] at hloop
      cases hloop
    · rw [waiting_of_reachable hlong hlength hreach] at hsender
      cases hsender
  · rintro ⟨hshort, hgoes⟩
    refine ⟨fun blockSize stmin ↦ (silent_start hlength blockSize stmin).ends, ?_⟩
    intro blockSize stmin x hreach hstuck
    have hend := returned_of_stuck hpos hshort hresponse hreach hstuck
    rw [if_neg hgoes] at hend
    exact hend

/-- The software version in 80 characters, read by a zone controller. -/
theorem long_response_waits :
    ¬ Completes .zoneController sidReadDataByIdentifier
      ([0x62, 0xF1, 0x89] ++ List.replicate 80 0x31) := by
  have hlong : sfMaxPayload < ([0x62, 0xF1, 0x89] ++ List.replicate 80 0x31 : Bytes).length := by
    rw [List.length_append, List.length_replicate]
    decide
  have hlength : ([0x62, 0xF1, 0x89] ++ List.replicate 80 0x31 : Bytes).length ≤ 0xFFF := by
    rw [List.length_append, List.length_replicate]
    decide
  intro hcompletes
  obtain ⟨x, hreach, hstuck⟩ := exists_stuck_of_acc (hcompletes.ends 0 0)
  obtain ⟨hsender, -⟩ := hcompletes.done 0 0 x hreach hstuck
  rw [waiting_of_reachable hlong hlength hreach] at hsender
  cases hsender

theorem short_response_completes :
    Completes .doipServer sidReadDataByIdentifier ([0x62, 0xF1, 0x89, 0x31, 0x2E, 0x30]) :=
  (response_completes_iff .doipServer sidReadDataByIdentifier (by decide) rfl).mpr
    ⟨by decide, by decide⟩

end Exchange

end VehicleOta.Can
