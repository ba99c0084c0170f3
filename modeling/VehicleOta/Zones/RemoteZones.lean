import VehicleOta.Doip.ZonePolicy
import VehicleOta.Zones.ZoneService

/-!
# A zone answers over a socket as it does in the process

The client and the service exchange one message each.  However these are cut into pieces on their
way, the client returns what the controller of the zone would have returned to the router.
-/

namespace VehicleOta

open ZoneProtocol

/-! ## Hexadecimal texts -/

theorem mapM_bytesFromHex (items : List Bytes) :
    (items.map fun item ↦ Json.str (Hash.hexDigest item)).mapM Json.bytesFromHex = .ok items := by
  induction items with
  | nil => rfl
  | cons item items ih =>
      rw [List.map_cons, List.mapM_cons, Json.bytesFromHex_hexDigest, ih]
      rfl

/-! ## The two messages -/

section Messages

variable {float : List Char → Json} (s : ZoneService) (zoneId : String)

theorem ZoneTransportClient.printable_request {logicalAddress : ℤ}
    (h : (digitsOf logicalAddress.natAbs).length ≤ 4300) (payload : Bytes) :
    Json.Printable float (request zoneId logicalAddress payload) := by
  apply Json.Printable.dict
  · exact (by decide : ["type", "zone_id", "target_logical_address", "payload_hex"].Nodup)
  · simp only [List.forall_mem_cons, List.not_mem_nil, false_implies, implies_true, and_true]
    exact ⟨.str _, .str _, .int h, .str _⟩

theorem ZoneService.printable_respond (status key : String) {value : Json}
    (hkey : key ∉ ["status", "zone_id"]) (h : Json.Printable float value) :
    Json.Printable float (s.respond status key value) := by
  apply Json.Printable.dict
  · simp only [List.mem_cons, List.not_mem_nil, or_false, not_or] at hkey
    simp [Ne.symm hkey.1, Ne.symm hkey.2]
  · simp only [List.forall_mem_cons, List.not_mem_nil, false_implies, implies_true, and_true]
    exact ⟨.str _, .str _, h⟩

theorem ZoneService.printable_failure (error : String) :
    Json.Printable float (s.failure error) :=
  s.printable_respond "ERROR" "error" (by decide) (.str error)

theorem ZoneService.printable_responses (items : List Bytes) :
    Json.Printable float (s.responses items) := by
  apply s.printable_respond "OK" "responses" (by decide)
  apply Json.Printable.list
  intro x hx
  obtain ⟨item, -, rfl⟩ := List.mem_map.mp hx
  exact .str _

/-- The service asks the controller what the client was asked. -/
theorem ZoneService.dispatch_request (logicalAddress : ℤ) (payload : Bytes) :
    s.dispatch (ZoneTransportClient.request zoneId logicalAddress payload) = do
      return s.responses (← s.controller.forwardUds s.now s.deliver logicalAddress payload) := by
  have hpayload := Json.bytesFromHex_hexDigest payload
  simp [dispatch, ZoneTransportClient.request, Json.getD, Json.getItem, Json.lookup, Json.eq,
    Json.toInt, hpayload, bind, Except.bind]

theorem ZoneTransportClient.takeResponse_responses (items : List Bytes) :
    takeResponse zoneId (s.responses items) = .ok items := by
  have hitems := mapM_bytesFromHex items
  simp [takeResponse, ZoneService.responses, ZoneService.respond, Json.getD, Json.lookup, Json.eq,
    Json.iter, lift, bind, Except.bind, hitems]

theorem ZoneTransportClient.takeResponse_failure (error : String) :
    takeResponse zoneId (s.failure error) = .error (rejected zoneId error) := by
  simp [takeResponse, ZoneService.failure, ZoneService.respond, Json.getD, Json.lookup, Json.eq,
    lift, formatValue, bind, Except.bind]

end Messages

/-! ## The exchange -/

/-- `send_message` does not raise, and the message does not exceed what the reader takes. -/
def Fits (message : Json) : Prop := (encodeMessage message).length ≤ maxMessageSize

instance (message : Json) : Decidable (Fits message) := by
  unfold Fits
  infer_instance

theorem fits_of_dump {float : List Char → Json} {message : Json}
    (h : Json.Printable float message)
    (hlength : (message.dump .compact 0).length < maxMessageSize) : Fits message := by
  rw [Fits, encodeMessage_eq h, List.length_append, messageLine, List.length_map]
  exact hlength

/-- The connection carries what the client sends to the service and its response back, each in any
pieces. -/
def Carried (float : List Char → Json) (s : ZoneService)
    (exchange : Bytes → List (Except ZoneError Bytes)) : Prop :=
  ∀ sent, ∃ received, Arrives sent received ∧
    Arrives (encodeMessage (s.reply (readMessage float received))) (exchange sent)

section Exchange

variable {float : List Char → Json} {s : ZoneService}
  {exchange : Bytes → List (Except ZoneError Bytes)}

/-- What the client reads for a message that it sends. -/
theorem read_exchange (hcarried : Carried float s exchange) {message response : Json}
    (hmessage : Json.Printable float message) (hresponse : Json.Printable float response)
    (hreply : s.reply (if Fits message then .ok message
      else .error (.python (.valueError "zone message exceeded maximum size"))) = response) :
    readMessage float (exchange (encodeMessage message)) =
      if Fits response then .ok response
      else .error (.python (.valueError "zone message exceeded maximum size")) := by
  obtain ⟨received, hsent, hback⟩ := hcarried (encodeMessage message)
  rw [readMessage_arrives hmessage hsent] at hback
  change Arrives (encodeMessage (s.reply (if Fits message then _ else _))) _ at hback
  rw [hreply] at hback
  exact readMessage_arrives hresponse hback

end Exchange

namespace ZoneTransportClient

variable {float : List Char → Json} {s : ZoneService} {router : ZoneRouter}
  {exchange : Bytes → List (Except ZoneError Bytes)} {logicalAddress : ℤ} {payload : Bytes}

/-- `forward_uds` behind the choice of the zone. -/
theorem forwardUds_of_zone (hzone : router.zoneFor logicalAddress = some s.controller)
    (hcarried : Carried float s exchange)
    (haddress : (digitsOf logicalAddress.natAbs).length ≤ 4300) {response : Json}
    (hresponse : Json.Printable float response)
    (hreply : s.reply (if Fits (request s.controller.config.zoneId logicalAddress payload) then
        .ok (request s.controller.config.zoneId logicalAddress payload)
      else .error (.python (.valueError "zone message exceeded maximum size"))) = response) :
    forwardUds float (.ok ()) exchange router logicalAddress payload =
      if Fits response then takeResponse s.controller.config.zoneId response
      else .error (.python (.valueError "zone message exceeded maximum size")) := by
  have hread := read_exchange hcarried
    (printable_request s.controller.config.zoneId haddress payload) hresponse hreply
  rw [forwardUds, hzone]
  change (readMessage float (exchange (encodeMessage _)) >>= _) = _
  rw [hread]
  split <;> rfl

/-- The controller returns these responses. -/
theorem forwardUds_of_ok (hzone : router.zoneFor logicalAddress = some s.controller)
    (hcarried : Carried float s exchange)
    (haddress : (digitsOf logicalAddress.natAbs).length ≤ 4300)
    (hfits : Fits (request s.controller.config.zoneId logicalAddress payload))
    {responses : List Bytes}
    (h : s.controller.forwardUds s.now s.deliver logicalAddress payload = .ok responses) :
    forwardUds float (.ok ()) exchange router logicalAddress payload =
      if Fits (s.responses responses) then .ok responses
      else .error (.python (.valueError "zone message exceeded maximum size")) := by
  have hreply : s.reply (.ok (request s.controller.config.zoneId logicalAddress payload)) =
      s.responses responses := by
    rw [ZoneService.reply, s.dispatch_request, h]
    rfl
  rw [forwardUds_of_zone hzone hcarried haddress (s.printable_responses responses) (by
    rw [if_pos hfits, hreply]), takeResponse_responses]

/-- The controller raises an exception. -/
theorem forwardUds_of_error (hzone : router.zoneFor logicalAddress = some s.controller)
    (hcarried : Carried float s exchange)
    (haddress : (digitsOf logicalAddress.natAbs).length ≤ 4300)
    (hfits : Fits (request s.controller.config.zoneId logicalAddress payload)) {e : PyError}
    (h : s.controller.forwardUds s.now s.deliver logicalAddress payload = .error e) :
    forwardUds float (.ok ()) exchange router logicalAddress payload =
      if Fits (s.failure e.text) then .error (rejected s.controller.config.zoneId e.text)
      else .error (.python (.valueError "zone message exceeded maximum size")) := by
  have hreply : s.reply (.ok (request s.controller.config.zoneId logicalAddress payload)) =
      s.failure e.text := by
    rw [ZoneService.reply, s.dispatch_request, h]
    rfl
  rw [forwardUds_of_zone hzone hcarried haddress (s.printable_failure e.text) (by
    rw [if_pos hfits, hreply]), takeResponse_failure]

/-- The service does not read a request that is too long. -/
theorem forwardUds_of_long (hzone : router.zoneFor logicalAddress = some s.controller)
    (hcarried : Carried float s exchange)
    (haddress : (digitsOf logicalAddress.natAbs).length ≤ 4300)
    (hlong : ¬ Fits (request s.controller.config.zoneId logicalAddress payload))
    (responses : List Bytes) :
    forwardUds float (.ok ()) exchange router logicalAddress payload ≠ .ok responses := by
  rw [forwardUds_of_zone hzone hcarried haddress (s.printable_failure _) (by
    rw [if_neg hlong]
    rfl), takeResponse_failure]
  split <;> exact fun h ↦ by cases h

end ZoneTransportClient

/-! ## The router and the client -/

/-- The service of a zone, in the surroundings of the router. -/
def Surroundings.service (w : Surroundings) (number : ℚ → Json) (metrics : ZoneMetrics)
    (c : ZoneController) : ZoneService where
  controller := c
  now := w.now
  deliver := w.deliver
  number := number
  metrics := metrics

/-- The client returns what the controller returns to the router in the process, unless one of the
two messages is too long; and where the controller raises an exception, or no zone has the ECU, the
client raises one with its text. -/
theorem remote_zone_agrees (float : List Char → Json) (w : Surroundings) (number : ℚ → Json)
    (metrics : ZoneMetrics) (exchange : Bytes → List (Except ZoneError Bytes))
    (logicalAddress : ℤ) (payload : Bytes)
    (htransport : w.transport = .inProcess)
    (haddress : (digitsOf logicalAddress.natAbs).length ≤ 4300)
    (hcarried : ∀ c, w.router.zoneFor logicalAddress = some c →
      Carried float (w.service number metrics c) exchange) :
    (∀ responses,
      ZoneTransportClient.forwardUds float (.ok ()) exchange w.router logicalAddress payload =
          .ok responses ↔
        ZoneRouter.forwardUds w logicalAddress payload = .ok responses ∧
          ∀ c, w.router.zoneFor logicalAddress = some c →
            Fits (ZoneTransportClient.request c.config.zoneId logicalAddress payload) ∧
              Fits ((w.service number metrics c).responses responses)) ∧
    (∀ c e, w.router.zoneFor logicalAddress = some c →
      ZoneRouter.forwardUds w logicalAddress payload = .error e →
      Fits (ZoneTransportClient.request c.config.zoneId logicalAddress payload) →
      Fits ((w.service number metrics c).failure e.text) →
      ZoneTransportClient.forwardUds float (.ok ()) exchange w.router logicalAddress payload =
        .error (ZoneTransportClient.rejected c.config.zoneId e.text)) ∧
    (∀ e, w.router.zoneFor logicalAddress = none →
      ZoneRouter.forwardUds w logicalAddress payload = .error e →
      ZoneTransportClient.forwardUds float (.ok ()) exchange w.router logicalAddress payload =
        .error (.python e)) := by
  cases hzone : w.router.zoneFor logicalAddress with
  | none =>
      have hrouter : ZoneRouter.forwardUds w logicalAddress payload =
          .error (.keyError ("No zone owns logical address " ++ hex logicalAddress)) := by
        rw [ZoneRouter.forwardUds, hzone]
      have hclient : ZoneTransportClient.forwardUds float (.ok ()) exchange w.router logicalAddress
          payload = .error (.python
            (.keyError ("No zone owns logical address " ++ hex logicalAddress))) := by
        rw [ZoneTransportClient.forwardUds, hzone]
      refine ⟨fun responses ↦ ?_, fun c e hc ↦ (by cases hc), fun e _ he ↦ ?_⟩
      · rw [hrouter, hclient]
        exact iff_of_false (fun h ↦ by cases h) fun h ↦ by cases h.1
      · rw [hrouter] at he
        rw [hclient, Except.error.inj he]
  | some c =>
      have hrouter : ZoneRouter.forwardUds w logicalAddress payload =
          c.forwardUds w.now w.deliver logicalAddress payload := by
        rw [ZoneRouter.forwardUds, hzone, htransport]
      have hserved := hcarried c hzone
      refine ⟨fun responses ↦ ?_, fun c' e hc he hfits hreply ↦ ?_, fun e hnone ↦ (by cases hnone)⟩
      · rw [hrouter]
        by_cases hfits : Fits (ZoneTransportClient.request c.config.zoneId logicalAddress payload)
        · cases hresult : c.forwardUds w.now w.deliver logicalAddress payload with
          | error e =>
              rw [ZoneTransportClient.forwardUds_of_error hzone hserved haddress hfits hresult]
              refine iff_of_false ?_ fun h ↦ by cases h.1
              split <;> exact fun h ↦ by cases h
          | ok items =>
              rw [ZoneTransportClient.forwardUds_of_ok hzone hserved haddress hfits hresult]
              constructor
              · intro h
                split at h
                · rename_i hreply
                  obtain rfl := Except.ok.inj h
                  refine ⟨rfl, fun c' hc ↦ ?_⟩
                  obtain rfl := Option.some.inj hc
                  exact ⟨hfits, hreply⟩
                · cases h
              · rintro ⟨h, hfit⟩
                obtain rfl := Except.ok.inj h
                rw [if_pos (hfit c rfl).2]
        · refine iff_of_false ?_ fun h ↦ hfits (h.2 c rfl).1
          exact ZoneTransportClient.forwardUds_of_long hzone hserved haddress hfits responses
      · obtain rfl := Option.some.inj hc
        rw [hrouter] at he
        rw [ZoneTransportClient.forwardUds_of_error hzone hserved haddress hfits he, if_pos hreply]
        rfl

/-! ### A zone that answers byte by byte -/

/-- Every byte arrives on its own. -/
def bytewise (data : Bytes) : List (Except ZoneError Bytes) := data.map fun b ↦ .ok [b]

theorem arrives_bytewise (data : Bytes) : Arrives data (bytewise data) := by
  refine ⟨data.map ([·]), ?_, ?_, ?_⟩
  · rw [bytewise, List.map_map]
    rfl
  · induction data with
    | nil => rfl
    | cons b data ih => rw [List.map_cons, List.flatten_cons, ih, List.singleton_append]
  · intro chunk hchunk
    obtain ⟨b, -, rfl⟩ := List.mem_map.mp hchunk
    exact List.cons_ne_nil b []

def slowExchange (float : List Char → Json) (s : ZoneService) (sent : Bytes) :
    List (Except ZoneError Bytes) :=
  bytewise (encodeMessage (s.reply (readMessage float (bytewise sent))))

theorem carried_slowExchange (float : List Char → Json) (s : ZoneService) :
    Carried float s (slowExchange float s) :=
  fun sent ↦ ⟨bytewise sent, arrives_bytewise sent, arrives_bytewise _⟩

/-- The body zone with the BCM on its channel. -/
def openZone : ZoneController :=
  { DoIPServer.lockedZone with options := { heartbeatMonitorEnabled := false } }

def openSurroundings : Surroundings where
  router := ⟨[openZone]⟩
  deliver _ _ := .ok [[0x62, 0xF1, 0x88, 0x31]]
  overCan _ _ := .error (.timeoutError "no ECU")

theorem remote_zone_agrees_bcm :
    ZoneTransportClient.forwardUds (fun _ ↦ .nan) (.ok ())
        (slowExchange (fun _ ↦ .nan) (openSurroundings.service (fun _ ↦ .nan) {} openZone))
        openSurroundings.router 0x1002 [0x22, 0xF1, 0x88] =
      .ok [[0x62, 0xF1, 0x88, 0x31]] := by
  have hzone : openSurroundings.router.zoneFor 0x1002 = some openZone := rfl
  obtain ⟨hok, -⟩ := remote_zone_agrees (fun _ ↦ .nan) openSurroundings (fun _ ↦ .nan) {}
    (slowExchange (fun _ ↦ .nan) (openSurroundings.service (fun _ ↦ .nan) {} openZone)) 0x1002
    [0x22, 0xF1, 0x88] rfl (by decide) fun c hc ↦ by
      obtain rfl := Option.some.inj (hzone.symm.trans hc)
      exact carried_slowExchange _ _
  refine (hok _).mpr ⟨by rfl, fun c hc ↦ ?_⟩
  obtain rfl := Option.some.inj (hzone.symm.trans hc)
  exact ⟨by decide +kernel, by decide +kernel⟩

end VehicleOta
