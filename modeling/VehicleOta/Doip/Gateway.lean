import VehicleOta.Uds.DoipServer
import VehicleOta.Zones.ZoneController

/-!
# The gateway and its zones

`DoIPServer.process` of `transport/doip/server.py` on a diagnostic message, with the flash proxy in
front of the route, and the way to the zones: `ZoneRouter` of `zones/zone_router.py` or
`ZoneTransportClient` of `zones/zone_transport_client.py`.
-/

namespace VehicleOta

open Uds

/-! ## The way to a zone -/

/-- The controllers of the zones, in the order of `ZONE_REGISTRY`. -/
structure ZoneRouter where
  controllers : List ZoneController

/-- `OTA_ZONE_TRANSPORT`; the TCP client may fail to reach the service. -/
inductive ZoneTransport where
  | inProcess
  | tcp (connection : Except PyError Unit)

/-- What the gateway meets while it handles a message: the time at the zones, the exchange with
an ECU on the channel of its zone, and `_forward_uds_over_can`. -/
structure Surroundings where
  router : ZoneRouter
  transport : ZoneTransport := .inProcess
  now : ℚ := 0
  deliver : VehicleTopology.EcuInfo → Bytes → Except PyError (List Bytes)
  overCan : ℕ → Bytes → Except PyError (List Bytes)

namespace ZoneRouter

/-- `zone_for_logical_address` -/
def zoneFor (router : ZoneRouter) (logicalAddress : ℤ) : Option ZoneController :=
  router.controllers.find? fun c ↦ (c.config.ecus.get? logicalAddress).isSome

/-- `forward_uds` of the router, and of the client on a zone service that answers. -/
def forwardUds (w : Surroundings) (logicalAddress : ℤ) (payload : Bytes) :
    Except PyError (List Bytes) :=
  match w.router.zoneFor logicalAddress with
  | none => .error (.keyError ("No zone owns logical address " ++ hex logicalAddress))
  | some c =>
      match w.transport with
      | .inProcess => c.forwardUds w.now w.deliver logicalAddress payload
      | .tcp connection => do
          connection
          match c.forwardUds w.now w.deliver logicalAddress payload with
          | .ok responses => return responses
          | .error _ =>
              throw (.runtimeError ("Zone " ++ c.config.zoneId ++ " rejected request"))

/-- The controller of the zone refuses the request, or no zone has the ECU. -/
def Rejects (w : Surroundings) (logicalAddress : ℤ) (payload : Bytes) : Prop :=
  ∀ c, w.router.zoneFor logicalAddress = some c →
    ∃ e, c.enforce w.now logicalAddress payload = .error e

end ZoneRouter

/-! ## The gateway -/

/-- The options of the gateway and its ECU contexts, by logical address.  A negative
`OTA_DOIP_GATEWAY_BLOCK_LENGTH`, which no answer can carry, is left out. -/
structure DoIPServer where
  proxyFlashEnabled : Bool := true
  blockLength : ℕ := 8192
  useZonalControllers : Bool := false
  ecus : Dict ℕ ECUContext

namespace DoIPServer

/-- The addresses in `_routes`. -/
def routes : List ℕ := [0x1001, 0x1002, 0x1003]

def rawServices : List UInt8 :=
  [sidDiagnosticSessionControl, sidEcuReset, sidReadDataByIdentifier, sidRoutineControl,
    sidSecurityAccess, sidRequestDownload, sidRequestTransferExit, sidTransferData,
    sidTesterPresent]

/-- `_is_raw_uds_payload` -/
def isRawUdsPayload (payload : Bytes) : Bool :=
  match payload with
  | [] => false
  | serviceId :: _ => serviceId ∈ rawServices

/-- `_rewrite_request_download_response` -/
def rewriteRequestDownloadResponse (g : DoIPServer) (payload : Bytes) : Bytes :=
  if payload.head? ≠ some (positiveResponseSid sidRequestDownload) ∨ payload.length < 5 then payload
  else payload.take 3 ++ intToBytes 2 g.blockLength

def forwardedResponse (g : DoIPServer) (request response : Bytes) : Bytes :=
  if request.head? = some sidRequestDownload then g.rewriteRequestDownloadResponse response
  else response

/-- The route behind the proxy. -/
def route (g : DoIPServer) (w : Surroundings) (targetAddress : ℕ) (payload : Bytes) :
    Except PyError (List Bytes) :=
  if g.useZonalControllers then ZoneRouter.forwardUds w targetAddress payload
  else w.overCan targetAddress payload

/-- The proxy's answer, where it takes the message. -/
def proxy (g : DoIPServer) (r : Request) (ecu : ECUContext) : Option (Outcome ECUContext) :=
  if g.proxyFlashEnabled then ecu.handleRawUdsMessage g.blockLength r else none

/-- `process` on a diagnostic message to `targetAddress`; a payload that is no raw UDS is
rejected, as legacy payloads are not allowed. -/
def process (g : DoIPServer) (w : Surroundings) (targetAddress : ℕ) (r : Request) :
    Outcome DoIPServer :=
  if targetAddress ∉ routes ∨ ¬ isRawUdsPayload r.payload then ⟨g, [], none⟩
  else
    match g.ecus.get? targetAddress with
    | none => ⟨g, [], none⟩
    | some ecu =>
        match g.proxy r ecu with
        | some o => ⟨{ g with ecus := g.ecus.set targetAddress o.state }, o.actions, o.error⟩
        | none =>
            match g.route w targetAddress r.payload with
            | .error _ => ⟨g, [], none⟩
            | .ok responses => ⟨g, responses.map fun response ↦
                .send (g.forwardedResponse r.payload response), none⟩

end DoIPServer

end VehicleOta
