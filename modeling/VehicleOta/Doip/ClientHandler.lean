import VehicleOta.Doip.Gateway
import VehicleOta.Doip.Packet
import VehicleOta.Uds.Answers

/-!
# The client handler of the gateway

`DoIPServer.process` and `DoIPServer.handle_client` of `transport/doip/server.py`, on whatever a
client sends.  Legacy payloads are not allowed.
-/

namespace VehicleOta

open Doip Uds

namespace Doip

def vehicleIdentRequest : ℕ := 0x0001
def vehicleIdentResponse : ℕ := 0x0004
def routingActivationRequest : ℕ := 0x0005
def routingActivationResponse : ℕ := 0x0006
def aliveCheckRequest : ℕ := 0x0007
def aliveCheckResponse : ℕ := 0x0008
def diagnosticMessage : ℕ := 0x8001
def diagnosticMessageAck : ℕ := 0x8002

def gatewayAddress : ℕ := 0x1001

/-- `_build_vehicle_identification_response` -/
def buildVehicleIdentificationResponse : Packet :=
  (vehicleIdentResponse, "TESTVIN1234567890".toUTF8.toList ++ intToBytes 2 gatewayAddress ++
    List.replicate 6 0x00 ++ List.replicate 6 0x00 ++ [0x00])

/-- `struct.unpack("!H", payload[:2])[0]` -/
def unpackTesterAddress (payload : Bytes) : Except PyError ℕ :=
  if payload.length < 2 then .error (.structError "unpack requires a buffer of 2 bytes")
  else .ok (intFromBytes (slice payload 0 2))

/-- `parse_diagnostic_payload`: the source address, the target address and the data. -/
def parseDiagnosticPayload (payload : Bytes) : Except PyError (ℕ × ℕ × Bytes) :=
  if payload.length < 4 then .error (.structError "unpack requires a buffer of 4 bytes")
  else .ok (intFromBytes (slice payload 0 2), intFromBytes (slice payload 2 4), payload.drop 4)

/-- The acknowledgement and the response itself. -/
def diagnosticResponse (ecuAddress testerAddress : ℕ) : Action → List Packet
  | .send payload =>
      [(diagnosticMessageAck, intToBytes 2 ecuAddress ++ intToBytes 2 testerAddress ++ [0x00]),
        (diagnosticMessage, intToBytes 2 ecuAddress ++ intToBytes 2 testerAddress ++ payload)]
  | _ => []

end Doip

/-- What the gateway meets while it processes one packet. -/
structure Encounter where
  surroundings : Surroundings
  request : Request

/-- The server behind `process`, the packets sent to the client, and the exception that escaped. -/
structure Processed where
  server : DoIPServer
  sent : List Packet := []
  error : Option PyError := none

/-- What the handler of one client has done so far. -/
structure ClientSession where
  server : DoIPServer
  processed : List Packet := []
  sent : List Packet := []

/-- How `handle_client` ends: behind `client.close()`, or by an exception that escapes it. -/
inductive Ending where
  | closed
  | raised (e : PyError)
  deriving DecidableEq

namespace DoIPServer

/-- `process` -/
def processPacket (g : DoIPServer) (met : Encounter) (p : Packet) : Processed :=
  if p.1 = vehicleIdentRequest then { server := g, sent := [buildVehicleIdentificationResponse] }
  else if p.1 = routingActivationRequest then
    match unpackTesterAddress p.2 with
    | .error e => { server := g, error := some e }
    | .ok testerAddress =>
        { server := g
          sent := [(routingActivationResponse, intToBytes 2 testerAddress ++
            intToBytes 2 gatewayAddress ++ [0x10] ++ intToBytes 4 0)] }
  else if p.1 = aliveCheckRequest then { server := g, sent := [(aliveCheckResponse, [0x00])] }
  else if p.1 = diagnosticMessage then
    match parseDiagnosticPayload p.2 with
    | .error e => { server := g, error := some e }
    | .ok (sourceAddress, targetAddress, data) =>
        let o := g.process met.surroundings targetAddress { met.request with payload := data }
        { server := o.state
          sent := o.actions.flatMap (diagnosticResponse targetAddress sourceAddress)
          error := o.error }
  else { server := g }

end DoIPServer

namespace ClientSession

variable (meet : ℕ → Encounter)

/-- One packet; `meet` gives what the server meets at each packet of the connection. -/
def serve (p : Packet) (s : ClientSession) : ClientSession × Option PyError :=
  let done := s.server.processPacket (meet s.processed.length) p
  ({ server := done.server, processed := s.processed ++ [p], sent := s.sent ++ done.sent },
    done.error)

/-- The loop over the packets of a chunk. -/
def serveAll : List Packet → ClientSession → ClientSession × Option PyError
  | [], s => (s, none)
  | p :: packets, s =>
      match s.serve meet p with
      | (s, some e) => (s, some e)
      | (s, none) => s.serveAll packets

/-- `handle_client` over what `recv` returns and the buffer; behind the last chunk the client has
closed its end. -/
def handleClient : List Bytes → Bytes → ClientSession → ClientSession × Ending
  | [], _, s => (s, .closed)
  | data :: later, buffer, s =>
      if data = [] then (s, .closed)
      else
        match extractPackets (buffer ++ data) with
        | (.error _, _) => (s, .closed)
        | (.ok packets, rest) =>
            match s.serveAll meet packets with
            | (s, some e) => (s, .raised e)
            | (s, none) => s.handleClient later rest

end ClientSession

/-! ## What a packet can do to the handler -/

/-- Too short for the structure that its type names. -/
def Doip.Truncated (p : Packet) : Prop :=
  (p.1 = routingActivationRequest ∧ p.2.length < 2) ∨ (p.1 = diagnosticMessage ∧ p.2.length < 4)

/-- A key for the proxy where `derive_security_key` has none to compare it with. -/
def DoIPServer.LacksKey (g : DoIPServer) (met : Encounter) (p : Packet) : Prop :=
  p.1 = diagnosticMessage ∧ 4 ≤ p.2.length ∧ g.proxyFlashEnabled = true ∧
    intFromBytes (slice p.2 2 4) ∈ DoIPServer.routes ∧
    ∃ ecu e, g.ecus.get? (intFromBytes (slice p.2 2 4)) = some ecu ∧
      ChecksKey { met.request with payload := p.2.drop 4 } ecu.base ∧
      deriveSecurityKey met.request.security ecu.base.pendingSeed = .error e

/-- `process` copes with the packet. -/
def DoIPServer.CopesWith (g : DoIPServer) (met : Encounter) (p : Packet) : Prop :=
  ¬ Truncated p ∧ ¬ g.LacksKey met p

namespace DoIPServer

variable {g : DoIPServer} {w : Surroundings} {met : Encounter} {r : Request} {targetAddress : ℕ}
  {ecu : ECUContext}

/-- A diagnostic message raises only where the key cannot be derived. -/
theorem process_error (hr : r.Readable) (hkey : ∀ ecu, g.proxyFlashEnabled = true →
    targetAddress ∈ routes → g.ecus.get? targetAddress = some ecu → ChecksKey r ecu.base →
      ∃ key, deriveSecurityKey r.security ecu.base.pendingSeed = .ok key) :
    (g.process w targetAddress r).error = none := by
  unfold process
  split
  · rfl
  · rename_i haddressed
    obtain ⟨hroute, hraw⟩ := not_or.mp haddressed
    cases hecu : g.ecus.get? targetAddress with
    | none => rfl
    | some ecu =>
        dsimp only
        cases hproxy : g.proxy r ecu with
        | some o =>
            unfold proxy at hproxy
            split at hproxy
            · rename_i henabled
              obtain ⟨serviceId, hhead⟩ : ∃ serviceId, r.payload.head? = some serviceId := by
                cases hpayload : r.payload with
                | nil => simp [isRawUdsPayload, hpayload] at hraw
                | cons serviceId rest => exact ⟨serviceId, rfl⟩
              exact (ECUContext.answered_handleRawUdsMessage hhead hr
                (hkey ecu henabled (not_not.mp hroute) hecu) hproxy).error
            · cases hproxy
        | none =>
            dsimp only
            cases g.route w targetAddress r.payload with
            | error _ => rfl
            | ok _ => rfl

theorem isRawUdsPayload_of_checksKey {b : ProgrammingState} (h : ChecksKey r b) :
    isRawUdsPayload r.payload = true := by
  obtain ⟨rest, hpayload⟩ := List.head?_eq_some_iff.mp h.1
  rw [hpayload]
  exact decide_eq_true (by decide : sidSecurityAccess ∈ rawServices)

theorem process_raises {e : PyError} (henabled : g.proxyFlashEnabled = true)
    (hroute : targetAddress ∈ routes) (hecu : g.ecus.get? targetAddress = some ecu)
    (hchecks : ChecksKey r ecu.base)
    (hkey : deriveSecurityKey r.security ecu.base.pendingSeed = .error e) :
    (g.process w targetAddress r).error = some e := by
  obtain ⟨o, hhandled, herror⟩ :=
    ECUContext.handleRawUdsMessage_error g.blockLength hchecks hkey
  have hproxy : g.proxy r ecu = some o := by rw [proxy, if_pos henabled, hhandled]
  have haddressed : ¬ (targetAddress ∉ routes ∨ ¬ isRawUdsPayload r.payload) := by
    simp [hroute, isRawUdsPayload_of_checksKey hchecks]
  rw [process, if_neg haddressed, hecu]
  dsimp only
  rw [hproxy]
  exact herror

theorem processPacket_error_iff (hr : met.request.Readable) (p : Packet) :
    (g.processPacket met p).error = none ↔ g.CopesWith met p := by
  have htypes : routingActivationRequest ≠ diagnosticMessage := by decide
  unfold processPacket CopesWith Truncated LacksKey
  split
  · rename_i htype
    rw [htype]
    simp [vehicleIdentRequest, routingActivationRequest, diagnosticMessage]
  split
  · rename_i htype
    by_cases hlength : p.2.length < 2
    · rw [unpackTesterAddress, if_pos hlength]
      exact iff_of_false (Option.some_ne_none _) fun h ↦ h.1 (Or.inl ⟨htype, hlength⟩)
    · rw [unpackTesterAddress, if_neg hlength]
      refine iff_of_true rfl ⟨?_, fun h ↦ htypes (htype.symm.trans h.1)⟩
      rintro (⟨-, h⟩ | ⟨h, -⟩)
      · exact hlength h
      · exact htypes (htype.symm.trans h)
  split
  · rename_i htype
    rw [htype]
    simp [aliveCheckRequest, routingActivationRequest, diagnosticMessage]
  split
  · rename_i hnotRouting _ htype
    by_cases hlength : p.2.length < 4
    · rw [parseDiagnosticPayload, if_pos hlength]
      exact iff_of_false (Option.some_ne_none _) fun h ↦ h.1 (Or.inr ⟨htype, hlength⟩)
    · rw [parseDiagnosticPayload, if_neg hlength]
      have htruncated : ¬ ((p.1 = routingActivationRequest ∧ p.2.length < 2) ∨
          (p.1 = diagnosticMessage ∧ p.2.length < 4)) := by
        rintro (⟨h, -⟩ | ⟨-, h⟩)
        · exact hnotRouting h
        · exact hlength h
      constructor
      · rintro hnone
        refine ⟨htruncated, ?_⟩
        rintro ⟨-, -, henabled, hroute, ecu, e, hecu, hchecks, hkey⟩
        have hraises := process_raises (w := met.surroundings) henabled hroute hecu hchecks hkey
        cases hnone.symm.trans hraises
      · rintro ⟨-, hkey⟩
        refine process_error ⟨hr.original, hr.currentVersion⟩ ?_
        intro ecu henabled hroute hecu hchecks
        cases hderived : deriveSecurityKey met.request.security ecu.base.pendingSeed with
        | ok key => exact ⟨key, rfl⟩
        | error e =>
            exact absurd ⟨htype, not_lt.mp hlength, henabled, hroute, ecu, e, hecu, hchecks, hderived⟩
              hkey
  · rename_i hnotRouting _ hnotDiagnostic
    simp [hnotRouting, hnotDiagnostic]

end DoIPServer

/-! ## A whole connection -/

/-- The packets that the chunks yield, up to the first bad header or the end of the stream. -/
def Doip.framed : List Bytes → Bytes → List Packet
  | [], _ => []
  | data :: later, buffer =>
      if data = [] then []
      else
        match extractPackets (buffer ++ data) with
        | (.error _, _) => []
        | (.ok packets, rest) => packets ++ framed later rest

namespace ClientSession

variable {meet : ℕ → Encounter} {s : ClientSession}

/-- `process` copes with every packet, each in the state that those before it leave. -/
def ServesAll (meet : ℕ → Encounter) : List Packet → ClientSession → Prop
  | [], _ => True
  | p :: packets, s =>
      s.server.CopesWith (meet s.processed.length) p ∧ ServesAll meet packets (s.serve meet p).1

theorem serveAll_append_of_none {packets : List Packet} (h : (s.serveAll meet packets).2 = none)
    (more : List Packet) :
    s.serveAll meet (packets ++ more) = (s.serveAll meet packets).1.serveAll meet more := by
  induction packets generalizing s with
  | nil => rfl
  | cons p packets ih =>
      rw [List.cons_append, serveAll, serveAll]
      rw [serveAll] at h
      rcases hserve : s.serve meet p with ⟨s', _ | e⟩
      · rw [hserve] at h
        exact ih h
      · rw [hserve] at h
        cases h

theorem serveAll_append_of_some {packets : List Packet} {e : PyError}
    (h : (s.serveAll meet packets).2 = some e) (more : List Packet) :
    s.serveAll meet (packets ++ more) = s.serveAll meet packets := by
  induction packets generalizing s with
  | nil => cases h
  | cons p packets ih =>
      rw [List.cons_append, serveAll, serveAll]
      rw [serveAll] at h
      rcases hserve : s.serve meet p with ⟨s', _ | e'⟩
      · rw [hserve] at h
        exact ih h
      · rfl

/-- The loop raises if and only if `process` does not cope with one of the packets. -/
theorem serveAll_error_iff (hmeet : ∀ n, (meet n).request.Readable) (packets : List Packet) :
    (s.serveAll meet packets).2 = none ↔ s.ServesAll meet packets := by
  induction packets generalizing s with
  | nil => exact iff_of_true rfl trivial
  | cons p packets ih =>
      have hcopes := DoIPServer.processPacket_error_iff (g := s.server)
        (hmeet s.processed.length) p
      have herror : (s.serve meet p).2 =
        (s.server.processPacket (meet s.processed.length) p).error := rfl
      rw [← herror] at hcopes
      rw [serveAll, ServesAll, ← hcopes, ← ih]
      rcases s.serve meet p with ⟨s', _ | e⟩
      · simp
      · simp

theorem processed_serveAll {packets : List Packet} (h : (s.serveAll meet packets).2 = none) :
    (s.serveAll meet packets).1.processed = s.processed ++ packets := by
  induction packets generalizing s with
  | nil => exact (List.append_nil _).symm
  | cons p packets ih =>
      rw [serveAll] at h ⊢
      have hprocessed : (s.serve meet p).1.processed = s.processed ++ [p] := rfl
      rcases hserve : s.serve meet p with ⟨s', _ | e⟩
      · rw [hserve] at h hprocessed
        have hserved := ih h
        rw [hprocessed, List.append_assoc, List.singleton_append] at hserved
        exact hserved
      · rw [hserve] at h
        cases h

/-- The handler serves what is framed, and closes unless that raises. -/
theorem handleClient_eq (chunks : List Bytes) (buffer : Bytes) :
    (s.handleClient meet chunks buffer).1 = (s.serveAll meet (framed chunks buffer)).1 ∧
      ((s.handleClient meet chunks buffer).2 = .closed ↔
        (s.serveAll meet (framed chunks buffer)).2 = none) := by
  induction chunks generalizing s buffer with
  | nil => exact ⟨rfl, iff_of_true rfl rfl⟩
  | cons data later ih =>
      rw [handleClient, framed]
      split
      · exact ⟨rfl, iff_of_true rfl rfl⟩
      · rcases extractPackets (buffer ++ data) with ⟨_ | packets, rest⟩
        · exact ⟨rfl, iff_of_true rfl rfl⟩
        · dsimp only
          rcases hserved : s.serveAll meet packets with ⟨s', _ | e⟩
          · rw [serveAll_append_of_none (by rw [hserved]), hserved]
            exact ih rest
          · rw [serveAll_append_of_some (by rw [hserved]), hserved]
            exact ⟨rfl, iff_of_false Ending.noConfusion (Option.some_ne_none e)⟩

/-- Where keys can be derived, a packet has to be long enough and no more. -/
theorem servesAll_iff_of_usable (hkey : ∀ n, (meet n).request.security.Usable)
    (packets : List Packet) : s.ServesAll meet packets ↔ ∀ p ∈ packets, ¬ Truncated p := by
  induction packets generalizing s with
  | nil => exact iff_of_true trivial (by simp)
  | cons p packets ih =>
      have hlacks : ¬ s.server.LacksKey (meet s.processed.length) p := by
        rintro ⟨-, -, -, -, ecu, e, -, -, herror⟩
        obtain ⟨key, hderived⟩ := hkey s.processed.length ecu.base.pendingSeed
        cases hderived.symm.trans herror
      rw [ServesAll, ih, List.forall_mem_cons, DoIPServer.CopesWith]
      exact and_congr_left' (and_iff_left hlacks)

end ClientSession

open ClientSession

/-- `process` raises on no packet but one that is too short for its structure or that carries a key
where no key can be derived, and `handle_client` closes the connection of every client that sends
no such packet. -/
theorem client_handler_survives_iff (meet : ℕ → Encounter)
    (hmeet : ∀ n, (meet n).request.Readable) :
    (∀ (g : DoIPServer) (n : ℕ) (p : Packet),
      (g.processPacket (meet n) p).error = none ↔ g.CopesWith (meet n) p) ∧
    ∀ (g : DoIPServer) (chunks : List Bytes),
      (handleClient meet chunks [] { server := g }).2 = .closed ↔
        ServesAll meet (framed chunks []) { server := g } := by
  refine ⟨fun g n p ↦ DoIPServer.processPacket_error_iff (hmeet n) p, fun g chunks ↦ ?_⟩
  rw [(handleClient_eq chunks []).2, serveAll_error_iff hmeet]

/-! ## A client of a gateway without ECUs -/

def idleEncounter : Encounter where
  surroundings :=
    { router := ⟨[]⟩
      deliver := fun _ _ ↦ .error (.timeoutError "Timed out waiting for zone response")
      overCan := fun _ _ ↦ .error (.timeoutError "Timed out waiting for CAN response") }
  request := { payload := [], original := .ok [] }

def idleServer : DoIPServer := { ecus := Dict.ofPairs [] }

theorem readable_idleEncounter : idleEncounter.request.Readable := ⟨⟨[], rfl⟩, ⟨"1.0.0", rfl⟩⟩

theorem usable_idleEncounter : idleEncounter.request.security.Usable :=
  fun seed ↦ ⟨deriveDemoSecurityKey seed, if_neg (by decide)⟩

/-- One chunk of whole packets. -/
theorem framed_streamOf {all : List Packet} (hall : ∀ p ∈ all, Doip.Encodable p)
    (hne : streamOf all ≠ []) :
    framed [streamOf all] [] = all := by
  have hextract : extractPackets (streamOf all ++ []) = (.ok all, []) :=
    extractPackets_streamOf hall (by decide)
  rw [List.append_nil] at hextract
  rw [framed, if_neg hne, List.nil_append, hextract]
  exact List.append_nil all

/-- A vehicle identification request and a routing activation. -/
theorem client_handler_survives_idle :
    (handleClient (fun _ ↦ idleEncounter) [streamOf [(vehicleIdentRequest, []),
      (routingActivationRequest, [0x0E, 0x80])]] [] { server := idleServer }).2 = .closed := by
  refine ((client_handler_survives_iff (fun _ ↦ idleEncounter)
    fun _ ↦ readable_idleEncounter).2 _ _).mpr ?_
  rw [servesAll_iff_of_usable fun _ ↦ usable_idleEncounter,
    framed_streamOf (by simp [Doip.Encodable, vehicleIdentRequest, routingActivationRequest]) (by decide)]
  simp [Truncated, vehicleIdentRequest, routingActivationRequest, diagnosticMessage]

/-- A routing activation without an address ends the handler in front of `client.close()`. -/
theorem truncated_activation_raises :
    (idleServer.processPacket idleEncounter (routingActivationRequest, [])).error ≠ none ∧
      (handleClient (fun _ ↦ idleEncounter) [streamOf [(routingActivationRequest, [])]] []
        { server := idleServer }).2 ≠ .closed := by
  have htruncated : Truncated (routingActivationRequest, []) := Or.inl ⟨rfl, by decide⟩
  constructor
  · exact Option.some_ne_none _
  · rw [Ne, (handleClient_eq _ _).2, serveAll_error_iff fun _ ↦ readable_idleEncounter,
      framed_streamOf (by simp [Doip.Encodable, routingActivationRequest]) (by decide)]
    exact fun hserves ↦ hserves.1.1 htruncated

end VehicleOta
