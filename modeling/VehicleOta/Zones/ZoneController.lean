import VehicleOta.Vehicle.TopologyLoader

/-!
# The zone controller

`ZoneController` of `zones/base/zone_controller.py`.  The clock is read once in a call, the
environment variables are read in every call, and the exchange with the ECU on the channel of the
zone is the parameter `deliver`.
-/

namespace VehicleOta

/-- The availability states of an ECU. -/
inductive Availability where
  | online
  | starting
  | offline
  | unmonitored
  deriving DecidableEq

/-- The environment variables of a zone.  The items of a set `OTA_ZONE_<id>_ALLOWED_SERVICES` are
given with what `int(item, 0)` makes of them. -/
structure ZoneOptions where
  heartbeatMonitorEnabled : Bool := true
  heartbeatTimeoutSeconds : ℚ := 3
  heartbeatGraceSeconds : ℚ := 5
  health : Option String := none
  allowedServices : Option (Except PyError (List ℤ)) := none
  programmingAllowed : Option String := none

structure ZoneController where
  config : VehicleTopology.ZoneConfig
  options : ZoneOptions := {}
  startedAt : ℚ := 0
  /-- By CAN id. -/
  heartbeatLastSeen : Dict ℤ ℚ := Dict.empty

namespace ZoneController

variable (c : ZoneController) (now : ℚ)

/-- `text.upper()` on the ASCII letters; the names that it is compared with have no others. -/
def upper (text : String) : String := String.ofList (text.toList.map Char.toUpper)

/-- `text.lower()` on the ASCII letters. -/
def lower (text : String) : String := String.ofList (text.toList.map Char.toLower)

/-! ## Availability and health -/

/-- `_ecu_availability` -/
def ecuAvailability (canId : ℤ) : Availability :=
  if ¬ c.options.heartbeatMonitorEnabled then .unmonitored
  else
    match c.heartbeatLastSeen.get? canId with
    | none => if now - c.startedAt < c.options.heartbeatGraceSeconds then .starting else .offline
    | some lastSeen =>
        if now - lastSeen ≤ c.options.heartbeatTimeoutSeconds then .online else .offline

/-- The states in which an ECU is used. -/
def usable : Availability → Bool
  | .offline => false
  | _ => true

def availabilities : List Availability :=
  c.config.ecus.values.map fun ecu ↦ c.ecuAvailability now ecu.canId

/-- `_health_state` -/
def healthState : String :=
  let override := upper (c.options.health.getD "")
  if override ≠ "" ∧ override ≠ "AUTO" then override
  else
    let configured := upper c.config.defaultHealth
    if configured ≠ "AUTO" ∧ ¬ c.options.heartbeatMonitorEnabled then configured
    else if ¬ c.options.heartbeatMonitorEnabled then "ONLINE"
    else
      let states := c.availabilities now
      if Availability.starting ∈ states then "STARTING"
      else if Availability.offline ∈ states then
        if Availability.online ∈ states then "DEGRADED" else "OFFLINE"
      else "ONLINE"

/-- `_health_reason` -/
def healthReason (state : String) : String :=
  if state = "ONLINE" then ""
  else if state = "DEGRADED" then "ZONE_DEGRADED_BUT_OPERATIONAL"
  else if state = "STARTING" then "WAITING_FOR_ECU_HEARTBEAT"
  else if state = "OFFLINE" then "ZONE_OFFLINE"
  else if state = "BUS_OFF" then "ZONE_CAN_BUS_OFF"
  else if state = "SECURITY_LOCKED" then "ZONE_SECURITY_LOCKED"
  else "UNKNOWN_ZONE_HEALTH_" ++ state

/-! ## The inventory -/

/-- What discovery reads of an ECU in the inventory. -/
structure InventoryEntry where
  ecuName : String
  logicalAddress : ℤ
  state : Availability

def inventory : List InventoryEntry :=
  c.config.ecus.entries.map fun entry ↦
    { ecuName := entry.2.ecuName
      logicalAddress := entry.1
      state := c.ecuAvailability now entry.2.canId }

/-! ## Forwarding -/

/-- `_enforce_health` -/
def enforceHealth : Except PyError Unit :=
  let state := c.healthState now
  raiseIf (state ∉ ["ONLINE", "DEGRADED", "STARTING"]) (.runtimeError (healthReason state))

/-- `_enforce_target_online` -/
def enforceTargetOnline (ecu : VehicleTopology.EcuInfo) : Except PyError Unit :=
  raiseIf (¬ usable (c.ecuAvailability now ecu.canId))
    (.runtimeError ("ECU_HEARTBEAT_TIMEOUT:" ++ ecu.ecuName))

/-- `_allowed_services` -/
def allowedServices : Except PyError (List ℤ) :=
  c.options.allowedServices.getD (.ok c.config.allowedServices)

/-- `_programming_allowed` -/
def programmingAllowed : Bool :=
  match c.options.programmingAllowed with
  | none => c.config.programmingAllowed
  | some value => lower value ∈ ["1", "true", "yes", "on"]

def programmingServices : List UInt8 := [0x27, 0x31, 0x34, 0x36, 0x37]

/-- `f"0x{n:02X}"` -/
def hexByte (n : UInt8) : String :=
  "0x" ++ String.ofList (((if n < 16 then ['0'] else []) ++ Nat.toDigits 16 n.toNat).map Char.toUpper)

/-- `_enforce_policy` -/
def enforcePolicy (payload : Bytes) : Except PyError Unit :=
  match payload with
  | [] => .error (.runtimeError "EMPTY_UDS_PAYLOAD")
  | serviceId :: _ => do
      let allowedServices ← c.allowedServices
      raiseIf ((serviceId.toNat : ℤ) ∉ allowedServices)
        (.runtimeError ("UDS_SERVICE_" ++ hexByte serviceId ++ "_BLOCKED_BY_ZONE_POLICY"))
      raiseIf (serviceId ∈ programmingServices ∧ ¬ c.programmingAllowed)
        (.runtimeError "PROGRAMMING_BLOCKED_BY_ZONE_POLICY")

/-- The checks of `forward_uds` and the ECU that the request goes to. -/
def enforce (logicalAddress : ℤ) (payload : Bytes) : Except PyError VehicleTopology.EcuInfo :=
  match c.config.ecus.get? logicalAddress with
  | none => .error (.keyError (hex logicalAddress ++ " is not owned by zone " ++ c.config.zoneId))
  | some ecu => do
      c.enforceHealth now
      c.enforceTargetOnline now ecu
      c.enforcePolicy payload
      return ecu

/-- `forward_uds` -/
def forwardUds (deliver : VehicleTopology.EcuInfo → Bytes → Except PyError (List Bytes))
    (logicalAddress : ℤ) (payload : Bytes) : Except PyError (List Bytes) := do
  deliver (← c.enforce now logicalAddress payload) payload

end ZoneController

end VehicleOta
