import VehicleOta.Python.Basics

/-!
# The vehicle topology

`VehicleTopology` of `vehicle/topology_loader.py`: the checks of a topology file, and the
registries that the gateway, the zones and the TCU build from it.
-/

namespace VehicleOta

/-- An ECU of a zone.  A field without a default may be missing in the file; the numbers are what
`parse_int` reads. -/
structure EcuEntry where
  ecuName : Option String
  logicalAddress : Option ℤ
  canId : Option ℤ
  criticality : String := "optional"
  dependencies : List String := []
  onUnavailable : String := "skip"
  onDependencyFailed : String := "skip"
  deriving DecidableEq

/-- A zone with its `policy`; without `allowedServices` the policy is "ota_default". -/
structure ZoneEntry where
  zoneId : Option String
  displayName : Option String
  channel : Option String
  servicePort : Option ℤ
  defaultHealth : String := "ONLINE"
  programmingAllowed : Bool := true
  allowedServices : Option (List ℤ) := none
  ecus : List EcuEntry := []

/-- `VehicleTopology.data` -/
structure VehicleTopology where
  allowedUdsServices : List ℤ := []
  zones : List ZoneEntry := []

/-- `d[key]` -/
def required {α : Type} (key : String) : Option α → Except PyError α
  | none => .error (.keyError key)
  | some value => .ok value

/-- `hex(n)` -/
def hex (n : ℤ) : String :=
  (if n < 0 then "-0x" else "0x") ++ String.ofList (Nat.toDigits 16 n.natAbs)

namespace EcuEntry

/-! The fields of an ECU that has them. -/

def name (ecu : EcuEntry) : String := ecu.ecuName.getD ""

def address (ecu : EcuEntry) : ℤ := ecu.logicalAddress.getD 0

def can (ecu : EcuEntry) : ℤ := ecu.canId.getD 0

end EcuEntry

def ZoneEntry.id (zone : ZoneEntry) : String := zone.zoneId.getD ""

namespace VehicleTopology

/-! ## The registries -/

/-- An ECU in the registry of the zones. -/
structure EcuInfo where
  ecuName : String
  canId : ℤ
  criticality : String
  dependencies : List String
  onUnavailable : String
  onDependencyFailed : String
  deriving DecidableEq

/-- What a zone controller is configured with. -/
structure ZoneConfig where
  zoneId : String
  displayName : String
  canChannel : String
  servicePort : ℤ
  defaultHealth : String
  programmingAllowed : Bool
  allowedServices : List ℤ
  ecus : Dict ℤ EcuInfo

/-- An ECU in the registry by name. -/
structure RegistryEntry where
  logicalAddress : ℤ
  canId : ℤ
  zoneId : String
  canChannel : String
  dependencies : List String
  criticality : String
  onUnavailable : String
  onDependencyFailed : String
  deriving DecidableEq

def ecuInfo (ecu : EcuEntry) : Except PyError (ℤ × EcuInfo) := do
  let logicalAddress ← required "logical_address" ecu.logicalAddress
  let ecuName ← required "ecu_name" ecu.ecuName
  let canId ← required "can_id" ecu.canId
  return (logicalAddress, {
    ecuName, canId
    criticality := ecu.criticality
    dependencies := ecu.dependencies
    onUnavailable := ecu.onUnavailable
    onDependencyFailed := ecu.onDependencyFailed })

def zoneConfig (t : VehicleTopology) (zone : ZoneEntry) : Except PyError (String × ZoneConfig) := do
  let ecus ← zone.ecus.mapM ecuInfo
  let zoneId ← required "zone_id" zone.zoneId
  let displayName ← required "display_name" zone.displayName
  let canChannel ← required "channel" zone.channel
  let servicePort ← required "service_port" zone.servicePort
  return (zoneId, {
    zoneId, displayName, canChannel, servicePort
    defaultHealth := zone.defaultHealth
    programmingAllowed := zone.programmingAllowed
    allowedServices := zone.allowedServices.getD t.allowedUdsServices
    ecus := Dict.ofPairs ecus })

/-- `build_zone_registry` -/
def buildZoneRegistry (t : VehicleTopology) : Except PyError (Dict String ZoneConfig) := do
  return Dict.ofPairs (← t.zones.mapM t.zoneConfig)

def registryEntry (zone : ZoneConfig) (entry : ℤ × EcuInfo) : String × RegistryEntry :=
  (entry.2.ecuName, {
    logicalAddress := entry.1
    canId := entry.2.canId
    zoneId := zone.zoneId
    canChannel := zone.canChannel
    dependencies := entry.2.dependencies
    criticality := entry.2.criticality
    onUnavailable := entry.2.onUnavailable
    onDependencyFailed := entry.2.onDependencyFailed })

/-- `ecu_registry` -/
def ecuRegistry (t : VehicleTopology) : Except PyError (Dict String RegistryEntry) := do
  let zones ← t.buildZoneRegistry
  return Dict.ofPairs (zones.values.flatMap fun zone ↦ zone.ecus.entries.map (registryEntry zone))

/-- `dependency_for_can_id` -/
def dependencyForCanId (t : VehicleTopology) (canId : ℤ) : Except PyError (List String) := do
  match (← t.ecuRegistry).values.find? fun entry ↦ entry.canId = canId with
  | some entry => return entry.dependencies
  | none => return []

/-! ## The checks -/

/-- The sets of `_dependency_cycle_errors`. -/
structure CycleSearch where
  visiting : List String := []
  visited : List String := []
  errors : List String := []

/-- The inner function `visit`, to a depth below `fuel`. -/
def visit (dependencies : Dict String (List String)) :
    (fuel : ℕ) → (node : String) → (path : List String) → CycleSearch → Option CycleSearch
  | 0, _, _, _ => none
  | fuel + 1, node, path, s =>
      if node ∈ s.visiting then
        some { s with errors := s.errors ++
          ["dependency cycle detected: " ++ " -> ".intercalate (path ++ [node])] }
      else if node ∈ s.visited then some s
      else do
        let s ← ((dependencies.get? node).getD []).foldlM
          (fun s dependency ↦ visit dependencies fuel dependency (path ++ [node]) s)
          { s with visiting := node :: s.visiting }
        return { s with visiting := s.visiting.erase node, visited := s.visited ++ [node] }

/-- `_dependency_cycle_errors`: a path of the search holds every key once, and one more name.  The
limit that the interpreter sets to the depth of a recursion is left out. -/
def dependencyCycleErrors (dependencies : Dict String (List String)) : Option (List String) := do
  let s ← dependencies.keys.foldlM
    (fun s node ↦ visit dependencies (dependencies.keys.length + 2) node [] s) {}
  return s.errors

structure ValidationState where
  errors : List String := []
  zoneIds : List String := []
  servicePorts : List ℤ := []
  canChannels : List String := []
  ecuNames : List String := []
  logicalAddresses : List ℤ := []
  canIds : List ℤ := []
  dependencies : Dict String (List String) := Dict.empty

/-- The error for a value that occurred before. -/
def duplicate {α : Type} [DecidableEq α] (message : String) (value : α) (seen : List α) :
    List String :=
  if value ∈ seen then [message] else []

/-- The body of the loop over the ECUs of a zone. -/
def validateEcu (zoneId : String) (s : ValidationState) (ecu : EcuEntry) :
    Except PyError ValidationState :=
  if ecu.name = "" then
    .ok { s with errors := s.errors ++ [zoneId ++ " has ECU without ecu_name"] }
  else do
    let logicalAddress ← required "logical_address" ecu.logicalAddress
    let canId ← required "can_id" ecu.canId
    return { s with
      errors := s.errors ++
        (duplicate ("duplicate ECU name: " ++ ecu.name) ecu.name s.ecuNames ++
        duplicate ("duplicate logical address: " ++ hex logicalAddress) logicalAddress
          s.logicalAddresses ++
        duplicate ("duplicate CAN ID: " ++ hex canId) canId s.canIds)
      ecuNames := s.ecuNames ++ [ecu.name]
      logicalAddresses := s.logicalAddresses ++ [logicalAddress]
      canIds := s.canIds ++ [canId]
      dependencies := s.dependencies.set ecu.name ecu.dependencies }

/-- What the loop over the zones finds in a zone itself. -/
def zoneErrors (s : ValidationState) (zone : ZoneEntry) : List String :=
  let port := zone.servicePort.getD 0
  let channel := zone.channel.getD ""
  (if zone.id = "" then ["zone missing zone_id"]
    else duplicate ("duplicate zone_id: " ++ zone.id) zone.id s.zoneIds) ++
  (if port ≤ 0 then [zone.id ++ " has invalid service_port"]
    else duplicate ("duplicate service_port: " ++ toString port) port s.servicePorts) ++
  if channel = "" then [zone.id ++ " missing CAN channel"]
    else duplicate ("duplicate CAN channel: " ++ channel) channel s.canChannels

/-- The body of the loop over the zones. -/
def validateZone (s : ValidationState) (zone : ZoneEntry) : Except PyError ValidationState :=
  zone.ecus.foldlM (validateEcu zone.id) { s with
    errors := s.errors ++ zoneErrors s zone
    zoneIds := s.zoneIds ++ [zone.id]
    servicePorts := s.servicePorts ++ [zone.servicePort.getD 0]
    canChannels := s.canChannels ++ [zone.channel.getD ""] }

def unknownDependencies (s : ValidationState) : List String :=
  s.dependencies.entries.flatMap fun entry ↦
    (entry.2.filter fun dependency ↦ dependency ∉ s.ecuNames).map fun dependency ↦
      entry.1 ++ " depends on unknown ECU: " ++ dependency

/-- `validate` -/
def validate (t : VehicleTopology) : Except PyError (List String) := do
  let s ← t.zones.foldlM validateZone {}
  match dependencyCycleErrors s.dependencies with
  | none => throw (.runtimeError "maximum recursion depth exceeded")
  | some cycleErrors => return s.errors ++ unknownDependencies s ++ cycleErrors

end VehicleTopology

end VehicleOta
