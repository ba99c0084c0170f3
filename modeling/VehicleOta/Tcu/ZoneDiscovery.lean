import VehicleOta.Tcu.EcuDiscovery
import VehicleOta.Vehicle.TopologySpec
import VehicleOta.Zones.ZoneController

/-!
# Discovery over the zones and over DoIP

`ECUDiscovery._discover_can_via_zones` and `_discover_doip` of `tcu/ecu_discovery.py`.
-/

namespace VehicleOta.Tcu

open VehicleTopology

/-- The record with its fields `can_channel` and `dependencies`, which nothing behind the
discovery reads. -/
structure DiscoveredEcu extends ECU where
  canChannel : String
  dependencies : List String
  deriving DecidableEq

/-- The `Vehicle` of these records. -/
structure DiscoveredVehicle where
  ecus : Dict ℕ DiscoveredEcu

namespace DiscoveredVehicle

def addEcu (v : DiscoveredVehicle) (ecu : DiscoveredEcu) : DiscoveredVehicle :=
  ⟨v.ecus.set ecu.ecuId ecu⟩

def getAllEcus (v : DiscoveredVehicle) : List DiscoveredEcu := v.ecus.values

end DiscoveredVehicle

namespace ECUDiscovery

/-- `_can_id_for_name` -/
def canIdForName (ecuName : String) : ℕ :=
  if ecuName = "Gateway ECU" then 0x201
  else if ecuName = "BCM ECU" then 0x202
  else if ecuName = "Cluster ECU" then 0x203
  else 0x200

/-- What the version read of a logical address raises or finds in the answer. -/
abbrev VersionRead := ℤ → Except PyError (Option String)

/-- `normalize_version` of the version found. -/
def normalizeRead : Option String → Except PyError String
  | none => .error (.valueError "Version value cannot be None")
  | some version => normalizeVersion version

/-- The local variables `discovered` and `vehicle`. -/
structure Survey where
  discovered : List ℕ := []
  vehicle : DiscoveredVehicle := ⟨Dict.empty⟩

/-- An ECU that is asked for its version, and the answer. -/
structure Sighting where
  ecuName : String
  canChannel : String
  answer : Except PyError (Option String)

/-- The rest of the loop body; an ECU that raises is skipped. -/
def enter (t : VehicleTopology) (transport : String) (s : Survey) (seen : Sighting) :
    Except PyError Survey :=
  match seen.answer with
  | .error _ => .ok s
  | .ok version =>
      let ecuId := canIdForName seen.ecuName
      if ecuId ∈ s.discovered then .ok s
      else do
        let currentVersion ← normalizeRead version
        let dependencies ← t.dependencyForCanId ecuId
        return {
          discovered := s.discovered ++ [ecuId]
          vehicle := s.vehicle.addEcu {
            ecuId, currentVersion, transport, dependencies
            ecuName := seen.ecuName
            canChannel := seen.canChannel } }

/-- The state of the zone services, by the id of the zone. -/
abbrev ZoneServices := String → ZoneController

def ZoneServices.controller (services : ZoneServices) (zone : ZoneConfig) : ZoneController :=
  { services zone.zoneId with config := zone }

/-- The entries of the inventories that are in use, in their order. -/
def zoneSightings (services : ZoneServices) (now : ℚ) (read : VersionRead)
    (registry : Dict String ZoneConfig) : List Sighting :=
  registry.values.flatMap fun zone ↦
    (((services.controller zone).inventory now).filter fun entry ↦ ZoneController.usable entry.state).map
      fun entry ↦ ⟨entry.ecuName, zone.canChannel, read entry.logicalAddress⟩

/-- `_discover_can_via_zones` -/
def discoverCanViaZones (t : VehicleTopology) (services : ZoneServices) (now : ℚ)
    (read : VersionRead) (transport : String) : Except PyError DiscoveredVehicle := do
  let registry ← t.buildZoneRegistry
  let s ← (zoneSightings services now read registry).foldlM (enter t transport) {}
  return s.vehicle

/-- `_discover_doip` on a connected and activated client, before the deadline. -/
def discoverDoip (t : VehicleTopology) (read : VersionRead) (transport : String) :
    Except PyError DiscoveredVehicle := do
  let registry ← t.ecuRegistry
  let s ← (registry.entries.map fun entry ↦
    Sighting.mk entry.1 "doip" (read entry.2.logicalAddress)).foldlM (enter t transport) {}
  return s.vehicle

end ECUDiscovery

end VehicleOta.Tcu
