import VehicleOta.Crash.Persist
import VehicleOta.Vehicle.TopologyLoader

/-!
# The topology of a scenario

`_apply_topology_mutations` of `tcu/scenario_runner.py`.  The zones of a topology are dictionaries
that are changed in place, so they are objects on a heap; the other values are never changed.  The
fields that the function does not look at stay as they are, whatever they are.
-/

namespace VehicleOta.Tcu

open CrashLogic

/-- A zone: the list under `ecus`, and its other fields. -/
structure ZoneObject (ζ ε : Type) where
  fields : ζ
  ecus : List ε

/-- The zone objects by reference, and the next reference that is free. -/
structure Heap (ζ ε : Type) where
  zones : ℕ → ZoneObject ζ ε
  next : ℕ

/-- A topology: the references under `zones`, and its other fields. -/
structure TopologyObject (τ : Type) where
  other : τ
  zones : List ℕ

/-- What `VehicleTopology` reads from the fields of zones, ECUs and topologies. -/
structure Reading (ζ ε τ : Type) where
  zone : ζ → ZoneEntry
  ecu : ε → EcuEntry
  services : τ → List ℤ

/-- A scenario.  The `network` and `policy` overrides of a zone are a change of its fields. -/
structure Scenario (ζ : Type) where
  topologyMode : String := "default"
  zoneAssignments : Dict String String := Dict.empty
  dropEmptyZones : Bool := true
  zoneOverrides : List (String × (ζ → ζ)) := []

/-- `TOPOLOGY_MODE_DEFINITIONS` -/
def topologyModeDefinitions : Dict String (Dict String String) :=
  Dict.ofPairs [("default", Dict.empty),
    ("body_two_ecus", Dict.ofPairs [("Cluster ECU", "body_zone")])]

variable {ζ ε τ : Type}

namespace Heap

def alloc (h : Heap ζ ε) (zone : ZoneObject ζ ε) : Heap ζ ε where
  zones := Function.update h.zones h.next zone
  next := h.next + 1

def modify (h : Heap ζ ε) (ref : ℕ) (f : ZoneObject ζ ε → ZoneObject ζ ε) : Heap ζ ε :=
  { h with zones := Function.update h.zones ref (f (h.zones ref)) }

theorem zones_alloc_next (h : Heap ζ ε) (zone : ZoneObject ζ ε) :
    (h.alloc zone).zones h.next = zone := Function.update_self _ _ _

theorem zones_alloc_of_lt (h : Heap ζ ε) (zone : ZoneObject ζ ε) {ref : ℕ} (href : ref < h.next) :
    (h.alloc zone).zones ref = h.zones ref := Function.update_of_ne href.ne _ _

theorem zones_modify_self (h : Heap ζ ε) (ref : ℕ) (f : ZoneObject ζ ε → ZoneObject ζ ε) :
    (h.modify ref f).zones ref = f (h.zones ref) := Function.update_self _ _ _

theorem zones_modify_of_ne (h : Heap ζ ε) {ref other : ℕ} (f : ZoneObject ζ ε → ZoneObject ζ ε)
    (hne : other ≠ ref) : (h.modify ref f).zones other = h.zones other :=
  Function.update_of_ne hne _ _

end Heap

/-- The topology as `VehicleTopology` reads it. -/
def TopologyObject.read (r : Reading ζ ε τ) (h : Heap ζ ε) (topology : TopologyObject τ) :
    VehicleTopology where
  allowedUdsServices := r.services topology.other
  zones := topology.zones.map fun ref ↦
    { r.zone (h.zones ref).fields with ecus := (h.zones ref).ecus.map r.ecu }

/-- Programs that change zones. -/
abbrev ScenarioM (ζ ε : Type) := Persist Unit (Heap ζ ε) PyError

namespace ScenarioRunner

def modifyZone (ref : ℕ) (f : ZoneObject ζ ε → ZoneObject ζ ε) : ScenarioM ζ ε Unit :=
  Persist.write () fun h ↦ h.modify ref f

/-- `deepcopy(topology)`, on the zones. -/
def copyZones : List ℕ → ScenarioM ζ ε (List ℕ)
  | [] => pure []
  | ref :: refs => do
      let copy ← Persist.reads fun h ↦ h.next
      Persist.write () fun h ↦ h.alloc (h.zones ref)
      let copies ← copyZones refs
      return copy :: copies

variable (r : Reading ζ ε τ)

def zoneId (zone : ZoneObject ζ ε) : Except PyError String :=
  required "zone_id" (r.zone zone.fields).zoneId

def ecuName (ecu : ε) : Except PyError String := required "ecu_name" (r.ecu ecu).ecuName

/-- `all_ecus` -/
def allEcus (zones : List (ZoneObject ζ ε)) : Except PyError (Dict String ε) :=
  zones.foldlM (fun ecus zone ↦ do
    let _ ← zoneId r zone
    zone.ecus.foldlM (fun ecus ecu ↦ do
      let name ← ecuName r ecu
      return ecus.set name ecu) ecus) Dict.empty

/-- `_original_zone_by_ecu` -/
def originalZoneByEcu (zones : List (ZoneObject ζ ε)) : Except PyError (Dict String String) :=
  zones.foldlM (fun mapping zone ↦
    zone.ecus.foldlM (fun mapping ecu ↦ do
      let zoneId ← zoneId r zone
      let name ← ecuName r ecu
      return mapping.set name zoneId) mapping) Dict.empty

/-- `zone_index`, by the zones with their references. -/
def zoneIndex (zones : List (ℕ × ZoneObject ζ ε)) : Except PyError (Dict String ℕ) :=
  zones.foldlM (fun index zone ↦ do
    let zoneId ← zoneId r zone.2
    return index.set zoneId zone.1) Dict.empty

/-- The entry of `target_zone_by_ecu` for an ECU. -/
def targetZone (zoneAssignments original : Dict String String) (ecuName : String) :
    Except PyError String := do
  let home ← required ecuName (original.get? ecuName)
  return (zoneAssignments.get? ecuName).getD home

/-- An ECU is appended to its target zone. -/
def place (index : Dict String ℕ) (placement : (String × ε) × String) : ScenarioM ζ ε Unit :=
  match index.get? placement.2 with
  | none => Persist.raise (.runtimeError
      ("Scenario assigns " ++ placement.1.1 ++ " to unknown zone " ++ placement.2))
  | some ref => modifyZone ref fun zone ↦ { zone with ecus := zone.ecus ++ [placement.1.2] }

def overrideZone (index : Dict String ℕ) (change : String × (ζ → ζ)) : ScenarioM ζ ε Unit :=
  match index.get? change.1 with
  | none => Persist.raise (.runtimeError ("Unknown zone override target: " ++ change.1))
  | some ref => modifyZone ref fun zone ↦ { zone with fields := change.2 zone.fields }

/-- `sorted(zone["ecus"], key=lambda ecu: ecu["ecu_name"])` -/
def sortEcus (ecus : List ε) : List ε :=
  ecus.insertionSort fun a b ↦ (r.ecu a).name ≤ (r.ecu b).name

def topologyProfile (topologyMode : String) : Except PyError (Dict String String) :=
  match topologyModeDefinitions.get? topologyMode with
  | none => .error (.runtimeError ("Unknown topology_mode: " ++ topologyMode))
  | some zoneAssignments => .ok zoneAssignments

/-- The assignments of the mode, updated with those of the scenario. -/
def zoneAssignments (scenario : Scenario ζ) (profile : Dict String String) : Dict String String :=
  profile.update scenario.zoneAssignments.entries

/-- `_apply_topology_mutations` -/
def applyTopologyMutations (scenario : Scenario ζ) (topology : TopologyObject τ) :
    ScenarioM ζ ε (TopologyObject τ) := do
  let compiled ← copyZones topology.zones
  let profile ← Persist.ofExcept (topologyProfile scenario.topologyMode)
  let ecus ← Persist.reads fun h ↦ allEcus r (compiled.map h.zones)
  let ecus ← Persist.ofExcept ecus
  Persist.forEach compiled fun ref ↦ modifyZone ref fun zone ↦ { zone with ecus := [] }
  let original ← Persist.reads fun h ↦ originalZoneByEcu r (topology.zones.map h.zones)
  let original ← Persist.ofExcept original
  let placements ← Persist.ofExcept (ecus.entries.mapM fun ecu ↦ do
    let target ← targetZone (zoneAssignments scenario profile) original ecu.1
    return (ecu, target))
  let index ← Persist.reads fun h ↦ zoneIndex r (compiled.map fun ref ↦ (ref, h.zones ref))
  let index ← Persist.ofExcept index
  Persist.forEach placements (place index)
  Persist.forEach scenario.zoneOverrides (overrideZone index)
  Persist.forEach compiled fun ref ↦ modifyZone ref fun zone ↦
    { zone with ecus := sortEcus r zone.ecus }
  let kept ← Persist.reads fun h ↦ compiled.filter fun ref ↦
    !scenario.dropEmptyZones || !(h.zones ref).ecus.isEmpty
  return { topology with zones := kept }

end ScenarioRunner

end VehicleOta.Tcu
