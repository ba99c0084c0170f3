import VehicleOta.Common.JsonRoundTrip

/-!
# Runtime control

`ecus/base/runtime_control.py`: the switches of an ECU, in a JSON file that may be missing or
broken.
-/

namespace VehicleOta.Ecu

/-- The dictionary with its three keys; the defaults are `DEFAULT_RUNTIME_CONTROL`. -/
structure RuntimeControl where
  heartbeatEnabled : Bool := true
  diagnosticsEnabled : Bool := true
  programmingEnabled : Bool := true
  deriving DecidableEq

namespace RuntimeControl

/-- The value of a switch that stands in the file, or its default. -/
def switch (data : Json) (key : String) : Except PyError Bool := do
  if ← data.contains (.str key) then return (← data.getItem key).truthy else return true

/-- `load_runtime_control` on the text of the file. -/
def load (float : List Char → Json) : Option (List Char) → Except PyError RuntimeControl
  | none => .ok {}
  | some text =>
      match Json.loads float text with
      | .error .decodeError => .ok {}
      | .error (.valueError e) => .error e
      | .ok data => do
          return { heartbeatEnabled := ← switch data "heartbeat_enabled"
                   diagnosticsEnabled := ← switch data "diagnostics_enabled"
                   programmingEnabled := ← switch data "programming_enabled" }

/-- The text that `save_runtime_control` writes. -/
def save (control : RuntimeControl) : List Char :=
  Json.dump (.indented 2) 0 (.dict [("heartbeat_enabled", .bool control.heartbeatEnabled),
    ("diagnostics_enabled", .bool control.diagnosticsEnabled),
    ("programming_enabled", .bool control.programmingEnabled)]) ++ ['\n']

theorem load_save (float : List Char → Json) (control : RuntimeControl) :
    load float (some control.save) = .ok control := by
  have hprintable : Json.Printable float (.dict
      [("heartbeat_enabled", .bool control.heartbeatEnabled),
        ("diagnostics_enabled", .bool control.diagnosticsEnabled),
        ("programming_enabled", .bool control.programmingEnabled)]) := by
    apply Json.Printable.dict
    · exact (by decide : ["heartbeat_enabled", "diagnostics_enabled", "programming_enabled"].Nodup)
    · simp only [List.forall_mem_cons, List.not_mem_nil, false_implies, implies_true, and_true]
      exact ⟨.bool _, .bool _, .bool _⟩
  have hread := @Json.loads_dump float _ hprintable (.indented 2) ['\n'] (by simp [Json.isBlank])
  rw [load, save, hread]
  rfl

end RuntimeControl

end VehicleOta.Ecu
