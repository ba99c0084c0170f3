import VehicleOta.Firmware.ImageFormat
import VehicleOta.Python.Hex
import VehicleOta.Tcu.Models

/-!
# Firmware compatibility

`FirmwareCompatibilityValidator.validate` of `tcu/firmware_compatibility.py`, on the manifest
that `FirmwareManifest.load` returns and the files below the working directory.
-/

namespace VehicleOta.Tcu

open Hash Firmware

/-- The manifest of a release with its `_trusted_targets`. -/
structure Manifest where
  releaseVersion : String
  packages : List Package
  trustedTargets : Dict String TrustedTarget := Dict.empty

namespace FirmwareCompatibilityValidator

/-! ## Library functions -/

/-- One step of `os.path.join`. -/
def joinPath (path component : String) : String :=
  if component.toList.head? = some '/' then component
  else if path = "" ∨ path.toList.getLast? = some '/' then path ++ component
  else path ++ "/" ++ component

/-- A digit of `int(text, 16)`, which may be a decimal of any script. -/
def hexValue? (c : Char) : Option ℕ := (decimalValue? c).or (hexDigitValue? c)

def dropHexPrefix : List Char → List Char
  | '0' :: x :: rest =>
      if x = 'x' ∨ x = 'X' then
        match rest with
        | '_' :: digits => digits
        | digits => digits
      else '0' :: x :: rest
  | digits => digits

def unsignedHex (text : String) (digits : List Char) : Except PyError ℕ :=
  let groups := (dropHexPrefix digits).splitOn '_'
  if groups.any List.isEmpty ∨ ¬ groups.flatten.all fun c ↦ (hexValue? c).isSome then
    .error (.valueError ("invalid literal for int() with base 16: '" ++ text ++ "'"))
  else .ok (groups.flatten.foldl (fun n c ↦ 16 * n + (hexValue? c).getD 0) 0)

/-- `int(text, 16)` -/
def parseHex (text : String) : Except PyError ℤ :=
  match strip text.toList with
  | '-' :: digits => do return -((← unsignedHex text digits : ℕ) : ℤ)
  | '+' :: digits => do return ((← unsignedHex text digits : ℕ) : ℤ)
  | digits => do return ((← unsignedHex text digits : ℕ) : ℤ)

/-! ## The checks on one ECU -/

variable (manifest : Manifest) (files : String → Option Bytes) (requireDownloadedFiles : Bool)
  (campaign : Campaign)

def firmwarePath (package : Package) : String :=
  joinPath (joinPath (joinPath "firmware" "releases") manifest.releaseVersion) package.file

/-- The trusted target binds the package to the ECU. -/
def trustedMatches (ecu : ECU) (package : Package) (trusted : TrustedTarget) : Bool :=
  trusted.custom.ecuName = some ecu.ecuName ∧
    trusted.custom.hardwareVariant = some package.hardwareVariant ∧
    trusted.custom.targetVersion = some package.targetVersion ∧
    ∀ sha256 ∈ package.sha256, sha256 ≠ "" → trusted.sha256 = sha256

/-- The header of the downloaded image fits the package. -/
def headerMatchesPackage (package : Package) (metadata : FirmwareImageMetadata) :
    Except PyError Bool := do
  if metadata.ecuName ≠ package.ecuName then return false
  else if metadata.targetVersion ≠ package.targetVersion then return false
  else
    let addressMatches ← match package.flashAddress with
      | none => pure true
      | some address => do return decide ((metadata.flashAddress : ℤ) = (← parseHex address))
    if !addressMatches then return false
    else return decide (∀ partNumber ∈ package.partNumber, partNumber ≠ "" →
      metadata.partNumber = partNumber)

/-- The size of the artifact, or nothing where the downloaded file is refused. -/
def artifactSize (package : Package) (trusted : TrustedTarget) : Except PyError (Option ℤ) :=
  if !requireDownloadedFiles then .ok (some trusted.length)
  else
    match files (firmwarePath manifest package) with
    | none => .ok none
    | some firmwareBytes =>
        match parseFirmwareImage firmwareBytes with
        | .error _ => .ok none
        | .ok metadata => do
            if !(← headerMatchesPackage package metadata) then return none
            else if trusted.length ≠ firmwareBytes.length then return none
            else if hexDigest (sha256 firmwareBytes) ≠ trusted.sha256 then return none
            else return some firmwareBytes.length

/-- `package.get("transport_support")`, or the one transport of the package. -/
def supportedTransports (package : Package) : Except PyError (List String) :=
  match package.transportSupport with
  | some transports => .ok transports
  | none =>
      match package.transport with
      | some transport => .ok [transport]
      | none => .error (.keyError "transport")

/-- The ECU can take the package. -/
def ecuAccepts (ecu : ECU) (package : Package) : Except PyError Bool := do
  if ecu.hardwareVariant ≠ package.hardwareVariant then return false
  else if ← versionLt ecu.bootloaderVersion package.minimumBootloader then return false
  else
    let supported := (← supportedTransports package).map normalizeTransport
    if normalizeTransport campaign.transport ∉ supported then return false
    else if ← versionEq ecu.currentVersion package.targetVersion then return false
    else return !(← versionGte ecu.currentVersion package.targetVersion)

/-- The checks behind the campaign policy. -/
def checkPackage (ecu : ECU) : Except PyError (Option EligibleUpdate) :=
  match manifest.packages.find? fun package ↦ package.ecuName = ecu.ecuName with
  | none => .ok none
  | some package =>
      match manifest.trustedTargets.get? package.file with
      | none => .ok none
      | some trusted =>
          if !trustedMatches ecu package trusted then .ok none
          else do
            match ← artifactSize manifest files requireDownloadedFiles package trusted with
            | none => return none
            | some size =>
                if !(← ecuAccepts campaign ecu package) then return none
                else if size ≤ 0 then return none
                else return some { ecu, package, size, firmwarePath := firmwarePath manifest package }

/-! ## The loop -/

/-- `{str(name).strip() for name in target_names if str(name).strip()}` -/
def selectedTargets (targetNames : List String) : List String :=
  (targetNames.map fun name ↦ String.ofList (strip name.toList)).filter (· ≠ "")

/-- The two tests in front of the package checks; an empty list filters nothing. -/
def admitted (targetNames : List String) (ecu : ECU) : Bool :=
  let selected := selectedTargets targetNames
  (selected = [] ∨ ecu.ecuName ∈ selected) ∧
    (campaign.approvedTargets = [] ∨ ecu.ecuName ∈ campaign.approvedTargets)

def checkEcu (targetNames : List String) (eligibleUpdates : List EligibleUpdate) (ecu : ECU) :
    Except PyError (List EligibleUpdate) :=
  if !admitted campaign targetNames ecu then .ok eligibleUpdates
  else do
    match ← checkPackage manifest files requireDownloadedFiles campaign ecu with
    | none => return eligibleUpdates
    | some entry => return eligibleUpdates ++ [entry]

def validate (vehicle : Vehicle) (targetNames : List String) :
    Except PyError (List EligibleUpdate) :=
  vehicle.getAllEcus.foldlM
    (checkEcu manifest files requireDownloadedFiles campaign targetNames) []

end FirmwareCompatibilityValidator

end VehicleOta.Tcu
