import VehicleOta.Tcu.UptaneVerifier

/-!
# The refresh of the trust metadata

`scripts/refresh_demo_trust_metadata.py`: the script that gives the metadata of a release the
next versions, later dates and new signatures.  A document is written and read back unchanged.
-/

namespace VehicleOta.Scripts

open Hash Tcu Tcu.UptaneVerifier

/-- The release directory that the script works on.  The artifacts and the metadata documents are
different files, so writing the latter leaves the former. -/
structure ReleaseDirectory where
  path : String
  metadata : String → JsonFile
  manifest : JsonFile
  artifacts : String → Option Bytes

/-- The directory as a verifier finds it at a later time. -/
def ReleaseDirectory.release (directory : ReleaseDirectory) (now : ℤ) : Release where
  directory := directory.path
  metadata := directory.metadata
  artifacts := directory.artifacts
  now := now

/-! ## Dates -/

/-- `datetime.now(timezone.utc)` in each of the calls of `iso_utc`, in microseconds from the start
of 1970. -/
structure Clock where
  targets : ℤ
  snapshot : ℤ
  timestamp : ℤ

def microsPerDay : ℤ := 86400000000

/-- Year, month and day, for a day counted from the start of 1970. -/
def civil (day : ℤ) : ℕ × ℕ × ℕ :=
  let z := (day + 719468).toNat
  let dayOfEra := z % 146097
  let yearOfEra := (dayOfEra - dayOfEra / 1460 + dayOfEra / 36524 - dayOfEra / 146096) / 365
  let dayOfYear := dayOfEra - (365 * yearOfEra + yearOfEra / 4 - yearOfEra / 100)
  -- the months of a year that starts in March
  let month := (5 * dayOfYear + 2) / 153
  let year := yearOfEra + z / 146097 * 400
  (if month < 10 then year else year + 1, if month < 10 then month + 3 else month - 9,
    dayOfYear - (153 * month + 2) / 5 + 1)

def padded (width n : ℕ) : List Char := (Nat.toDigits 10 n).leftpad width '0'

/-- The text of midnight in UTC up to the offset. -/
def isoMidnight (day : ℤ) : List Char :=
  padded 4 (civil day).1 ++ '-' :: padded 2 (civil day).2.1 ++ '-' :: padded 2 (civil day).2.2 ++
    "T00:00:00".toList

/-- `isoformat` of midnight in UTC -/
def isoformat (day : ℤ) : String := String.ofList (isoMidnight day ++ "+00:00".toList)

example : isoformat 20650 = "2026-07-16T00:00:00+00:00" := by decide +kernel

/-- The day that `iso_utc` writes. -/
def expiryDay (now daysFromNow : ℤ) : ℤ := now / microsPerDay + daysFromNow

/-- `iso_utc`; the offset of the text is replaced by a `Z`. -/
def isoUtc (now daysFromNow : ℤ) : String :=
  String.ofList (isoMidnight (expiryDay now daysFromNow) ++ ['Z'])

/-! ## The parts of a role -/

/-- `load_json` -/
def loadJson (path : String) (file : JsonFile) : Except PyError Json :=
  match file with
  | none => .error (.fileNotFoundError ("[Errno 2] No such file or directory: '" ++ path ++ "'"))
  | some content => content

/-- `sign_payload` -/
def signPayload (keyHex signed : Json) : Except PyError String := do
  return hexDigest (hmacSha256 (← keyHex.bytesFromHex) signed.canonicalBytes)

/-- `_next_version` -/
def nextVersion (role : Json) : Except PyError ℤ := do
  let version ← (← role.getItem "signed").getD "version" (.int 0)
  return (← version.toInt) + 1

/-- `role["signed"][key] = value` -/
def setSigned (role : Json) (key : String) (value : Json) : Except PyError Json := do
  let signed ← role.getItem "signed"
  role.setItem "signed" (← signed.setItem key value)

/-- `role["signatures"][0]["sig"] = sig` -/
def setFirstSignature (role : Json) (sig : String) : Except PyError Json := do
  match ← role.getItem "signatures" with
  | .list (first :: further) =>
      let first ← first.setItem "sig" (.str sig)
      role.setItem "signatures" (.list (first :: further))
  | .list [] => throw (.indexError "list index out of range")
  | .dict _ => throw (.keyError "0")
  | x => throw (.typeError ("'" ++ x.typeName ++ "' object is not subscriptable"))

/-- What the script does to each role: the next version, the new date, one more field of the
signed part, and the signature over all of it. -/
def renew (keyHex role : Json) (expires field : String) (content : Json → Except PyError Json) :
    Except PyError Json := do
  let version ← nextVersion role
  let role ← setSigned role "version" (.int version)
  let role ← setSigned role "expires" (.str expires)
  let role ← setSigned role field (← content (← role.getItem "signed"))
  let sig ← signPayload keyHex (← role.getItem "signed")
  setFirstSignature role sig

/-- The entry for a role in the `meta` of the role above it. -/
def boundRole (role : Json) : Except PyError Json := do
  let version ← (← role.getItem "signed").getItem "version"
  return .dict [("version", version), ("length", .int role.canonicalBytes.length),
    ("hashes", .dict [("sha256", .str (hexDigest (sha256 role.canonicalBytes)))])]

/-- The new value of `signed["meta"]`. -/
def boundMeta (filename : String) (role signed : Json) : Except PyError Json := do
  let entry ← boundRole role
  (← signed.getItem "meta").setItem filename entry

/-! ## The targets -/

/-- `package.get("transport_support") or [package["transport"]]` -/
def transportSupport (package : Json) : Except PyError Json := do
  let support ← package.getD "transport_support" .null
  if support.truthy then return support
  return .list [← package.getItem "transport"]

def optionalFields : List String := ["flash_address", "part_number", "image_format", "payload_sha256"]

/-- A field of the package that is copied if it is there. -/
def copyField (package : Json) (custom : List (String × Json)) (field : String) :
    Except PyError (List (String × Json)) := do
  if ← package.contains (.str field) then
    return Dict.setEntries custom field (← package.getItem field)
  return custom

/-- The `custom` dictionary of `_build_target_entry`. -/
def customFields (package : Json) : Except PyError (List (String × Json)) := do
  let ecuName ← package.getItem "ecu_name"
  let hardwareVariant ← package.getItem "hardware_variant"
  let targetVersion ← package.getItem "target_version"
  let minimumBootloader ← package.getItem "minimum_bootloader"
  let support ← transportSupport package
  optionalFields.foldlM (copyField package)
    [("ecu_name", ecuName), ("hardware_variant", hardwareVariant), ("target_version", targetVersion),
      ("minimum_bootloader", minimumBootloader), ("transport_support", support)]

/-- `_build_target_entry` -/
def buildTargetEntry (package : Json) (artifact : Bytes) : Except PyError Json := do
  let custom ← customFields package
  return .dict [("length", .int artifact.length),
    ("hashes", .dict [("sha256", .str (hexDigest (sha256 artifact)))]), ("custom", .dict custom)]

/-- The body of the loop over the packages. -/
def refreshTarget (directory : ReleaseDirectory) (refreshed : Dict String Json) (package : Json) :
    Except PyError (Dict String Json) := do
  match ← package.getItem "file" with
  | .str file =>
      match directory.artifacts file with
      | none => throw (.fileNotFoundError
          ("Firmware artifact missing for trust metadata refresh: " ++ directory.path ++ "/" ++ file))
      | some artifact => return refreshed.set file (← buildTargetEntry package artifact)
  | x => throw (.typeError
      ("unsupported operand type(s) for /: 'PosixPath' and '" ++ x.typeName ++ "'"))

/-! ## The script -/

/-- The value that the script returns. -/
structure RefreshResult where
  targetsVersion : Json
  snapshotVersion : Json
  timestampVersion : Json
  targetCount : ℕ
  targetsExpires : Json
  snapshotExpires : Json
  timestampExpires : Json

/-- The three documents that the script writes. -/
structure Renewal where
  targets : Json
  snapshot : Json
  timestamp : Json

/-- `demo-root` of the keys of the root -/
def demoRootKey (root : Json) : Except PyError Json := do
  let keys ← (← root.getItem "signed").getItem "keys"
  (← keys.getItem "demo-root").getItem "key"

/-- The new documents, from the loaded ones. -/
def renewal (clock : Clock) (keyHex targets snapshot timestamp : Json)
    (refreshed : Dict String Json) : Except PyError Renewal := do
  let targets ← renew keyHex targets (isoUtc clock.targets 59) "targets"
    fun _ ↦ .ok (.dict refreshed.entries)
  let snapshot ← renew keyHex snapshot (isoUtc clock.snapshot 60) "meta"
    (boundMeta "targets.json" targets)
  let timestamp ← renew keyHex timestamp (isoUtc clock.timestamp 61) "meta"
    (boundMeta "snapshot.json" snapshot)
  return ⟨targets, snapshot, timestamp⟩

/-- The directory once the documents are written. -/
def Renewal.write (r : Renewal) (directory : ReleaseDirectory) : ReleaseDirectory where
  path := directory.path
  metadata := fun filename ↦
    if filename = "targets.json" then some (.ok r.targets)
    else if filename = "snapshot.json" then some (.ok r.snapshot)
    else if filename = "timestamp.json" then some (.ok r.timestamp)
    else directory.metadata filename
  manifest := directory.manifest
  artifacts := directory.artifacts

def refreshResult (r : Renewal) (refreshed : Dict String Json) : Except PyError RefreshResult := do
  let field := fun role key ↦ do (← Json.getItem role "signed").getItem key
  return {
    targetsVersion := ← field r.targets "version"
    snapshotVersion := ← field r.snapshot "version"
    timestampVersion := ← field r.timestamp "version"
    targetCount := refreshed.entries.length
    targetsExpires := ← field r.targets "expires"
    snapshotExpires := ← field r.snapshot "expires"
    timestampExpires := ← field r.timestamp "expires" }

/-- `refresh_demo_trust_metadata`: the returned value and the directory behind it. -/
def refreshDemoTrustMetadata (directory : ReleaseDirectory) (clock : Clock) :
    Except PyError (RefreshResult × ReleaseDirectory) := do
  let load := fun filename ↦
    loadJson (directory.path ++ "/metadata/" ++ filename) (directory.metadata filename)
  let root ← load "root.json"
  let targets ← load "targets.json"
  let snapshot ← load "snapshot.json"
  let timestamp ← load "timestamp.json"
  let manifest ← loadJson (directory.path ++ "/manifest.json") directory.manifest
  let keyHex ← demoRootKey root
  let packages ← (← manifest.getItem "packages").iter
  let refreshed ← packages.foldlM (refreshTarget directory) Dict.empty
  let r ← renewal clock keyHex targets snapshot timestamp refreshed
  return (← refreshResult r refreshed, r.write directory)

end VehicleOta.Scripts
