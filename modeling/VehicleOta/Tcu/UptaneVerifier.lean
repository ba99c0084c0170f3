import VehicleOta.Common.Json
import VehicleOta.Crash.Persist

/-!
# Verification of the release metadata

`UptaneVerifier` of `tcu/trust/uptane_verifier.py`.  A file is missing, cannot be parsed or holds
a JSON value.  What `datetime.fromisoformat` accepts depends on the version of Python, so the
function is a parameter.
-/

namespace VehicleOta.Tcu

open CrashLogic Hash

/-- What `json.load` finds at a path. -/
abbrev JsonFile := Option (Except PyError Json)

/-- A `datetime`: microseconds of the clock on the wall, and the offset from UTC if it is known. -/
structure DateTime where
  clock : ℤ
  utcoffset : Option ℤ

/-- The release directory during one run, and `datetime.now(timezone.utc)`. -/
structure Release where
  directory : String
  metadata : String → JsonFile
  artifacts : String → Option Bytes
  now : ℤ

namespace UptaneVerifier

structure TrustedTarget where
  file : String
  length : ℕ
  sha256 : String
  custom : Json

/-- The loaded roles of a release. -/
structure Metadata where
  root : Json
  timestamp : Json
  snapshot : Json
  targets : Json

/-! ## Library functions -/

/-- `hmac.compare_digest(expected, sig)` for an ASCII text `expected`. -/
def compareDigest (expected : String) : Json → Except PyError Bool
  | .str sig =>
      if sig.toList.all fun c ↦ c.toNat < 128 then .ok (decide (expected = sig))
      else .error (.typeError
        "comparing strings with non-ASCII characters is not supported")
  | x => .error (.typeError
      ("unsupported operand types(s) or combination of types: 'str' and '" ++ x.typeName ++ "'"))

/-- `value.replace("Z", "+00:00")` -/
def zuluReplaced (value : String) : String :=
  String.ofList (value.toList.flatMap fun c ↦ if c = 'Z' then "+00:00".toList else [c])

/-- `str(x)`, on the values that a message can hold. -/
def format : Json → String
  | .str s => s
  | .null => "None"
  | .bool b => if b then "True" else "False"
  | x => String.ofList x.dumps

/-! ## One role -/

def requiredRoles : List String := ["root", "timestamp", "snapshot", "targets"]

/-- `_load_role` -/
def loadRole (release : Release) (filename : String) : Except PyError Json := do
  let path := release.directory ++ "/metadata/" ++ filename
  match release.metadata filename with
  | none => throw (.fileNotFoundError ("Trust metadata missing: " ++ path))
  | some file =>
      let role ← file
      raiseIf (!(← role.contains (.str "signed")))
        (.valueError ("Trust metadata missing signed section: " ++ path))
      raiseIf (!(← role.contains (.str "signatures")))
        (.valueError ("Trust metadata missing signatures: " ++ path))
      return role

/-- The body of the loop of `_validate_root`. -/
def validateRule (roles keys : Json) (roleName : String) : Except PyError Unit := do
  let roleRule ← roles.getItem roleName
  let threshold ← (← roleRule.getD "threshold" (.int 0)).toInt
  let keyids ← roleRule.getD "keyids" (.list [])
  raiseIf (threshold < 1) (.runtimeError (roleName ++ " metadata threshold must be >= 1"))
  raiseIf (((← keyids.len : ℕ) : ℤ) < threshold)
    (.runtimeError (roleName ++ " metadata key threshold cannot be met"))
  (← keyids.iter).forM fun keyid ↦ do
    raiseIf (!(← keys.contains keyid))
      (.runtimeError (roleName ++ " metadata references unknown key " ++ format keyid))

/-- `_validate_root`, with the roles of the set in one of its orders. -/
def validateRoot (signed : Json) : Except PyError Unit := do
  let roles ← signed.getD "roles" (.dict [])
  let keys ← signed.getD "keys" (.dict [])
  let roleNames ← roles.keys
  let missing := requiredRoles.filter (· ∉ roleNames)
  raiseIf (missing ≠ []) (.runtimeError ("root metadata missing required roles: " ++
    ", ".intercalate (missing.insertionSort (· ≤ ·))))
  requiredRoles.forM (validateRule roles keys)

/-- `_validate_role` -/
def validateRole (signed : Json) (roleName : String) : Except PyError Unit := do
  raiseIf (!((← signed.getD "role" .null).eq (.str roleName)))
    (.runtimeError (roleName ++ " metadata role name mismatch"))
  raiseIf ((← (← signed.getD "version" (.int 0)).toInt) < 1)
    (.runtimeError (roleName ++ " metadata version must be >= 1"))

section Expiry

variable (fromisoformat : String → Except PyError DateTime)

/-- `_parse_timestamp` -/
def parseTimestamp : Json → Except PyError DateTime
  | .str value => fromisoformat (zuluReplaced value)
  | x => .error (.attributeError ("'" ++ x.typeName ++ "' object has no attribute 'replace'"))

/-- `_check_expiry` -/
def checkExpiry (release : Release) (signed : Json) (roleName : String) :
    Except PyError Unit := do
  let expires ← signed.getItem "expires"
  let expiresAt ← parseTimestamp fromisoformat expires
  match expiresAt.utcoffset with
  | none => throw (.typeError "can't compare offset-naive and offset-aware datetimes")
  | some utcoffset =>
      raiseIf (expiresAt.clock - utcoffset ≤ release.now)
        (.runtimeError (roleName ++ " metadata expired at " ++ format expires))

end Expiry

/-- The body of the loop over the signatures. -/
def countSignature (trustedKeys roleRule : Json) (signedBytes : Bytes) (validKeyids : List String)
    (signature : Json) : Except PyError (List String) := do
  let keyid ← signature.getItem "keyid"
  if !(← (← roleRule.getItem "keyids").contains keyid) then return validKeyids
  let keyEntry ← trustedKeys.getKey keyid
  if let .null := keyEntry then return validKeyids
  if !((← keyEntry.getD "algorithm" .null).eq (.str "hmac-sha256")) then return validKeyids
  let key ← (← keyEntry.getItem "key").bytesFromHex
  let expected := hexDigest (hmacSha256 key signedBytes)
  if !(← compareDigest expected (← signature.getItem "sig")) then return validKeyids
  -- the keys of a dictionary are texts, so nothing else has an entry
  match keyid with
  | .str name => return if name ∈ validKeyids then validKeyids else validKeyids ++ [name]
  | _ => return validKeyids

/-- The set `valid_keyids` behind the loop. -/
def validKeyids (role trustedKeys roleRule : Json) : Except PyError (List String) := do
  let signatures ← role.getD "signatures" (.list [])
  let signedBytes := (← role.getItem "signed").canonicalBytes
  (← signatures.iter).foldlM (countSignature trustedKeys roleRule signedBytes) []

/-- `_verify_signatures` -/
def verifySignatures (role : Json) (roleName : String) (trustedKeys roleRule : Json) :
    Except PyError Unit := do
  let count ← (← role.getD "signatures" (.list [])).len
  let threshold ← roleRule.getItem "threshold"
  raiseIf (← threshold.intLt count)
    (.runtimeError (roleName ++ " metadata has insufficient signatures: " ++ toString count ++
      " < " ++ format threshold))
  let valid ← validKeyids role trustedKeys roleRule
  raiseIf (← threshold.intLt valid.length)
    (.runtimeError (roleName ++ " metadata signature verification failed"))

/-! ## The trusted state -/

/-- `_load_trusted_state` -/
def loadTrustedState : Persist Unit JsonFile PyError Json := do
  match ← Persist.reads id with
  | none => return .dict [("roles", .dict [])]
  | some file => Persist.ofExcept file

/-- The version of a role in the trusted state. -/
def trustedVersion (trustedState : Json) (roleName : String) : Except PyError ℤ := do
  let roles ← trustedState.getD "roles" (.dict [])
  let role ← roles.getD roleName (.dict [])
  (← role.getD "version" (.int 0)).toInt

/-- `_check_rollback` -/
def checkRollback (signed : Json) (roleName : String) (trustedState : Json) :
    Except PyError Unit := do
  let currentVersion ← (← signed.getD "version" (.int 0)).toInt
  let trusted ← trustedVersion trustedState roleName
  raiseIf (currentVersion < trusted)
    (.runtimeError (roleName ++ " metadata rollback detected: " ++ toString currentVersion ++
      " < trusted " ++ toString trusted))

/-- The body of the loop of `_store_trusted_state`. -/
def recordRole (roles : List (String × Json)) (roleName : String) (role : Json) :
    Except PyError (List (String × Json)) := do
  let signed ← role.getItem "signed"
  let previous ← (Json.dict roles).getD roleName (.dict [])
  let previousVersion ← (← previous.getD "version" (.int 0)).toInt
  let version ← (← signed.getItem "version").toInt
  let expires ← signed.getItem "expires"
  return Dict.setEntries roles roleName (.dict
    [("version", .int (max previousVersion version)), ("expires", expires),
      ("sha256", .str (hexDigest (sha256 role.canonicalBytes)))])

/-- The dictionary that `_store_trusted_state` writes. -/
def recordedState (m : Metadata) (trustedState : Json) : Except PyError Json := do
  let entries ← trustedState.items
  let roles ← ((Json.lookup entries "roles").getD (.dict [])).items
  let roles ← recordRole roles "root" m.root
  let roles ← recordRole roles "timestamp" m.timestamp
  let roles ← recordRole roles "snapshot" m.snapshot
  let roles ← recordRole roles "targets" m.targets
  return .dict (Dict.setEntries entries "roles" (.dict roles))

/-- `_store_trusted_state`; the file is written once everything is computed. -/
def storeTrustedState (m : Metadata) (trustedState : Json) :
    Persist Unit JsonFile PyError PUnit := do
  let state ← Persist.ofExcept (recordedState m trustedState)
  Persist.write () fun _ ↦ some (.ok state)

/-! ## Bindings and artifacts -/

/-- `_check_meta_binding` -/
def checkMetaBinding (metadata : Json) (filename : String) (role : Json) : Except PyError Unit := do
  raiseIf (!(← metadata.contains (.str filename)))
    (.runtimeError ("Metadata binding missing " ++ filename))
  let expected ← metadata.getItem filename
  let payload := role.canonicalBytes
  raiseIf (!((← expected.getItem "version").eq (← (← role.getItem "signed").getItem "version")))
    (.runtimeError (filename ++ " version mismatch"))
  raiseIf (!((← expected.getItem "length").eq (.int payload.length)))
    (.runtimeError (filename ++ " length mismatch"))
  raiseIf (!((← (← expected.getItem "hashes").getItem "sha256").eq
    (.str (hexDigest (sha256 payload))))) (.runtimeError (filename ++ " hash mismatch"))

def requiredCustom : List String :=
  ["ecu_name", "hardware_variant", "target_version", "minimum_bootloader", "transport_support"]

/-- `_validate_target_metadata` -/
def validateTargetMetadata (filename : String) (entry : Json) : Except PyError Unit := do
  let custom ← entry.getD "custom" (.dict [])
  let names ← custom.keys
  let missing := requiredCustom.filter (· ∉ names)
  raiseIf (missing ≠ []) (.runtimeError (filename ++ " missing trusted custom metadata: " ++
    ", ".intercalate (missing.insertionSort (· ≤ ·))))
  match ← custom.getD "transport_support" .null with
  | .list (_ :: _) => return ()
  | _ => throw (.runtimeError (filename ++ " transport_support must be a non-empty list"))

/-- The body of the loop of `_verify_artifacts`. -/
def verifyArtifact (release : Release) (filename : String) (entry : Json) :
    Except PyError TrustedTarget := do
  match release.artifacts filename with
  | none =>
      throw (.fileNotFoundError
        ("Trusted artifact missing: " ++ release.directory ++ "/" ++ filename))
  | some artifact =>
      let digest := hexDigest (sha256 artifact)
      raiseIf (!((← entry.getItem "length").eq (.int artifact.length)))
        (.runtimeError (filename ++ " trusted length mismatch"))
      raiseIf (!((← (← entry.getItem "hashes").getItem "sha256").eq (.str digest)))
        (.runtimeError (filename ++ " trusted hash mismatch"))
      validateTargetMetadata filename entry
      return ⟨filename, artifact.length, digest, ← entry.getD "custom" (.dict [])⟩

/-- `_verify_artifacts` -/
def verifyArtifacts (release : Release) (targets : Json) : Except PyError (List TrustedTarget) := do
  (← targets.items).mapM fun e ↦ verifyArtifact release e.1 e.2

/-! ## The run -/

section Run

variable (fromisoformat : String → Except PyError DateTime)

/-- `_load_and_verify_role` -/
def loadAndVerifyRole (release : Release) (filename roleName : String) (trustedKeys trustedRoles : Json) :
    Except PyError Json := do
  let role ← loadRole release filename
  let signed ← role.getItem "signed"
  validateRole signed roleName
  checkExpiry fromisoformat release signed roleName
  verifySignatures role roleName trustedKeys (← trustedRoles.getItem roleName)
  return role

/-- The first part of `verify`, up to the rollback check of the root. -/
def trustRoot (release : Release) (trustedState : Json) : Except PyError Json := do
  let root ← loadRole release "root.json"
  let signed ← root.getItem "signed"
  validateRoot signed
  checkExpiry fromisoformat release signed "root"
  let trustedKeys ← signed.getItem "keys"
  let trustedRoles ← signed.getItem "roles"
  verifySignatures root "root" trustedKeys (← trustedRoles.getItem "root")
  checkRollback signed "root" trustedState
  return root

/-- The other roles, under the keys of this root. -/
def loadRoles (release : Release) (root : Json) : Except PyError Metadata := do
  let signed ← root.getItem "signed"
  let trustedKeys ← signed.getItem "keys"
  let trustedRoles ← signed.getItem "roles"
  let load := fun filename roleName ↦
    loadAndVerifyRole fromisoformat release filename roleName trustedKeys trustedRoles
  let timestamp ← load "timestamp.json" "timestamp"
  let snapshot ← load "snapshot.json" "snapshot"
  let targets ← load "targets.json" "targets"
  return ⟨root, timestamp, snapshot, targets⟩

def checkRollbacks (m : Metadata) (trustedState : Json) : Except PyError Unit := do
  checkRollback (← m.timestamp.getItem "signed") "timestamp" trustedState
  checkRollback (← m.snapshot.getItem "signed") "snapshot" trustedState
  checkRollback (← m.targets.getItem "signed") "targets" trustedState

def checkBindings (m : Metadata) : Except PyError Unit := do
  checkMetaBinding (← (← m.timestamp.getItem "signed").getItem "meta") "snapshot.json" m.snapshot
  checkMetaBinding (← (← m.snapshot.getItem "signed").getItem "meta") "targets.json" m.targets

def verify (release : Release) : Persist Unit JsonFile PyError (List TrustedTarget) := do
  let trustedState ← loadTrustedState
  let root ← Persist.ofExcept (trustRoot fromisoformat release trustedState)
  let m ← Persist.ofExcept (loadRoles fromisoformat release root)
  Persist.ofExcept (checkRollbacks m trustedState)
  Persist.ofExcept (checkBindings m)
  let targets ← Persist.ofExcept do
    verifyArtifacts release (← (← m.targets.getItem "signed").getItem "targets")
  storeTrustedState m trustedState
  return targets

end Run

end UptaneVerifier

end VehicleOta.Tcu
