import VehicleOta.Can.CanProtocol
import VehicleOta.Common.VersionText
import VehicleOta.Ecu.Store
import VehicleOta.Tcu.Models

/-!
# Discovery over CAN

The answer of an ECU to a discovery request (`ecus/bcm/can_receiver.py` and the same handler in
the receivers of the cluster and of the gateway), and `ECUDiscovery._discover_can` of
`tcu/ecu_discovery.py` where no zone service runs.
-/

namespace VehicleOta.Tcu

open Can Ecu

/-! ## The version an ECU sends -/

/-- `major, minor, patch = map(int, version.split("."))`; a fourth part is still converted. -/
def unpackVersion (version : String) : Except PyError (ℤ × ℤ × ℤ) := do
  let parts := (version.toList.splitOn '.').map String.ofList
  match ← (parts.take 4).mapM parseInt with
  | [major, minor, patch] => return (major, minor, patch)
  | _ :: _ :: _ :: _ => throw (.valueError "too many values to unpack (expected 3)")
  | numbers =>
      throw (.valueError ("not enough values to unpack (expected 3, got " ++
        toString numbers.length ++ ")"))

theorem unpackVersion_toString (v : SemVer) :
    unpackVersion v.toString = do
      return (((← intOfDigits (digitsOf v.major) : ℕ) : ℤ),
        ((← intOfDigits (digitsOf v.minor) : ℕ) : ℤ), ((← intOfDigits (digitsOf v.patch) : ℕ) : ℤ)) := by
  have hdot : ∀ n : ℕ, '.' ∉ digitsOf n := not_mem_digitsOf (by decide)
  have hsplit : v.toString.toList.splitOn '.' =
      [digitsOf v.major, digitsOf v.minor, digitsOf v.patch] := by
    rw [SemVer.toList_toString, List.splitOn_append_cons_self_of_not_mem (hdot _),
      List.splitOn_append_cons_self_of_not_mem (hdot _), List.splitOn_eq_singleton (hdot _)]
  unfold unpackVersion
  rw [hsplit]
  simp only [List.map_cons, List.map_nil, List.take_succ_cons, List.take_nil, List.mapM_cons,
    List.mapM_nil, parseInt_digitsOf]
  cases intOfDigits (digitsOf v.major) with
  | error e => rfl
  | ok major =>
      cases intOfDigits (digitsOf v.minor) with
      | error e => rfl
      | ok minor => cases intOfDigits (digitsOf v.patch) <;> rfl

def toByte (n : ℤ) : Except PyError UInt8 :=
  if 0 ≤ n ∧ n < 256 then .ok (UInt8.ofNat n.toNat)
  else .error (.valueError "bytes must be in range(0, 256)")

/-- The answer to `DISCOVERY_REQUEST` of the ECU with these files. -/
def discoveryResponse (ecuId : ℕ) (e : EcuStore) : Except PyError CanMessage := do
  let (major, minor, _) ← unpackVersion e.versions.currentVersion
  CANProtocol.createMessage ecuId .discoveryResponse (← [major, minor].mapM toByte)

/-- The three programs that answer. -/
inductive Receiver where
  | gateway
  | bcm
  | cluster
  deriving DecidableEq

namespace Receiver

def ecuId : Receiver → ℕ
  | gateway => 0x201
  | bcm => 0x202
  | cluster => 0x203

/-- The argument of `VersionManager` in the receiver. -/
def ecuKey : Receiver → String
  | gateway => "gateway"
  | bcm => "bcm"
  | cluster => "cluster"

def ecuName : Receiver → String
  | gateway => "Gateway ECU"
  | bcm => "BCM ECU"
  | cluster => "Cluster ECU"

end Receiver

/-! ## Discovery -/

namespace ECUDiscovery

/-- `_ecu_name` -/
def ecuName (ecuId : ℕ) : String :=
  if ecuId = 0x201 then "Gateway ECU"
  else if ecuId = 0x202 then "BCM ECU"
  else if ecuId = 0x203 then "Cluster ECU"
  else "ECU_0x" ++ String.ofList (Nat.toDigits 16 ecuId)

/-- The local variables `discovered` and `vehicle`. -/
structure Progress where
  discovered : List ℕ := []
  vehicle : Vehicle := ⟨Dict.empty⟩

/-- One message of the loop; the one that cannot be decoded is ignored. -/
def hear (transport : String) (d : Progress) (message : CanMessage) : Except PyError Progress :=
  match CANProtocol.parseMessage message with
  | .error _ => .ok d
  | .ok decoded =>
      if decoded.messageType ≠ .discoveryResponse then .ok d
      else if decoded.senderId ∈ d.discovered then .ok d
      else do
        let version ← normalizeVersion
          (toString decoded.versionMajor ++ "." ++ toString decoded.versionMinor ++ ".0")
        return {
          discovered := d.discovered ++ [decoded.senderId]
          vehicle := d.vehicle.addEcu {
            ecuId := decoded.senderId
            ecuName := ecuName decoded.senderId
            currentVersion := version
            transport := transport } }

/-- `_discover_can` on the messages received in time, in their order. -/
def discoverCan (transport : String) (traffic : List CanMessage) : Except PyError Vehicle := do
  return (← traffic.foldlM (hear transport) {}).vehicle

/-! ## What is discovered -/

/-- The entry for an ECU that sent these two bytes. -/
def reported (transport : String) (ecuId : ℕ) (major minor : UInt8) : ECU where
  ecuId := ecuId
  ecuName := ecuName ecuId
  currentVersion := (SemVer.mk major.toNat minor.toNat 0).toString
  transport := transport

/-- The message is a discovery response of the ECU. -/
def Responds (ecuId : ℕ) (message : CanMessage) : Prop :=
  ∃ decoded, CANProtocol.parseMessage message = .ok decoded ∧
    decoded.messageType = .discoveryResponse ∧ decoded.senderId = ecuId

/-- Every entry was reported, and stands under its own identifier. -/
def Discovered (transport : String) (vehicle : Vehicle) : Prop :=
  ∀ id ecu, vehicle.ecus.get? id = some ecu → ∃ major minor, ecu = reported transport id major minor

variable {transport : String} {d : Progress} {ecuId : ℕ}

theorem length_digitsOf_byte (b : UInt8) : (digitsOf b.toNat).length ≤ 4300 :=
  (length_digitsOf_le (k := 3) (by decide) (b.toNat_lt.trans (by decide))).trans (by decide)

theorem normalizeVersion_bytes (major minor : UInt8) :
    normalizeVersion (toString major.toNat ++ "." ++ toString minor.toNat ++ ".0") =
      .ok (SemVer.mk major.toNat minor.toNat 0).toString := by
  have htext : toString major.toNat ++ "." ++ toString minor.toNat ++ ".0" =
      (SemVer.mk major.toNat minor.toNat 0).toString := by
    simp [SemVer.toString, String.append_assoc]
    rfl
  rw [htext, normalizeVersion, parseVersion, SemVer.parse_toString _ (length_digitsOf_byte major)
    (length_digitsOf_byte minor) (length_digitsOf_byte 0)]
  rfl

/-- A message adds the ECU that responds in it for the first time, and nothing else. -/
theorem hear_cases (transport : String) (d : Progress) (message : CanMessage) :
    hear transport d message = .ok d ∧
        (∀ decoded, CANProtocol.parseMessage message = .ok decoded →
          decoded.messageType = .discoveryResponse → decoded.senderId ∈ d.discovered) ∨
      ∃ decoded major minor, CANProtocol.parseMessage message = .ok decoded ∧
        decoded.messageType = .discoveryResponse ∧ decoded.senderId ∉ d.discovered ∧
        decoded.versionMajor = major.toNat ∧ decoded.versionMinor = minor.toNat ∧
        hear transport d message = .ok {
          discovered := d.discovered ++ [decoded.senderId]
          vehicle := d.vehicle.addEcu (reported transport decoded.senderId major minor) } := by
  unfold hear
  cases hparse : CANProtocol.parseMessage message with
  | error e => exact Or.inl ⟨rfl, fun decoded h ↦ by cases h⟩
  | ok decoded =>
      dsimp only
      split
      · rename_i htype
        refine Or.inl ⟨rfl, fun decoded' h hresponse ↦ absurd ?_ htype⟩
        rwa [Except.ok.inj h]
      rename_i htype
      split
      · rename_i hknown
        exact Or.inl ⟨rfl, fun decoded' h _ ↦ Except.ok.inj h ▸ hknown⟩
      rename_i hnew
      have hbytes : ∃ major minor : UInt8, decoded.versionMajor = major.toNat ∧
          decoded.versionMinor = minor.toNat := by
        unfold CANProtocol.parseMessage at hparse
        cases hdata : message.data with
        | nil =>
            rw [hdata] at hparse
            cases hparse
        | cons code payload =>
            rw [hdata] at hparse
            dsimp only at hparse
            cases htype : MessageType.ofCode code with
            | error e =>
                rw [htype] at hparse
                cases hparse
            | ok messageType =>
                rw [htype] at hparse
                rw [← Except.ok.inj hparse]
                exact ⟨payload.getD 0 0, payload.getD 1 0, rfl, rfl⟩
      obtain ⟨major, minor, hmajor, hminor⟩ := hbytes
      refine Or.inr ⟨decoded, major, minor, rfl, not_not.mp htype, hnew, hmajor, hminor, ?_⟩
      rw [hmajor, hminor, normalizeVersion_bytes]
      rfl

theorem Discovered.addEcu {vehicle : Vehicle} (h : Discovered transport vehicle) (ecuId : ℕ)
    (major minor : UInt8) :
    Discovered transport (vehicle.addEcu (reported transport ecuId major minor)) := by
  intro id ecu hget
  rw [Vehicle.addEcu, Dict.get?_set] at hget
  split at hget
  · rename_i hid
    rw [← Option.some.inj hget, hid]
    exact ⟨major, minor, rfl⟩
  · exact h id ecu hget

/-- What the rest of the traffic does: no entry changes, and only responses add one. -/
theorem foldlM_hear (h : Discovered transport d.vehicle) (traffic : List CanMessage) :
    ∃ d', traffic.foldlM (hear transport) d = .ok d' ∧ Discovered transport d'.vehicle ∧
      (∀ id ∈ d.discovered, d'.vehicle.ecus.get? id = d.vehicle.ecus.get? id) ∧
      ∀ id ∉ d.discovered, (∀ message ∈ traffic, ¬ Responds id message) → id ∉ d'.discovered := by
  induction traffic generalizing d with
  | nil => exact ⟨d, rfl, h, fun _ _ ↦ rfl, fun _ hid _ ↦ hid⟩
  | cons message traffic ih =>
      rw [List.foldlM_cons]
      rcases hear_cases transport d message with
        ⟨heq, -⟩ | ⟨decoded, major, minor, hparse, htype, hnew, -, -, heq⟩
      · obtain ⟨d', hfold, hdiscovered, hkeep, hquiet⟩ := ih h
        rw [heq]
        exact ⟨d', hfold, hdiscovered, hkeep, fun id hid hnone ↦
          hquiet id hid fun m hm ↦ hnone m (List.mem_cons_of_mem _ hm)⟩
      · obtain ⟨d', hfold, hdiscovered, hkeep, hquiet⟩ :=
          ih (d := ⟨d.discovered ++ [decoded.senderId],
            d.vehicle.addEcu (reported transport decoded.senderId major minor)⟩)
            (h.addEcu decoded.senderId major minor)
        rw [heq]
        refine ⟨d', hfold, hdiscovered, fun id hid ↦ ?_, fun id hid hnone ↦ ?_⟩
        · rw [hkeep id (List.mem_append_left _ hid), Vehicle.addEcu, Dict.get?_set, if_neg]
          rintro rfl
          exact hnew hid
        · refine hquiet id ?_ fun m hm ↦ hnone m (List.mem_cons_of_mem _ hm)
          rw [List.mem_append, List.mem_singleton, not_or]
          refine ⟨hid, fun heq ↦ hnone message List.mem_cons_self ?_⟩
          exact ⟨decoded, hparse, htype, heq.symm⟩

/-- The first response of an ECU decides its entry. -/
theorem discoverCan_first {before after : List CanMessage} {message : CanMessage}
    {decoded : Decoded} {major minor : UInt8} (hbefore : ∀ m ∈ before, ¬ Responds ecuId m)
    (hparse : CANProtocol.parseMessage message = .ok decoded)
    (htype : decoded.messageType = .discoveryResponse) (hid : decoded.senderId = ecuId)
    (hmajor : decoded.versionMajor = major.toNat) (hminor : decoded.versionMinor = minor.toNat) :
    ∃ vehicle, discoverCan transport (before ++ message :: after) = .ok vehicle ∧
      vehicle.ecus.get? ecuId = some (reported transport ecuId major minor) ∧
      Discovered transport vehicle := by
  obtain ⟨d, hfold, hdiscovered, -, hquiet⟩ := @foldlM_hear transport {}
    (fun id ecu h ↦ by cases h) before
  have hnew : ecuId ∉ d.discovered := hquiet ecuId (by simp) hbefore
  rcases hear_cases transport d message with
    ⟨-, hknown⟩ | ⟨decoded', major', minor', hparse', -, -, hmajor', hminor', heq⟩
  · exact absurd (hid ▸ hknown decoded hparse htype) hnew
  · obtain rfl : decoded = decoded' := Except.ok.inj (hparse.symm.trans hparse')
    obtain rfl : major = major' := UInt8.toNat_inj.mp (hmajor.symm.trans hmajor')
    obtain rfl : minor = minor' := UInt8.toNat_inj.mp (hminor.symm.trans hminor')
    obtain ⟨d', hfold', hdiscovered', hkeep, -⟩ := foldlM_hear
      (d := ⟨d.discovered ++ [decoded.senderId],
        d.vehicle.addEcu (reported transport decoded.senderId major minor)⟩)
      (hdiscovered.addEcu decoded.senderId major minor) after
    refine ⟨d'.vehicle, ?_, ?_, hdiscovered'⟩
    · rw [discoverCan, List.foldlM_append, hfold]
      change (List.foldlM (hear transport) d (message :: after) >>= _) = _
      rw [List.foldlM_cons, heq]
      change (List.foldlM (hear transport) _ after >>= _) = _
      rw [hfold']
      rfl
    · rw [hkeep ecuId (by simp [hid]), Vehicle.addEcu, hid]
      exact Dict.get?_set_self _ _ _

end ECUDiscovery

/-! ## The response of an ECU -/

variable {ecuId : ℕ} {e : EcuStore} {v : SemVer}

/-- Only the first two numbers of the version are sent. -/
theorem discoveryResponse_of_version (ecuId : ℕ) (hversion : e.versions.currentVersion = v.toString)
    (hmajor : v.major < 256) (hminor : v.minor < 256) (hpatch : (digitsOf v.patch).length ≤ 4300) :
    discoveryResponse ecuId e = .ok ⟨ecuId, [MessageType.discoveryResponse.code,
      UInt8.ofNat v.major, UInt8.ofNat v.minor]⟩ := by
  have hbyte : ∀ n : ℕ, n < 256 → toByte (n : ℤ) = .ok (UInt8.ofNat n) := by
    intro n hn
    rw [toByte, if_pos (by omega), Int.toNat_natCast]
  have hlength : ∀ n : ℕ, n < 256 → (digitsOf n).length ≤ 4300 := fun n hn ↦
    (length_digitsOf_le (k := 3) (by decide) (hn.trans (by decide))).trans (by decide)
  rw [discoveryResponse, hversion, unpackVersion_toString,
    intOfDigits_digitsOf (hlength _ hmajor), intOfDigits_digitsOf (hlength _ hminor),
    intOfDigits_digitsOf hpatch]
  have hbytes : [(v.major : ℤ), (v.minor : ℤ)].mapM toByte =
      .ok [UInt8.ofNat v.major, UInt8.ofNat v.minor] := by
    rw [List.mapM_cons, List.mapM_cons, List.mapM_nil, hbyte _ hmajor, hbyte _ hminor]
    rfl
  simp only [bind, Except.bind, pure, Except.pure, hbytes]
  rw [CANProtocol.createMessage, if_neg (by simp)]

/-- An ECU that answers could read the whole version. -/
theorem length_patch_of_response {message : CanMessage}
    (hversion : e.versions.currentVersion = v.toString)
    (hmessage : discoveryResponse ecuId e = .ok message) : (digitsOf v.patch).length ≤ 4300 := by
  by_contra hlong
  have herror : ∃ error, intOfDigits (digitsOf v.patch) = .error error :=
    ⟨_, if_pos (not_le.mp hlong)⟩
  obtain ⟨error, herror⟩ := herror
  rw [discoveryResponse, hversion, unpackVersion_toString, herror] at hmessage
  cases hmajor : intOfDigits (digitsOf v.major) with
  | error e => simp [hmajor, bind, Except.bind] at hmessage
  | ok major =>
      cases hminor : intOfDigits (digitsOf v.minor) with
      | error e => simp [hmajor, hminor, bind, Except.bind] at hmessage
      | ok minor => simp [hmajor, hminor, bind, Except.bind] at hmessage

/-- What the tester learns of an ECU from its first response: the version with patch zero. -/
theorem discoverCan_of_version {transport : String} {before after : List CanMessage}
    {message : CanMessage} (hversion : e.versions.currentVersion = v.toString)
    (hmajor : v.major < 256) (hminor : v.minor < 256)
    (hmessage : discoveryResponse ecuId e = .ok message)
    (hbefore : ∀ m ∈ before, ¬ ECUDiscovery.Responds ecuId m) :
    ∃ vehicle, ECUDiscovery.discoverCan transport (before ++ message :: after) = .ok vehicle ∧
      vehicle.ecus.get? ecuId = some (ECUDiscovery.reported transport ecuId
        (UInt8.ofNat v.major) (UInt8.ofNat v.minor)) ∧
      ECUDiscovery.Discovered transport vehicle := by
  have hpatch := length_patch_of_response hversion hmessage
  rw [discoveryResponse_of_version ecuId hversion hmajor hminor hpatch] at hmessage
  obtain rfl := Except.ok.inj hmessage
  exact ECUDiscovery.discoverCan_first hbefore rfl rfl rfl rfl rfl

end VehicleOta.Tcu
