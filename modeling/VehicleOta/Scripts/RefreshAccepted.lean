import VehicleOta.Scripts.RenewedRoles

/-!
# Refreshed metadata is accepted

A directory that the script has refreshed passes the verifier, as long as the new dates lie ahead
and the further signatures of the documents can be read.
-/

namespace VehicleOta.Scripts

open Hash Tcu Tcu.UptaneVerifier

variable {fromisoformat : String → Except PyError DateTime} {roleName filename : String}

/-! ## Dates -/

theorem padded_ne {width n : ℕ} {c : Char} (h : c ∈ padded width n) : c ≠ 'Z' := by
  rw [padded, List.leftpad, List.mem_append] at h
  rcases h with h | h
  · rw [List.eq_of_mem_replicate h]
    decide
  · rintro rfl
    exact absurd (Nat.isDigit_of_mem_toDigits (by decide) (by decide) h) (by decide)

theorem isoMidnight_ne {day : ℤ} {c : Char} (h : c ∈ isoMidnight day) : c ≠ 'Z' := by
  simp only [isoMidnight, List.mem_append, List.mem_cons] at h
  rcases h with (((h | rfl | h) | rfl | h) | h)
  · exact padded_ne h
  · decide
  · exact padded_ne h
  · decide
  · exact padded_ne h
  · rintro rfl
    exact absurd h (by decide)

/-- The verifier turns the `Z` of the script back into the offset. -/
theorem zuluReplaced_isoUtc (now daysFromNow : ℤ) :
    zuluReplaced (isoUtc now daysFromNow) = isoformat (expiryDay now daysFromNow) := by
  have hkeep : ∀ xs : List Char, (∀ c ∈ xs, c ≠ 'Z') →
      (xs.flatMap fun c ↦ if c = 'Z' then "+00:00".toList else [c]) = xs := by
    intro xs
    induction xs with
    | nil => exact fun _ ↦ rfl
    | cons c xs ih =>
        intro h
        rw [List.forall_mem_cons] at h
        rw [List.flatMap_cons, if_neg h.1, ih h.2, List.singleton_append]
  have htext : (isoUtc now daysFromNow).toList = isoMidnight (expiryDay now daysFromNow) ++ ['Z'] :=
    String.toList_ofList
  rw [zuluReplaced, htext, List.flatMap_append, hkeep _ fun c hc ↦ isoMidnight_ne hc]
  rfl

/-- `datetime.fromisoformat` reads back what `isoformat` writes for this day. -/
def ReadsBack (fromisoformat : String → Except PyError DateTime) (day : ℤ) : Prop :=
  fromisoformat (isoformat day) = .ok ⟨day * microsPerDay, some 0⟩

theorem unexpired_isoUtc {now written daysFromNow : ℤ}
    (h : ReadsBack fromisoformat (expiryDay written daysFromNow)) :
    Unexpired fromisoformat now (.str (isoUtc written daysFromNow)) ↔
      now < expiryDay written daysFromNow * microsPerDay := by
  have hparse : parseTimestamp fromisoformat (.str (isoUtc written daysFromNow)) =
      .ok ⟨expiryDay written daysFromNow * microsPerDay, some 0⟩ := by
    rw [parseTimestamp, zuluReplaced_isoUtc, h]
  constructor
  · rintro ⟨clock, offset, hclock, hlt⟩
    rw [hparse, Except.ok.injEq, DateTime.mk.injEq] at hclock
    obtain ⟨rfl, hoffset⟩ := hclock
    obtain rfl := Option.some.inj hoffset
    simpa using hlt
  · exact fun hlt ↦ ⟨_, 0, hparse, by simpa using hlt⟩

/-! ## One role in the verifier -/

/-- The entry for a renewed role in the `meta` of the role above it. -/
def boundEntry (role : Json) (version : ℤ) : Json :=
  .dict [("version", .int version), ("length", .int role.canonicalBytes.length),
    ("hashes", .dict [("sha256", .str (hexDigest (sha256 role.canonicalBytes)))])]

namespace Renewed

variable {key : Bytes} {version : ℤ} {expires field : String} {value role : Json}
  {signed first : List (String × Json)} {further : List Json}

theorem validateRole (h : Renewed roleName key version expires field value further role signed first)
    (hversion : 1 ≤ version) : UptaneVerifier.validateRole (.dict signed) roleName = .ok () := by
  simp [UptaneVerifier.validateRole, getD_of_lookup _ h.name, getD_of_lookup _ h.version, Json.eq,
    Json.toInt, raiseIf, bind, Except.bind, hversion]

theorem checkExpiry_iff (h : Renewed roleName key version expires field value further role signed first)
    {release : Release} : checkExpiry fromisoformat release (.dict signed) roleName = .ok () ↔
      Unexpired fromisoformat release.now (.str expires) := by
  simp only [checkExpiry_eq_ok, getItem_of_lookup h.expires, Except.ok.injEq, exists_eq_left']

/-- A renewed role is loaded if and only if its date lies ahead and its signatures can be read. -/
theorem loadAndVerifyRole_iff
    (h : Renewed roleName key version expires field value further role signed first)
    (hversion : 1 ≤ version) {release : Release} (hfile : release.metadata filename = some (.ok role))
    {keys roles rule : Json} (hrule : roles.getItem roleName = .ok rule)
    (htrusts : Trusts keys rule key) :
    loadAndVerifyRole fromisoformat release filename roleName keys roles = .ok role ↔
      Unexpired fromisoformat release.now (.str expires) ∧ ∀ s ∈ further, Readable keys rule s := by
  rw [← h.verifySignatures_iff htrusts, ← h.checkExpiry_iff]
  simp only [loadAndVerifyRole, bind_eq_ok, h.parts.loadRole hfile, h.parts.getItem_signed,
    h.validateRole hversion, hrule, Except.ok.injEq, exists_eq_left', pure, Except.pure, and_true]
  constructor
  · rintro ⟨_, -, _, hexpiry, _, hsignatures⟩
    exact ⟨hexpiry, hsignatures⟩
  · rintro ⟨hexpiry, hsignatures⟩
    exact ⟨(), trivial, (), hexpiry, (), hsignatures⟩

theorem boundRole (h : Renewed roleName key version expires field value further role signed first) :
    Scripts.boundRole role = .ok (boundEntry role version) := by
  simp only [Scripts.boundRole, h.parts.getItem_signed, getItem_of_lookup h.version, bind, Except.bind,
    pure, Except.pure]
  rfl

theorem checkMetaBinding
    (h : Renewed roleName key version expires field value further role signed first)
    {metadata : List (String × Json)}
    (hbound : Json.lookup metadata filename = some (boundEntry role version)) :
    UptaneVerifier.checkMetaBinding (.dict metadata) filename role = .ok () := by
  simp only [UptaneVerifier.checkMetaBinding, contains_of_lookup hbound, getItem_of_lookup hbound,
    h.parts.getItem_signed, getItem_of_lookup h.version, bind, Except.bind]
  simp [boundEntry, Json.getItem, Json.lookup, Json.eq, Json.rational?, raiseIf]

theorem checkRollback (h : Renewed roleName key version expires field value further role signed first)
    {trusted : Json} {w : ℤ} (hw : trustedVersion trusted roleName = .ok w) (hle : w ≤ version) :
    UptaneVerifier.checkRollback (.dict signed) roleName trusted = .ok () :=
  checkRollback_of_le (getD_of_lookup _ h.version) hw hle

theorem recordable (h : Renewed roleName key version expires field value further role signed first) :
    Recordable role :=
  ⟨_, .int version, version, .str expires, h.parts.getItem_signed, getItem_of_lookup h.version, rfl,
    getItem_of_lookup h.expires⟩

theorem roleVersion (h : Renewed roleName key version expires field value further role signed first) :
    UptaneVerifier.roleVersion role = .ok version := by
  simp only [UptaneVerifier.roleVersion, signedVersion, h.parts.getItem_signed,
    getD_of_lookup _ h.version, Json.toInt, bind, Except.bind]

end Renewed

/-! ## Release directories -/

/-- A root that is valid, not expired and signed under its own keys, with the key `demo-root` and
threshold 1 for all four roles. -/
structure DemoRoot (fromisoformat : String → Except PyError DateTime) (release : Release) where
  root : Json
  signed : Json
  keys : Json
  roles : Json
  key : Bytes
  rule : String → Json
  loaded : loadRole release "root.json" = .ok root
  signed_eq : root.getItem "signed" = .ok signed
  keys_eq : signed.getItem "keys" = .ok keys
  roles_eq : signed.getItem "roles" = .ok roles
  rule_eq : ∀ roleName ∈ requiredRoles, roles.getItem roleName = .ok (rule roleName)
  trusts : ∀ roleName ∈ requiredRoles, Trusts keys (rule roleName) key
  valid : validateRoot signed = .ok ()
  unexpired : checkExpiry fromisoformat release signed "root" = .ok ()
  selfSigned : verifySignatures root "root" keys (rule "root") = .ok ()
  versioned : ∃ text version, signed.getItem "version" = .ok text ∧ text.toInt = .ok version

/-- The document of a role in a directory. -/
structure DemoRole (directory : ReleaseDirectory) (roleName : String) where
  role : Json
  signed : List (String × Json)
  first : List (String × Json)
  further : List Json
  version : ℤ
  loaded : directory.metadata (roleName ++ ".json") = some (.ok role)
  document : DemoDocument roleName version role signed first further

/-- A directory before the script runs, and a state file with versions that are not above the
ones in the directory. -/
structure DemoRelease (fromisoformat : String → Except PyError DateTime) (directory : ReleaseDirectory)
    (now : ℤ) (s : JsonFile) where
  root : DemoRoot fromisoformat (directory.release now)
  targets : DemoRole directory "targets"
  snapshot : DemoRole directory "snapshot"
  timestamp : DemoRole directory "timestamp"
  manifest : Json
  packages : List Json
  manifest_eq : directory.manifest = some (.ok manifest)
  packages_eq : manifest.getItem "packages" = .ok (.list packages)
  complete : ∀ package ∈ packages, Complete directory package
  trusted_le : ∀ roleName ∈ requiredRoles, ∃ w v, storedVersion s roleName = .ok w ∧
    releaseVersion (directory.release now) roleName = .ok v ∧ w ≤ v

/-- The dates of the script can be read back. -/
structure Calendar (fromisoformat : String → Except PyError DateTime) (clock : Clock) : Prop where
  targets : ReadsBack fromisoformat (expiryDay clock.targets 59)
  snapshot : ReadsBack fromisoformat (expiryDay clock.snapshot 60)
  timestamp : ReadsBack fromisoformat (expiryDay clock.timestamp 61)

/-- None of the dates of the script has passed. -/
def InTime (clock : Clock) (now : ℤ) : Prop :=
  now < expiryDay clock.targets 59 * microsPerDay ∧
    now < expiryDay clock.snapshot 60 * microsPerDay ∧
    now < expiryDay clock.timestamp 61 * microsPerDay

/-- The document has a dictionary for the roles below it. -/
def DemoRole.HasMeta {directory : ReleaseDirectory} (d : DemoRole directory roleName) : Prop :=
  ∃ metadata, Json.lookup d.signed "meta" = some (.dict metadata)

/-- The signatures behind the first one can be read. -/
def DemoRole.FurtherReadable {directory : ReleaseDirectory} (d : DemoRole directory roleName)
    {release : Release} (root : DemoRoot fromisoformat release) : Prop :=
  ∀ s ∈ d.further, Readable root.keys (root.rule roleName) s

/-- What the three written documents hold. -/
structure RenewedBy {directory : ReleaseDirectory} {now : ℤ} {s : JsonFile}
    (d : DemoRelease fromisoformat directory now s) (clock : Clock) (refreshed : Dict String Json)
    (r : Renewal) : Prop where
  targets : ∃ signed first, Renewed "targets" d.root.key (d.targets.version + 1)
    (isoUtc clock.targets 59) "targets" (.dict refreshed.entries) d.targets.further r.targets signed first
  snapshot : ∃ metadata signed first,
    Json.lookup metadata "targets.json" = some (boundEntry r.targets (d.targets.version + 1)) ∧
    Renewed "snapshot" d.root.key (d.snapshot.version + 1) (isoUtc clock.snapshot 60) "meta"
      (.dict metadata) d.snapshot.further r.snapshot signed first
  timestamp : ∃ metadata signed first,
    Json.lookup metadata "snapshot.json" = some (boundEntry r.snapshot (d.snapshot.version + 1)) ∧
    Renewed "timestamp" d.root.key (d.timestamp.version + 1) (isoUtc clock.timestamp 61) "meta"
      (.dict metadata) d.timestamp.further r.timestamp signed first

/-! ## The script -/

section Refresh

variable {directory : ReleaseDirectory} {now : ℤ} {s : JsonFile} {clock : Clock}
  {refreshed : Dict String Json}

/-- A role with a `meta` dictionary is renewed with the entry for the role below it. -/
theorem DemoRole.renew_meta (d : DemoRole directory roleName) (hmeta : d.HasMeta) (belowFile : String)
    {keyHex below : Json} {key : Bytes} {belowName belowExpires belowField : String} {belowVersion : ℤ}
    {belowValue : Json} {belowSigned belowFirst : List (String × Json)} {belowFurther : List Json}
    (hkey : keyHex.bytesFromHex = .ok key)
    (hbelow : Renewed belowName key belowVersion belowExpires belowField belowValue belowFurther below
      belowSigned belowFirst) (expires : String) :
    ∃ role', renew keyHex d.role expires "meta" (boundMeta belowFile below) = .ok role' ∧
      ∃ metadata signed first, Json.lookup metadata belowFile = some (boundEntry below belowVersion) ∧
        Renewed roleName key (d.version + 1) expires "meta" (.dict metadata) d.further role' signed
          first := by
  obtain ⟨metadata, hmetadata⟩ := hmeta
  have hcontent : boundMeta belowFile below (.dict (dated d.signed (d.version + 1) expires)) =
      .ok (.dict (Dict.setEntries metadata belowFile (boundEntry below belowVersion))) := by
    have hlookup : Json.lookup (dated d.signed (d.version + 1) expires) "meta" =
        some (.dict metadata) := by rw [lookup_dated (by decide) (by decide), hmetadata]
    simp only [boundMeta, hbelow.boundRole, getItem_of_lookup hlookup, Json.setItem, bind, Except.bind]
  obtain ⟨role', signed, first, hrenew, hrenewed⟩ :=
    d.document.renew hkey (by decide : "meta" ∉ ["role", "version", "expires"]) hcontent
  exact ⟨role', hrenew, _, signed, first, lookup_set _ _ _, hrenewed⟩

theorem DemoRole.hasMeta_of_renew (d : DemoRole directory roleName) {keyHex below role' : Json}
    {belowFile expires : String}
    (h : renew keyHex d.role expires "meta" (boundMeta belowFile below) = .ok role') : d.HasMeta := by
  obtain ⟨value, hvalue⟩ := d.document.renew_ok h
  simp only [boundMeta, bind_eq_ok] at hvalue
  obtain ⟨entry, -, metadata, hmetadata, hset⟩ := hvalue
  have hlookup : Json.lookup d.signed "meta" = some metadata := by
    rw [← @lookup_dated _ (d.version + 1) expires "meta" (by decide) (by decide)]
    cases h : Json.lookup (dated d.signed (d.version + 1) expires) "meta" with
    | none => simp [Json.getItem, h] at hmetadata
    | some found => simpa [Json.getItem, h] using hmetadata
  cases metadata with
  | dict entries => exact ⟨entries, hlookup⟩
  | _ => cases hset

variable (d : DemoRelease fromisoformat directory now s)

theorem DemoRelease.demoRootKey :
    ∃ keyHex, Scripts.demoRootKey d.root.root = .ok keyHex ∧ keyHex.bytesFromHex = .ok d.root.key := by
  obtain ⟨entry, keyHex, hentry, -, hkeyHex, hkey⟩ := (d.root.trusts "root" (by decide)).entry
  refine ⟨keyHex, ?_, hkey⟩
  simp only [Scripts.demoRootKey, d.root.signed_eq, d.root.keys_eq, hentry, hkeyHex, bind, Except.bind]

theorem DemoRelease.renewal_ok (hsnapshot : d.snapshot.HasMeta) (htimestamp : d.timestamp.HasMeta)
    {keyHex : Json} (hkey : keyHex.bytesFromHex = .ok d.root.key) :
    ∃ r, renewal clock keyHex d.targets.role d.snapshot.role d.timestamp.role refreshed = .ok r ∧
      RenewedBy d clock refreshed r := by
  obtain ⟨targets, signed, first, htargets, hrenewed⟩ :=
    @DemoDocument.renew _ _ _ _ _ _ keyHex d.root.key _ (isoUtc clock.targets 59) "targets"
      (fun _ ↦ .ok (.dict refreshed.entries)) d.targets.document hkey (by decide) rfl
  obtain ⟨snapshot, hrenewSnapshot, metadata₁, signed₁, first₁, hbound₁, hrenewed₁⟩ :=
    d.snapshot.renew_meta hsnapshot "targets.json" hkey hrenewed
      (isoUtc clock.snapshot 60)
  obtain ⟨timestamp, hrenewTimestamp, hrenewed₂⟩ :=
    d.timestamp.renew_meta htimestamp "snapshot.json" hkey hrenewed₁
      (isoUtc clock.timestamp 61)
  refine ⟨⟨targets, snapshot, timestamp⟩, ?_, ⟨_, _, hrenewed⟩,
    ⟨_, _, _, hbound₁, hrenewed₁⟩, hrenewed₂⟩
  simp only [renewal, htargets, hrenewSnapshot, hrenewTimestamp, bind, Except.bind, pure, Except.pure]

theorem DemoRelease.metadata_root : directory.metadata "root.json" = some (.ok d.root.root) := by
  have h := d.root.loaded
  simp only [loadRole, ReleaseDirectory.release] at h
  cases hfile : directory.metadata "root.json" with
  | none =>
      rw [hfile] at h
      cases h
  | some file =>
      rw [hfile] at h
      simp only [bind_eq_ok, pure, Except.pure, Except.ok.injEq] at h
      obtain ⟨root, hroot, _, -, _, -, _, -, _, -, rfl⟩ := h
      rw [hroot]

/-- The packages of a release give one entry for each file. -/
theorem DemoRelease.refreshTargets :
    ∃ refreshed, d.packages.foldlM (refreshTarget directory) Dict.empty = .ok refreshed ∧
      AllBuilt directory refreshed ∧
      ∀ file, file ∈ refreshed.keys ↔ ∃ package ∈ d.packages, IsFileOf file package := by
  obtain ⟨refreshed, hrefreshed, hbuilt, hkeys⟩ :=
    refreshTargets_ok d.complete (show AllBuilt directory Dict.empty from fun file entry h ↦ by cases h)
  refine ⟨refreshed, hrefreshed, hbuilt, fun file ↦ (hkeys file).trans ?_⟩
  exact or_iff_right (List.not_mem_nil : file ∉ [])

/-- The loads at the start, and the key, are there: the script goes on to the new documents. -/
theorem DemoRelease.refresh_eq : ∃ keyHex refreshed, keyHex.bytesFromHex = .ok d.root.key ∧
    AllBuilt directory refreshed ∧
    (∀ file, file ∈ refreshed.keys ↔ ∃ package ∈ d.packages, IsFileOf file package) ∧
    refreshDemoTrustMetadata directory clock =
      (do
        let r ← renewal clock keyHex d.targets.role d.snapshot.role d.timestamp.role refreshed
        return (← refreshResult r refreshed, r.write directory)) := by
  obtain ⟨keyHex, hkeyHex, hkey⟩ := d.demoRootKey
  obtain ⟨refreshed, hrefreshed, hbuilt, hkeys⟩ := d.refreshTargets
  refine ⟨keyHex, refreshed, hkey, hbuilt, hkeys, ?_⟩
  have htargets : directory.metadata "targets.json" = some (.ok d.targets.role) := d.targets.loaded
  have hsnapshot : directory.metadata "snapshot.json" = some (.ok d.snapshot.role) := d.snapshot.loaded
  have htimestamp : directory.metadata "timestamp.json" = some (.ok d.timestamp.role) :=
    d.timestamp.loaded
  have hpackages : (Json.list d.packages).iter = .ok d.packages := rfl
  simp only [refreshDemoTrustMetadata, d.metadata_root, htargets, hsnapshot, htimestamp, loadJson,
    d.manifest_eq, d.packages_eq, hpackages, hkeyHex, hrefreshed, bind, Except.bind]

variable {d} {r : Renewal}

theorem RenewedBy.refreshResult (h : RenewedBy d clock refreshed r) :
    ∃ result, Scripts.refreshResult r refreshed = .ok result := by
  obtain ⟨_, _, htargets⟩ := h.targets
  obtain ⟨_, _, _, -, hsnapshot⟩ := h.snapshot
  obtain ⟨_, _, _, -, htimestamp⟩ := h.timestamp
  simp only [Scripts.refreshResult, htargets.parts.getItem_signed, hsnapshot.parts.getItem_signed,
    htimestamp.parts.getItem_signed, getItem_of_lookup htargets.version,
    getItem_of_lookup hsnapshot.version, getItem_of_lookup htimestamp.version,
    getItem_of_lookup htargets.expires, getItem_of_lookup hsnapshot.expires,
    getItem_of_lookup htimestamp.expires, bind, Except.bind, pure, Except.pure]
  exact ⟨_, rfl⟩

variable (d)

/-- The script returns if the snapshot and the timestamp have a `meta` dictionary. -/
theorem DemoRelease.refresh_ok (hsnapshot : d.snapshot.HasMeta) (htimestamp : d.timestamp.HasMeta) :
    ∃ result refreshed r,
      refreshDemoTrustMetadata directory clock = .ok (result, r.write directory) ∧
      RenewedBy d clock refreshed r ∧ AllBuilt directory refreshed ∧
      ∀ file, file ∈ refreshed.keys ↔ ∃ package ∈ d.packages, IsFileOf file package := by
  obtain ⟨keyHex, refreshed, hkey, hbuilt, hkeys, heq⟩ := @DemoRelease.refresh_eq _ _ _ _ clock d
  obtain ⟨r, hr, hrenewed⟩ :=
    @DemoRelease.renewal_ok _ _ _ _ clock refreshed d hsnapshot htimestamp _ hkey
  obtain ⟨result, hresult⟩ := hrenewed.refreshResult
  refine ⟨result, refreshed, r, ?_, hrenewed, hbuilt, hkeys⟩
  simp only [heq, hr, hresult, bind, Except.bind, pure, Except.pure]

theorem DemoRelease.hasMeta_of_refresh {result : RefreshResult × ReleaseDirectory}
    (h : refreshDemoTrustMetadata directory clock = .ok result) :
    d.snapshot.HasMeta ∧ d.timestamp.HasMeta := by
  obtain ⟨keyHex, refreshed, -, -, -, heq⟩ := @DemoRelease.refresh_eq _ _ _ _ clock d
  rw [heq] at h
  simp only [renewal, bind_eq_ok] at h
  obtain ⟨r, ⟨targets, -, snapshot, hsnapshot, timestamp, htimestamp, -⟩, -⟩ := h
  exact ⟨d.snapshot.hasMeta_of_renew hsnapshot, d.timestamp.hasMeta_of_renew htimestamp⟩

end Refresh

/-! ## The verifier behind the script -/

/-- One target for each file of a package, with the length and the digest of the artifact. -/
structure OneTargetPerFile (directory : ReleaseDirectory) (packages : List Json)
    (targets : List UptaneVerifier.TrustedTarget) : Prop where
  nodup : (targets.map UptaneVerifier.TrustedTarget.file).Nodup
  mem_iff : ∀ file, file ∈ targets.map UptaneVerifier.TrustedTarget.file ↔
    ∃ package ∈ packages, IsFileOf file package
  true_of_mem : ∀ t ∈ targets, TrueTarget directory t

/-- The script returns, and the verifier accepts what it has written: it returns one true target for
each file, and the versions of the three roles are higher than before. -/
def RefreshAccepted (fromisoformat : String → Except PyError DateTime) (directory : ReleaseDirectory)
    (clock : Clock) (now : ℤ) (s : JsonFile) (packages : List Json) : Prop :=
  ∃ result directory' targets,
    refreshDemoTrustMetadata directory clock = .ok (result, directory') ∧
    (verifyStep fromisoformat s (directory'.release now)).2 = .ok targets ∧
    OneTargetPerFile directory packages targets ∧
    ∀ roleName ∈ ["targets", "snapshot", "timestamp"], ∃ v v',
      releaseVersion (directory.release now) roleName = .ok v ∧
      releaseVersion (directory'.release now) roleName = .ok v' ∧ v < v'

section Verify

variable {directory : ReleaseDirectory} {now : ℤ} {s : JsonFile} {clock : Clock}
  {refreshed : Dict String Json} {r : Renewal} {d : DemoRelease fromisoformat directory now s}

theorem storedVersion_ok {v : ℤ} (h : storedVersion s roleName = .ok v) :
    ∃ trusted, trustedState s = .ok trusted ∧ trustedVersion trusted roleName = .ok v :=
  bind_eq_ok.mp h

/-- The trusted versions, all read from one state. -/
theorem DemoRelease.trusted (d : DemoRelease fromisoformat directory now s) :
    ∃ trusted, trustedState s = .ok trusted ∧ ∀ roleName ∈ requiredRoles, ∃ w v,
      trustedVersion trusted roleName = .ok w ∧
      releaseVersion (directory.release now) roleName = .ok v ∧ w ≤ v := by
  obtain ⟨w, v, hw, -, -⟩ := d.trusted_le "root" (by decide)
  obtain ⟨trusted, htrusted, -⟩ := storedVersion_ok hw
  refine ⟨trusted, htrusted, fun roleName hrole ↦ ?_⟩
  obtain ⟨w, v, hw, hv, hle⟩ := d.trusted_le roleName hrole
  obtain ⟨trusted', htrusted', hw⟩ := storedVersion_ok hw
  obtain rfl := Except.ok.inj (htrusted.symm.trans htrusted')
  exact ⟨w, v, hw, hv, hle⟩

theorem DemoRole.releaseVersion (role : DemoRole directory roleName) (now : ℤ) :
    UptaneVerifier.releaseVersion (directory.release now) roleName = .ok role.version := by
  have hload : loadRole (directory.release now) (roleName ++ ".json") = .ok role.role :=
    role.document.parts.loadRole role.loaded
  simp only [UptaneVerifier.releaseVersion, UptaneVerifier.roleVersion, hload,
    role.document.parts.getItem_signed, role.document.versioned, bind, Except.bind]

/-- The root is accepted behind the script as it is before. -/
theorem DemoRelease.trustRoot (d : DemoRelease fromisoformat directory now s) (r : Renewal)
    {trusted : Json} {w v : ℤ} (hw : trustedVersion trusted "root" = .ok w)
    (hv : UptaneVerifier.releaseVersion (directory.release now) "root" = .ok v) (hle : w ≤ v) :
    UptaneVerifier.trustRoot fromisoformat ((r.write directory).release now) trusted =
      .ok d.root.root := by
  have hload : loadRole ((r.write directory).release now) "root.json" = .ok d.root.root := d.root.loaded
  have hexpiry : checkExpiry fromisoformat ((r.write directory).release now) d.root.signed "root" =
      .ok () := d.root.unexpired
  have hrollback : checkRollback d.root.signed "root" trusted = .ok () := by
    have hbefore : loadRole (directory.release now) "root.json" = .ok d.root.root := d.root.loaded
    have hname : ("root" ++ ".json" : String) = "root.json" := rfl
    simp only [UptaneVerifier.releaseVersion, UptaneVerifier.roleVersion, signedVersion, bind_eq_ok,
      hname, hbefore, d.root.signed_eq, Except.ok.injEq, exists_eq_left'] at hv
    obtain ⟨text, htext, hint⟩ := hv
    simp only [checkRollback, htext, hint, hw, bind, Except.bind]
    exact raiseIf_eq_ok.mpr (not_lt.mpr hle)
  simp only [UptaneVerifier.trustRoot, hload, d.root.signed_eq, d.root.valid, hexpiry, d.root.keys_eq,
    d.root.roles_eq, d.root.rule_eq "root" (by decide), d.root.selfSigned, hrollback, bind, Except.bind,
    pure, Except.pure]

/-- The three dates lie ahead and every further signature can be read. -/
structure Loadable (d : DemoRelease fromisoformat directory now s) (clock : Clock) : Prop where
  inTime : InTime clock now
  targets : d.targets.FurtherReadable d.root
  snapshot : d.snapshot.FurtherReadable d.root
  timestamp : d.timestamp.FurtherReadable d.root

/-- The roles of a written release, as the verifier loads them. -/
def Renewal.metadata (r : Renewal) (root : Json) : Metadata := ⟨root, r.timestamp, r.snapshot, r.targets⟩

theorem RenewedBy.loadRoles_iff (h : RenewedBy d clock refreshed r)
    (hcalendar : Calendar fromisoformat clock) :
    loadRoles fromisoformat ((r.write directory).release now) d.root.root =
        .ok (r.metadata d.root.root) ↔ Loadable d clock := by
  obtain ⟨_, _, htargets⟩ := h.targets
  obtain ⟨_, _, _, -, hsnapshot⟩ := h.snapshot
  obtain ⟨_, _, _, -, htimestamp⟩ := h.timestamp
  have hpositive : ∀ {name} (role : DemoRole directory name), 1 ≤ role.version + 1 := fun role ↦ by
    have := role.document.one_le
    omega
  have htargets := @Renewed.loadAndVerifyRole_iff fromisoformat _ "targets.json" _ _ _ _ _ _ _ _ _
    htargets (hpositive _) ((r.write directory).release now) rfl _ _ _ (d.root.rule_eq _ (by decide))
    (d.root.trusts _ (by decide))
  have hsnapshot := @Renewed.loadAndVerifyRole_iff fromisoformat _ "snapshot.json" _ _ _ _ _ _ _ _ _
    hsnapshot (hpositive _) ((r.write directory).release now) rfl _ _ _ (d.root.rule_eq _ (by decide))
    (d.root.trusts _ (by decide))
  have htimestamp := @Renewed.loadAndVerifyRole_iff fromisoformat _ "timestamp.json" _ _ _ _ _ _ _ _ _
    htimestamp (hpositive _) ((r.write directory).release now) rfl _ _ _ (d.root.rule_eq _ (by decide))
    (d.root.trusts _ (by decide))
  rw [unexpired_isoUtc hcalendar.targets] at htargets
  rw [unexpired_isoUtc hcalendar.snapshot] at hsnapshot
  rw [unexpired_isoUtc hcalendar.timestamp] at htimestamp
  have hloads : loadRoles fromisoformat ((r.write directory).release now) d.root.root =
        .ok (r.metadata d.root.root) ↔
      loadAndVerifyRole fromisoformat ((r.write directory).release now) "timestamp.json" "timestamp"
          d.root.keys d.root.roles = .ok r.timestamp ∧
        loadAndVerifyRole fromisoformat ((r.write directory).release now) "snapshot.json" "snapshot"
          d.root.keys d.root.roles = .ok r.snapshot ∧
        loadAndVerifyRole fromisoformat ((r.write directory).release now) "targets.json" "targets"
          d.root.keys d.root.roles = .ok r.targets := by
    simp only [loadRoles, bind_eq_ok, d.root.signed_eq, d.root.keys_eq, d.root.roles_eq,
      Except.ok.injEq, exists_eq_left', pure, Except.pure, Renewal.metadata, Metadata.mk.injEq, true_and]
    constructor
    · rintro ⟨_, ht, _, hs, _, hg, rfl, rfl, rfl⟩
      exact ⟨ht, hs, hg⟩
    · rintro ⟨ht, hs, hg⟩
      exact ⟨_, ht, _, hs, _, hg, rfl, rfl, rfl⟩
  rw [hloads]
  constructor
  · rintro ⟨ht, hs, hg⟩
    obtain ⟨hinTimestamp, hreadTimestamp⟩ := htimestamp.mp ht
    obtain ⟨hinSnapshot, hreadSnapshot⟩ := hsnapshot.mp hs
    obtain ⟨hinTargets, hreadTargets⟩ := htargets.mp hg
    exact ⟨⟨hinTargets, hinSnapshot, hinTimestamp⟩, hreadTargets, hreadSnapshot, hreadTimestamp⟩
  · rintro ⟨⟨hinTargets, hinSnapshot, hinTimestamp⟩, hreadTargets, hreadSnapshot, hreadTimestamp⟩
    exact ⟨htimestamp.mpr ⟨hinTimestamp, hreadTimestamp⟩, hsnapshot.mpr ⟨hinSnapshot, hreadSnapshot⟩,
      htargets.mpr ⟨hinTargets, hreadTargets⟩⟩

/-- A written release whose roles are loaded passes the other checks as well. -/
theorem RenewedBy.verified (h : RenewedBy d clock refreshed r) (hbuilt : AllBuilt directory refreshed)
    (hcalendar : Calendar fromisoformat clock) (hloadable : Loadable d clock) :
    ∃ trusted targets state, trustedState s = .ok trusted ∧
      Verified fromisoformat ((r.write directory).release now) trusted (r.metadata d.root.root) targets
        state ∧
      targets.map UptaneVerifier.TrustedTarget.file = refreshed.keys ∧
        ∀ t ∈ targets, TrueTarget directory t := by
  have hroles := (h.loadRoles_iff hcalendar).mpr hloadable
  obtain ⟨_, _, htargets⟩ := h.targets
  obtain ⟨_, _, _, hboundTargets, hsnapshot⟩ := h.snapshot
  obtain ⟨_, _, _, hboundSnapshot, htimestamp⟩ := h.timestamp
  obtain ⟨trusted, htrusted, hbelow⟩ := d.trusted
  have hrole : ∀ {name} (role : DemoRole directory name), name ∈ requiredRoles →
      ∃ w, trustedVersion trusted name = .ok w ∧ w ≤ role.version + 1 := by
    intro name role hname
    obtain ⟨w, v, hw, hv, hle⟩ := hbelow name hname
    obtain rfl := Except.ok.inj ((role.releaseVersion now).symm.trans hv)
    exact ⟨w, hw, by omega⟩
  obtain ⟨wt, hwt, hlet⟩ := hrole d.timestamp (by decide)
  obtain ⟨ws, hws, hles⟩ := hrole d.snapshot (by decide)
  obtain ⟨wg, hwg, hleg⟩ := hrole d.targets (by decide)
  obtain ⟨w, v, hw, hv, hle⟩ := hbelow "root" (by decide)
  have hrollbacks : checkRollbacks (r.metadata d.root.root) trusted = .ok () := by
    simp only [checkRollbacks, Renewal.metadata, htimestamp.parts.getItem_signed,
      hsnapshot.parts.getItem_signed, htargets.parts.getItem_signed, htimestamp.checkRollback hwt hlet,
      hsnapshot.checkRollback hws hles, htargets.checkRollback hwg hleg, bind, Except.bind]
  have hbindings : checkBindings (r.metadata d.root.root) = .ok () := by
    simp only [checkBindings, Renewal.metadata, htimestamp.parts.getItem_signed,
      getItem_of_lookup htimestamp.field, hsnapshot.checkMetaBinding hboundSnapshot,
      hsnapshot.parts.getItem_signed, getItem_of_lookup hsnapshot.field,
      htargets.checkMetaBinding hboundTargets, bind, Except.bind]
  obtain ⟨targets, hverify, hnames, htrue⟩ := @verifyArtifacts_ok _ _ now hbuilt
  have hartifacts : (do
      let signed ← (r.metadata d.root.root).targets.getItem "signed"
      verifyArtifacts ((r.write directory).release now) (← signed.getItem "targets")) =
        .ok targets := by
    simp only [Renewal.metadata, htargets.parts.getItem_signed, getItem_of_lookup htargets.field, bind,
      Except.bind]
    exact hverify
  obtain ⟨state, hstate⟩ : ∃ state, recordedState (r.metadata d.root.root) trusted = .ok state := by
    refine recordedState_of_recordable (fun name hname ↦ ?_) fun name hname ↦ ?_
    · obtain ⟨w, -, hw, -⟩ := hbelow name hname
      exact ⟨w, hw⟩
    · simp only [requiredRoles, List.mem_cons, List.not_mem_nil, or_false] at hname
      rcases hname with rfl | rfl | rfl | rfl
      · obtain ⟨text, version, htext, hversion⟩ := d.root.versioned
        obtain ⟨expires, hexpires, -⟩ := checkExpiry_eq_ok.mp d.root.unexpired
        exact ⟨d.root.signed, text, version, expires, d.root.signed_eq, htext, hversion, hexpires⟩
      · exact htimestamp.recordable
      · exact hsnapshot.recordable
      · exact htargets.recordable
  exact ⟨trusted, targets, state, htrusted, ⟨d.trustRoot r hw hv hle, hroles, hrollbacks, hbindings,
    hartifacts, hstate⟩, hnames, htrue⟩

theorem RenewedBy.releaseVersion (h : RenewedBy d clock refreshed r) :
    ∀ roleName ∈ ["targets", "snapshot", "timestamp"], ∃ v v',
      UptaneVerifier.releaseVersion (directory.release now) roleName = .ok v ∧
      UptaneVerifier.releaseVersion ((r.write directory).release now) roleName = .ok v' ∧ v < v' := by
  obtain ⟨_, _, htargets⟩ := h.targets
  obtain ⟨_, _, _, -, hsnapshot⟩ := h.snapshot
  obtain ⟨_, _, _, -, htimestamp⟩ := h.timestamp
  have hload : ∀ {name file : String} {role : Json} {signed first further},
      RoleParts role signed first further → name ++ ".json" = file →
      (r.write directory).metadata file = some (.ok role) →
      UptaneVerifier.releaseVersion ((r.write directory).release now) name = roleVersion role := by
    intro name file role signed first further hparts hname hfile
    have hloaded : loadRole ((r.write directory).release now) file = .ok role := hparts.loadRole hfile
    simp only [UptaneVerifier.releaseVersion, hname, hloaded, bind, Except.bind]
  intro roleName hrole
  simp only [List.mem_cons, List.not_mem_nil, or_false] at hrole
  rcases hrole with rfl | rfl | rfl
  · refine ⟨_, _, d.targets.releaseVersion now, ?_, lt_add_one _⟩
    rw [hload htargets.parts rfl rfl, htargets.roleVersion]
  · refine ⟨_, _, d.snapshot.releaseVersion now, ?_, lt_add_one _⟩
    rw [hload hsnapshot.parts rfl rfl, hsnapshot.roleVersion]
  · refine ⟨_, _, d.timestamp.releaseVersion now, ?_, lt_add_one _⟩
    rw [hload htimestamp.parts rfl rfl, htimestamp.roleVersion]

theorem refreshAccepted_of_loadable (d : DemoRelease fromisoformat directory now s)
    (hcalendar : Calendar fromisoformat clock) (hsnapshot : d.snapshot.HasMeta)
    (htimestamp : d.timestamp.HasMeta) (hloadable : Loadable d clock) :
    RefreshAccepted fromisoformat directory clock now s d.packages := by
  obtain ⟨result, refreshed, r, hrefresh, hrenewed, hbuilt, hkeys⟩ := d.refresh_ok hsnapshot htimestamp
  obtain ⟨trusted, targets, state, htrusted, hverified, hnames, htrue⟩ :=
    hrenewed.verified hbuilt hcalendar hloadable
  refine ⟨result, r.write directory, targets, hrefresh, ?_, ⟨?_, fun file ↦ ?_, htrue⟩,
    hrenewed.releaseVersion⟩
  · rw [verifyStep, verify_of_verified htrusted hverified]
  · rw [hnames]
    exact refreshed.nodup
  · rw [hnames, hkeys]

theorem loadable_of_refreshAccepted (d : DemoRelease fromisoformat directory now s)
    (hcalendar : Calendar fromisoformat clock)
    (h : RefreshAccepted fromisoformat directory clock now s d.packages) :
    d.snapshot.HasMeta ∧ d.timestamp.HasMeta ∧ Loadable d clock := by
  obtain ⟨result, directory', targets, hrefresh, hverify, -, -⟩ := h
  obtain ⟨hsnapshot, htimestamp⟩ := d.hasMeta_of_refresh hrefresh
  obtain ⟨result', refreshed, r, hrefresh', hrenewed, -, -⟩ := d.refresh_ok hsnapshot htimestamp
  obtain ⟨rfl, rfl⟩ := Prod.mk.inj (Except.ok.inj (hrefresh'.symm.trans hrefresh))
  refine ⟨hsnapshot, htimestamp, (hrenewed.loadRoles_iff hcalendar).mp ?_⟩
  rcases verifyStep_cases fromisoformat s ((r.write directory).release now) with
    ⟨err, hstep⟩ | ⟨_, trusted, m, state, -, hverified, hstep⟩
  · rw [hstep] at hverify
    cases hverify
  obtain ⟨_, _, hg⟩ := hrenewed.targets
  obtain ⟨_, _, _, -, hs⟩ := hrenewed.snapshot
  obtain ⟨_, _, _, -, ht⟩ := hrenewed.timestamp
  have hroot := (trustRoot_ok hverified.root).1
  obtain ⟨-, hloadTimestamp, hloadSnapshot, hloadTargets⟩ := loadRoles_ok hverified.roles
  have hm : m = r.metadata d.root.root := by
    have hroot' : loadRole ((r.write directory).release now) "root.json" = .ok d.root.root :=
      d.root.loaded
    have htimestamp' : loadRole ((r.write directory).release now) "timestamp.json" = .ok r.timestamp :=
      ht.parts.loadRole rfl
    have hsnapshot' : loadRole ((r.write directory).release now) "snapshot.json" = .ok r.snapshot :=
      hs.parts.loadRole rfl
    have htargets' : loadRole ((r.write directory).release now) "targets.json" = .ok r.targets :=
      hg.parts.loadRole rfl
    rw [hroot', Except.ok.injEq] at hroot
    rw [htimestamp', Except.ok.injEq] at hloadTimestamp
    rw [hsnapshot', Except.ok.injEq] at hloadSnapshot
    rw [htargets', Except.ok.injEq] at hloadTargets
    cases m
    rw [Renewal.metadata, hroot, hloadTimestamp, hloadSnapshot, hloadTargets]
  obtain rfl := hm
  exact hverified.roles

end Verify

/-! ## A small release

The directory below has one package.  A second signature of the timestamp and the field of the
snapshot are left open. -/

section Demo

def decimal (digits : List Char) : ℕ := digits.foldl (fun n c ↦ 10 * n + (c.toNat - 48)) 0

/-- `datetime.fromisoformat` on midnight in UTC. -/
def fromMidnight (text : String) : Except PyError DateTime :=
  let year := decimal (text.toList.take 4)
  let month := decimal (slice text.toList 5 7)
  let day := decimal (slice text.toList 8 10)
  let shifted := if month ≤ 2 then year - 1 else year
  let dayOfYear := (153 * ((month + 9) % 12) + 2) / 5 + day - 1
  let days := 365 * shifted + shifted / 4 - shifted / 100 + shifted / 400 + dayOfYear
  if text.toList.drop 10 = "T00:00:00+00:00".toList then
    .ok ⟨((days : ℤ) - 719468) * microsPerDay, some 0⟩
  else .error (.valueError ("Invalid isoformat string: '" ++ text ++ "'"))

def demoKey : Bytes := [0x00, 0x11]

def demoExpires : Json := .str "2099-12-31T00:00:00Z"

def demoRoleSigned (roleName field : String) : List (String × Json) :=
  [("expires", demoExpires), ("role", .str roleName), ("version", .int 1), (field, .dict [])]

def demoFirst (roleName field : String) : List (String × Json) :=
  [("keyid", .str "demo-root"),
    ("sig", .str (hexDigest (hmacSha256 demoKey
      (Json.dict (demoRoleSigned roleName field)).canonicalBytes)))]

def demoRole (roleName field : String) (further : List Json) : Json :=
  .dict [("signatures", .list (.dict (demoFirst roleName field) :: further)),
    ("signed", .dict (demoRoleSigned roleName field))]

def demoPackage : Json :=
  .dict [("ecu_name", .str "BCM ECU"), ("hardware_variant", .str "GENERIC"),
    ("minimum_bootloader", .str "1.0.0"), ("target_version", .str "2.0.0"), ("transport", .str "DOIP"),
    ("file", .str "bcm_v2.bin")]

def demoDirectory (snapshotField : String) (further : List Json) : ReleaseDirectory where
  path := "firmware"
  metadata := fun filename ↦
    if filename = "root.json" then some (.ok (strangerRoot "demo-root" demoKey demoExpires 1))
    else if filename = "targets.json" then some (.ok (demoRole "targets" "targets" []))
    else if filename = "snapshot.json" then some (.ok (demoRole "snapshot" snapshotField []))
    else if filename = "timestamp.json" then some (.ok (demoRole "timestamp" "meta" further))
    else none
  manifest := some (.ok (.dict [("packages", .list [demoPackage])]))
  artifacts := fun filename ↦ if filename = "bcm_v2.bin" then some [0xaa, 0xbb] else none

/-- The script runs in the middle of 2026. -/
def demoClock : Clock := ⟨20650 * microsPerDay, 20650 * microsPerDay, 20650 * microsPerDay⟩

theorem calendar_demoClock : Calendar fromMidnight demoClock where
  targets := show fromMidnight (isoformat 20709) = .ok ⟨20709 * microsPerDay, some 0⟩ by rfl
  snapshot := show fromMidnight (isoformat 20710) = .ok ⟨20710 * microsPerDay, some 0⟩ by rfl
  timestamp := show fromMidnight (isoformat 20711) = .ok ⟨20711 * microsPerDay, some 0⟩ by rfl

variable {snapshotField : String} {further : List Json} {now : ℤ}

theorem demoDocument (roleName field : String) (further : List Json) :
    DemoDocument roleName 1 (demoRole roleName field further) (demoRoleSigned roleName field)
      (demoFirst roleName field) further where
  parts := ⟨_, rfl, rfl, rfl⟩
  name := rfl
  versioned := rfl
  one_le := le_rfl
  keyid := rfl

theorem unexpired_demoExpires (hnow : now < 47481 * microsPerDay) :
    Unexpired fromMidnight now demoExpires :=
  ⟨47481 * microsPerDay, 0, by rfl, by rwa [sub_zero]⟩

def demoRoot (snapshotField : String) (further : List Json) (hnow : now < 47481 * microsPerDay) :
    DemoRoot fromMidnight ((demoDirectory snapshotField further).release now) where
  root := strangerRoot "demo-root" demoKey demoExpires 1
  signed := strangerRootSigned "demo-root" demoKey demoExpires 1
  keys := strangerKeys "demo-root" demoKey
  roles := strangerRoles "demo-root"
  key := demoKey
  rule := fun _ ↦ strangerRule "demo-root"
  loaded := rfl
  signed_eq := rfl
  keys_eq := rfl
  roles_eq := rfl
  rule_eq := fun _ hrole ↦ strangerRoles_getItem hrole
  trusts := fun _ _ ↦ ⟨rfl, ⟨_, rfl, rfl⟩, _, _, rfl, rfl, rfl, fromHex_hexDigest demoKey⟩
  valid := validateRoot_stranger rfl rfl
  unexpired := checkExpiry_eq_ok.mpr ⟨demoExpires, rfl, unexpired_demoExpires hnow⟩
  selfSigned := verifySignatures_sign _ _
  versioned := ⟨.int 1, 1, rfl, rfl⟩

theorem demoPackage_complete : Complete (demoDirectory snapshotField further) demoPackage := by
  refine ⟨_, "bcm_v2.bin", [0xaa, 0xbb], rfl, rfl, rfl, fun field hfield ↦ ?_,
    Or.inr ⟨Or.inl rfl, _, rfl⟩⟩
  simp only [requiredFields, List.mem_cons, List.not_mem_nil, or_false] at hfield
  rcases hfield with rfl | rfl | rfl | rfl <;> exact ⟨_, rfl⟩

theorem demoTrusted_le : ∀ roleName ∈ requiredRoles, ∃ w v, storedVersion none roleName = .ok w ∧
    releaseVersion ((demoDirectory snapshotField further).release now) roleName = .ok v ∧ w ≤ v := by
  intro roleName hrole
  simp only [requiredRoles, List.mem_cons, List.not_mem_nil, or_false] at hrole
  rcases hrole with rfl | rfl | rfl | rfl <;> exact ⟨0, 1, rfl, rfl, by decide⟩

def demoRelease (snapshotField : String) (further : List Json) (hnow : now < 47481 * microsPerDay) :
    DemoRelease fromMidnight (demoDirectory snapshotField further) now none where
  root := demoRoot snapshotField further hnow
  targets := ⟨_, _, _, _, 1, rfl, demoDocument "targets" "targets" []⟩
  snapshot := ⟨_, _, _, _, 1, rfl, demoDocument "snapshot" snapshotField []⟩
  timestamp := ⟨_, _, _, _, 1, rfl, demoDocument "timestamp" "meta" further⟩
  manifest := .dict [("packages", .list [demoPackage])]
  packages := [demoPackage]
  manifest_eq := rfl
  packages_eq := rfl
  complete := by simpa using demoPackage_complete
  trusted_le := demoTrusted_le

/-- The day on which the script runs. -/
def demoNow : ℤ := 20650 * microsPerDay

theorem not_readable_empty (keys rule : Json) : ¬ Readable keys rule (.dict []) := by
  rintro ⟨keyid, -, -, hkeyid, -⟩
  cases hkeyid

end Demo

/-- The refreshed metadata is accepted if and only if the snapshot and the timestamp have a
dictionary for the roles below them, the dates of the script lie ahead of the verifier, and the
signatures behind the first one of each document can be read. -/
theorem refreshed_metadata_accepted_iff (fromisoformat : String → Except PyError DateTime)
    (directory : ReleaseDirectory) (clock : Clock) (now : ℤ) (s : JsonFile)
    (d : DemoRelease fromisoformat directory now s) (hcalendar : Calendar fromisoformat clock) :
    RefreshAccepted fromisoformat directory clock now s d.packages ↔
      d.snapshot.HasMeta ∧ d.timestamp.HasMeta ∧ Loadable d clock := by
  constructor
  · exact loadable_of_refreshAccepted d hcalendar
  · rintro ⟨hsnapshot, htimestamp, hloadable⟩
    exact refreshAccepted_of_loadable d hcalendar hsnapshot htimestamp hloadable

theorem refreshed_metadata_accepted_demo :
    RefreshAccepted fromMidnight (demoDirectory "meta" []) demoClock demoNow none [demoPackage] :=
  (refreshed_metadata_accepted_iff fromMidnight (demoDirectory "meta" []) demoClock demoNow none
    (demoRelease "meta" [] (by decide)) calendar_demoClock).mpr
    ⟨⟨[], rfl⟩, ⟨[], rfl⟩, ⟨by decide, by decide, by decide⟩, fun _ h ↦ absurd h List.not_mem_nil,
      fun _ h ↦ absurd h List.not_mem_nil, fun _ h ↦ absurd h List.not_mem_nil⟩

/-- A second signature without a key id, a snapshot without the dictionary, and a verifier that
runs when the dates have passed. -/
theorem refreshed_metadata_rejected :
    (∃ d : DemoRelease fromMidnight (demoDirectory "meta" [.dict []]) demoNow none,
      ¬ RefreshAccepted fromMidnight (demoDirectory "meta" [.dict []]) demoClock demoNow none
        d.packages) ∧
    (∃ d : DemoRelease fromMidnight (demoDirectory "roles" []) demoNow none,
      ¬ RefreshAccepted fromMidnight (demoDirectory "roles" []) demoClock demoNow none d.packages) ∧
    ∃ d : DemoRelease fromMidnight (demoDirectory "meta" []) (20711 * microsPerDay) none,
      ¬ RefreshAccepted fromMidnight (demoDirectory "meta" []) demoClock (20711 * microsPerDay) none
        d.packages := by
  refine ⟨⟨demoRelease "meta" [.dict []] (by decide), fun h ↦ ?_⟩,
    ⟨demoRelease "roles" [] (by decide), fun h ↦ ?_⟩,
    ⟨demoRelease "meta" [] (by decide), fun h ↦ ?_⟩⟩
  · obtain ⟨-, -, hloadable⟩ := loadable_of_refreshAccepted _ calendar_demoClock h
    exact not_readable_empty _ _ (hloadable.timestamp _ (List.mem_singleton.mpr rfl))
  · obtain ⟨⟨metadata, hmetadata⟩, -⟩ := loadable_of_refreshAccepted _ calendar_demoClock h
    cases hmetadata
  · obtain ⟨-, -, hloadable⟩ := loadable_of_refreshAccepted _ calendar_demoClock h
    exact absurd hloadable.inTime.1 (by decide)

end VehicleOta.Scripts
