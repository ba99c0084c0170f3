import VehicleOta.Tcu.MetadataHistory

/-!
# A release that one key has signed

Where all roles of a release are signed with the one key of its root, and the targets list the
artifacts as they are, `verify` accepts the release on every state file with versions not above
its own, and accepts it once more behind that.
-/

namespace VehicleOta.Tcu.UptaneVerifier

open CrashLogic TraceLogic Hash

/-! ## Digests as texts -/

theorem compareDigest_self (data : Bytes) :
    compareDigest (hexDigest data) (.str (hexDigest data)) = .ok true := by
  rw [compareDigest, hexDigest_ascii, if_pos rfl, decide_eq_true rfl]

/-! ## Signed roles -/

section Signed

variable (keyid : String) (key : Bytes) (expires : Json) (version : ℤ)

def signature (signed : Json) : Json :=
  .dict [("keyid", .str keyid), ("sig", .str (hexDigest (hmacSha256 key signed.canonicalBytes)))]

def sign (signed : Json) : Json :=
  .dict [("signatures", .list [signature keyid key signed]), ("signed", signed)]

def strangerRule : Json := .dict [("keyids", .list [.str keyid]), ("threshold", .int 1)]

def strangerKeys : Json :=
  .dict [(keyid, .dict [("algorithm", .str "hmac-sha256"), ("key", .str (hexDigest key))])]

def strangerRoles : Json := .dict (requiredRoles.map fun roleName ↦ (roleName, strangerRule keyid))

def strangerRootSigned : Json :=
  .dict [("expires", expires), ("keys", strangerKeys keyid key),
    ("roles", strangerRoles keyid), ("version", .int version)]

def strangerRoot : Json := sign keyid key (strangerRootSigned keyid key expires version)

/-- A role other than the root, with one field of its own. -/
def strangerRoleSigned (roleName field : String) (content : Json) : Json :=
  .dict [("expires", expires), ("role", .str roleName), ("version", .int version),
    (field, content)]

def strangerRole (roleName field : String) (content : Json) : Json :=
  sign keyid key (strangerRoleSigned expires version roleName field content)

def binding (role : Json) : Json :=
  .dict [("hashes", .dict [("sha256", .str (hexDigest (sha256 role.canonicalBytes)))]),
    ("length", .int role.canonicalBytes.length), ("version", .int version)]

section Release

variable (targets : Json)

def signedTargets : Json := strangerRole keyid key expires version "targets" "targets" targets

def signedSnapshot : Json :=
  strangerRole keyid key expires version "snapshot" "meta"
    (.dict [("targets.json", binding version (signedTargets keyid key expires version targets))])

def signedTimestamp : Json :=
  strangerRole keyid key expires version "timestamp" "meta"
    (.dict [("snapshot.json", binding version (signedSnapshot keyid key expires version targets))])

def signedMetadata : Metadata :=
  ⟨strangerRoot keyid key expires version, signedTimestamp keyid key expires version targets,
    signedSnapshot keyid key expires version targets,
    signedTargets keyid key expires version targets⟩

/-- The files of the metadata. -/
def signedDocument (filename : String) : JsonFile :=
  if filename = "root.json" then some (.ok (strangerRoot keyid key expires version))
  else if filename = "timestamp.json" then
    some (.ok (signedTimestamp keyid key expires version targets))
  else if filename = "snapshot.json" then
    some (.ok (signedSnapshot keyid key expires version targets))
  else if filename = "targets.json" then
    some (.ok (signedTargets keyid key expires version targets))
  else none

end Release

variable {keyid key expires version} {targets : Json}

theorem validKeyids_sign (signed : Json) :
    validKeyids (sign keyid key signed) (strangerKeys keyid key) (strangerRule keyid) =
      .ok [keyid] := by
  have hcount : countSignature (strangerKeys keyid key) (strangerRule keyid) signed.canonicalBytes []
      (signature keyid key signed) = .ok [keyid] := by
    simp [countSignature, strangerKeys, strangerRule, signature, Json.getItem, Json.lookup,
      Json.contains, Json.eq, Json.getKey, Json.hashable, Json.getD, Json.bytesFromHex, fromHex_hexDigest,
      compareDigest_self, bind, Except.bind, pure, Except.pure]
  simp only [validKeyids, sign, Json.getD, Json.getItem, Json.lookup, Json.iter, bind, Except.bind,
    List.find?_cons, decide_true, Option.map_some, Option.getD_some, String.reduceEq, decide_false]
  rw [List.foldlM_cons, hcount]
  rfl

theorem verifySignatures_sign (signed : Json) (roleName : String) :
    verifySignatures (sign keyid key signed) roleName (strangerKeys keyid key)
      (strangerRule keyid) = .ok () := by
  have hcount : (sign keyid key signed).getD "signatures" (.list []) =
      .ok (.list [signature keyid key signed]) := rfl
  have hthreshold : (strangerRule keyid).getItem "threshold" = .ok (.int 1) := rfl
  simp [verifySignatures, hcount, hthreshold, validKeyids_sign, Json.len, Json.intLt, raiseIf, bind,
    Except.bind]

theorem strangerRoles_getItem {roleName : String} (h : roleName ∈ requiredRoles) :
    (strangerRoles keyid).getItem roleName = .ok (strangerRule keyid) := by
  simp only [requiredRoles, List.mem_cons, List.not_mem_nil, or_false] at h
  rcases h with rfl | rfl | rfl | rfl <;> rfl

theorem validateRule_stranger {roleName : String} (h : roleName ∈ requiredRoles) :
    validateRule (strangerRoles keyid) (strangerKeys keyid key) roleName = .ok () := by
  simp [validateRule, strangerRoles_getItem h, strangerRule, strangerKeys, Json.getD, Json.lookup,
    Json.toInt, Json.len, Json.iter, Json.contains, Json.hashable, Json.eq, raiseIf, bind,
    Except.bind, pure, Except.pure, List.forM]

theorem forM_eq_ok {α : Type} {f : α → Except PyError Unit} {xs : List α} :
    xs.forM f = .ok () ↔ ∀ x ∈ xs, f x = .ok () := by
  induction xs with
  | nil => exact iff_of_true rfl fun x hx ↦ absurd hx List.not_mem_nil
  | cons x xs ih =>
      have hcons : (x :: xs).forM f = (f x >>= fun _ ↦ xs.forM f) := rfl
      rw [hcons, bind_eq_ok, List.forall_mem_cons, ← ih]
      constructor
      · rintro ⟨_, hx, hrest⟩
        exact ⟨hx, hrest⟩
      · rintro ⟨hx, hrest⟩
        exact ⟨(), hx, hrest⟩

theorem validateRoot_stranger {signed : Json}
    (hroles : signed.getD "roles" (.dict []) = .ok (strangerRoles keyid))
    (hkeys : signed.getD "keys" (.dict []) = .ok (strangerKeys keyid key)) :
    validateRoot signed = .ok () := by
  have hnames : (strangerRoles keyid).keys = .ok requiredRoles := rfl
  have hmissing : requiredRoles.filter (· ∉ requiredRoles) = [] := by decide
  have hrules : requiredRoles.forM (validateRule (strangerRoles keyid) (strangerKeys keyid key)) =
      .ok () := forM_eq_ok.mpr fun _ h ↦ validateRule_stranger h
  simp only [validateRoot, hroles, hkeys, hnames, hmissing, hrules, raiseIf, bind, Except.bind,
    ne_eq, not_true_eq_false, if_false]

/-! ## The checks of a run -/

def Unexpired (fromisoformat : String → Except PyError DateTime) (now : ℤ) (expires : Json) : Prop :=
  ∃ clock offset, parseTimestamp fromisoformat expires = .ok ⟨clock, some offset⟩ ∧
    now < clock - offset

theorem checkExpiry_eq_ok {signed : Json} {u : Unit} :
    checkExpiry fromisoformat release signed roleName = .ok u ↔
      ∃ expires, signed.getItem "expires" = .ok expires ∧
        Unexpired fromisoformat release.now expires := by
  simp only [checkExpiry, bind_eq_ok, Unexpired]
  refine exists_congr fun expires ↦ and_congr_right fun _ ↦ ?_
  constructor
  · rintro ⟨⟨clock, utcoffset⟩, hparse, hcheck⟩
    cases utcoffset with
    | none => cases hcheck
    | some offset =>
        exact ⟨clock, offset, hparse, not_le.mp (raiseIf_eq_ok.mp hcheck)⟩
  · rintro ⟨clock, offset, hparse, hlt⟩
    exact ⟨⟨clock, some offset⟩, hparse, raiseIf_eq_ok.mpr (not_le.mpr hlt)⟩

theorem checkRollback_of_le {signed trusted : Json} {w : ℤ}
    (hversion : signed.getD "version" (.int 0) = .ok (.int version))
    (htrusted : trustedVersion trusted roleName = .ok w) (hle : w ≤ version) :
    checkRollback signed roleName trusted = .ok () := by
  simp only [checkRollback, hversion, htrusted, Json.toInt, raiseIf, if_neg (not_lt.mpr hle), bind,
    Except.bind]

/-- A state file whose versions can be read and are not above `version`. -/
def Below (trusted : Json) (version : ℤ) : Prop :=
  ∃ entries roles, trusted = .dict entries ∧
    (Json.lookup entries "roles").getD (.dict []) = .dict roles ∧
    ∀ roleName ∈ requiredRoles, ∃ w, versionIn roles roleName = .ok w ∧ w ≤ version

theorem Below.trustedVersion {trusted : Json} (h : Below trusted version)
    (hrole : roleName ∈ requiredRoles) : ∃ w, trustedVersion trusted roleName = .ok w ∧ w ≤ version := by
  obtain ⟨entries, roles, rfl, hroles, hversions⟩ := h
  rw [trustedVersion_dict hroles]
  exact hversions roleName hrole

theorem checkMetaBinding_stranger {filename name field : String} {content : Json} :
    checkMetaBinding (.dict [(filename, binding version
        (strangerRole keyid key expires version name field content))]) filename
      (strangerRole keyid key expires version name field content) = .ok () := by
  simp [checkMetaBinding, binding, strangerRole, strangerRoleSigned, sign, Json.contains,
    Json.hashable, Json.eq, Json.getItem, Json.lookup, Json.rational?, raiseIf, bind, Except.bind]

theorem recordedState_dict {m : Metadata} {trusted state : Json}
    (h : recordedState m trusted = .ok state) :
    ∃ entries roles, state = .dict entries ∧
      (Json.lookup entries "roles").getD (.dict []) = .dict roles := by
  simp only [recordedState, bind_eq_ok, pure, Except.pure, Except.ok.injEq] at h
  obtain ⟨entries, -, roles, -, _, -, _, -, _, -, roles₄, -, rfl⟩ := h
  refine ⟨_, roles₄, rfl, ?_⟩
  rw [Json.lookup_setEntries, if_pos rfl]
  rfl

/-! ## The run of a verifier -/

variable {fromisoformat : String → Except PyError DateTime} {release : Release} {roleName : String}
  {s : JsonFile}

theorem trustRoot_signed {trusted : Json} {w : ℤ}
    (hload : loadRole release "root.json" = .ok (strangerRoot keyid key expires version))
    (hexpires : Unexpired fromisoformat release.now expires)
    (htrusted : trustedVersion trusted "root" = .ok w) (hle : w ≤ version) :
    trustRoot fromisoformat release trusted = .ok (strangerRoot keyid key expires version) := by
  have hsigned : (strangerRoot keyid key expires version).getItem "signed" =
      .ok (strangerRootSigned keyid key expires version) := rfl
  have hkeys : (strangerRootSigned keyid key expires version).getItem "keys" =
      .ok (strangerKeys keyid key) := rfl
  have hroles : (strangerRootSigned keyid key expires version).getItem "roles" =
      .ok (strangerRoles keyid) := rfl
  have hvalid : validateRoot (strangerRootSigned keyid key expires version) = .ok () :=
    validateRoot_stranger rfl rfl
  have hfresh : checkExpiry fromisoformat release
      (strangerRootSigned keyid key expires version) "root" = .ok () :=
    checkExpiry_eq_ok.mpr ⟨expires, rfl, hexpires⟩
  have hrollback : checkRollback (strangerRootSigned keyid key expires version) "root" trusted =
      .ok () := checkRollback_of_le rfl htrusted hle
  have hsignatures : verifySignatures (strangerRoot keyid key expires version) "root"
      (strangerKeys keyid key) (strangerRule keyid) = .ok () := verifySignatures_sign _ _
  simp only [trustRoot, hload, hsigned, hvalid, hfresh, hkeys, hroles, hrollback, hsignatures,
    @strangerRoles_getItem keyid "root" (by decide), bind, Except.bind, pure, Except.pure]

theorem loadAndVerifyRole_sole {filename field : String} {content : Json}
    (hload : loadRole release filename =
      .ok (strangerRole keyid key expires version roleName field content))
    (hexpires : Unexpired fromisoformat release.now expires) (hversion : 1 ≤ version)
    (hrole : roleName ∈ requiredRoles) :
    loadAndVerifyRole fromisoformat release filename roleName (strangerKeys keyid key)
        (strangerRoles keyid) =
      .ok (strangerRole keyid key expires version roleName field content) := by
  have hsigned : (strangerRole keyid key expires version roleName field content).getItem "signed" =
      .ok (strangerRoleSigned expires version roleName field content) := rfl
  have hvalid : validateRole (strangerRoleSigned expires version roleName field content) roleName =
      .ok () := by
    simp [validateRole, strangerRoleSigned, Json.getD, Json.lookup, Json.eq, Json.toInt, raiseIf, bind,
      Except.bind, hversion]
  have hfresh : checkExpiry fromisoformat release
      (strangerRoleSigned expires version roleName field content) roleName = .ok () :=
    checkExpiry_eq_ok.mpr ⟨expires, rfl, hexpires⟩
  have hsignatures : verifySignatures (strangerRole keyid key expires version roleName field content)
      roleName (strangerKeys keyid key) (strangerRule keyid) = .ok () := verifySignatures_sign _ _
  simp only [loadAndVerifyRole, hload, hsigned, hvalid, hfresh, hsignatures,
    strangerRoles_getItem hrole, bind, Except.bind, pure, Except.pure]

theorem loadRole_document {filename : String} {role signed signatures : Json}
    (hfile : release.metadata filename = some (.ok role))
    (hrole : role = .dict [("signatures", signatures), ("signed", signed)]) :
    loadRole release filename = .ok role := by
  subst hrole
  simp [loadRole, hfile, Json.contains, Json.hashable, Json.eq, raiseIf, bind, Except.bind, pure,
    Except.pure]

variable (hmetadata : release.metadata = signedDocument keyid key expires version targets)
  (hexpires : Unexpired fromisoformat release.now expires)

include hmetadata hexpires

theorem loadRoles_signed (hversion : 1 ≤ version) :
    loadRoles fromisoformat release (strangerRoot keyid key expires version) =
      .ok (signedMetadata keyid key expires version targets) := by
  have hsigned : (strangerRoot keyid key expires version).getItem "signed" =
      .ok (strangerRootSigned keyid key expires version) := rfl
  have hkeys : (strangerRootSigned keyid key expires version).getItem "keys" =
      .ok (strangerKeys keyid key) := rfl
  have hroles : (strangerRootSigned keyid key expires version).getItem "roles" =
      .ok (strangerRoles keyid) := rfl
  have htimestamp : loadAndVerifyRole fromisoformat release "timestamp.json" "timestamp"
      (strangerKeys keyid key) (strangerRoles keyid) =
        .ok (signedTimestamp keyid key expires version targets) :=
    loadAndVerifyRole_sole (loadRole_document (by rw [hmetadata]; rfl) rfl) hexpires hversion
      (by decide)
  have hsnapshot : loadAndVerifyRole fromisoformat release "snapshot.json" "snapshot"
      (strangerKeys keyid key) (strangerRoles keyid) =
        .ok (signedSnapshot keyid key expires version targets) :=
    loadAndVerifyRole_sole (loadRole_document (by rw [hmetadata]; rfl) rfl) hexpires hversion
      (by decide)
  have htargets : loadAndVerifyRole fromisoformat release "targets.json" "targets"
      (strangerKeys keyid key) (strangerRoles keyid) =
        .ok (signedTargets keyid key expires version targets) :=
    loadAndVerifyRole_sole (loadRole_document (by rw [hmetadata]; rfl) rfl) hexpires hversion
      (by decide)
  unfold loadRoles
  refine bind_eq_ok.mpr ⟨_, hsigned, bind_eq_ok.mpr ⟨_, hkeys, bind_eq_ok.mpr ⟨_, hroles, ?_⟩⟩⟩
  exact bind_eq_ok.mpr ⟨_, htimestamp, bind_eq_ok.mpr ⟨_, hsnapshot,
    bind_eq_ok.mpr ⟨_, htargets, rfl⟩⟩⟩

omit hmetadata hexpires

theorem checkRollbacks_signed {trusted : Json} (h : Below trusted version) :
    checkRollbacks (signedMetadata keyid key expires version targets) trusted = .ok () := by
  obtain ⟨t, ht, htle⟩ := h.trustedVersion (show "timestamp" ∈ requiredRoles by decide)
  obtain ⟨s, hs, hsle⟩ := h.trustedVersion (show "snapshot" ∈ requiredRoles by decide)
  obtain ⟨g, hg, hgle⟩ := h.trustedVersion (show "targets" ∈ requiredRoles by decide)
  have hrole : ∀ {name field content w}, trustedVersion trusted name = .ok w →
      w ≤ version → checkRollback (strangerRoleSigned expires version name field content) name trusted =
        .ok () := fun hw hle ↦ checkRollback_of_le rfl hw hle
  have hsigned : ∀ {name field content},
      (strangerRole keyid key expires version name field content).getItem "signed" =
        .ok (strangerRoleSigned expires version name field content) := rfl
  simp only [checkRollbacks, signedMetadata, signedTimestamp, signedSnapshot, signedTargets,
    hsigned, hrole ht htle, hrole hs hsle, hrole hg hgle, bind, Except.bind]

theorem checkBindings_signed :
    checkBindings (signedMetadata keyid key expires version targets) = .ok () := by
  have hsnapshot : checkMetaBinding (.dict [("snapshot.json", binding version
      (signedSnapshot keyid key expires version targets))]) "snapshot.json"
      (signedSnapshot keyid key expires version targets) = .ok () := checkMetaBinding_stranger
  have htargets : checkMetaBinding (.dict [("targets.json", binding version
      (signedTargets keyid key expires version targets))]) "targets.json"
      (signedTargets keyid key expires version targets) = .ok () := checkMetaBinding_stranger
  have htimestamp' : (signedTimestamp keyid key expires version targets).getItem "signed" =
      .ok (strangerRoleSigned expires version "timestamp" "meta" (.dict [("snapshot.json",
        binding version (signedSnapshot keyid key expires version targets))])) := rfl
  have hsnapshot' : (signedSnapshot keyid key expires version targets).getItem "signed" =
      .ok (strangerRoleSigned expires version "snapshot" "meta" (.dict [("targets.json",
        binding version (signedTargets keyid key expires version targets))])) := rfl
  have hmeta : ∀ {name content},
      (strangerRoleSigned expires version name "meta" content).getItem "meta" = .ok content := rfl
  simp only [checkBindings, signedMetadata, htimestamp', hsnapshot', hmeta, hsnapshot, htargets,
    bind, Except.bind]

theorem roleVersion_signed (hrole : roleName ∈ requiredRoles) :
    roleVersion ((signedMetadata keyid key expires version targets).role roleName) =
      .ok version := by
  simp only [requiredRoles, List.mem_cons, List.not_mem_nil, or_false] at hrole
  rcases hrole with rfl | rfl | rfl | rfl <;> rfl

theorem recordedState_signed {trusted : Json} (h : Below trusted version) :
    ∃ state, recordedState (signedMetadata keyid key expires version targets) trusted =
      .ok state := by
  refine recordedState_of_recordable (fun roleName hrole ↦ ?_) fun roleName hrole ↦ ?_
  · obtain ⟨w, hw, -⟩ := h.trustedVersion hrole
    exact ⟨w, hw⟩
  · simp only [requiredRoles, List.mem_cons, List.not_mem_nil, or_false] at hrole
    rcases hrole with rfl | rfl | rfl | rfl <;>
      exact ⟨_, .int version, version, expires, rfl, rfl, rfl, rfl⟩

/-- The release is accepted, and the versions of the new state file are its own. -/
theorem verify_signed {trusted : Json} {found : List TrustedTarget}
    (hmetadata : release.metadata = signedDocument keyid key expires version targets)
    (hexpires : Unexpired fromisoformat release.now expires)
    (hartifacts : verifyArtifacts release targets = .ok found) (hversion : 1 ≤ version)
    (htrusted : trustedState s = .ok trusted) (hbelow : Below trusted version) :
    ∃ state, verify fromisoformat release s = ⟨[((), some (.ok state))], .ok found⟩ ∧
      Below state version := by
  obtain ⟨w, hw, hle⟩ := hbelow.trustedVersion (show "root" ∈ requiredRoles by decide)
  obtain ⟨state, hstate⟩ :=
    @recordedState_signed keyid key expires version targets trusted hbelow
  have hverified : Verified fromisoformat release trusted
      (signedMetadata keyid key expires version targets) found state :=
    ⟨trustRoot_signed (loadRole_document (by rw [hmetadata]; rfl) rfl) hexpires hw hle,
      loadRoles_signed hmetadata hexpires hversion, checkRollbacks_signed hbelow,
      checkBindings_signed, hartifacts, hstate⟩
  refine ⟨state, verify_of_verified htrusted hverified, ?_⟩
  obtain ⟨entries, roles, rfl, hroles⟩ := recordedState_dict hverified.recorded
  refine ⟨entries, roles, rfl, hroles, fun roleName hrole ↦ ?_⟩
  obtain ⟨w, v, hw, hv, hnew⟩ := recordedState_ok hverified.recorded hrole
  obtain ⟨w', hw', hle⟩ := hbelow.trustedVersion hrole
  obtain rfl := Except.ok.inj (hw.symm.trans hw')
  obtain rfl := Except.ok.inj (hv.symm.trans (roleVersion_signed hrole))
  rw [← trustedVersion_dict hroles]
  exact ⟨_, hnew, max_le hle le_rfl⟩

end Signed

/-! ## Histories of releases -/

/-- Over every history of runs on one state file, and for every role: a version that is stored
never decreases, a run that raises leaves the file, and a release is accepted only at or above
the version of every release accepted before it. -/
theorem metadata_rollback_protection (fromisoformat : String → Except PyError DateTime)
    (s : JsonFile) (before middle : List Release) (earlier release : Release) (roleName : String)
    (hrole : roleName ∈ requiredRoles) :
    (∀ v, storedVersion (run (verifyStep fromisoformat) s before).1 roleName = .ok v →
      ∃ w, storedVersion (run (verifyStep fromisoformat) s (before ++ middle)).1 roleName = .ok w ∧
        v ≤ w) ∧
    (∀ t err, (verifyStep fromisoformat t release).2 = .error err →
      (verifyStep fromisoformat t release).1 = t) ∧
    (Succeeded (verifyStep fromisoformat (run (verifyStep fromisoformat) s before).1 earlier).2 →
      Succeeded (verifyStep fromisoformat
        (run (verifyStep fromisoformat) s (before ++ earlier :: middle)).1 release).2 →
      ∃ v w, releaseVersion earlier roleName = .ok v ∧ releaseVersion release roleName = .ok w ∧
        v ≤ w) := by
  have hwater := highWater fromisoformat
  refine ⟨fun v hv ↦ ?_, fun t err herr ↦ ?_, fun hearlier hlater ↦ ?_⟩
  · have hle := hwater.mark_le_run (run (verifyStep fromisoformat) s before).1 middle ⟨roleName, hrole⟩
    simp only [hv] at hle
    obtain ⟨w, hw, hvw⟩ := readable_le hle
    rw [run_append]
    exact ⟨w, hw, hvw⟩
  · refine hwater.keeps t release ?_
    intro ⟨targets, htargets⟩
    rw [herr] at htargets
    cases htargets
  · have hle := hwater.level_le_level s before middle earlier release ⟨roleName, hrole⟩ hearlier hlater
    obtain ⟨v, _, hv, -⟩ := versions_of_succeeded hrole hearlier
    simp only [hv] at hle
    obtain ⟨w, hw, hvw⟩ := readable_le hle
    exact ⟨v, w, hv, hw, hvw⟩

/-! The history below is one of two releases of one signer, without artifacts. -/

/-- A clock that reads every text as the same instant. -/
def nextYear (_ : String) : Except PyError DateTime := .ok ⟨1, some 0⟩

def emptyRelease (version : ℤ) : Release where
  directory := "firmware"
  metadata := signedDocument "root-key" [0x11] (.str "2030-01-01T00:00:00Z") version (.dict [])
  artifacts := fun _ ↦ none
  now := 0

theorem below_empty : Below (.dict [("roles", .dict [])]) 1 :=
  ⟨[("roles", .dict [])], [], rfl, rfl, fun _ _ ↦ ⟨0, rfl, by decide⟩⟩

theorem verifyStep_emptyRelease {version : ℤ} {trusted : Json} (hversion : 1 ≤ version)
    (htrusted : trustedState s = .ok trusted) (hbelow : Below trusted version) :
    ∃ state, verifyStep nextYear s (emptyRelease version) = (some (.ok state), .ok []) ∧
      Below state version := by
  obtain ⟨state, hverify, hstate⟩ := @verify_signed "root-key" [0x11] (.str "2030-01-01T00:00:00Z")
    version (.dict []) nextYear (emptyRelease version) s trusted [] rfl
    ⟨1, 0, rfl, show (0 : ℤ) < 1 - 0 by decide⟩ rfl hversion htrusted hbelow
  refine ⟨state, ?_, hstate⟩
  rw [verifyStep, Persist.store, hverify]
  rfl

theorem Below.mono {trusted : Json} {version version' : ℤ} (h : Below trusted version)
    (hle : version ≤ version') : Below trusted version' := by
  obtain ⟨entries, roles, heq, hroles, hversions⟩ := h
  refine ⟨entries, roles, heq, hroles, fun roleName hrole ↦ ?_⟩
  obtain ⟨w, hw, hwle⟩ := hversions roleName hrole
  exact ⟨w, hw, hwle.trans hle⟩

/-- Version 3 of the metadata is accepted behind version 1. -/
theorem metadata_rollback_protection_signed :
    Succeeded (verifyStep nextYear none (emptyRelease 1)).2 ∧
    Succeeded (verifyStep nextYear (run (verifyStep nextYear) none [emptyRelease 1]).1
      (emptyRelease 3)).2 ∧
    ∃ v w, releaseVersion (emptyRelease 1) "targets" = .ok v ∧
      releaseVersion (emptyRelease 3) "targets" = .ok w ∧ v ≤ w := by
  obtain ⟨state, hfirst, hbelow⟩ := @verifyStep_emptyRelease none 1 _ le_rfl rfl below_empty
  obtain ⟨state', hsecond, -⟩ := @verifyStep_emptyRelease (some (.ok state)) 3 state (by decide) rfl
    (hbelow.mono (by decide))
  have hearlier : Succeeded (verifyStep nextYear none (emptyRelease 1)).2 := ⟨[], by rw [hfirst]⟩
  have hlater : Succeeded (verifyStep nextYear (run (verifyStep nextYear) none [emptyRelease 1]).1
      (emptyRelease 3)).2 := by
    have hrun : (run (verifyStep nextYear) none [emptyRelease 1]).1 = some (.ok state) := by
      rw [run_cons, hfirst]
      rfl
    exact ⟨[], by rw [hrun, hsecond]⟩
  exact ⟨hearlier, hlater, (metadata_rollback_protection nextYear none [] [] (emptyRelease 1)
    (emptyRelease 3) "targets" (by decide)).2.2 hearlier hlater⟩

end VehicleOta.Tcu.UptaneVerifier
