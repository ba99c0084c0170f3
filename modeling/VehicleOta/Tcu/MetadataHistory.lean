import VehicleOta.Tcu.UptaneVerifier
import VehicleOta.Trace.HighWater

/-!
# Metadata versions over whole histories

The trusted state is written once, when everything is verified, so a run that raises leaves it.
The versions in it are high-water marks of the versions of the accepted releases.
-/

namespace VehicleOta.Tcu.UptaneVerifier

open CrashLogic TraceLogic

variable {fromisoformat : String → Except PyError DateTime} {release : Release} {s : JsonFile}
  {roleName : String}

/-! ## Versions -/

/-- `int(signed.get("version", 0))` -/
def signedVersion (signed : Json) : Except PyError ℤ := do
  (← signed.getD "version" (.int 0)).toInt

def roleVersion (role : Json) : Except PyError ℤ := do
  signedVersion (← role.getItem "signed")

/-- The version of a role in the metadata of a release. -/
def releaseVersion (release : Release) (roleName : String) : Except PyError ℤ := do
  roleVersion (← loadRole release (roleName ++ ".json"))

/-- What `_load_trusted_state` returns. -/
def trustedState (s : JsonFile) : Except PyError Json :=
  s.getD (.ok (.dict [("roles", .dict [])]))

/-- The version of a role in the state file. -/
def storedVersion (s : JsonFile) (roleName : String) : Except PyError ℤ := do
  trustedVersion (← trustedState s) roleName

namespace Metadata

def role (m : Metadata) (roleName : String) : Json :=
  if roleName = "root" then m.root
  else if roleName = "timestamp" then m.timestamp
  else if roleName = "snapshot" then m.snapshot
  else m.targets

end Metadata

/-! ## What one run does -/

theorem checkRollback_ok {signed trusted : Json} {u : Unit}
    (h : checkRollback signed roleName trusted = .ok u) :
    ∃ v w, signedVersion signed = .ok v ∧ trustedVersion trusted roleName = .ok w ∧ w ≤ v := by
  simp only [checkRollback, bind_eq_ok, raiseIf_eq_ok, not_lt] at h
  obtain ⟨version, hversion, v, hv, w, hw, hle⟩ := h
  exact ⟨v, w, by simp only [signedVersion, bind_eq_ok]; exact ⟨version, hversion, hv⟩, hw, hle⟩

theorem trustRoot_ok {trusted root : Json} (h : trustRoot fromisoformat release trusted = .ok root) :
    loadRole release "root.json" = .ok root ∧
      ∃ v w, roleVersion root = .ok v ∧ trustedVersion trusted "root" = .ok w ∧ w ≤ v := by
  simp only [trustRoot, bind_eq_ok, pure, Except.pure, Except.ok.injEq] at h
  obtain ⟨loaded, hload, signed, hsigned, _, -, _, -, keys, -, roles, -, rule, -, _, -, _, hrollback,
    rfl⟩ := h
  obtain ⟨v, w, hv, hw, hle⟩ := checkRollback_ok hrollback
  exact ⟨hload, v, w, by simp only [roleVersion, bind_eq_ok]; exact ⟨signed, hsigned, hv⟩, hw, hle⟩

theorem loadAndVerifyRole_ok {filename : String} {keys roles role : Json}
    (h : loadAndVerifyRole fromisoformat release filename roleName keys roles = .ok role) :
    loadRole release filename = .ok role := by
  simp only [loadAndVerifyRole, bind_eq_ok, pure, Except.pure, Except.ok.injEq] at h
  obtain ⟨loaded, hload, signed, -, _, -, _, -, rule, -, _, -, rfl⟩ := h
  exact hload

theorem loadRoles_ok {root : Json} {m : Metadata}
    (h : loadRoles fromisoformat release root = .ok m) :
    m.root = root ∧ loadRole release "timestamp.json" = .ok m.timestamp ∧
      loadRole release "snapshot.json" = .ok m.snapshot ∧
      loadRole release "targets.json" = .ok m.targets := by
  simp only [loadRoles, bind_eq_ok, pure, Except.pure, Except.ok.injEq] at h
  obtain ⟨signed, -, keys, -, roles, -, timestamp, htimestamp, snapshot, hsnapshot, targets,
    htargets, rfl⟩ := h
  exact ⟨rfl, loadAndVerifyRole_ok htimestamp, loadAndVerifyRole_ok hsnapshot,
    loadAndVerifyRole_ok htargets⟩

/-- A role counts as accepted at its version, which is not below the trusted one. -/
def Admitted (trusted role : Json) (roleName : String) : Prop :=
  ∃ v w, roleVersion role = .ok v ∧ trustedVersion trusted roleName = .ok w ∧ w ≤ v

theorem checkRollbacks_ok {m : Metadata} {trusted : Json} {u : Unit}
    (h : checkRollbacks m trusted = .ok u) :
    Admitted trusted m.timestamp "timestamp" ∧ Admitted trusted m.snapshot "snapshot" ∧
      Admitted trusted m.targets "targets" := by
  simp only [checkRollbacks, bind_eq_ok] at h
  obtain ⟨timestamp, htimestamp, _, ht, snapshot, hsnapshot, _, hs, targets, htargets, hg⟩ := h
  have hrole : ∀ {role signed : Json} {name : String} {u : Unit}, role.getItem "signed" = .ok signed →
      checkRollback signed name trusted = .ok u → Admitted trusted role name := by
    intro role signed name u hsigned hrollback
    obtain ⟨v, w, hv, hw, hle⟩ := checkRollback_ok hrollback
    exact ⟨v, w, by simp only [roleVersion, bind_eq_ok]; exact ⟨signed, hsigned, hv⟩, hw, hle⟩
  exact ⟨hrole htimestamp ht, hrole hsnapshot hs, hrole htargets hg⟩

/-! ## What is recorded -/

/-- The version of a role in the `roles` dictionary of the state. -/
def versionIn (roles : List (String × Json)) (roleName : String) : Except PyError ℤ := do
  let role ← (Json.dict roles).getD roleName (.dict [])
  (← role.getD "version" (.int 0)).toInt

theorem getD_of_getItem {x value : Json} {key : String} (default : Json)
    (h : x.getItem key = .ok value) : x.getD key default = .ok value := by
  unfold Json.getItem at h
  cases x with
  | dict entries =>
      dsimp only at h
      cases hlookup : Json.lookup entries key with
      | none =>
          rw [hlookup] at h
          cases h
      | some found =>
          rw [hlookup] at h
          rw [Json.getD, hlookup, ← Except.ok.inj h]
          rfl
  | _ => cases h

theorem items_ok {x : Json} {entries : List (String × Json)} (h : x.items = .ok entries) :
    x = .dict entries := by
  cases x with
  | dict fields => rw [Except.ok.inj h]
  | _ => cases h

theorem recordRole_ok {roles roles' : List (String × Json)} {role : Json}
    (h : recordRole roles roleName role = .ok roles') :
    ∃ previous version, versionIn roles roleName = .ok previous ∧ roleVersion role = .ok version ∧
      versionIn roles' roleName = .ok (max previous version) ∧
      ∀ other, other ≠ roleName → versionIn roles' other = versionIn roles other := by
  simp only [recordRole, bind_eq_ok, pure, Except.pure, Except.ok.injEq] at h
  obtain ⟨signed, hsigned, entry, hentry, value, hvalue, previous, hprevious, text, htext, version,
    hversion, expires, -, rfl⟩ := h
  refine ⟨previous, version, ?_, ?_, ?_, fun other hother ↦ ?_⟩
  · simp only [versionIn, bind_eq_ok]
    exact ⟨entry, hentry, value, hvalue, hprevious⟩
  · simp only [roleVersion, signedVersion, bind_eq_ok]
    exact ⟨signed, hsigned, text, getD_of_getItem _ htext, hversion⟩
  · simp only [versionIn, Json.getD, Json.lookup_setEntries, if_true]
    rfl
  · simp only [versionIn, Json.getD, Json.lookup_setEntries, if_neg hother]

theorem trustedVersion_dict {entries roles : List (String × Json)}
    (h : (Json.lookup entries "roles").getD (.dict []) = .dict roles) (roleName : String) :
    trustedVersion (.dict entries) roleName = versionIn roles roleName := by
  simp only [trustedVersion, versionIn, Json.getD, bind, Except.bind, h]

/-- Every role gets the greater one of the trusted version and its own. -/
theorem recordedState_ok {m : Metadata} {trusted state : Json}
    (h : recordedState m trusted = .ok state) (hrole : roleName ∈ requiredRoles) :
    ∃ previous version, trustedVersion trusted roleName = .ok previous ∧
      roleVersion (m.role roleName) = .ok version ∧
      trustedVersion state roleName = .ok (max previous version) := by
  simp only [recordedState, bind_eq_ok, pure, Except.pure, Except.ok.injEq] at h
  obtain ⟨entries, hentries, roles, hroles, roles₁, hroot, roles₂, htimestamp, roles₃, hsnapshot,
    roles₄, htargets, rfl⟩ := h
  obtain rfl := items_ok hentries
  have hafter : ∀ name, trustedVersion (.dict (Dict.setEntries entries "roles" (.dict roles₄))) name =
      versionIn roles₄ name :=
    trustedVersion_dict (by rw [Json.lookup_setEntries, if_pos rfl]; rfl)
  rw [trustedVersion_dict (items_ok hroles), hafter]
  obtain ⟨p₁, v₁, hp₁, hv₁, hr₁, ho₁⟩ := recordRole_ok hroot
  obtain ⟨p₂, v₂, hp₂, hv₂, hr₂, ho₂⟩ := recordRole_ok htimestamp
  obtain ⟨p₃, v₃, hp₃, hv₃, hr₃, ho₃⟩ := recordRole_ok hsnapshot
  obtain ⟨p₄, v₄, hp₄, hv₄, hr₄, ho₄⟩ := recordRole_ok htargets
  simp only [requiredRoles, List.mem_cons, List.not_mem_nil, or_false] at hrole
  rcases hrole with rfl | rfl | rfl | rfl
  · refine ⟨p₁, v₁, hp₁, hv₁, ?_⟩
    rw [ho₄ _ (by decide), ho₃ _ (by decide), ho₂ _ (by decide), hr₁]
  · refine ⟨p₂, v₂, ?_, hv₂, ?_⟩
    · rw [← ho₁ _ (by decide), hp₂]
    · rw [ho₄ _ (by decide), ho₃ _ (by decide), hr₂]
  · refine ⟨p₃, v₃, ?_, hv₃, ?_⟩
    · rw [← ho₁ _ (by decide), ← ho₂ _ (by decide), hp₃]
    · rw [ho₄ _ (by decide), hr₃]
  · refine ⟨p₄, v₄, ?_, hv₄, hr₄⟩
    rw [← ho₁ _ (by decide), ← ho₂ _ (by decide), ← ho₃ _ (by decide), hp₄]

/-- A role with what `_store_trusted_state` reads of it. -/
def Recordable (role : Json) : Prop :=
  ∃ signed text version expires, role.getItem "signed" = .ok signed ∧
    signed.getItem "version" = .ok text ∧ text.toInt = .ok version ∧
    signed.getItem "expires" = .ok expires

theorem recordRole_of_recordable {roles : List (String × Json)} {role : Json} {w : ℤ}
    (h : Recordable role) (hw : versionIn roles roleName = .ok w) :
    ∃ roles', recordRole roles roleName role = .ok roles' ∧
      ∀ other, other ≠ roleName → versionIn roles' other = versionIn roles other := by
  obtain ⟨signed, text, version, expires, hsigned, htext, hversion, hexpires⟩ := h
  simp only [versionIn, bind_eq_ok] at hw
  obtain ⟨previous, hprevious, stored, hstored, hw⟩ := hw
  have hrecord : ∃ roles', recordRole roles roleName role = .ok roles' := by
    simp only [recordRole, hsigned, hprevious, hstored, hw, htext, hversion, hexpires, bind, Except.bind]
    exact ⟨_, rfl⟩
  obtain ⟨roles', hroles'⟩ := hrecord
  obtain ⟨_, _, -, -, -, hother⟩ := recordRole_ok hroles'
  exact ⟨roles', hroles', hother⟩

theorem trustedVersion_ok {trusted : Json} {w : ℤ} (h : trustedVersion trusted roleName = .ok w) :
    ∃ entries roles, trusted = .dict entries ∧
      (Json.lookup entries "roles").getD (.dict []) = .dict roles := by
  simp only [trustedVersion, bind_eq_ok] at h
  obtain ⟨roles, hroles, role, hrole, -⟩ := h
  cases trusted with
  | dict entries =>
      cases roles with
      | dict fields => exact ⟨entries, fields, rfl, Except.ok.inj hroles⟩
      | _ => cases hrole
  | _ => cases hroles

/-- The new state can be computed if the versions in the old one can be read. -/
theorem recordedState_of_recordable {m : Metadata} {trusted : Json}
    (htrusted : ∀ roleName ∈ requiredRoles, ∃ w, trustedVersion trusted roleName = .ok w)
    (hroles : ∀ roleName ∈ requiredRoles, Recordable (m.role roleName)) :
    ∃ state, recordedState m trusted = .ok state := by
  obtain ⟨w, hw⟩ := htrusted "root" (by decide)
  obtain ⟨entries, roles, rfl, hdict⟩ := trustedVersion_ok hw
  simp only [trustedVersion_dict hdict] at htrusted
  obtain ⟨_, hroot⟩ := htrusted "root" (by decide)
  obtain ⟨_, htimestamp⟩ := htrusted "timestamp" (by decide)
  obtain ⟨_, hsnapshot⟩ := htrusted "snapshot" (by decide)
  obtain ⟨_, htargets⟩ := htrusted "targets" (by decide)
  obtain ⟨roles₁, h₁, hother₁⟩ := recordRole_of_recordable (hroles "root" (by decide)) hroot
  obtain ⟨roles₂, h₂, hother₂⟩ := recordRole_of_recordable (hroles "timestamp" (by decide))
    ((hother₁ _ (by decide)).trans htimestamp)
  obtain ⟨roles₃, h₃, hother₃⟩ := recordRole_of_recordable (hroles "snapshot" (by decide))
    ((hother₂ _ (by decide)).trans ((hother₁ _ (by decide)).trans hsnapshot))
  obtain ⟨roles₄, h₄, -⟩ := recordRole_of_recordable (hroles "targets" (by decide))
    ((hother₃ _ (by decide)).trans
      ((hother₂ _ (by decide)).trans ((hother₁ _ (by decide)).trans htargets)))
  have hitems : ((Json.lookup entries "roles").getD (.dict [])).items = .ok roles := by
    rw [hdict]
    rfl
  refine ⟨.dict (Dict.setEntries entries "roles" (.dict roles₄)), ?_⟩
  simp only [recordedState, Json.items, bind_eq_ok, Except.ok.injEq, exists_eq_left']
  exact ⟨roles, hitems, roles₁, h₁, roles₂, h₂, roles₃, h₃, roles₄, h₄, rfl⟩

/-! ## A whole run -/

theorem loadTrustedState_eq (s : JsonFile) :
    loadTrustedState s = ⟨[], trustedState s⟩ := by
  cases s with
  | none => rfl
  | some file => cases file <;> rfl

theorem loadTrustedState_bind {α : Type} (f : Json → Persist Unit JsonFile PyError α) (s : JsonFile) :
    (loadTrustedState >>= f) s = (Persist.ofExcept (trustedState s) >>= f) s := by
  simp only [bind, Persist.store, loadTrustedState_eq, Persist.ofExcept]

/-- What a run has checked before it writes. -/
structure Verified (fromisoformat : String → Except PyError DateTime) (release : Release)
    (trusted : Json) (m : Metadata) (targets : List TrustedTarget) (state : Json) : Prop where
  root : trustRoot fromisoformat release trusted = .ok m.root
  roles : loadRoles fromisoformat release m.root = .ok m
  rollbacks : checkRollbacks m trusted = .ok ()
  bindings : checkBindings m = .ok ()
  artifacts : (do verifyArtifacts release (← (← m.targets.getItem "signed").getItem "targets")) =
    .ok targets
  recorded : recordedState m trusted = .ok state

theorem verify_of_verified {trusted state : Json} {m : Metadata} {targets : List TrustedTarget}
    (htrusted : trustedState s = .ok trusted)
    (h : Verified fromisoformat release trusted m targets state) :
    verify fromisoformat release s = ⟨[((), some (.ok state))], .ok targets⟩ := by
  rw [verify, loadTrustedState_bind, htrusted, Persist.ofExcept_ok_bind, h.root,
    Persist.ofExcept_ok_bind, h.roles, Persist.ofExcept_ok_bind, h.rollbacks,
    Persist.ofExcept_ok_bind, h.bindings, Persist.ofExcept_ok_bind, h.artifacts,
    Persist.ofExcept_ok_bind, storeTrustedState, h.recorded, Persist.ofExcept_ok_bind]
  rfl

/-- Every check was passed and the file is written. -/
def Accepted (fromisoformat : String → Except PyError DateTime) (release : Release) (s : JsonFile)
    (run : Run Unit JsonFile PyError (List TrustedTarget)) : Prop :=
  ∃ targets trusted m state, trustedState s = .ok trusted ∧
    Verified fromisoformat release trusted m targets state ∧
    run = ⟨[((), some (.ok state))], .ok targets⟩

theorem verify_cases (fromisoformat : String → Except PyError DateTime) (release : Release)
    (s : JsonFile) :
    (∃ err, verify fromisoformat release s = ⟨[], .error err⟩) ∨
      Accepted fromisoformat release s (verify fromisoformat release s) := by
  rw [verify, loadTrustedState_bind]
  refine Persist.quiet_or_ofExcept_bind fun trusted htrusted ↦ ?_
  refine Persist.quiet_or_ofExcept_bind fun root hroot ↦ ?_
  refine Persist.quiet_or_ofExcept_bind fun m hm ↦ ?_
  obtain rfl := (loadRoles_ok hm).1
  refine Persist.quiet_or_ofExcept_bind fun _ hrollbacks ↦ ?_
  refine Persist.quiet_or_ofExcept_bind fun _ hbindings ↦ ?_
  refine Persist.quiet_or_ofExcept_bind fun targets hartifacts ↦ ?_
  cases hrecorded : recordedState m trusted with
  | error e =>
      rw [storeTrustedState, hrecorded, Persist.ofExcept_error_bind]
      exact Or.inl ⟨e, rfl⟩
  | ok state =>
      refine Or.inr ⟨targets, trusted, m, state, htrusted,
        ⟨hroot, hm, hrollbacks, hbindings, hartifacts, hrecorded⟩, ?_⟩
      rw [storeTrustedState, hrecorded, Persist.ofExcept_ok_bind]
      rfl

/-! ## Histories -/

/-- One run of `verify` on the state file. -/
def verifyStep (fromisoformat : String → Except PyError DateTime) (s : JsonFile)
    (release : Release) : JsonFile × Except PyError (List TrustedTarget) :=
  ((verify fromisoformat release).store s, (verify fromisoformat release s).result)

def Succeeded (result : Except PyError (List TrustedTarget)) : Prop :=
  ∃ targets, result = .ok targets

/-- A version that cannot be read is below all others. -/
def readable : Except PyError ℤ → WithBot ℤ
  | .ok version => version
  | .error _ => ⊥

theorem verifyStep_cases (fromisoformat : String → Except PyError DateTime) (s : JsonFile)
    (release : Release) :
    (∃ err, verifyStep fromisoformat s release = (s, .error err)) ∨
    ∃ targets trusted m state, trustedState s = .ok trusted ∧
      Verified fromisoformat release trusted m targets state ∧
      verifyStep fromisoformat s release = (some (.ok state), .ok targets) := by
  rcases verify_cases fromisoformat release s with ⟨err, h⟩ | ⟨targets, trusted, m, state, ht, hv, h⟩
  · refine Or.inl ⟨err, ?_⟩
    rw [verifyStep, Persist.store, h]
    rfl
  · refine Or.inr ⟨targets, trusted, m, state, ht, hv, ?_⟩
    rw [verifyStep, Persist.store, h]
    rfl

/-- The versions of a release that was accepted. -/
theorem Verified.versions {trusted state : Json} {m : Metadata} {targets : List TrustedTarget}
    (h : Verified fromisoformat release trusted m targets state) (hrole : roleName ∈ requiredRoles) :
    ∃ v w, releaseVersion release roleName = .ok v ∧ trustedVersion trusted roleName = .ok w ∧
      w ≤ v ∧ trustedVersion state roleName = .ok v := by
  obtain ⟨w, v, hw, hv, hstate⟩ := recordedState_ok h.recorded hrole
  obtain ⟨hloadRoot, hroot⟩ := trustRoot_ok h.root
  obtain ⟨-, hloadTimestamp, hloadSnapshot, hloadTargets⟩ := loadRoles_ok h.roles
  obtain ⟨htimestamp, hsnapshot, htargets⟩ := checkRollbacks_ok h.rollbacks
  have hload : loadRole release (roleName ++ ".json") = .ok (m.role roleName) ∧
      Admitted trusted (m.role roleName) roleName := by
    simp only [requiredRoles, List.mem_cons, List.not_mem_nil, or_false] at hrole
    rcases hrole with rfl | rfl | rfl | rfl
    · exact ⟨hloadRoot, hroot⟩
    · exact ⟨hloadTimestamp, htimestamp⟩
    · exact ⟨hloadSnapshot, hsnapshot⟩
    · exact ⟨hloadTargets, htargets⟩
  obtain ⟨v', w', hv', hw', hle⟩ := hload.2
  obtain rfl : v' = v := Except.ok.inj (hv'.symm.trans hv)
  obtain rfl : w' = w := Except.ok.inj (hw'.symm.trans hw)
  refine ⟨v', w', ?_, hw, hle, ?_⟩
  · rw [releaseVersion, hload.1]
    exact hv
  · rw [hstate, max_eq_right hle]

/-- A successful run reads a version that is not below the stored one, and stores it. -/
theorem versions_of_succeeded (hrole : roleName ∈ requiredRoles)
    (h : Succeeded (verifyStep fromisoformat s release).2) :
    ∃ v w, releaseVersion release roleName = .ok v ∧ storedVersion s roleName = .ok w ∧ w ≤ v ∧
      storedVersion (verifyStep fromisoformat s release).1 roleName = .ok v := by
  rcases verifyStep_cases fromisoformat s release with
    ⟨err, hstep⟩ | ⟨targets, trusted, m, state, htrusted, hverified, hstep⟩
  · obtain ⟨targets, htargets⟩ := h
    rw [hstep] at htargets
    cases htargets
  · obtain ⟨v, w, hv, hw, hle, hstate⟩ := hverified.versions hrole
    refine ⟨v, w, hv, ?_, hle, ?_⟩
    · rw [storedVersion, htrusted]
      exact hw
    · rw [hstep]
      exact hstate

theorem highWater (fromisoformat : String → Except PyError DateTime) :
    TraceLogic.HighWater (verifyStep fromisoformat) Succeeded
      (fun s (k : {roleName // roleName ∈ requiredRoles}) ↦ readable (storedVersion s k.1))
      (fun release k ↦ readable (releaseVersion release k.1)) := by
  constructor
  · intro s release hraised
    rcases verifyStep_cases fromisoformat s release with ⟨err, h⟩ | ⟨targets, _, _, _, -, -, h⟩
    · rw [h]
    · exact absurd ⟨targets, by rw [h]⟩ hraised
  · intro s release k hsucceeded
    obtain ⟨v, w, hv, hw, hle, -⟩ := versions_of_succeeded k.2 hsucceeded
    rw [hv, hw]
    exact WithBot.coe_le_coe.mpr hle
  · intro s release k hsucceeded
    obtain ⟨v, _, hv, -, -, hstate⟩ := versions_of_succeeded k.2 hsucceeded
    rw [hv, hstate]

theorem readable_le {x : Except PyError ℤ} {v : ℤ} (h : (v : WithBot ℤ) ≤ readable x) :
    ∃ w, x = .ok w ∧ v ≤ w := by
  cases x with
  | error e => exact absurd h (not_le.mpr (WithBot.bot_lt_coe v))
  | ok w => exact ⟨w, rfl, WithBot.coe_le_coe.mp h⟩

end VehicleOta.Tcu.UptaneVerifier
