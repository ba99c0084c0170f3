import VehicleOta.Tcu.CampaignVersion
import VehicleOta.Tcu.MetadataHistory
import VehicleOta.Tcu.OtaStages

/-!
# The images that a run sends

Every image on the way to an ECU has passed the checks of the run, and the last of them binds it to
the signed metadata of the release.
-/

namespace VehicleOta.Tcu

open CrashLogic TraceLogic Hash Firmware FirmwareCompatibilityValidator

/-! ## What the scheduler sends -/

def Verdict.state : Verdict → RunState
  | .proceed s => s
  | .stop s _ => s

namespace Execution

variable {x : Execution} {s : RunState} {name n : String} {k : ℕ}

theorem log_skipEcu (aborts : Bool) :
    (skipEcu aborts s name).state.log =
      s.log ++ [.result name (if aborts then .aborted else .skipped)] := by
  cases aborts <;> rfl

theorem log_flashEcu : ∃ results : List Event, (∀ n k, .send n k ∉ results) ∧
    (x.flashEcu s name).state.log =
      s.log ++ (sendAttempts (x.transport name) name 1 x.flashRetryCount).1 ++ results := by
  unfold flashEcu
  dsimp only
  split
  · exact ⟨[], by simp, (List.append_nil _).symm⟩
  · exact ⟨[.result name .flashed], by simp, rfl⟩
  · exact ⟨[.result name .failed], by simp, rfl⟩

/-- Only an eligible ECU is sent anything. -/
theorem send_processEcu (h : .send n k ∈ (x.processEcu s name).state.log) :
    .send n k ∈ s.log ∨ n = name ∧ name ∈ eligibleNames x.eligibleUpdates := by
  rcases x.processEcu_cases s name with ⟨aborts, heq, -⟩ | ⟨-, -, -, heq⟩ | ⟨-, heligible, heq⟩
  · rw [heq, log_skipEcu] at h
    exact Or.inl (by simpa using h)
  · rw [heq] at h
    exact Or.inl (by simpa [Verdict.state] using h)
  · obtain ⟨results, hresults, hlog⟩ := @log_flashEcu x s name
    rw [heq, hlog] at h
    rcases List.mem_append.mp h with h | h
    · rcases List.mem_append.mp h with h | h
      · exact Or.inl h
      · obtain ⟨j, hj⟩ := sendAttempts_sends _ _ _ h
        exact Or.inr ⟨(Event.send.inj hj).1, heligible⟩
    · exact absurd h (hresults n k)

theorem send_runLoop {order : List String} (h : .send n k ∈ (x.runLoop order s).state.log) :
    .send n k ∈ s.log ∨ n ∈ order ∧ n ∈ eligibleNames x.eligibleUpdates := by
  induction order generalizing s with
  | nil => exact Or.inl h
  | cons name order ih =>
      rw [runLoop] at h
      cases hstep : x.processEcu s name with
      | proceed t =>
          rw [hstep] at h
          rcases ih h with hbefore | ⟨horder, heligible⟩
          · have hfirst : .send n k ∈ (x.processEcu s name).state.log := by rwa [hstep]
            rcases send_processEcu hfirst with hsent | ⟨rfl, heligible⟩
            · exact Or.inl hsent
            · exact Or.inr ⟨List.mem_cons_self, heligible⟩
          · exact Or.inr ⟨List.mem_cons_of_mem _ horder, heligible⟩
      | stop t returned =>
          have hfirst : .send n k ∈ (x.processEcu s name).state.log := by
            rw [hstep] at h ⊢
            exact h
          rcases send_processEcu hfirst with hsent | ⟨rfl, heligible⟩
          · exact Or.inl hsent
          · exact Or.inr ⟨List.mem_cons_self, heligible⟩

theorem send_execute (h : .send n k ∈ x.execute.1) :
    n ∈ x.updateOrder ∧ n ∈ eligibleNames x.eligibleUpdates := by
  unfold execute at h
  split at h
  · cases h
  · have hloop : .send n k ∈ (x.runLoop x.updateOrder x.initial).state.log := by
      split at h
      · rename_i s hs
        rw [hs]
        exact h
      · rename_i s returned hs
        rw [hs]
        exact h
    exact (send_runLoop hloop).resolve_left List.not_mem_nil

end Execution

/-! ## What the second check says of an entry -/

/-- The file of a package is an image that fits the package, the ECU and a trusted target. -/
structure FitsPackage (manifest : Manifest) (files : Files) (entry : EligibleUpdate)
    (trusted : TrustedTarget) (image : Bytes) : Prop where
  target : manifest.trustedTargets.get? entry.package.file = some trusted
  bound : trustedMatches entry.ecu entry.package trusted = true
  stored : files (firmwarePath manifest entry.package) = some image
  header : ∃ metadata, parseFirmwareImage image = .ok metadata ∧
    headerMatchesPackage entry.package metadata = .ok true
  length_eq : trusted.length = image.length
  sha256_eq : trusted.sha256 = hexDigest (sha256 image)

theorem artifactSize_downloaded {manifest : Manifest} {files : Files} {package : Package}
    {trusted : TrustedTarget} {size : ℤ}
    (h : artifactSize manifest files true package trusted = .ok (some size)) :
    ∃ image metadata, files (firmwarePath manifest package) = some image ∧
      parseFirmwareImage image = .ok metadata ∧ headerMatchesPackage package metadata = .ok true ∧
      trusted.length = image.length ∧ trusted.sha256 = hexDigest (sha256 image) := by
  unfold artifactSize at h
  rw [if_neg (by decide)] at h
  split at h
  · cases h
  rename_i image himage
  split at h
  · cases h
  rename_i metadata hparse
  obtain ⟨matched, hmatched, h⟩ := bind_eq_ok.mp h
  split at h
  · cases h
  rename_i hheader
  split at h
  · cases h
  rename_i hlength
  split at h
  · cases h
  rename_i hhash
  refine ⟨image, metadata, himage, hparse, ?_, not_not.mp hlength, (not_not.mp hhash).symm⟩
  rw [hmatched]
  simpa using hheader

theorem fitsPackage_of_checkPackage {manifest : Manifest} {files : Files} {campaign : Campaign}
    {ecu : ECU} {entry : EligibleUpdate}
    (h : checkPackage manifest files true campaign ecu = .ok (some entry)) :
    entry.firmwarePath = firmwarePath manifest entry.package ∧
      (manifest.packages.find? fun package ↦ package.ecuName = ecu.ecuName) = some entry.package ∧
      ecuAccepts campaign ecu entry.package = .ok true ∧
      ∃ trusted image, FitsPackage manifest files entry trusted image := by
  unfold checkPackage at h
  split at h
  · cases h
  rename_i package hfind
  split at h
  · cases h
  rename_i trusted htrusted
  split at h
  · cases h
  rename_i hbound
  obtain ⟨found, hsize, h⟩ := bind_eq_ok.mp h
  cases found with
  | none => cases h
  | some size =>
      obtain ⟨accepts, haccepts, h⟩ := bind_eq_ok.mp h
      split at h
      · cases h
      rename_i haccepted
      split at h
      · cases h
      obtain rfl := Option.some.inj (Except.ok.inj h)
      obtain ⟨image, metadata, himage, hparse, hheader, hlength, hhash⟩ :=
        artifactSize_downloaded hsize
      refine ⟨rfl, hfind, ?_, trusted, image, htrusted, ?_, himage, ⟨metadata, hparse, hheader⟩,
        hlength, hhash⟩
      · rw [haccepts]
        simpa using haccepted
      · simpa using hbound

/-! ## The signed metadata -/

/-- The targets metadata of a release, under a root whose rule accepts its signatures. -/
def SignedTargets (release : Release) (signed : Json) : Prop :=
  ∃ root rootSigned keys roles rule targets,
    UptaneVerifier.loadRole release "root.json" = .ok root ∧
    root.getItem "signed" = .ok rootSigned ∧ UptaneVerifier.validateRoot rootSigned = .ok () ∧
    rootSigned.getItem "keys" = .ok keys ∧ rootSigned.getItem "roles" = .ok roles ∧
    roles.getItem "targets" = .ok rule ∧
    UptaneVerifier.loadRole release "targets.json" = .ok targets ∧
    targets.getItem "signed" = .ok signed ∧
    UptaneVerifier.verifySignatures targets "targets" keys rule = .ok ()

/-- The metadata names this content as the file, with its length and hash, for the ECU and version
in `custom`. -/
def ListsArtifact (signed : Json) (filename : String) (image : Bytes) (custom : Json) : Prop :=
  ∃ table entries entry length hashes, signed.getItem "targets" = .ok table ∧
    table.items = .ok entries ∧ (filename, entry) ∈ entries ∧
    entry.getItem "length" = .ok length ∧ length.eq (.int image.length) = true ∧
    entry.getItem "hashes" = .ok hashes ∧
    hashes.getItem "sha256" = .ok (.str (hexDigest (sha256 image))) ∧
    entry.getD "custom" (.dict []) = .ok custom

theorem loadAndVerifyRole_signed {fromisoformat : String → Except PyError DateTime}
    {release : Release} {filename roleName : String} {keys roles role : Json}
    (h : UptaneVerifier.loadAndVerifyRole fromisoformat release filename roleName keys roles =
      .ok role) :
    ∃ rule, roles.getItem roleName = .ok rule ∧
      UptaneVerifier.verifySignatures role roleName keys rule = .ok () := by
  simp only [UptaneVerifier.loadAndVerifyRole, bind_eq_ok, pure, Except.pure,
    Except.ok.injEq] at h
  obtain ⟨loaded, -, signed, -, _, -, _, -, rule, hrule, _, hverified, rfl⟩ := h
  exact ⟨rule, hrule, hverified⟩

theorem exists_of_mem_mapM {α β : Type} {f : α → Except PyError β} {xs : List α} {ys : List β}
    (h : xs.mapM f = .ok ys) {y : β} (hy : y ∈ ys) : ∃ x ∈ xs, f x = .ok y := by
  induction xs generalizing ys with
  | nil =>
      obtain rfl := Except.ok.inj h
      cases hy
  | cons x xs ih =>
      rw [List.mapM_cons] at h
      obtain ⟨first, hfirst, hrest⟩ := bind_eq_ok.mp h
      obtain ⟨rest, hmap, hys⟩ := bind_eq_ok.mp hrest
      obtain rfl := Except.ok.inj hys
      rcases List.mem_cons.mp hy with rfl | hy
      · exact ⟨x, List.mem_cons_self, hfirst⟩
      · obtain ⟨x', hx', heq⟩ := ih hmap hy
        exact ⟨x', List.mem_cons_of_mem x hx', heq⟩

theorem verifyArtifact_ok {release : Release} {filename : String} {entry : Json}
    {t : UptaneVerifier.TrustedTarget}
    (h : UptaneVerifier.verifyArtifact release filename entry = .ok t) :
    t.file = filename ∧ entry.getD "custom" (.dict []) = .ok t.custom ∧
      (∃ length, entry.getItem "length" = .ok length ∧ length.eq (.int t.length) = true) ∧
      ∃ hashes, entry.getItem "hashes" = .ok hashes ∧
        hashes.getItem "sha256" = .ok (.str t.sha256) := by
  unfold UptaneVerifier.verifyArtifact at h
  split at h
  · cases h
  · simp only [bind_eq_ok, raiseIf_eq_ok, Bool.not_eq_true', Bool.not_eq_false, pure, Except.pure,
      Except.ok.injEq] at h
    obtain ⟨length, hlength, _, hsame, hashes, hhashes, found, hfound, _, hequal, _, -, custom,
      hcustom, rfl⟩ := h
    obtain rfl := UptaneVerifier.eq_str.mp hequal
    exact ⟨rfl, hcustom, ⟨length, hlength, hsame⟩, hashes, hhashes, hfound⟩

/-- A verified release has signed targets, and the artifacts are the files that they list. -/
theorem signed_of_verified {fromisoformat : String → Except PyError DateTime} {release : Release}
    {trusted state : Json} {m : UptaneVerifier.Metadata}
    {targets : List UptaneVerifier.TrustedTarget}
    (h : UptaneVerifier.Verified fromisoformat release trusted m targets state) :
    ∃ signed, SignedTargets release signed ∧ ∀ t ∈ targets, ∀ image : Bytes,
      t.length = image.length → t.sha256 = hexDigest (sha256 image) →
        ListsArtifact signed t.file image t.custom := by
  obtain ⟨hloadRoot, -⟩ := UptaneVerifier.trustRoot_ok h.root
  obtain ⟨-, -, -, hloadTargets⟩ := UptaneVerifier.loadRoles_ok h.roles
  have hroot := h.root
  simp only [UptaneVerifier.trustRoot, bind_eq_ok, pure, Except.pure, Except.ok.injEq] at hroot
  obtain ⟨root, hroot, rootSigned, hsigned, ⟨⟩, hvalid, _, -, keys, hkeys, roles, hroles, -, -, _, -, _,
    -, rfl⟩ := hroot
  have hloaded := h.roles
  simp only [UptaneVerifier.loadRoles, bind_eq_ok, pure, Except.pure, Except.ok.injEq] at hloaded
  obtain ⟨rootSigned', hsigned', keys', hkeys', roles', hroles', _, -, _, -, targetsRole, htargets,
    hm⟩ := hloaded
  obtain rfl := Except.ok.inj (hsigned.symm.trans hsigned')
  obtain rfl := Except.ok.inj (hkeys.symm.trans hkeys')
  obtain rfl := Except.ok.inj (hroles.symm.trans hroles')
  obtain ⟨rule, hrule, hverified⟩ := loadAndVerifyRole_signed htargets
  obtain rfl : targetsRole = m.targets := congrArg UptaneVerifier.Metadata.targets hm
  obtain ⟨signed, hsection, hartifacts⟩ := bind_eq_ok.mp h.artifacts
  obtain ⟨table, htable, hartifacts⟩ := bind_eq_ok.mp hartifacts
  obtain ⟨entries, hentries, hmap⟩ := bind_eq_ok.mp hartifacts
  refine ⟨signed, ⟨_, rootSigned, keys, roles, rule, _, hloadRoot, hsigned, hvalid, hkeys, hroles,
    hrule, hloadTargets, hsection, hverified⟩, fun t ht image hsize himage ↦ ?_⟩
  obtain ⟨e, he, hartifact⟩ := exists_of_mem_mapM hmap ht
  obtain ⟨hfile, hcustom, ⟨length, hlength, hsame⟩, hashes, hhashes, hhash⟩ :=
    verifyArtifact_ok hartifact
  rw [hsize] at hsame
  rw [himage] at hhash
  exact ⟨table, entries, e.2, length, hashes, htable, hentries, hfile ▸ he, hlength, hsame, hhashes,
    hhash, hcustom⟩

section Loads

variable {fromisoformat : String → Except PyError DateTime} {reading : ReleaseReading}
  {files : Files} {version : String} {manifest : Manifest}

/-- A trusted target of a loaded manifest stands in the signed metadata. -/
theorem listed_of_loads (h : Loads fromisoformat reading files version manifest) :
    ∃ signed, SignedTargets (releaseOf reading files version) signed ∧
      ∀ file trusted image, manifest.trustedTargets.get? file = some trusted →
        trusted.length = image.length → trusted.sha256 = hexDigest (sha256 image) → ∃ custom,
          ListsArtifact signed file image custom ∧
          trusted.custom.ecuName = textOf custom "ecu_name" ∧
          trusted.custom.hardwareVariant = textOf custom "hardware_variant" ∧
          trusted.custom.targetVersion = textOf custom "target_version" := by
  obtain ⟨read, trust, targets, -, hverify, rfl⟩ := h
  rcases UptaneVerifier.verify_cases fromisoformat (releaseOf reading files version) trust with
    ⟨e, herror⟩ | ⟨targets', trusted, m, state, -, hverified, hrun⟩
  · rw [herror] at hverify
    cases hverify
  · rw [hrun] at hverify
    obtain rfl := Except.ok.inj hverify
    obtain ⟨signed, hsigned, hlisted⟩ := signed_of_verified hverified
    refine ⟨signed, hsigned, fun file trusted image hget hlength himage ↦ ?_⟩
    obtain ⟨t, ht, heq⟩ := List.mem_map.mp (Dict.mem_of_get?_ofPairs hget)
    obtain ⟨rfl, rfl⟩ := Prod.mk.inj heq
    exact ⟨t.custom, hlisted t ht image (Int.ofNat_inj.mp hlength) himage, rfl, rfl, rfl⟩

end Loads

/-! ## A run -/

/-- The image for an entry of the second check: what it is, and who has signed it. -/
structure Vetted (env : Surroundings) (g : Passage) (entry : EligibleUpdate) (image : Bytes) :
    Prop where
  discovered : entry.ecu ∈ g.vehicle.getAllEcus
  stored : g.files (firmwarePath g.manifest entry.package) = some image
  header : ∃ metadata, parseFirmwareImage image = .ok metadata ∧
    headerMatchesPackage entry.package metadata = .ok true
  accepted : ecuAccepts g.decided entry.ecu entry.package = .ok true
  signed : ∃ signed custom,
    SignedTargets (releaseOf env.downloaded g.files g.decided.releaseVersion) signed ∧
    ListsArtifact signed entry.package.file image custom ∧
    textOf custom "ecu_name" = some entry.ecu.ecuName ∧
    textOf custom "hardware_variant" = some entry.package.hardwareVariant ∧
    textOf custom "target_version" = some entry.package.targetVersion

section Run

variable {float : List Char → Json} {fromisoformat : String → Except PyError DateTime}
  {env : Surroundings} {transport : String} {data : Json} {P : World → Prop} {g : Passage}

theorem Passage.Checked.vetted (h : g.Checked float fromisoformat env transport data P)
    {entry : EligibleUpdate} (hentry : entry ∈ g.eligible) : ∃ image, Vetted env g entry image := by
  rcases (foldlM_checkEcu h.eligible entry).mp hentry with hnone | ⟨ecu, hecu, -, hcheck⟩
  · exact absurd hnone List.not_mem_nil
  · obtain ⟨-, -, haccepts, trusted, image, hfits⟩ := fitsPackage_of_checkPackage hcheck
    obtain rfl := (checkPackage_entry hcheck).1
    obtain ⟨signed, hsigned, hlisted⟩ := listed_of_loads h.manifest
    obtain ⟨custom, hlists, hname, hvariant, hversion⟩ :=
      hlisted _ trusted image hfits.target hfits.length_eq hfits.sha256_eq
    have hbound := hfits.bound
    simp only [trustedMatches, decide_eq_true_eq, Bool.decide_and, Bool.and_eq_true] at hbound
    exact ⟨image, hecu, hfits.stored, hfits.header, haccepts, signed, custom, hsigned, hlists,
      hname ▸ hbound.1, hvariant ▸ hbound.2.1, hversion ▸ hbound.2.2.1⟩

end Run

/-- How a run comes to send the image to the ECU. -/
structure Clearance (float : List Char → Json) (fromisoformat : String → Except PyError DateTime)
    (env : Surroundings) (files : Files) (transport : String) (data : Json) (g : Passage)
    (entry : EligibleUpdate) (image : Bytes) : Prop where
  consistent : env.consistent = true
  selected : selectTransport env.transport env.transportInput = some transport
  fetched : ∃ url text, env.cloud.fetch url = .ok text ∧ readJson float text = .ok data
  campaign : (CampaignManager.loadCampaign data).map
    (fun campaign ↦ { campaign with transport }) = .ok g.campaign
  checked : g.Checked float fromisoformat env transport data fun _ ↦ True
  unchanged : files = g.files
  ordered : entry.ecu.ecuName ∈ g.plan.updateOrder
  eligible : entry ∈ g.eligible
  vetted : Vetted env g entry image
  -- the scheduler takes the file from `RELEASE_DIRECTORY`, the check from the release of the manifest
  sent : g.manifest.releaseVersion = "2.0.0" → files (releasePath entry.package.file) = some image

/-- Whatever is sent is cleared. -/
def SendsCleared (float : List Char → Json) (fromisoformat : String → Except PyError DateTime)
    (env : Surroundings) (w : World) : Prop :=
  ∀ n k, .send n k ∈ w.log → ∃ transport data g entry image, entry.ecu.ecuName = n ∧
    Clearance float fromisoformat env w.files transport data g entry image

section Run

variable {float : List Char → Json} {fromisoformat : String → Except PyError DateTime}
  {env : Surroundings} {transport : String} {data : Json} {g : Passage}

def Silent (w : World) : Prop := w.log = []

theorem bystander_silent : Bystander Silent := bystander_log []

theorem Silent.sendsCleared {w : World} (h : Silent w) :
    SendsCleared float fromisoformat env w := by
  intro n k hsend
  rw [h] at hsend
  cases hsend

theorem bystander_executed (files : Files) (log : List Event) :
    Bystander fun w ↦ w.files = files ∧ w.log = log where
  jobs := fun _ _ h ↦ h
  currentJob := fun _ _ h ↦ h
  localCampaign := fun _ _ h ↦ h
  summary := fun _ _ h ↦ h

/-- The execution sends, and nothing behind it touches the log or the files. -/
theorem installUpdates_log (x : Execution) (campaign : Campaign) (summary : ExecutionSummary)
    (files : Files) :
    Call.Triple (fun w ↦ w.files = files ∧ Silent w) (installUpdates float env summary campaign x)
      (fun _ w ↦ w.files = files ∧ w.log = x.execute.1)
      fun _ w ↦ w.files = files ∧ w.log = x.execute.1 := by
  have habort := @abort_keeps float env _ (bystander_executed files x.execute.1)
  refine Call.Triple.modify_bind
    (show Call.Triple (fun w ↦ w.files = files ∧ w.log = x.execute.1) _ _ _ from ?_) ?_
  · refine Call.Triple.ofExcept_bind (fun success _ ↦ ?_) fun _ _ _ hw ↦ hw
    refine triple_gate (habort _ _) fun _ ↦ ?_
    refine Call.Triple.bind (Q := fun _ w ↦ w.files = files ∧ w.log = x.execute.1)
      (triple_validateInstallation (fun _ _ _ hw _ ↦ hw) fun _ _ _ hw ↦ hw) fun updated ↦ ?_
    refine triple_gate (habort _ _) fun _ ↦ ?_
    exact (markCurrentJob_keeps (bystander_executed files x.execute.1) _ _).bind fun _ ↦
      finalize_keeps (bystander_executed files x.execute.1) _
  · rintro w ⟨hfiles, hlog⟩
    exact ⟨hfiles, by rw [show w.log = [] from hlog, List.nil_append]⟩

theorem updateVehicle_sends (hfloat : ∀ text, Json.Printable float (float text))
    (hconsistent : env.consistent = true)
    (hselected : selectTransport env.transport env.transportInput = some transport)
    (summary : ExecutionSummary) :
    Call.Triple (Obtains float env.cloud Silent data)
      (updateVehicle float fromisoformat env summary transport data)
      (fun _ ↦ SendsCleared float fromisoformat env)
      fun _ ↦ SendsCleared float fromisoformat env := by
  apply updateVehicle_spec
  · exact {
      abort := fun summary reason ↦ (abort_keeps bystander_silent summary reason).conseq
        (fun _ hw ↦ hw.1) (fun _ _ hw ↦ hw.sendsCleared) fun _ _ hw ↦ hw.sendsCleared
      raised := fun _ _ hw ↦ hw.1.sendsCleared
      trust := fun _ _ hw ↦ hw
      files := fun _ _ hw ↦ hw }
  · intro g hchecked
    have hcleared : ∀ w : World, w.files = g.files ∧ w.log = (g.execution env).execute.1 →
        SendsCleared float fromisoformat env w := by
      rintro w ⟨hfiles, hlog⟩ n k hsend
      rw [hlog] at hsend
      obtain ⟨hordered, heligible⟩ := Execution.send_execute hsend
      obtain ⟨entry, hentry, rfl⟩ := List.mem_map.mp heligible
      obtain ⟨image, hvetted⟩ := hchecked.vetted hentry
      obtain ⟨hfetched, hcampaign⟩ := hchecked.obtained hfloat
      refine ⟨transport, data, g, entry, image, rfl, ?_⟩
      exact {
        consistent := hconsistent
        selected := hselected
        fetched := hfetched
        campaign := hcampaign
        checked := hchecked.mono fun _ _ ↦ trivial
        unchanged := hfiles
        ordered := hordered
        eligible := hentry
        vetted := hvetted
        sent := by
          intro hversion
          have hstored := hvetted.stored
          rw [firmwarePath, hversion] at hstored
          rw [hfiles]
          exact hstored }
    exact (installUpdates_log _ _ _ _).conseq (fun w hw ↦ ⟨hw.1, hw.2.1⟩)
      (fun _ w hw ↦ hcleared w hw) fun _ w hw ↦ hcleared w hw

end Run

end VehicleOta.Tcu
