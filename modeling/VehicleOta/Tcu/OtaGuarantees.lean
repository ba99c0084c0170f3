import VehicleOta.Firmware.RoundTrip
import VehicleOta.Tcu.JobRuns
import VehicleOta.Tcu.RootOfTrust
import VehicleOta.Tcu.SuccessfulRuns

/-!
# What the runs of the update manager guarantee

What a history of runs says about the jobs, and one run about the images that it sends and the
vehicle that it leaves.  The demo run behind them takes up a signed job, verifies a signed release
and flashes the BCM.
-/

namespace VehicleOta.Tcu

open CrashLogic TraceLogic Mqtt MqttSecurity MQTTJobState UptaneVerifier Firmware Hash

/-! ## Stages that pass -/

section Rules

variable {float : List Char → Json} {env : Surroundings} {P : World → Prop} {Q : ℕ → World → Prop}
  {E : PyError → World → Prop}

theorem triple_known {α β : Type} {x : Except PyError α} {a : α} {f : α → Call PyError World β}
    {R : β → World → Prop} (h : x = .ok a) (hf : Call.Triple P (f a) R E) :
    Call.Triple P (Call.ofExcept x >>= f) R E := fun w hw ↦ by
  rw [Call.ofExcept_bind_run h]
  exact hf w hw

theorem triple_passed {passed : Bool} {summary : ExecutionSummary} {reason : String}
    {next : Call PyError World ℕ} (h : passed = true) (hnext : Call.Triple P next Q E) :
    Call.Triple P (gate float env passed summary reason next) Q E := by
  subst h
  exact hnext

end Rules

/-- The file of a response that comes to its end. -/
theorem wp_saveResponse {filename : String} {response : Response} (h : response.failure = none)
    (files : Files) : (saveResponse filename response).wp (fun _ _ ↦ True)
      (fun r files ↦ r = .ok ⟨⟩ ∧ files (releasePath filename) = some response.body) files := by
  have hbody : (response.chunks.filter (· ≠ [])).flatten = response.body := by
    rw [Response.body]
    induction response.chunks with
    | nil => rfl
    | cons chunk chunks ih => cases chunk <;> simp_all
  have hloop : ∀ files : Files, files (downloadingPath filename) = some [] →
      (Persist.forEach (response.chunks.filter (· ≠ [])) fun chunk ↦
        (Persist.write .temporary fun files ↦ Function.update files (downloadingPath filename)
          (some ((files (downloadingPath filename)).getD [] ++ chunk)) :
            Persist DownloadWrite Files PyError PUnit)).wp (fun _ _ ↦ True)
        (fun r files ↦ r = .ok ⟨⟩ ∧ files (downloadingPath filename) = some response.body) files := by
    intro files hfiles
    apply Persist.wp_forEach fun pre files ↦ files (downloadingPath filename) = some pre.flatten
    · exact hfiles
    · intro pre chunk post files _ hpre
      simp [hpre]
    · intro files hdone
      exact ⟨rfl, by rw [hdone, hbody]⟩
  have hrest : ∀ files : Files,
      (do
        Persist.write .temporary fun files ↦ Function.update files (downloadingPath filename) (some [])
        Persist.forEach (response.chunks.filter (· ≠ [])) fun chunk ↦
          Persist.write .temporary fun files ↦ Function.update files (downloadingPath filename)
            (some ((files (downloadingPath filename)).getD [] ++ chunk))
        Persist.write .publish fun files ↦ Function.update (Function.update files
          (downloadingPath filename) none) (releasePath filename) (files (downloadingPath filename)) :
            Persist DownloadWrite Files PyError PUnit).wp (fun _ _ ↦ True)
        (fun r files ↦ r = .ok ⟨⟩ ∧ files (releasePath filename) = some response.body) files := by
    intro files
    rw [Persist.wp_bind, Persist.wp_write]
    refine ⟨trivial, ?_⟩
    dsimp only
    rw [Persist.wp_bind]
    refine Persist.wp_mono (hloop _ (Function.update_self ..)) (fun _ _ _ ↦ trivial) ?_
    rintro r files ⟨rfl, hfile⟩
    dsimp only
    rw [Persist.wp_write]
    exact ⟨trivial, rfl, by rw [Function.update_self, hfile]⟩
  have hunlink : (unlink (downloadingPath filename)).wp (fun _ _ ↦ True) (fun r _ ↦ r = .ok ⟨⟩)
      files := by
    rw [unlink, Persist.wp_bind, Persist.wp_reads]
    dsimp only
    split
    · exact (Persist.wp_write ..).mpr ⟨trivial, rfl⟩
    · exact (Persist.wp_pure _).mpr rfl
  rw [saveResponse, h, Persist.wp_bind]
  refine Persist.wp_mono hunlink (fun _ _ _ ↦ trivial) ?_
  rintro r files rfl
  exact hrest files

/-! ## The demo image and its release -/

def bcmImageSpec : FirmwareImageSpec where
  ecuName := "BCM ECU"
  ecuId := 2
  partNumber := "BCM-0001"
  currentVersion := "1.0.0"
  targetVersion := "2.0.0"
  buildDate := "20250101"
  buildNumber := 42
  flashAddress := 0x08000000
  payloadSize := 5
  payloadData := [1, 2, 3, 4, 5]

def bcmImage : Bytes := packHeader bcmImageSpec ++ bcmImageSpec.payloadData

theorem length_bcmImage : bcmImage.length = 165 := by
  rw [bcmImage, List.length_append, length_packHeader]
  rfl

theorem parse_bcmImage : parseFirmwareImage bcmImage = .ok bcmImageSpec.metadata := by
  have hpackable : Packable bcmImageSpec := {
    ecuName := ⟨by simp [bcmImageSpec], by decide, by decide⟩
    ecuId := by decide
    partNumber := ⟨by simp [bcmImageSpec], by decide, by decide⟩
    currentVersion := ⟨by simp [bcmImageSpec], by decide, by decide⟩
    targetVersion := ⟨by simp [bcmImageSpec], by decide, by decide⟩
    buildDate := ⟨by simp [bcmImageSpec], by decide, by decide⟩
    buildNumber := by decide
    flashAddress := by decide
    imageFormat := ⟨by simp [bcmImageSpec], by decide, by decide⟩ }
  have hparsed := parse_packed hpackable rfl (by decide) []
  rwa [List.append_nil] at hparsed

def bcmCustom : Json :=
  .dict [("ecu_name", .str "BCM ECU"), ("hardware_variant", .str "GENERIC"),
    ("target_version", .str "2.0.0"), ("minimum_bootloader", .str "1.0.0"),
    ("transport_support", .list [.str "VCAN"])]

def bcmTargets : Json :=
  .dict [("bcm_v2.bin", .dict [("length", .int 165),
    ("hashes", .dict [("sha256", .str (hexDigest (sha256 bcmImage)))]), ("custom", bcmCustom)])]

theorem verifyArtifacts_bcm {release : Release} (h : release.artifacts "bcm_v2.bin" = some bcmImage) :
    verifyArtifacts release bcmTargets =
      .ok [⟨"bcm_v2.bin", 165, hexDigest (sha256 bcmImage), bcmCustom⟩] := by
  have hentry : ∀ entry, entry = Json.dict [("length", .int 165),
      ("hashes", .dict [("sha256", .str (hexDigest (sha256 bcmImage)))]), ("custom", bcmCustom)] →
      verifyArtifact release "bcm_v2.bin" entry =
        .ok ⟨"bcm_v2.bin", 165, hexDigest (sha256 bcmImage), bcmCustom⟩ := by
    rintro entry hentry
    have hcustom : validateTargetMetadata "bcm_v2.bin" entry = .ok () := by
      rw [hentry]
      rfl
    rw [hentry] at hcustom ⊢
    rw [verifyArtifact, h]
    simp [hcustom, length_bcmImage, Json.getItem, Json.getD, Json.lookup, Json.eq,
      Json.rational?, raiseIf, bind, Except.bind, pure, Except.pure]
  rw [verifyArtifacts, bcmTargets, Json.items]
  simp only [bind, Except.bind]
  rw [List.mapM_cons, hentry _ rfl]
  rfl

def bcmReading : ReleaseReading where
  manifest := fun _ ↦ .ok ("2.0.0", [demoPackage "BCM ECU" "bcm_v2.bin"])
  metadata := fun _ ↦ signedDocument "root-key" [0x11] (.str "2030-01-01T00:00:00Z") 1 bcmTargets
  now := 0

def bcmManifest : Manifest where
  releaseVersion := "2.0.0"
  packages := [demoPackage "BCM ECU" "bcm_v2.bin"]
  trustedTargets := Dict.ofPairs [("bcm_v2.bin", {
    length := 165
    sha256 := hexDigest (sha256 bcmImage)
    custom := ⟨some "BCM ECU", some "GENERIC", some "2.0.0"⟩ })]

/-! ## A run that takes up its job -/

/-- What a run finds. -/
structure Prepared (jobs : StateFile) (job : Json) (w : World) : Prop where
  listed : Listed (fun _ ↦ .nan) jobs job w
  image : w.files (releasePath "bcm_v2.bin") = some bcmImage
  trust : ∃ trusted, trustedState w.trust = .ok trusted ∧ Below trusted 1
  stores : w.stores = fun _ ↦ {}

/-- The campaign is there. -/
structure Fetched (jobs : StateFile) (job data : Json) (w : World) : Prop
    extends Prepared jobs job w where
  localCampaign : w.localCampaign = some (data.dump (.indented 4) 0)

section Job

variable {jobs : StateFile} {job payload campaignId data : Json} {id : String} {cloud : Cloud}

theorem Listed.congr {float : List Char → Json} {w w' : World} (h : Listed float jobs job w)
    (hjob : w'.currentJob = w.currentJob) (hjobs : w'.jobs = w.jobs) : Listed float jobs job w' where
  currentJob := hjob.trans h.currentJob
  readable := hjobs ▸ h.readable
  completed := hjobs ▸ h.completed

theorem recordJob_prepared (cloud : Cloud) (hcampaignId : Json.Printable (fun _ ↦ .nan) campaignId)
    (hnot : ¬ Completed (fun _ ↦ .nan) jobs id) {status : String} (hstatus : status ≠ "COMPLETED") :
    Call.Triple (Prepared jobs job) (recordJob (fun _ ↦ .nan) cloud (.str id) campaignId status)
      (fun _ ↦ Prepared jobs job) fun _ _ ↦ False := by
  intro w hw
  have hlisted := @recordJob_spec _ cloud job _ _ status _ (fun _ ↦ .nan) hcampaignId hnot
    hstatus w hw.listed
  obtain ⟨file, hrun, -, -⟩ :=
    recordJob_run cloud (fun _ ↦ .nan) hcampaignId hw.listed.readable id status
  rw [hrun] at hlisted ⊢
  exact ⟨hlisted, hw.image, hw.trust, hw.stores⟩

theorem acceptJob_prepared (hcampaignId : Json.Printable (fun _ ↦ .nan) campaignId)
    (hnot : ¬ Completed (fun _ ↦ .nan) jobs id)
    (hurl : ∃ url, downloadUrl payload = .ok (.str url) ∧
      (cloud.fetch url >>= readJson fun _ ↦ .nan) = .ok data) :
    Call.Triple (Prepared jobs job) (acceptJob (fun _ ↦ .nan) cloud payload (.str id) campaignId)
      (fun found w ↦ found = data ∧ Fetched jobs payload data w) fun _ _ ↦ False := by
  obtain ⟨url, hurl, hdata⟩ := hurl
  rw [acceptJob]
  apply (recordJob_prepared cloud hcampaignId hnot (by decide)).bind
  intro _
  refine Call.Triple.modify_bind (show Call.Triple (Prepared jobs payload) _ _ _ from ?_) ?_
  · apply triple_known hurl
    apply (recordJob_prepared cloud hcampaignId hnot (by decide)).bind
    intro _
    rw [downloadCampaignFromUrl]
    apply triple_known hdata
    refine Call.Triple.modify_bind
      (show Call.Triple (Fetched jobs payload data) _ _ _ from ?_) ?_
    · exact Call.Triple.pure fun w hw ↦ ⟨rfl, hw⟩
    · intro w hw
      exact { hw with
        listed := hw.listed.congr rfl rfl
        localCampaign := rfl }
  · exact fun w hw ↦ { hw with listed := ⟨rfl, hw.listed.readable, hw.listed.completed⟩ }

/-- The notified job is taken up and its campaign downloaded. -/
theorem obtainCampaign_prepared {env : Surroundings} (hmqtt : env.usesMqtt = true)
    (hpublished : env.cloud.published = .ok ())
    (hnotification : notification (fun _ ↦ .nan) env.cloud = .ok payload)
    (hid : notifiedId payload = .ok (.str id))
    (hadmitted : ensureNotCompleted (fun _ ↦ .nan) jobs (.str id) = .ok ())
    (hurl : ∃ url, downloadUrl payload = .ok (.str url) ∧
      (env.cloud.fetch url >>= readJson fun _ ↦ .nan) = .ok data) {w : World} (hjobs : w.jobs = jobs)
    (hw : Prepared jobs job w) : ∃ w', obtainCampaign (fun _ ↦ .nan) env w = (.ok (some data), w') ∧
      Fetched jobs payload data w' := by
  have hheld := held_of_notification (fun _ ↦ .nan) hnotification hid
  obtain ⟨campaignId, hcampaignId, hprintable⟩ := hheld.exists_campaignId
  have haccept := acceptJob_prepared hprintable (not_completed_of_ensure hadmitted) hurl w hw
  rcases Call.settles_iff.mp haccept with ⟨found, hrun, rfl, hfetched⟩ | ⟨e, -, hfalse⟩
  · have hnotified : notifiedCampaign (fun _ ↦ .nan) env w = (.ok found,
        (acceptJob (fun _ ↦ .nan) env.cloud payload (.str id) campaignId w).2) := by
      rw [notifiedCampaign, Call.mapError_bind_run hpublished, downloadCampaignFromMqtt,
        Call.mapError_bind_run hnotification, Call.mapError_bind_run hid,
        Call.mapError_bind_run hcampaignId, Call.reads_bind_run, hjobs,
        Call.ofExcept_bind_run hadmitted, Call.mapError, hrun]
      rfl
    have hattempt : (Call.attempt (notifiedCampaign (fun _ ↦ .nan) env) : Call PyError World _) w =
        (.ok (.ok found), (acceptJob (fun _ ↦ .nan) env.cloud payload (.str id) campaignId w).2) := by
      rw [Call.attempt, hnotified]
    refine ⟨_, ?_, hfetched⟩
    rw [obtainCampaign, if_pos hmqtt, Call.bind_run_ok hattempt]
    rfl
  · cases hfalse

end Job

/-! ## The demo campaign -/

def bcmTarget : Json :=
  .dict [("ecu_name", .str "BCM ECU"), ("target_version", .str "2.0.0"),
    ("minimum_supported_version", .str "1.0.0"), ("hardware_variant", .str "GENERIC"),
    ("minimum_bootloader", .str "1.0.0"), ("mandatory", .bool true), ("priority", .int 1),
    ("requires_reboot", .bool false), ("firmware_file", .str "bcm_v2.bin")]

def bcmCampaignData : Json :=
  .dict [("campaign_id", .str "OTA_2026_001"), ("vehicle_model", .str "DEMO"),
    ("release_version", .str "2.0.0"), ("priority", .str "HIGH"), ("transport", .str "VCAN"),
    ("rollback_enabled", .bool true), ("created_by", .str "OEM"), ("targets", .list [bcmTarget])]

def bcmCampaign : LoadedCampaign where
  releaseVersion := "2.0.0"
  transport := "VCAN"
  targets := [demoTarget "BCM ECU" true 1]
  campaignId := .str "OTA_2026_001"
  vehicleModel := .str "DEMO"

theorem load_bcmCampaign : CampaignManager.loadCampaign bcmCampaignData = .ok bcmCampaign := rfl

theorem valid_bcmCampaign : CampaignValidator.validate bcmCampaign = true := rfl

theorem printable_bcmCampaignData (float : List Char → Json) :
    Json.Printable float bcmCampaignData := by
  have htarget : Json.Printable float bcmTarget := by
    apply Json.Printable.dict
    · decide
    · simp only [List.forall_mem_cons, List.not_mem_nil, false_implies, implies_true, and_true]
      exact ⟨.str _, .str _, .str _, .str _, .str _, .bool _, .int (by decide), .bool _, .str _⟩
  apply Json.Printable.dict
  · decide
  · simp only [List.forall_mem_cons, List.not_mem_nil, false_implies, implies_true, and_true]
    exact ⟨.str _, .str _, .str _, .str _, .str _, .bool _, .str _, .list (by simpa using htarget)⟩

theorem read_bcmCampaignData (float : List Char → Json) :
    readJson float (bcmCampaignData.dump (.indented 4) 0) = .ok bcmCampaignData := by
  have hread := @Json.loads_dump float _ (printable_bcmCampaignData float) (.indented 4) []
    (List.forall_mem_nil _)
  rw [List.append_nil] at hread
  rw [readJson, hread]

def bcmVehicle (currentVersion : String) : Vehicle where
  ecus := Dict.ofPairs [(0x202, demoEcu 0x202 "BCM ECU" currentVersion)]

theorem named_bcm : (bcmVehicle "1.0.0").Named := by
  have hecus : (bcmVehicle "1.0.0").getAllEcus = [demoEcu 0x202 "BCM ECU" "1.0.0"] := rfl
  constructor
  · rw [hecus]
    exact List.nodup_singleton _
  · rw [hecus]
    exact List.forall_mem_singleton.mpr (by decide)
  · rw [hecus]
    exact List.forall_mem_singleton.mpr (by decide)

def noPolicies : DependencyPolicyResolver := ⟨Dict.empty⟩


def bcmApproved : Campaign := { bcmCampaign.toCampaign with approvedTargets := ["BCM ECU"] }

theorem compatible_bcm : CompatibilityValidator.validate noPolicies (bcmVehicle "1.0.0")
    bcmCampaign.toCampaign = .ok (true, bcmApproved) := by
  rfl

def bcmUpdate : EligibleUpdate where
  ecu := demoEcu 0x202 "BCM ECU" "1.0.0"
  package := demoPackage "BCM ECU" "bcm_v2.bin"
  firmwarePath := "firmware/releases/2.0.0/bcm_v2.bin"
  size := 165

theorem eligible_bcm {files : Files} (h : files (releasePath "bcm_v2.bin") = some bcmImage)
    {names : List String} (hnames : names ∈ [[], ["BCM ECU"]]) (downloaded : Bool) :
    FirmwareCompatibilityValidator.validate bcmManifest files downloaded bcmApproved
      (bcmVehicle "1.0.0") names = .ok [bcmUpdate] := by
  have hecus : (bcmVehicle "1.0.0").getAllEcus = [demoEcu 0x202 "BCM ECU" "1.0.0"] := rfl
  have hsize : FirmwareCompatibilityValidator.artifactSize bcmManifest files downloaded
      (demoPackage "BCM ECU" "bcm_v2.bin") ⟨165, hexDigest (sha256 bcmImage), ⟨some "BCM ECU",
        some "GENERIC", some "2.0.0"⟩⟩ = .ok (some 165) := by
    have hpath : FirmwareCompatibilityValidator.firmwarePath bcmManifest
      (demoPackage "BCM ECU" "bcm_v2.bin") = releasePath "bcm_v2.bin" := rfl
    have hheader : FirmwareCompatibilityValidator.headerMatchesPackage
        (demoPackage "BCM ECU" "bcm_v2.bin") bcmImageSpec.metadata = .ok true := rfl
    cases downloaded with
    | false => rfl
    | true =>
        simp [FirmwareCompatibilityValidator.artifactSize, hpath, h, parse_bcmImage, hheader,
          length_bcmImage, bind, Except.bind, pure, Except.pure]
  have hpackage : FirmwareCompatibilityValidator.checkPackage bcmManifest files downloaded bcmApproved
      (demoEcu 0x202 "BCM ECU" "1.0.0") = .ok (some bcmUpdate) := by
    have htrusted : bcmManifest.trustedTargets.get? "bcm_v2.bin" = some ⟨165,
        hexDigest (sha256 bcmImage), ⟨some "BCM ECU", some "GENERIC", some "2.0.0"⟩⟩ := rfl
    have hfind : bcmManifest.packages.find? (fun package ↦ package.ecuName =
        (demoEcu 0x202 "BCM ECU" "1.0.0").ecuName) = some (demoPackage "BCM ECU" "bcm_v2.bin") := rfl
    have haccepts : FirmwareCompatibilityValidator.ecuAccepts bcmApproved
        (demoEcu 0x202 "BCM ECU" "1.0.0") (demoPackage "BCM ECU" "bcm_v2.bin") = .ok true := rfl
    have hmatches : FirmwareCompatibilityValidator.trustedMatches (demoEcu 0x202 "BCM ECU" "1.0.0")
        (demoPackage "BCM ECU" "bcm_v2.bin") ⟨165, hexDigest (sha256 bcmImage), ⟨some "BCM ECU",
          some "GENERIC", some "2.0.0"⟩⟩ = true := rfl
    have hfile : (demoPackage "BCM ECU" "bcm_v2.bin").file = "bcm_v2.bin" := rfl
    simp [FirmwareCompatibilityValidator.checkPackage, hfind, hfile, htrusted, hmatches, hsize,
      haccepts, bind, Except.bind, pure, Except.pure]
    rfl
  have hadmitted : FirmwareCompatibilityValidator.admitted bcmApproved names
      (demoEcu 0x202 "BCM ECU" "1.0.0") = true := by
    simp only [List.mem_cons, List.not_mem_nil, or_false] at hnames
    rcases hnames with rfl | rfl <;> rfl
  simp [FirmwareCompatibilityValidator.validate, hecus, FirmwareCompatibilityValidator.checkEcu,
    hadmitted, hpackage, bind, Except.bind, pure, Except.pure]

def bcmCloud : Cloud where
  campaignUrl := "https://127.0.0.1:8080/campaign/latest"
  fetch := fun _ ↦ .ok (bcmCampaignData.dump (.indented 4) 0)
  published := .ok ()
  signingKey := demoSigningKey
  received := [.message (wireText demoJob), .poll]
  recordedAt := fun _ ↦ "2026-07-16T00:00:01+00:00"
  respond := fun _ _ ↦ .ok ⟨[bcmImage], none⟩

def bcmSurroundings : Surroundings where
  consistent := true
  transport := "vcan"
  cloudControl := "mqtt"
  cloud := bcmCloud
  discovered := fun _ ↦ .ok (bcmVehicle "1.0.0")
  runtimeControl := fun _ ↦ none
  resolver := noPolicies
  planned := bcmReading
  downloaded := bcmReading
  repository := .ok [demoPackage "BCM ECU" "bcm_v2.bin"]
  flashRetryCount := 1
  sendFirmware := fun _ _ ↦ .ok true
  polls := []
  lastPoll := bcmVehicle "2.0.0"

def bcmExecution (p : DynamicUpdatePlan) (files : Files) : Execution :=
  execution bcmSurroundings (bcmVehicle "1.0.0") p [bcmUpdate] [demoPackage "BCM ECU" "bcm_v2.bin"]
    files

theorem exists_bcmPlan : ∃ p, plan noPolicies (bcmVehicle "1.0.0") bcmApproved [bcmUpdate] = .ok p ∧
    p.executable = true ∧ selectedUpdateNames p = ["BCM ECU"] ∧
    (bcmExecution p fun _ ↦ some []).execute.2 = .ok true := by
  have h : (plan noPolicies (bcmVehicle "1.0.0") bcmApproved [bcmUpdate]).toOption.map
      (fun p ↦ (p.executable, selectedUpdateNames p,
        (bcmExecution p fun _ ↦ some []).execute.2.toOption)) = some (true, ["BCM ECU"], some true) := by
    decide +kernel
  cases hp : plan noPolicies (bcmVehicle "1.0.0") bcmApproved [bcmUpdate] with
  | error e => simp [hp, Except.toOption] at h
  | ok p =>
      rw [hp, Except.toOption, Option.map_some, Option.some.injEq] at h
      simp only [Prod.mk.injEq] at h
      refine ⟨p, rfl, h.1, h.2.1, ?_⟩
      cases hresult : (bcmExecution p fun _ ↦ some []).execute.2 with
      | error e => simp [hresult, Except.toOption] at h
      | ok success => simpa [hresult, Except.toOption] using h.2.2

section Repository

variable {files : Files} (h : files (releasePath "bcm_v2.bin") = some bcmImage)

include h

theorem isSome_selected {names : List String} {package : Package}
    (hpackage : package ∈ selectedPackages [demoPackage "BCM ECU" "bcm_v2.bin"] names) :
    (files (releasePath package.file)).isSome = true := by
  have hmem : package ∈ [demoPackage "BCM ECU" "bcm_v2.bin"] := by
    rw [selectedPackages] at hpackage
    split at hpackage
    · exact hpackage
    · exact List.mem_of_mem_filter hpackage
  obtain rfl := List.mem_singleton.mp hmem
  have hfile : (demoPackage "BCM ECU" "bcm_v2.bin").file = "bcm_v2.bin" := rfl
  rw [hfile, h]
  rfl

theorem inventory_bcm (names : List String) :
    buildInventory files [demoPackage "BCM ECU" "bcm_v2.bin"] names = .ok () := by
  have hnone : (selectedPackages [demoPackage "BCM ECU" "bcm_v2.bin"] names).find?
      (fun package ↦ (files (releasePath package.file)).isNone) = none := by
    apply List.find?_eq_none.mpr
    intro package hpackage
    have hsome := isSome_selected h hpackage
    rw [Option.isSome_iff_ne_none] at hsome
    simpa using hsome
  rw [buildInventory, hnone]

theorem bcmExecution_files (p : DynamicUpdatePlan) :
    bcmExecution p files = bcmExecution p fun _ ↦ some [] := by
  have hcomplete : verifyRepository files [demoPackage "BCM ECU" "bcm_v2.bin"]
      (eligibleNames [bcmUpdate]) = true :=
    List.all_eq_true.mpr fun _ hpackage ↦ isSome_selected h hpackage
  unfold bcmExecution execution
  rw [hcomplete]
  rfl

end Repository

theorem validates_bcm : ∃ stores, PostInstallValidator.validate bcmApproved
    [(bcmVehicle "2.0.0", true)] (fun _ ↦ {}) = (.ok (some true), stores) := by
  have h : (PostInstallValidator.validate bcmApproved [(bcmVehicle "2.0.0", true)]
      (fun _ ↦ {})).1.toOption = some (some true) := by decide +kernel
  cases hrun : PostInstallValidator.validate bcmApproved [(bcmVehicle "2.0.0", true)]
      (fun _ ↦ {}) with
  | mk result stores =>
      cases result with
      | error e => simp [hrun, Except.toOption] at h
      | ok answer =>
          rw [hrun] at h
          exact ⟨stores, by rw [Option.some.inj h]⟩

theorem downloadFirmware_bcm (files : Files) :
    (downloadFirmware bcmSurroundings.cloud.respond bcmCampaignData ["BCM ECU"]).wp (fun _ _ ↦ True)
      (fun r files ↦ r = .ok ⟨⟩ ∧ files (releasePath "bcm_v2.bin") = some bcmImage) files := by
  have htargets : downloadTargets bcmCampaignData ["BCM ECU"] = .ok [bcmTarget] := rfl
  have hfile : bcmTarget.getItem "firmware_file" = .ok (.str "bcm_v2.bin") := rfl
  have hname : filenameOf (.str "bcm_v2.bin") = .ok "bcm_v2.bin" := rfl
  have hbody : (⟨[bcmImage], none⟩ : Response).body = bcmImage := List.append_nil _
  have hround : (do
      let file ← Persist.ofExcept (bcmTarget.getItem "firmware_file")
      let response ← Persist.ofExcept (bcmSurroundings.cloud.respond 0 file)
      let filename ← Persist.ofExcept (filenameOf file)
      saveResponse filename response) = saveResponse "bcm_v2.bin" ⟨[bcmImage], none⟩ := by
    have hresponse : bcmSurroundings.cloud.respond 0 (.str "bcm_v2.bin") = .ok ⟨[bcmImage], none⟩ := rfl
    rw [hfile, Persist.ofExcept_ok_bind, hresponse, Persist.ofExcept_ok_bind, hname,
      Persist.ofExcept_ok_bind]
  have hzip : [bcmTarget].zipIdx = [(bcmTarget, 0)] := rfl
  rw [downloadFirmware, htargets, Persist.ofExcept_ok_bind, hzip, Persist.forEach, Persist.wp_bind,
    hround]
  refine Persist.wp_mono (wp_saveResponse rfl files) (fun _ _ _ ↦ trivial) ?_
  rintro r files ⟨rfl, hfiles⟩
  exact (Persist.wp_pure _).mpr ⟨rfl, hbody ▸ hfiles⟩

/-! ## The demo run -/

/-- The job without its signature. -/
def demoEntries (id : String) : List (String × Json) :=
  [("type", .str "ota_job"), ("job_id", .str id), ("campaign_id", .str "OTA_2026_001"),
    ("vehicle_id", .str demoIssue.vehicleId), ("operation", .str "software_update"),
    ("priority", .str "HIGH"), ("created_at", .str demoIssue.createdAt),
    ("expires_at", .str demoIssue.expiresAt), ("release_version", .str "2.0.0"),
    ("vehicle_model", .str "DEMO"), ("download_url", .str (demoIssue.baseUrl ++ "/campaign/latest")),
    ("document", .dict [("campaign_url", .str (demoIssue.baseUrl ++ "/campaign/latest")),
      ("release_version", .str "2.0.0"),
      ("metadata_url", .str (demoIssue.baseUrl ++ "/campaign/latest"))]),
    ("issued_at", .int demoIssue.issuedAt)]

theorem exists_demoJob : ∃ id signature, demoJob = .dict (demoEntries id ++ [("signature", signature)]) := by
  have hpayload : ∃ id, jobPayload Mqtt.demoCampaign demoIssue = .ok (demoEntries id) := ⟨_, rfl⟩
  obtain ⟨id, hpayload⟩ := hpayload
  have hset : ∀ value, Dict.setEntries (demoEntries id) "signature" value =
      demoEntries id ++ [("signature", value)] := fun _ ↦ rfl
  have hjob := publishedJob_demo
  rw [publishedJob] at hjob
  obtain ⟨payload, hfound, hattach⟩ := bind_eq_ok.mp hjob
  obtain rfl := Except.ok.inj (hpayload.symm.trans hfound)
  rw [attachSignature, signPayload_dict fromHex_demo] at hattach
  generalize hmacSha256 demoKey _ = digest at hattach
  generalize demoJob = job at hattach ⊢
  simp only [bind, Except.bind, pure, Except.pure, Except.ok.injEq] at hattach
  rw [← hattach, hset]
  exact ⟨id, _, rfl⟩

theorem downloadUrl_demoJob : ∃ url, downloadUrl demoJob = .ok (.str url) := by
  obtain ⟨id, value, hjob⟩ := exists_demoJob
  have hdocument : demoJob.getD "document" (.dict []) =
      .ok (.dict [("campaign_url", .str (demoIssue.baseUrl ++ "/campaign/latest")),
        ("release_version", .str "2.0.0"),
        ("metadata_url", .str (demoIssue.baseUrl ++ "/campaign/latest"))]) := by
    rw [hjob]
    rfl
  have htruthy : (Json.str (demoIssue.baseUrl ++ "/campaign/latest")).truthy = true := by
    decide
  refine ⟨demoIssue.baseUrl ++ "/campaign/latest", ?_⟩
  generalize demoIssue.baseUrl ++ "/campaign/latest" = url at hdocument htruthy
  have hurl : (Json.dict [("campaign_url", .str url), ("release_version", .str "2.0.0"),
      ("metadata_url", .str url)]).getD "campaign_url" .null = .ok (.str url) := rfl
  simp [downloadUrl, hdocument, hurl, htruthy, raiseIf, bind, Except.bind, pure, Except.pure]

theorem exists_notifiedId : ∃ id, notifiedId demoJob = .ok (.str id) := by
  obtain ⟨id, value, hjob⟩ := exists_demoJob
  rw [hjob]
  exact ⟨id, rfl⟩

theorem notification_bcm : notification (fun _ ↦ .nan) bcmCloud = .ok demoJob := by
  have haccepted := ((issuable_demo fun _ ↦ .nan).accepted fromHex_demo publishedJob_demo).2
  have havailable : bcmCloud.mqttAvailable = true := rfl
  have hreceived : bcmCloud.received = [.message (wireText demoJob), .poll] := rfl
  have hsigning : bcmCloud.signingKey = demoSigningKey := rfl
  rw [notification, if_neg (not_not.mpr havailable), hreceived, hsigning, waitForCampaign,
    Listener.handle, if_neg (not_not.mpr rfl), onMessage_of_accepted haccepted]
  rfl

theorem loadManifest_bcm (jobs : StateFile) (job : Json) :
    Call.Triple (Fetched jobs job bcmCampaignData) (loadManifest nextYear bcmReading "2.0.0")
      (fun manifest w ↦ manifest = bcmManifest ∧ Fetched jobs job bcmCampaignData w) fun _ _ ↦ False := by
  intro w hw
  obtain ⟨trusted, htrusted, hbelow⟩ := hw.trust
  obtain ⟨state, hverify, hbelow'⟩ := @verify_signed "root-key" [0x11] (.str "2030-01-01T00:00:00Z")
    1 bcmTargets nextYear (releaseOf bcmReading w.files "2.0.0") w.trust trusted _ rfl
    ⟨1, 0, rfl, show (0 : ℤ) < 1 - 0 by decide⟩ (verifyArtifacts_bcm hw.image) le_rfl htrusted hbelow
  have hrun : persist World.trust (fun w trust ↦ { w with trust })
      (verify nextYear (releaseOf bcmReading w.files "2.0.0")) w =
      (.ok [⟨"bcm_v2.bin", 165, hexDigest (sha256 bcmImage), bcmCustom⟩],
        { w with trust := some (.ok state) }) := by
    have hstore : (verify nextYear (releaseOf bcmReading w.files "2.0.0")).store w.trust =
        some (.ok state) := by
      rw [Persist.store, hverify]
      rfl
    rw [persist, hstore, hverify]
  have hread : bcmReading.manifest "2.0.0" = .ok ("2.0.0", [demoPackage "BCM ECU" "bcm_v2.bin"]) := rfl
  rw [loadManifest, Call.ofExcept_bind_run hread, Call.reads_bind_run, Call.bind_run_ok hrun]
  exact ⟨rfl, { hw with
    listed := hw.listed.congr rfl rfl
    trust := ⟨state, rfl, hbelow'⟩ }⟩

section Job

variable {jobs : StateFile} {job : Json} {id : String} (hheld : Held (fun _ ↦ .nan) job id)
  (hnot : ¬ Completed (fun _ ↦ .nan) jobs id)

include hheld hnot

theorem installUpdates_bcm (summary : ExecutionSummary) {x : Execution}
    (hx : x.execute.2 = .ok true) :
    Call.Triple (Fetched jobs job bcmCampaignData)
      (installUpdates (fun _ ↦ .nan) bcmSurroundings summary bcmApproved x)
      (fun code _ ↦ code = 0) fun _ _ ↦ False := by
  rw [installUpdates]
  refine Call.Triple.modify_bind
    (show Call.Triple (Fetched jobs job bcmCampaignData) _ _ _ from ?_) ?_
  · apply triple_known hx
    apply triple_passed rfl
    apply Call.Triple.bind
      (Q := fun updated w ↦ updated = true ∧ Underway (fun _ ↦ .nan) jobs job w)
    · intro w hw
      obtain ⟨stores, hvalidates⟩ := validates_bcm
      have hpolls : bcmSurroundings.polls.map (·, false) ++ [(bcmSurroundings.lastPoll, true)] =
        [(bcmVehicle "2.0.0", true)] := rfl
      rw [validateInstallation, hpolls, hw.stores, hvalidates]
      exact ⟨rfl, Listed.underway (hw.listed.congr rfl rfl) hheld hnot⟩
    · rintro updated w ⟨rfl, hw⟩
      refine triple_passed rfl ?_ w hw
      apply Call.Triple.bind (markCurrentJob_spec fun _ ↦ .nan)
      intro _
      apply triple_finalize
      · exact fun _ _ ↦ rfl
      · intro e w hunwritable
        cases hunwritable.2
  · exact fun w hw ↦ { hw with listed := hw.listed.congr rfl rfl }

theorem updateVehicle_bcm (summary : ExecutionSummary) :
    Call.Triple (Fetched jobs job bcmCampaignData)
      (updateVehicle (fun _ ↦ .nan) nextYear bcmSurroundings summary "VCAN" bcmCampaignData)
      (fun code _ ↦ code = 0) fun _ _ ↦ False := by
  obtain ⟨p, hplan, hexecutable, hnames, hexecute⟩ := exists_bcmPlan
  refine Call.Triple.bind (Q := fun file w ↦ file = some (bcmCampaignData.dump (.indented 4) 0) ∧
    Fetched jobs job bcmCampaignData w) (Call.Triple.reads fun w hw ↦ ⟨hw.localCampaign, hw⟩) ?_
  have hread : (readJson (fun _ ↦ .nan) (bcmCampaignData.dump (.indented 4) 0) >>=
      CampaignManager.loadCampaign) = .ok bcmCampaign := by
    rw [read_bcmCampaignData]
    exact load_bcmCampaign
  generalize bcmCampaignData.dump (.indented 4) 0 = text at hread
  rintro file w ⟨rfl, hw⟩
  rw [Call.ofExcept_bind_run rfl]
  refine triple_known hread ?_ w hw
  refine triple_passed valid_bcmCampaign (triple_known rfl (triple_known rfl ?_))
  refine triple_passed rfl (triple_known compatible_bcm (triple_passed rfl ?_))
  refine (loadManifest_bcm jobs job).fact_bind (Q := fun _ ↦ Fetched jobs job bcmCampaignData) ?_
  rintro manifest rfl
  refine Call.Triple.bind (Q := fun files w ↦ files (releasePath "bcm_v2.bin") = some bcmImage ∧
    Fetched jobs job bcmCampaignData w) (Call.Triple.reads fun w hw ↦ ⟨hw.image, hw⟩) ?_
  rintro files w ⟨hfiles, hw⟩
  refine triple_known (eligible_bcm hfiles (by simp) false) ?_ w hw
  refine triple_passed rfl (triple_known hplan (triple_passed hexecutable ?_))
  refine triple_passed (by rw [hnames]; rfl) ?_
  rw [hnames]
  refine Call.Triple.bind (Q := fun _ ↦ Fetched jobs job bcmCampaignData) ?_ fun _ ↦ ?_
  · apply triple_persist
    · exact fun w _ hw _ ↦ { hw with
        listed := hw.listed.congr rfl rfl
        image := (downloadFirmware_bcm w.files).2.2 }
    · intro w e _ herror
      cases (downloadFirmware_bcm w.files).2.1.symm.trans herror
  refine triple_known rfl ?_
  refine Call.Triple.bind (Q := fun files w ↦ files (releasePath "bcm_v2.bin") = some bcmImage ∧
    Fetched jobs job bcmCampaignData w) (Call.Triple.reads fun w hw ↦ ⟨hw.image, hw⟩) ?_
  rintro files w ⟨hfiles, hw⟩
  refine triple_known (inventory_bcm hfiles ["BCM ECU"]) ?_ w hw
  refine (loadManifest_bcm jobs job).fact_bind (Q := fun _ ↦ Fetched jobs job bcmCampaignData) ?_
  rintro manifest rfl
  refine triple_known (eligible_bcm hfiles (by simp) true) ?_
  refine triple_passed rfl ?_
  rw [← bcmExecution_files hfiles] at hexecute
  exact installUpdates_bcm hheld hnot _ hexecute

end Job

def bcmStart (localCampaign : Option (List Char)) : World where
  localCampaign
  files := Function.update (fun _ ↦ none) (releasePath "bcm_v2.bin") (some bcmImage)
  stores := fun _ ↦ {}

theorem main_bcm (localCampaign : Option (List Char)) :
    (main (fun _ ↦ .nan) nextYear bcmSurroundings (bcmStart localCampaign)).1 = .ok 0 := by
  obtain ⟨id, hid⟩ := exists_notifiedId
  have hadmitted : ensureNotCompleted (fun _ ↦ .nan) none (.str id) = .ok () := rfl
  have hurl : ∃ url, downloadUrl demoJob = .ok (.str url) ∧
      (bcmSurroundings.cloud.fetch url >>= readJson fun _ ↦ .nan) = .ok bcmCampaignData := by
    obtain ⟨url, hurl⟩ := downloadUrl_demoJob
    exact ⟨url, hurl, bind_eq_ok.mpr ⟨_, rfl, read_bcmCampaignData _⟩⟩
  have hprepared : Prepared none .null (bcmStart localCampaign) := {
    listed := ⟨rfl, readable_of_ensure hadmitted, fun _ ↦ Iff.rfl⟩
    image := by
      have hfiles : (bcmStart localCampaign).files =
        Function.update (fun _ ↦ none) (releasePath "bcm_v2.bin") (some bcmImage) := rfl
      rw [hfiles, Function.update_self]
    trust := ⟨_, rfl, below_empty⟩
    stores := rfl }
  have hmqtt : bcmSurroundings.usesMqtt = true := rfl
  obtain ⟨w, hobtain, hfetched⟩ := obtainCampaign_prepared hmqtt rfl notification_bcm hid
    hadmitted hurl rfl hprepared
  have hheld := held_of_notification (fun _ ↦ .nan) notification_bcm hid
  have hconsistent : ¬ ¬ bcmSurroundings.consistent = true := not_not.mpr rfl
  have hselect : selectTransport bcmSurroundings.transport bcmSurroundings.transportInput =
    some "VCAN" := rfl
  have hstart : { bcmStart localCampaign with currentJob := .null } = bcmStart localCampaign := rfl
  rw [main, Call.modify_bind_run, if_neg hconsistent, hselect, hstart]
  dsimp only
  rw [runOver, Call.bind_run_ok hobtain]
  have hnot := not_completed_of_ensure hadmitted
  rcases Call.settles_iff.mp ((updateVehicle_bcm hheld hnot _).settles hfetched) with
    ⟨code, hcode, rfl⟩ | ⟨e, -, hfalse⟩
  · exact hcode
  · cases hfalse

theorem takesUp_bcm : ∃ id, bcmSurroundings.TakesUp (fun _ ↦ .nan) none id := by
  obtain ⟨id, hid⟩ := exists_notifiedId
  exact ⟨id, ⟨rfl, rfl, demoJob, notification_bcm, hid⟩, rfl⟩

/-- The run on an empty file of the jobs, in its surroundings. -/
def bcmRun : Surroundings × World := (bcmSurroundings, bcmStart none)

theorem textId_bcm : TextId (fun _ ↦ .nan) bcmRun.1.cloud := by
  intro payload hpayload
  obtain rfl := Except.ok.inj (notification_bcm.symm.trans hpayload)
  exact exists_notifiedId

theorem exists_installs_bcm : ∃ id, Installs (fun _ ↦ .nan) nextYear none bcmRun id := by
  obtain ⟨id, htakes⟩ := takesUp_bcm
  exact ⟨id, installs_of_exitCode htakes (main_bcm none)⟩

/-! ## Histories of runs -/

section Histories

variable {float : List Char → Json} {fromisoformat : String → Except PyError DateTime}

/-- Behind the run that has installed a job, every run that is notified of it again fails and
changes nothing but its summary. -/
theorem job_installed_once (hfloat : ∀ text, Json.Printable float (float text))
    (jobs : StateFile) (before between : List (Surroundings × World))
    (first second : Surroundings × World) (htext : TextIds float (first :: between)) (id : String)
    (hfirst : Installs float fromisoformat (run (runStep float fromisoformat) jobs before).1 first id)
    (hsecond : second.1.Notifies float id) :
    let earlier := (run (runStep float fromisoformat) jobs (before ++ first :: between)).1
    Fails second.1 { second.2 with jobs := earlier }
      (runStep float fromisoformat earlier second).2 := by
  intro earlier
  have hcompleted : Completed float earlier id :=
    (ledger_completed hfloat).holds_behind htext hfirst
  exact main_refuses { second.2 with jobs := earlier } hsecond hcompleted

theorem job_installed_once_bcm :
    let earlier := (run (runStep (fun _ ↦ .nan) nextYear) none ([] ++ bcmRun :: [])).1
    Fails bcmRun.1 { bcmRun.2 with jobs := earlier }
      (runStep (fun _ ↦ .nan) nextYear earlier bcmRun).2 := by
  obtain ⟨id, hinstalls⟩ := exists_installs_bcm
  have htext : TextIds (fun _ ↦ .nan) [bcmRun] := List.forall_mem_singleton.mpr textId_bcm
  exact job_installed_once (fun _ ↦ .nan) none [] [] bcmRun bcmRun htext id hinstalls
    hinstalls.1.1

end Histories

/-! ## One run -/

section Run

variable {float : List Char → Json} {fromisoformat : String → Except PyError DateTime}
  {env : Surroundings}

/-- A run sends an ECU nothing but an image that is bound to signed metadata. -/
theorem main_sends (hfloat : ∀ text, Json.Printable float (float text)) (w : World)
    (hlog : w.log = []) :
    SendsCleared float fromisoformat env (main float fromisoformat env w).2 := by
  have hspec : Call.Triple Silent (main float fromisoformat env)
      (fun _ ↦ SendsCleared float fromisoformat env)
      fun _ ↦ SendsCleared float fromisoformat env := by
    apply main_rule bystander_silent
    · exact fun summary _ ↦ (finalize_keeps bystander_silent summary).conseq (fun _ hw ↦ hw)
        (fun _ _ hw ↦ hw.sendsCleared) fun _ _ hw ↦ hw.sendsCleared
    · exact fun _ _ hw ↦ hw.sendsCleared
    · exact fun summary transport data hconsistent hselected ↦
        updateVehicle_sends hfloat hconsistent hselected summary
  rcases Call.settles_iff.mp (hspec w hlog) with ⟨code, -, h⟩ | ⟨e, -, h⟩
  · exact h
  · exact h

theorem main_sends_bcm :
    (main (fun _ ↦ .nan) nextYear bcmSurroundings (bcmStart none)).1 = .ok 0 ∧
      SendsCleared (fun _ ↦ .nan) nextYear bcmSurroundings
        (main (fun _ ↦ .nan) nextYear bcmSurroundings (bcmStart none)).2 :=
  ⟨main_bcm none, main_sends (fun _ ↦ .nan) (bcmStart none) rfl⟩

/-- A run with the exit code 0 has flashed every ECU of its plan, and the vehicle has been found
with the versions of the campaign. -/
theorem main_success (hfloat : ∀ text, Json.Printable float (float text))
    (hnamed : ∀ transport vehicle, env.discovered transport = .ok vehicle → vehicle.Named)
    (w : World) (hlog : w.log = []) (hcode : (main float fromisoformat env w).1 = .ok 0) :
    ∃ transport data g found, Success float fromisoformat env transport data g found
      (main float fromisoformat env w).2 := by
  have hspec : Call.Triple Silent (main float fromisoformat env)
      (fun code w ↦ code = 0 → ∃ transport data g found,
        Success float fromisoformat env transport data g found w) fun _ _ ↦ True := by
    apply main_rule bystander_silent
    · intro summary hstatus
      apply triple_finalize
      · intro w _ hzero
        rw [hstatus] at hzero
        cases hzero
      · exact fun _ _ _ _ ↦ trivial
    · exact fun _ _ _ ↦ trivial
    · intro summary transport data _ _
      apply updateVehicle_spec
      · exact {
          abort := fun summary reason ↦ (abort_code summary reason).weaken fun code w hone hzero ↦ by
            rw [hone] at hzero
            cases hzero
          raised := fun _ _ _ ↦ trivial
          trust := fun _ _ hw ↦ hw
          files := fun _ _ hw ↦ hw }
      · intro g hchecked
        obtain ⟨hfetched, hcampaign⟩ := hchecked.obtained hfloat
        refine (installUpdates_success hchecked (hnamed transport g.vehicle hchecked.vehicle) _
          hfetched hcampaign).conseq (fun w hw ↦ hw.2.1) ?_ fun _ _ _ ↦ trivial
        rintro code w hinstalled hzero
        exact ⟨transport, data, g, hinstalled hzero⟩
  rcases Call.settles_iff.mp (hspec w hlog) with ⟨code, hrun, h⟩ | ⟨e, hrun, -⟩
  · exact h (Except.ok.inj (hrun.symm.trans hcode))
  · cases hrun.symm.trans hcode

theorem main_success_bcm : ∃ transport data g found,
    Success (fun _ ↦ .nan) nextYear bcmSurroundings transport data g found
      (main (fun _ ↦ .nan) nextYear bcmSurroundings (bcmStart none)).2 := by
  apply main_success (fun _ ↦ .nan)
  · rintro transport vehicle hdiscovered
    obtain rfl := Except.ok.inj hdiscovered
    exact named_bcm
  · rfl
  · exact main_bcm none

end Run

end VehicleOta.Tcu
