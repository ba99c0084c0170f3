import VehicleOta.Common.VersionText
import VehicleOta.Ecu.LifeCycle
import VehicleOta.Uds.BootConfirmation
import VehicleOta.Uds.CanProgrammer
import VehicleOta.Uds.LibraryClient

/-!
# Reading back the version

The ECU stores the normal form of the version that it installs; the flashing client compares what
the ECU reports with the target version letter by letter.
-/

namespace VehicleOta.Uds

open CrashLogic Ecu

/-! ## The ECU -/

/-- The version record of an ECU that has made the target version its pending one and has booted
it, whatever became of its slots. -/
def Booted (targetVersion : String) (t : EcuStore) : Prop :=
  ∃ e s slot, ((VersionManager.setPendingVersion targetVersion slot) e).result = .ok true ∧
    s.versions = ((VersionManager.setPendingVersion targetVersion slot).store e).versions ∧
    (VersionManager.bootPendingVersion s).result = .ok true ∧
    t.versions = (VersionManager.bootPendingVersion.store s).versions

theorem pendingVersion_pend (data : VersionState) (normalized : String) (slot : Option Slot) :
    (data.pend normalized slot).pendingVersion = normalized := by
  cases slot <;> rfl

theorem setPendingVersion_run {targetVersion normalized : String}
    (h : normalizeVersion targetVersion = .ok normalized) (slot : Option Slot) (e : EcuStore) :
    ((VersionManager.setPendingVersion targetVersion slot) e).result = .ok true ∧
      ((VersionManager.setPendingVersion targetVersion slot).store e).versions =
        e.versions.pend normalized slot := by
  rw [VersionManager.setPendingVersion, h]
  exact ⟨rfl, rfl⟩

theorem bootPendingVersion_run {s : EcuStore} (h : s.versions.pendingVersion ≠ "") :
    (VersionManager.bootPendingVersion s).result = .ok true ∧
      (VersionManager.bootPendingVersion.store s).versions = s.versions.bootPending := by
  have hrun : VersionManager.bootPendingVersion s =
      (VersionManager.save s.versions.bootPending >>= fun _ ↦ pure true) s := by
    rw [VersionManager.bootPendingVersion, VersionManager.load, Persist.reads_bind, if_neg h]
  rw [Persist.store, hrun]
  exact ⟨rfl, rfl⟩

/-- It runs the normal form. -/
theorem Booted.currentVersion {targetVersion : String} {t : EcuStore} (h : Booted targetVersion t) :
    normalizeVersion targetVersion = .ok t.versions.currentVersion := by
  obtain ⟨e, s, slot, hpending, hs, -, ht⟩ := h
  cases hnormal : normalizeVersion targetVersion with
  | error err =>
      rw [VersionManager.setPendingVersion, hnormal] at hpending
      cases hpending
  | ok normalized =>
      rw [(setPendingVersion_run hnormal slot e).2] at hs
      have hversion : s.versions.pendingVersion = normalized := by rw [hs, pendingVersion_pend]
      have hne : s.versions.pendingVersion ≠ "" := by
        rw [hversion]
        exact normalizeVersion_ne_empty hnormal
      rw [ht, (bootPendingVersion_run hne).2, ← hversion]
      rfl

/-- The installer does both. -/
theorem booted_install {e : EcuStore} {ecuName targetVersion : String} {firmwareFile : FirmwareFile}
    {r : Bool} (he : e.Sound) (hm : 1 ≤ e.slotInfo.maxBootAttempts)
    (h : ((FirmwareInstaller.install ecuName firmwareFile targetVersion) e).result = .ok r) :
    Booted targetVersion ((FirmwareInstaller.install ecuName firmwareFile targetVersion).store e) := by
  obtain ⟨-, -, normalized, -, hnormal⟩ := accepts_of_complete he h
  have hwp : (FirmwareInstaller.install ecuName firmwareFile targetVersion).wp (fun _ _ ↦ True)
      (fun r t ↦ ∀ b, r = .ok b → Booted targetVersion t) e := by
    apply FirmwareInstaller.install_wp
    · exact fun _ _ ↦ trivial
    · intro err u _ _ b hb
      cases hb
    · rintro metadata payload u ⟨image, hdownload, hextract⟩ hu
      have hdown : u.downloads firmwareFile = some image := by
        obtain ⟨installed, rfl⟩ := hu
        exact hdownload
      have hsound : u.Sound := hu.quiet.sound he
      have hlimit : 1 ≤ u.slotInfo.maxBootAttempts := by rwa [hu.quiet.slotInfo]
      have hstage := FirmwareInstaller.stageImage_observes ecuName hsound
        (FirmwareInstaller.describes_of_extract hextract) hdown hnormal
      refine Persist.wp_bind_of_returns (Persist.returns_mono hstage.1 (fun _ _ _ ↦ trivial)
        fun _ _ ↦ id) ?_
      intro _ s hs
      have hreboot := Persist.performs_mono (staged_reboots hlimit hsound hnormal hs)
        (fun _ _ _ ↦ trivial) fun _ _ ↦ id
      refine Persist.wp_bind_of_returns (hreboot.returns fun _ _ ↦ trivial) ?_
      rintro _ t ⟨-, ht⟩
      refine (Persist.wp_pure _).mpr fun _ _ ↦ ?_
      have hne : s.versions.pendingVersion ≠ "" := by
        rw [hs.versions, pendingVersion_pend]
        exact normalizeVersion_ne_empty hnormal
      obtain ⟨hpending, hpended⟩ := setPendingVersion_run hnormal (some u.target) u
      obtain ⟨hboot, hbooted⟩ := bootPendingVersion_run hne
      exact ⟨u, s, some u.target, hpending, hs.versions.trans hpended.symm, hboot,
        ht.versions.trans hbooted.symm⟩
  exact hwp.2 r h

/-! ## The answer to a read -/

/-- `build_read_data_by_identifier()` -/
def buildReadDataByIdentifier : Bytes := sidReadDataByIdentifier :: intToBytes 2 didSoftwareVersion

/-- What a server on this ECU answers to a read of the version. -/
def Answers (t : EcuStore) (responses : List Bytes) : Prop :=
  ∃ (σ : Type) (_ : ProgrammingServer σ) (s : σ) (r : Request),
    r.payload = buildReadDataByIdentifier ∧
    r.currentVersion = (VersionManager.getCurrentVersion t).result ∧
    responses = (readDataByIdentifier r s).actions.filterMap Action.response?

theorem mem_toString {v : SemVer} {c : Char} (h : c ∈ v.toString.toList) :
    c.toNat < 128 ∧ isSpace c = false ∧ c ≠ '\x00' := by
  have hdigit : c.isDigit ∨ c = '.' := by
    rw [SemVer.toList_toString] at h
    simp only [List.mem_append, List.mem_cons] at h
    rcases h with h | rfl | h | rfl | h
    · exact Or.inl (isDigit_of_mem_digitsOf h)
    · exact Or.inr rfl
    · exact Or.inl (isDigit_of_mem_digitsOf h)
    · exact Or.inr rfl
    · exact Or.inl (isDigit_of_mem_digitsOf h)
  rcases hdigit with hdigit | rfl
  · obtain ⟨-, hhigh⟩ := Char.isDigit_iff_toNat.mp hdigit
    refine ⟨Nat.lt_of_le_of_lt hhigh (by decide), isSpace_of_isDigit hdigit, ?_⟩
    rintro rfl
    cases hdigit
  · decide

theorem stripNul_of_forall {text : List Char} (h : ∀ c ∈ text, c ≠ '\x00') : stripNul text = text := by
  have hdrop : ∀ text : List Char, (∀ c ∈ text, c ≠ '\x00') →
      text.dropWhile (fun c ↦ decide (c = '\x00')) = text := by
    intro text h
    cases text with
    | nil => rfl
    | cons c text =>
        rw [List.dropWhile_cons, if_neg]
        rw [decide_eq_true_eq]
        exact h c List.mem_cons_self
  rw [stripNul, hdrop text h, hdrop _ fun c hc ↦ h c (List.mem_reverse.mp hc), List.reverse_reverse]

/-- A normal form arrives as it was sent. -/
theorem Answers.read {t : EcuStore} {responses : List Bytes} {v : SemVer}
    (h : Answers t responses) (hv : t.versions.currentVersion = v.toString) :
    readSoftwareVersion responses = .ok (some v.toString) := by
  obtain ⟨σ, hσ, s, r, hpayload, hversion, rfl⟩ := h
  have hcurrent : r.currentVersion = .ok v.toString := by
    rw [hversion, ← hv]
    rfl
  have hascii : ∀ c ∈ v.toString.toList, c.toNat < 128 := fun c hc ↦ (mem_toString hc).1
  have hdecode : decodeUtf8 v.toString.toUTF8.toList = v.toString.toList := by
    have hencode := decode_encode_ascii hascii
    rwa [String.ofList_toList] at hencode
  generalize hdata : v.toString.toUTF8.toList = data at hdecode
  have hresponses : (readDataByIdentifier r s).actions.filterMap Action.response? =
      [positiveResponseSid sidReadDataByIdentifier :: 0xF1 :: 0x88 :: data] := by
    rw [readDataByIdentifier, hpayload, hcurrent, ← hdata]
    rfl
  have hparse : parseSoftwareVersion
      (positiveResponseSid sidReadDataByIdentifier :: 0xF1 :: 0x88 :: data) = some v.toString := by
    have hdid : intFromBytes (slice
        (positiveResponseSid sidReadDataByIdentifier :: 0xF1 :: 0x88 :: data) 1 3) =
        didSoftwareVersion := rfl
    rw [parseSoftwareVersion, if_neg (by simp), if_neg (not_not.mpr hdid), List.drop_succ_cons,
      List.drop_succ_cons, List.drop_succ_cons, List.drop_zero, hdecode,
      stripNul_of_forall fun c hc ↦ (mem_toString hc).2.2, String.ofList_toList]
  have hne : positiveResponseSid sidReadDataByIdentifier ≠ sidNegativeResponse := by decide
  rw [hresponses, readSoftwareVersion, expectPositiveResponse, checkResponse_positive hne,
    Option.getD_some, ← hparse]
  rfl

/-! ## Runs -/

/-- What comes in behind a reset, for the client over DoIP, for the one over CAN, and for the last
read of the flashing client. -/
structure BootRun where
  reads : List (List Bytes)
  rounds : List CANSender.ZoneRound ⊕ List CANSender.HealthRound
  readback : List Bytes

/-- Something is read, and every read gets such an answer or, where the local file is looked up
instead, fails in front of such a file. -/
def RoundsDeliver (answer : List Bytes → Prop) (file : Option String → Prop) :
    List CANSender.ZoneRound ⊕ List CANSender.HealthRound → Prop
  | .inl rounds => rounds ≠ [] ∧ ∀ round ∈ rounds, answer round.responses ∨
      (∃ e, readSoftwareVersion round.responses = .error e) ∧ file round.currentVersion
  | .inr rounds => (∃ round ∈ rounds, round.message = .ok .healthy) ∧ ∀ round ∈ rounds,
      (∃ message, round.message = .ok message) ∧
        (round.message = .ok .healthy → answer round.responses)

structure BootRun.Delivers (run : BootRun) (answer : List Bytes → Prop)
    (file : Option String → Prop) : Prop where
  reads : run.reads ≠ [] ∧ ∀ responses ∈ run.reads, answer responses
  rounds : RoundsDeliver answer file run.rounds
  readback : answer run.readback

/-- The ECU with this store answers. -/
def BootRun.On (run : BootRun) (t : EcuStore) : Prop :=
  run.Delivers (Answers t) fun currentVersion ↦ currentVersion = some t.versions.currentVersion

/-- This version is reported. -/
def BootRun.Reports (run : BootRun) (reported : String) : Prop :=
  run.Delivers (fun responses ↦ readSoftwareVersion responses = .ok (some reported))
    fun currentVersion ↦ CANSender.readLocalEcuVersion currentVersion = reported

theorem BootRun.Delivers.mono {run : BootRun} {answer answer' : List Bytes → Prop}
    {file file' : Option String → Prop} (h : run.Delivers answer file)
    (hanswer : ∀ responses, answer responses → answer' responses)
    (hfile : ∀ currentVersion, file currentVersion → file' currentVersion) :
    run.Delivers answer' file' where
  reads := ⟨h.reads.1, fun responses hr ↦ hanswer _ (h.reads.2 responses hr)⟩
  rounds := by
    have hrounds := h.rounds
    cases hcases : run.rounds with
    | inl rounds =>
        rw [hcases] at hrounds
        exact ⟨hrounds.1, fun round hround ↦
          (hrounds.2 round hround).imp (hanswer _) (And.imp_right (hfile _))⟩
    | inr rounds =>
        rw [hcases] at hrounds
        exact ⟨hrounds.1, fun round hround ↦
          (hrounds.2 round hround).imp_right fun hhealthy hmessage ↦ hanswer _ (hhealthy hmessage)⟩
  readback := hanswer _ h.readback

/-- An ECU that has booted a target version reports its normal form. -/
theorem Booted.reports {targetVersion : String} {t : EcuStore} {run : BootRun}
    (h : Booted targetVersion t) (hrun : run.On t) : run.Reports t.versions.currentVersion := by
  have hnormal := h.currentVersion
  obtain ⟨v, -, hv⟩ := bind_eq_ok.mp hnormal
  have hversion : t.versions.currentVersion = v.toString := (Except.ok.inj hv).symm
  refine hrun.mono (fun responses hresponses ↦ ?_) ?_
  · rw [hresponses.read hversion, hversion]
  · rintro _ rfl
    have hstrip : strip v.toString.toList = v.toString.toList :=
      strip_of_forall fun c hc ↦ (mem_toString hc).2.1
    rw [CANSender.readLocalEcuVersion, hversion, hstrip, String.ofList_toList]

/-! ## The three checks -/

inductive Check where
  | libraryWaitForBoot
  | canWaitForBoot
  | flashReadback
  deriving DecidableEq

/-- Every phase in front of the reset has succeeded, and the reset too. -/
def allPhases : UDSClient.Phases := ⟨.ok (), .ok true, .ok true, .ok true, .ok true, .ok true⟩

/-- The check accepts the run as one of the target version. -/
def Check.Passes (targetVersion : String) (run : BootRun) : Check → Prop
  | .libraryWaitForBoot =>
      LibraryDoIPClient.waitForBoot true targetVersion run.reads [] = .ok true
  | .canWaitForBoot => CANSender.waitForBoot targetVersion run.rounds = .ok true
  | .flashReadback => UDSClient.flashFirmware allPhases
      ⟨some (.ok true), some (readSoftwareVersion run.readback), some targetVersion⟩ = .ok true

section Loops

variable {reported targetVersion : String}

theorem waitForVersion_cons {responses : List Bytes} {later : List (List Bytes)}
    (h : readSoftwareVersion responses = .ok (some reported)) :
    LibraryDoIPClient.waitForVersion targetVersion (responses :: later) =
      if reported = targetVersion then .ok true
      else LibraryDoIPClient.waitForVersion targetVersion later := by
  have hiff : some reported = some targetVersion ↔ reported = targetVersion := Option.some_inj
  rw [LibraryDoIPClient.waitForVersion, h]
  exact if_congr hiff rfl rfl

theorem waitForVersion_iff {reads : List (List Bytes)} (hne : reads ≠ [])
    (h : ∀ responses ∈ reads, readSoftwareVersion responses = .ok (some reported)) :
    LibraryDoIPClient.waitForVersion targetVersion reads = .ok true ↔ reported = targetVersion := by
  induction reads with
  | nil => exact absurd rfl hne
  | cons responses later ih =>
      rw [List.forall_mem_cons] at h
      rw [waitForVersion_cons h.1]
      by_cases heq : reported = targetVersion
      · rw [if_pos heq]
        exact iff_of_true rfl heq
      · rw [if_neg heq]
        cases later with
        | nil => exact iff_of_false (fun hok ↦ by cases hok) heq
        | cons next later => exact ih (List.cons_ne_nil _ _) h.2

open CANSender

theorem waitOverZone_cons {round : ZoneRound} {later : List ZoneRound}
    (h : readSoftwareVersion round.responses = .ok (some reported) ∨
      (∃ e, readSoftwareVersion round.responses = .error e) ∧
        readLocalEcuVersion round.currentVersion = reported) :
    waitOverZone targetVersion (round :: later) =
      if reported = targetVersion then .ok true else waitOverZone targetVersion later := by
  have hiff : some reported = some targetVersion ↔ reported = targetVersion := Option.some_inj
  rw [waitOverZone]
  rcases h with hread | ⟨⟨e, hread⟩, hfile⟩
  · rw [hread]
    exact if_congr hiff rfl rfl
  · rw [hread, hfile]

theorem waitOverZone_iff {rounds : List ZoneRound} (hne : rounds ≠ [])
    (h : ∀ round ∈ rounds, readSoftwareVersion round.responses = .ok (some reported) ∨
      (∃ e, readSoftwareVersion round.responses = .error e) ∧
        readLocalEcuVersion round.currentVersion = reported) :
    waitOverZone targetVersion rounds = .ok true ↔ reported = targetVersion := by
  induction rounds with
  | nil => exact absurd rfl hne
  | cons round later ih =>
      rw [List.forall_mem_cons] at h
      rw [waitOverZone_cons h.1]
      by_cases heq : reported = targetVersion
      · rw [if_pos heq]
        exact iff_of_true rfl heq
      · rw [if_neg heq]
        cases later with
        | nil => exact iff_of_false (fun hok ↦ by cases hok) heq
        | cons next later => exact ih (List.cons_ne_nil _ _) h.2

/-- The rounds in front of the first healthy one are passed over. -/
theorem waitForHealth_iff {rounds : List HealthRound}
    (h : ∀ round ∈ rounds, (∃ message, round.message = .ok message) ∧
      (round.message = .ok .healthy → readSoftwareVersion round.responses = .ok (some reported))) :
    waitForHealth targetVersion rounds = .ok true ↔
      (∃ round ∈ rounds, round.message = .ok .healthy) ∧ reported = targetVersion := by
  induction rounds with
  | nil => exact iff_of_false (fun hok ↦ by cases hok) fun hex ↦ by simp at hex
  | cons round later ih =>
      rw [List.forall_mem_cons] at h
      obtain ⟨⟨⟨message, hmessage⟩, hread⟩, hlater⟩ := h
      by_cases hhealthy : message = .healthy
      · subst hhealthy
        have hiff : some reported = some targetVersion ↔ reported = targetVersion := Option.some_inj
        have hround : waitForHealth targetVersion (round :: later) =
            if reported = targetVersion then .ok true else waitForHealth targetVersion later := by
          rw [waitForHealth, hmessage, hread hmessage]
          exact if_congr hiff rfl rfl
        rw [hround]
        by_cases heq : reported = targetVersion
        · rw [if_pos heq]
          exact iff_of_true rfl ⟨⟨round, List.mem_cons_self, hmessage⟩, heq⟩
        · rw [if_neg heq, ih hlater]
          exact iff_of_false (fun hok ↦ heq hok.2) fun hok ↦ heq hok.2
      · have hround : waitForHealth targetVersion (round :: later) =
            waitForHealth targetVersion later := by
          rw [waitForHealth, hmessage]
          exact if_neg hhealthy
        have hnot : round.message ≠ .ok .healthy := by
          rw [hmessage]
          exact fun hok ↦ hhealthy (Except.ok.inj hok)
        simp only [hround, ih hlater, List.mem_cons, exists_eq_or_imp, hnot, false_or]

/-- A check accepts a run if and only if the version that is reported is the target version. -/
theorem passes_iff {run : BootRun} (h : run.Reports reported) (check : Check) :
    check.Passes targetVersion run ↔ reported = targetVersion := by
  cases check with
  | libraryWaitForBoot => exact waitForVersion_iff h.reads.1 h.reads.2
  | canWaitForBoot =>
      have hrounds := h.rounds
      unfold Check.Passes
      cases hcases : run.rounds with
      | inl rounds =>
          rw [hcases] at hrounds
          exact waitOverZone_iff hrounds.1 hrounds.2
      | inr rounds =>
          rw [hcases] at hrounds
          exact (waitForHealth_iff hrounds.2).trans (and_iff_right hrounds.1)
  | flashReadback =>
      have hflash : UDSClient.flashFirmware allPhases
          ⟨some (.ok true), some (.ok (some reported)), some targetVersion⟩ =
            (UDSClient.compareReadback (some reported) targetVersion >>= fun _ ↦ .ok true) := rfl
      rw [Check.Passes, h.readback, hflash, bind_eq_ok]
      constructor
      · rintro ⟨_, hcompare, -⟩
        exact Option.some.inj (not_not.mp (raiseIf_eq_ok.mp hcompare))
      · rintro rfl
        exact ⟨(), raiseIf_eq_ok.mpr (not_not.mpr rfl), rfl⟩

end Loops

/-! ## The target versions that are recognised -/

theorem versionEq_self {targetVersion : String} {v : SemVer} (h : parseVersion targetVersion = .ok v) :
    versionEq targetVersion targetVersion = .ok true := by
  rw [versionEq, h]
  exact congrArg Except.ok (decide_eq_true rfl)

/-- On an ECU that has booted the target version the checks succeed if and only if that is spelled
in its normal form.  In general they compare spellings, not versions. -/
theorem passes_iff_normal (targetVersion : String) (v : SemVer)
    (hv : parseVersion targetVersion = .ok v) :
    (∀ t run check, Booted targetVersion t → run.On t →
      (Check.Passes targetVersion run check ↔ normalizeVersion targetVersion = .ok targetVersion)) ∧
    ∀ reported run check, BootRun.Reports run reported →
      ((Check.Passes targetVersion run check ↔ versionEq reported targetVersion = .ok true) ↔
        (reported = targetVersion ∨ versionEq reported targetVersion ≠ .ok true)) := by
  constructor
  · intro t run check hbooted hrun
    rw [passes_iff (hbooted.reports hrun), hbooted.currentVersion, Except.ok.injEq]
  · intro reported run check hreports
    rw [passes_iff hreports]
    have hself : reported = targetVersion → versionEq reported targetVersion = .ok true := by
      rintro rfl
      exact versionEq_self hv
    constructor
    · intro hiff
      by_cases heq : reported = targetVersion
      · exact Or.inl heq
      · exact Or.inr fun hversion ↦ heq (hiff.mpr hversion)
    · rintro (heq | hother)
      · exact iff_of_true heq (hself heq)
      · exact iff_of_false (fun heq ↦ hother (hself heq)) hother

/-- An ECU that has made a target version its pending one and has booted it. -/
def bootedEcu (targetVersion : String) : EcuStore :=
  VersionManager.bootPendingVersion.store
    ((VersionManager.setPendingVersion targetVersion (some .B)).store {})

/-- The answer of its CAN programmer to a read of the version. -/
def bootedAnswer (t : EcuStore) : List Bytes :=
  (readDataByIdentifier ⟨buildReadDataByIdentifier, true, true, 0, 0, 0, {}, .ok [],
    (VersionManager.getCurrentVersion t).result⟩
    (⟨0x100, "bcm", "bcm_v2.bin", "2.0.0", {}, false⟩ : UDSCanProgrammer)).actions.filterMap
      Action.response?

/-- The ECU answers at once. -/
def bootedRun (t : EcuStore) : BootRun where
  reads := [bootedAnswer t]
  rounds := .inl [⟨bootedAnswer t, some t.versions.currentVersion⟩]
  readback := bootedAnswer t

theorem answers_bootedAnswer (t : EcuStore) : Answers t (bootedAnswer t) :=
  ⟨UDSCanProgrammer, inferInstance, _, _, rfl, rfl, rfl⟩

theorem bootedRun_on (t : EcuStore) : (bootedRun t).On t where
  reads := ⟨List.cons_ne_nil _ _, List.forall_mem_singleton.mpr (answers_bootedAnswer t)⟩
  rounds := ⟨List.cons_ne_nil _ _, List.forall_mem_singleton.mpr (Or.inl (answers_bootedAnswer t))⟩
  readback := answers_bootedAnswer t

theorem booted_bootedEcu {targetVersion normalized : String}
    (h : normalizeVersion targetVersion = .ok normalized) :
    Booted targetVersion (bootedEcu targetVersion) := by
  obtain ⟨hpending, hpended⟩ := setPendingVersion_run h (some .B) {}
  refine ⟨{}, _, some .B, hpending, rfl, (bootPendingVersion_run ?_).1, rfl⟩
  rw [hpended, pendingVersion_pend]
  exact normalizeVersion_ne_empty h

/-- The ECU that has booted "2.0" reports "2.0.0", and no check recognises it. -/
theorem two_digits_rejected : Booted "2.0" (bootedEcu "2.0") ∧
    (bootedRun (bootedEcu "2.0")).On (bootedEcu "2.0") ∧
    (bootedRun (bootedEcu "2.0")).Reports "2.0.0" ∧ versionEq "2.0.0" "2.0" = .ok true ∧
    ∀ check, ¬ Check.Passes "2.0" (bootedRun (bootedEcu "2.0")) check := by
  have hnormal : normalizeVersion "2.0" = .ok "2.0.0" := by decide +kernel
  have hbooted := booted_bootedEcu hnormal
  have hversion : (bootedEcu "2.0").versions.currentVersion = "2.0.0" :=
    Except.ok.inj (hbooted.currentVersion.symm.trans hnormal)
  have hreports := hbooted.reports (bootedRun_on _)
  rw [hversion] at hreports
  refine ⟨hbooted, bootedRun_on _, hreports, by decide +kernel, fun check hpasses ↦ ?_⟩
  exact absurd ((passes_iff hreports check).mp hpasses) (by decide)

theorem passes_iff_normal_demo :
    Check.Passes "2.0.0" (bootedRun (bootedEcu "2.0.0")) .libraryWaitForBoot ∧
    Check.Passes "2.0.0" (bootedRun (bootedEcu "2.0.0")) .canWaitForBoot ∧
    Check.Passes "2.0.0" (bootedRun (bootedEcu "2.0.0")) .flashReadback := by
  have hnormal : normalizeVersion "2.0.0" = .ok "2.0.0" := by decide +kernel
  obtain ⟨hinstalled, -⟩ := passes_iff_normal "2.0.0" ⟨2, 0, 0⟩ (by decide +kernel)
  have hpasses : ∀ check, Check.Passes "2.0.0" (bootedRun (bootedEcu "2.0.0")) check :=
    fun check ↦ (hinstalled _ _ check (booted_bootedEcu hnormal) (bootedRun_on _)).mpr hnormal
  exact ⟨hpasses _, hpasses _, hpasses _⟩

end VehicleOta.Uds
