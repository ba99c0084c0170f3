import VehicleOta.Tcu.PostInstallValidator

/-!
# Updated ECUs behind the validator

Over CAN the validator sees the version of an ECU with patch zero.  So it confirms an updated
ECU when the patch of the target version is zero, and rolls it back otherwise.
-/

namespace VehicleOta.Tcu

open Can Ecu CrashLogic ECUDiscovery PostInstallValidator

/-! ## Names and keys -/

theorem mem_toDigits_sixteen {n : ℕ} {c : Char} (h : c ∈ Nat.toDigits 16 n) :
    ∃ d < 16, c = Nat.digitChar d := by
  induction n using Nat.strongRecOn with
  | ind n ih =>
      rw [Nat.toDigits_eq_if (by decide)] at h
      split at h
      · exact ⟨n, by assumption, List.mem_singleton.mp h⟩
      · rcases List.mem_append.mp h with h | h
        · exact ih (n / 16) (Nat.div_lt_self (by omega) (by decide)) h
        · exact ⟨n % 16, Nat.mod_lt _ (by decide), List.mem_singleton.mp h⟩

/-- The lower case of a name that discovery makes up. -/
def unnamed (ecuId : ℕ) : List Char :=
  ['e', 'c', 'u', '_', '0', 'x'] ++ (Nat.toDigits 16 ecuId).map Char.toLower

theorem toLower_unnamed (ecuId : ℕ) :
    ("ECU_0x" ++ String.ofList (Nat.toDigits 16 ecuId)).toList.map Char.toLower = unnamed ecuId := by
  rw [String.toList_append, List.map_append, String.toList_ofList, String.toList_ofList]
  rfl

theorem mem_unnamed {ecuId : ℕ} {c : Char} (h : c ∈ unnamed ecuId) :
    c ≠ 'g' ∧ c ≠ 'l' ∧ c ≠ 'm' ∧ isSpace c = false := by
  have hletters : ∀ c ∈ ['e', 'c', 'u', '_', '0', 'x'],
      c ≠ 'g' ∧ c ≠ 'l' ∧ c ≠ 'm' ∧ isSpace c = false := by
    intro c hc
    simp only [List.mem_cons, List.not_mem_nil, or_false] at hc
    rcases hc with rfl | rfl | rfl | rfl | rfl | rfl <;> decide
  have hdigits : ∀ d < 16, (Nat.digitChar d).toLower ≠ 'g' ∧ (Nat.digitChar d).toLower ≠ 'l' ∧
      (Nat.digitChar d).toLower ≠ 'm' ∧ isSpace (Nat.digitChar d).toLower = false := by decide
  rcases List.mem_append.mp h with h | h
  · exact hletters c h
  · obtain ⟨digit, hdigit, rfl⟩ := List.mem_map.mp h
    obtain ⟨d, hd, rfl⟩ := mem_toDigits_sixteen hdigit
    exact hdigits d hd

theorem ecuKey_unnamed (ecuId : ℕ) :
    ecuKey ("ECU_0x" ++ String.ofList (Nat.toDigits 16 ecuId)) =
      .ok (String.ofList (unnamed ecuId)) := by
  have hsub : ∀ (word : List Char) (c : Char), c ∈ word → (c = 'g' ∨ c = 'l' ∨ c = 'm') →
      ¬ word <:+: unnamed ecuId := by
    intro word c hc hcases hword
    obtain ⟨hg, hl, hm, -⟩ := mem_unnamed (hword.subset hc)
    rcases hcases with h | h | h
    · exact hg h
    · exact hl h
    · exact hm h
  have hdrop : (unnamed ecuId).dropWhile isSpace = unnamed ecuId := rfl
  have htake : (unnamed ecuId).takeWhile (fun c ↦ !isSpace c) = unnamed ecuId := by
    rw [← List.append_nil (unnamed ecuId), List.takeWhile_append_of_pos, List.takeWhile_nil]
    intro c hc
    simp [(mem_unnamed hc).2.2.2]
  unfold ecuKey
  rw [toLower_unnamed]
  dsimp only
  rw [if_neg (hsub _ 'g' (by decide) (by simp)), if_neg (hsub _ 'l' (by decide) (by simp)),
    if_neg (hsub _ 'm' (by decide) (by simp)), hdrop, htake]
  rfl

theorem ecuName_receiver (r : Receiver) : ecuName r.ecuId = r.ecuName := by
  cases r <;> rfl

theorem ecuKey_receiver (r : Receiver) : ecuKey r.ecuName = .ok r.ecuKey := by
  cases r <;> rfl

/-- A discovered ECU is that of a receiver, or it has none of the three names and keys. -/
theorem receiver_cases (ecuId : ℕ) :
    (∃ r : Receiver, r.ecuId = ecuId) ∨
      ∃ key, ecuKey (ecuName ecuId) = .ok key ∧
        ∀ r : Receiver, ecuName ecuId ≠ r.ecuName ∧ key ≠ r.ecuKey := by
  by_cases hgateway : ecuId = 0x201
  · exact Or.inl ⟨.gateway, hgateway.symm⟩
  by_cases hbcm : ecuId = 0x202
  · exact Or.inl ⟨.bcm, hbcm.symm⟩
  by_cases hcluster : ecuId = 0x203
  · exact Or.inl ⟨.cluster, hcluster.symm⟩
  right
  rw [ecuName, if_neg hgateway, if_neg hbcm, if_neg hcluster]
  refine ⟨_, ecuKey_unnamed ecuId, fun r ↦ ⟨fun h ↦ ?_, fun h ↦ ?_⟩⟩
  · have hhead : some 'E' = r.ecuName.toList.head? := by
      rw [← h, String.toList_append]
      rfl
    revert hhead
    cases r <;> decide
  · have hhead : some 'e' = r.ecuKey.toList.head? := by
      rw [← h, String.toList_ofList]
      rfl
    revert hhead
    cases r <;> decide

/-! ## The entries by name -/

section ByName

variable {transport : String} {vehicle : Vehicle} {ecuName : String} {ecu : ECU} {ecuId : ℕ}

def byName (vehicle : Vehicle) : Dict String ECU :=
  Dict.ofPairs (vehicle.getAllEcus.map fun ecu ↦ (ecu.ecuName, ecu))

theorem mem_of_byName (h : (byName vehicle).get? ecuName = some ecu) :
    ecu.ecuName = ecuName ∧ ∃ ecuId, vehicle.ecus.get? ecuId = some ecu := by
  obtain ⟨ecu', hecu, heq⟩ := List.mem_map.mp (Dict.mem_of_get?_ofPairs h)
  obtain ⟨hname, rfl⟩ := Prod.mk.inj heq
  obtain ⟨entry, hentry, rfl⟩ := List.mem_map.mp hecu
  exact ⟨hname, entry.1, (Dict.get?_eq_some_iff _ _ _).mpr hentry⟩

theorem byName_receiver {r : Receiver} (hdiscovered : Discovered transport vehicle)
    (h : vehicle.ecus.get? r.ecuId = some ecu) : (byName vehicle).get? r.ecuName = some ecu := by
  have hname : ecu.ecuName = r.ecuName := by
    obtain ⟨major, minor, rfl⟩ := hdiscovered _ _ h
    exact ecuName_receiver r
  have hmem : ecu ∈ vehicle.getAllEcus :=
    List.mem_map.mpr ⟨_, (Dict.get?_eq_some_iff _ _ _).mp h, rfl⟩
  have hsome : ((byName vehicle).get? r.ecuName).isSome := by
    rw [Dict.isSome_get?, byName, Dict.mem_keys_ofPairs]
    exact List.mem_map.mpr ⟨_, List.mem_map.mpr ⟨ecu, hmem, rfl⟩, hname⟩
  obtain ⟨ecu', hecu'⟩ := Option.isSome_iff_exists.mp hsome
  obtain ⟨hname', id, hid⟩ := mem_of_byName hecu'
  -- no other entry has the name of a receiver
  have hsame : id = r.ecuId := by
    obtain ⟨major, minor, rfl⟩ := hdiscovered _ _ hid
    rcases receiver_cases id with ⟨r', rfl⟩ | ⟨key, -, hother⟩
    · change ECUDiscovery.ecuName r'.ecuId = r.ecuName at hname'
      rw [ecuName_receiver] at hname'
      revert hname'
      cases r <;> cases r' <;> decide
    · exact absurd hname' (hother r).1
  rw [hsame, h] at hid
  rw [hecu', Option.some.inj hid]

end ByName

/-! ## One ECU -/

section Ecu

variable {e : EcuStore} {actual : String} {passed : Bool}

theorem validateEcu_spec (he : e.Sound) (hactual : normalizeVersion actual = .ok actual) :
    (Ecu.PostInstallValidator.validateEcu passed actual e).result = .ok ⟨⟩ ∧
      ((Ecu.PostInstallValidator.validateEcu passed actual).store e).Sound ∧
      ((Ecu.PostInstallValidator.validateEcu passed actual).store e).versions =
        if e.versions.pendingCommit then
          if passed then e.versions.confirm actual
          else e.versions.rollbackPending "POST_INSTALL_VALIDATION_FAILED"
        else e.versions := by
  have heq := Ecu.PostInstallValidator.validateEcu_eq e passed actual
  unfold Persist.store
  rw [heq]
  cases e.versions.pendingCommit with
  | false => exact ⟨rfl, he, rfl⟩
  | true =>
      cases passed with
      | true =>
          obtain ⟨-, -, -, _, hok, hquiet⟩ := confirm_performs hactual he
          exact ⟨hok, hquiet.sound he, hquiet.versions⟩
      | false =>
          obtain ⟨-, -, -, _, hok, hquiet⟩ := rollback_performs "POST_INSTALL_VALIDATION_FAILED" he
          exact ⟨hok, hquiet.sound he, hquiet.versions⟩

theorem parseVersion_reported (transport : String) (ecuId : ℕ) (major minor : UInt8) :
    parseVersion (reported transport ecuId major minor).currentVersion =
      .ok ⟨major.toNat, minor.toNat, 0⟩ :=
  SemVer.parse_toString _ (length_digitsOf_byte major) (length_digitsOf_byte minor)
    (length_digitsOf_byte 0)

theorem normalizeVersion_reported (transport : String) (ecuId : ℕ) (major minor : UInt8) :
    normalizeVersion (reported transport ecuId major minor).currentVersion =
      .ok (reported transport ecuId major minor).currentVersion := by
  rw [normalizeVersion, parseVersion_reported]
  rfl

theorem parseVersion_toString_of_lt {v : SemVer} (hmajor : v.major < 256) (hminor : v.minor < 256)
    (hpatch : (digitsOf v.patch).length ≤ 4300) : parseVersion v.toString = .ok v := by
  have hlength : ∀ n : ℕ, n < 256 → (digitsOf n).length ≤ 4300 := fun n hn ↦
    (length_digitsOf_le (k := 3) (by decide) (hn.trans (by decide))).trans (by decide)
  exact SemVer.parse_toString v (hlength _ hmajor) (hlength _ hminor) hpatch

end Ecu

/-! ## The loop -/

section Loop

variable {transport : String} {vehicle : Vehicle} {versions : Dict String String}
  {ecuName expected : String} {stores : Stores} {ecuId : ℕ} {major minor : UInt8} {v : SemVer}

/-- What the version check of a discovered target does to its files. -/
def checked (transport : String) (ecuId : ℕ) (major minor : UInt8) (v : SemVer) (e : EcuStore) :
    EcuStore :=
  (Ecu.PostInstallValidator.validateEcu (decide (SemVer.mk major.toNat minor.toNat 0 = v))
    (reported transport ecuId major minor).currentVersion).store e

theorem validateTarget_eq {key : String} (hexpected : versions.get? ecuName = some expected)
    (hv : parseVersion expected = .ok v)
    (hecu : (byName vehicle).get? ecuName = some (reported transport ecuId major minor))
    (hkey : ecuKey (ECUDiscovery.ecuName ecuId) = .ok key) (he : (stores key).Sound) :
    validateTarget vehicle versions ecuName stores =
      (.ok (decide (SemVer.mk major.toNat minor.toNat 0 = v)),
        Function.update stores key (checked transport ecuId major minor v (stores key))) := by
  have hpassed := versionEq_of_parse (parseVersion_reported transport ecuId major minor) hv
  have hkey : ecuKey (reported transport ecuId major minor).ecuName = .ok key := hkey
  have hok := (@validateEcu_spec _ _ (decide (SemVer.mk major.toNat minor.toNat 0 = v)) he
    (normalizeVersion_reported transport ecuId major minor)).1
  have hecu : (Dict.ofPairs (vehicle.getAllEcus.map fun ecu ↦ (ecu.ecuName, ecu))).get? ecuName =
      some (reported transport ecuId major minor) := hecu
  simp only [validateTarget, hexpected, hecu, hpassed, hkey, onEcu, hok]
  rfl

theorem checked_sound {e : EcuStore} (he : e.Sound) :
    (checked transport ecuId major minor v e).Sound :=
  (validateEcu_spec he (normalizeVersion_reported transport ecuId major minor)).2.1

theorem checked_versions {e : EcuStore} (he : e.Sound) (hpending : e.versions.pendingCommit = true) :
    (checked transport ecuId major minor v e).versions =
      if SemVer.mk major.toNat minor.toNat 0 = v then
        e.versions.confirm (reported transport ecuId major minor).currentVersion
      else e.versions.rollbackPending "POST_INSTALL_VALIDATION_FAILED" := by
  have h := (@validateEcu_spec _ _ (decide (SemVer.mk major.toNat minor.toNat 0 = v)) he
    (normalizeVersion_reported transport ecuId major minor)).2.2
  rw [if_pos hpending] at h
  simp only [decide_eq_true_eq] at h
  exact h

/-- A target of another name leaves the files of the receiver as they are. -/
theorem validateTarget_other {r : Receiver} (hdiscovered : Discovered transport vehicle)
    (hversions : ∀ name expected, versions.get? name = some expected →
      ∃ v, parseVersion expected = .ok v)
    (hsound : ∀ key, (stores key).Sound) (hname : ecuName ≠ r.ecuName) :
    ∃ passed stores', validateTarget vehicle versions ecuName stores = (.ok passed, stores') ∧
      (∀ key, (stores' key).Sound) ∧ stores' r.ecuKey = stores r.ecuKey := by
  cases hexpected : versions.get? ecuName with
  | none =>
      refine ⟨true, stores, ?_, hsound, rfl⟩
      simp only [validateTarget, hexpected]
  | some expected =>
      cases hecu : (byName vehicle).get? ecuName with
      | none =>
          refine ⟨false, stores, ?_, hsound, rfl⟩
          unfold byName at hecu
          simp only [validateTarget, hexpected, hecu]
      | some ecu =>
          obtain ⟨hecuName, id, hid⟩ := mem_of_byName hecu
          obtain ⟨major, minor, rfl⟩ := hdiscovered _ _ hid
          obtain ⟨v, hv⟩ := hversions _ _ hexpected
          have hid : ECUDiscovery.ecuName id = ecuName := hecuName
          have hkey : ∃ key, ecuKey (ECUDiscovery.ecuName id) = .ok key ∧ key ≠ r.ecuKey := by
            rcases receiver_cases id with ⟨r', rfl⟩ | ⟨key, hkey, hother⟩
            · rw [ecuName_receiver] at hid ⊢
              refine ⟨_, ecuKey_receiver r', fun hkeys ↦ hname ?_⟩
              rw [← hid]
              revert hkeys
              cases r <;> cases r' <;> decide
            · exact ⟨key, hkey, (hother r).2⟩
          obtain ⟨key, hkey, hne⟩ := hkey
          refine ⟨_, _, validateTarget_eq hexpected hv hecu hkey (hsound key), fun other ↦ ?_,
            Function.update_of_ne (Ne.symm hne) _ _⟩
          rcases eq_or_ne other key with rfl | hother
          · rw [Function.update_self]
            exact checked_sound (hsound other)
          · rw [Function.update_of_ne hother]
            exact hsound other

/-- The loop checks the ECU of the receiver once. -/
theorem validateTargets_receiver {r : Receiver} {names : List String} (hnames : names.Nodup)
    (hdiscovered : Discovered transport vehicle)
    (hversions : ∀ name expected, versions.get? name = some expected →
      ∃ v, parseVersion expected = .ok v)
    (hecu : vehicle.ecus.get? r.ecuId = some (reported transport r.ecuId major minor))
    (hexpected : versions.get? r.ecuName = some expected) (hv : parseVersion expected = .ok v)
    (hsound : ∀ key, (stores key).Sound) :
    ∃ updated stores', validateTargets vehicle versions names stores = (.ok updated, stores') ∧
      (stores' r.ecuKey = if r.ecuName ∈ names then
        checked transport r.ecuId major minor v (stores r.ecuKey) else stores r.ecuKey) ∧
      (r.ecuName ∈ names → updated = true → SemVer.mk major.toNat minor.toNat 0 = v) := by
  induction names generalizing stores with
  | nil => exact ⟨true, stores, rfl, by simp, by simp⟩
  | cons name names ih =>
      obtain ⟨hnew, hrest⟩ := List.nodup_cons.mp hnames
      rcases eq_or_ne name r.ecuName with rfl | hname
      · have hkey : ecuKey (ECUDiscovery.ecuName r.ecuId) = .ok r.ecuKey := by
          rw [ecuName_receiver]
          exact ecuKey_receiver r
        have hhead := validateTarget_eq hexpected hv (byName_receiver hdiscovered hecu) hkey
          (hsound r.ecuKey)
        have hsound' : ∀ key, (Function.update stores r.ecuKey
            (checked transport r.ecuId major minor v (stores r.ecuKey)) key).Sound := by
          intro key
          rcases eq_or_ne key r.ecuKey with rfl | hkey
          · rw [Function.update_self]
            exact checked_sound (hsound r.ecuKey)
          · rw [Function.update_of_ne hkey]
            exact hsound key
        obtain ⟨updated, stores', htail, hstores', -⟩ := ih hrest hsound'
        rw [if_neg hnew, Function.update_self] at hstores'
        refine ⟨decide (SemVer.mk major.toNat minor.toNat 0 = v) && updated, stores',
          by simp only [validateTargets, hhead, htail], ?_, fun _ h ↦ ?_⟩
        · rw [if_pos List.mem_cons_self, hstores']
        · rw [Bool.and_eq_true, decide_eq_true_eq] at h
          exact h.1
      · obtain ⟨passed, stores₁, hhead, hsound₁, hkeep⟩ :=
          validateTarget_other hdiscovered hversions hsound hname
        obtain ⟨updated, stores', htail, hstores', hupdated⟩ := ih hrest hsound₁
        have hmem : r.ecuName ∈ name :: names ↔ r.ecuName ∈ names := by
          rw [List.mem_cons, or_iff_right hname.symm]
        refine ⟨passed && updated, stores', by simp only [validateTargets, hhead, htail], ?_,
          fun hin h ↦ ?_⟩
        · rw [hstores', hkeep]
          simp only [hmem]
        · rw [Bool.and_eq_true] at h
          exact hupdated (hmem.mp hin) h.2

end Loop

/-! ## The wait -/

section Wait

variable {transport : String} {versions : Dict String String}

theorem allRunning_total {discovered : Dict String String} {targets : List (String × String)}
    (hdiscovered : ∀ name actual, discovered.get? name = some actual →
      ∃ v, parseVersion actual = .ok v)
    (htargets : ∀ target ∈ targets, ∃ v, parseVersion target.2 = .ok v) :
    ∃ running, allRunning discovered targets = .ok running := by
  induction targets with
  | nil => exact ⟨true, rfl⟩
  | cons target targets ih =>
      obtain ⟨running, hrunning⟩ := ih fun t ht ↦ htargets t (List.mem_cons_of_mem _ ht)
      cases hactual : discovered.get? target.1 with
      | none => exact ⟨false, by simp only [allRunning, hactual]⟩
      | some actual =>
          obtain ⟨v, hv⟩ := hdiscovered _ _ hactual
          obtain ⟨w, hw⟩ := htargets target List.mem_cons_self
          simp only [allRunning, hactual, versionEq_of_parse hv hw, bind, Except.bind]
          split
          · exact ⟨running, hrunning⟩
          · exact ⟨false, rfl⟩

theorem allTargetsRunning_total {vehicle : Vehicle} (hdiscovered : Discovered transport vehicle)
    (hversions : ∀ name expected, versions.get? name = some expected →
      ∃ v, parseVersion expected = .ok v) :
    ∃ running, allTargetsRunning vehicle versions = .ok running := by
  apply allRunning_total
  · intro name actual hactual
    obtain ⟨ecu, hecu, heq⟩ := List.mem_map.mp (Dict.mem_of_get?_ofPairs hactual)
    obtain ⟨entry, hentry, rfl⟩ := List.mem_map.mp hecu
    obtain ⟨major, minor, hreported⟩ :=
      hdiscovered entry.1 entry.2 ((Dict.get?_eq_some_iff _ _ _).mpr hentry)
    rw [← (Prod.mk.inj heq).2, hreported]
    exact ⟨_, parseVersion_reported transport entry.1 major minor⟩
  · intro target htarget
    exact hversions target.1 target.2 ((Dict.get?_eq_some_iff _ _ _).mpr htarget)

/-- The wait ends with a vehicle that was discovered. -/
theorem waitForExpectedVersions_total {polls : List (Vehicle × Bool)}
    (hdiscovered : ∀ poll ∈ polls, Discovered transport poll.1)
    (hversions : ∀ name expected, versions.get? name = some expected →
      ∃ v, parseVersion expected = .ok v)
    (hend : ∃ poll ∈ polls, poll.2 = true ∨ allTargetsRunning poll.1 versions = .ok true) :
    ∃ poll ∈ polls, waitForExpectedVersions versions polls = .ok (some poll.1) := by
  induction polls with
  | nil =>
      obtain ⟨poll, hpoll, -⟩ := hend
      cases hpoll
  | cons poll polls ih =>
      obtain ⟨running, hrunning⟩ :=
        allTargetsRunning_total (hdiscovered poll List.mem_cons_self) hversions
      simp only [waitForExpectedVersions, hrunning, bind, Except.bind]
      cases running with
      | true => exact ⟨poll, List.mem_cons_self, rfl⟩
      | false =>
          cases hlast : poll.2 with
          | true => exact ⟨poll, List.mem_cons_self, rfl⟩
          | false =>
              have hlater : ∃ poll ∈ polls,
                  poll.2 = true ∨ allTargetsRunning poll.1 versions = .ok true := by
                obtain ⟨other, hother, hlaterEnd⟩ := hend
                rcases List.mem_cons.mp hother with rfl | hother
                · rw [hlast, hrunning] at hlaterEnd
                  rcases hlaterEnd with h | h <;> cases h
                · exact ⟨other, hother, hlaterEnd⟩
              obtain ⟨last, hmem, hwait⟩ :=
                ih (fun p hp ↦ hdiscovered p (List.mem_cons_of_mem _ hp)) hlater
              exact ⟨last, List.mem_cons_of_mem _ hmem, hwait⟩

end Wait

/-! ## A run on an updated ECU -/

/-- The campaign gives the ECU of the receiver the version `v`, the ECU runs it and waits for the
confirmation.  In every discovery the first response of the ECU is its own, and the last one
finds every target running or meets the deadline. -/
structure UpdatedRun (r : Receiver) (v : SemVer) (transport : String) (campaign : Campaign)
    (polls : List (Vehicle × Bool)) (stores : Stores) : Prop where
  expected : ∃ text, (targetVersions campaign).get? r.ecuName = some text ∧
    parseVersion text = .ok v
  versions : ∀ name text, (targetVersions campaign).get? name = some text →
    ∃ w, parseVersion text = .ok w
  sound : ∀ key, (stores key).Sound
  running : (stores r.ecuKey).versions.currentVersion = v.toString
  pending : (stores r.ecuKey).versions.pendingCommit = true
  heard : ∀ poll ∈ polls, ∃ message before after,
    discoveryResponse r.ecuId (stores r.ecuKey) = .ok message ∧
      (∀ m ∈ before, ¬ Responds r.ecuId m) ∧
      discoverCan transport (before ++ message :: after) = .ok poll.1
  ended : ∃ poll ∈ polls,
    poll.2 = true ∨ allTargetsRunning poll.1 (targetVersions campaign) = .ok true

section Run

variable {r : Receiver} {v : SemVer} {transport : String} {campaign : Campaign}
  {polls : List (Vehicle × Bool)} {stores : Stores}

theorem nodup_validationTargetNames (campaign : Campaign) :
    (validationTargetNames campaign).Nodup := by
  unfold validationTargetNames
  split <;> exact List.nodup_dedup _

theorem mem_validationTargetNames {name text : String}
    (h : (targetVersions campaign).get? name = some text) :
    name ∈ validationTargetNames campaign := by
  obtain ⟨target, htarget, heq⟩ := List.mem_map.mp (Dict.mem_of_get?_ofPairs h)
  rw [← (Prod.mk.inj heq).1]
  exact of_decide_eq_true (List.mem_filter.mp htarget).2

theorem bytes_eq_iff (hmajor : v.major < 256) (hminor : v.minor < 256) :
    SemVer.mk (UInt8.ofNat v.major).toNat (UInt8.ofNat v.minor).toNat 0 = v ↔ v.patch = 0 := by
  rw [UInt8.toNat_ofNat_of_lt' hmajor, UInt8.toNat_ofNat_of_lt' hminor]
  constructor
  · intro h
    rw [← h]
  · intro h
    rw [← h]

/-- Where the tester reads another version than the ECU runs. -/
theorem versionEq_reported (transport : String) (ecuId : ℕ) (hmajor : v.major < 256)
    (hminor : v.minor < 256) (hv : parseVersion v.toString = .ok v) :
    versionEq (reported transport ecuId (UInt8.ofNat v.major)
      (UInt8.ofNat v.minor)).currentVersion v.toString = .ok (decide (v.patch = 0)) := by
  rw [versionEq_of_parse (parseVersion_reported _ _ _ _) hv]
  simp only [bytes_eq_iff hmajor hminor]

theorem UpdatedRun.discovered (h : UpdatedRun r v transport campaign polls stores)
    (hmajor : v.major < 256) (hminor : v.minor < 256) {poll : Vehicle × Bool} (hpoll : poll ∈ polls) :
    poll.1.ecus.get? r.ecuId = some (reported transport r.ecuId (UInt8.ofNat v.major)
      (UInt8.ofNat v.minor)) ∧ Discovered transport poll.1 := by
  obtain ⟨message, before, after, hmessage, hbefore, hdiscover⟩ := h.heard poll hpoll
  obtain ⟨vehicle, hvehicle, hget, hdiscovered⟩ := @discoverCan_of_version _ _ _ transport _ after _
    h.running hmajor hminor hmessage hbefore
  obtain rfl := Except.ok.inj (hvehicle.symm.trans hdiscover)
  exact ⟨hget, hdiscovered⟩

theorem UpdatedRun.validate_eq (h : UpdatedRun r v transport campaign polls stores)
    (hmajor : v.major < 256) (hminor : v.minor < 256) :
    ∃ updated stores', validate campaign polls stores = (.ok (some updated), stores') ∧
      (stores' r.ecuKey).versions =
        (if v.patch = 0 then (stores r.ecuKey).versions.confirm v.toString
        else (stores r.ecuKey).versions.rollbackPending "POST_INSTALL_VALIDATION_FAILED") ∧
      (updated = true → v.patch = 0) := by
  obtain ⟨text, htext, hv⟩ := h.expected
  obtain ⟨poll, hpoll, hwait⟩ := waitForExpectedVersions_total
    (fun p hp ↦ (h.discovered hmajor hminor hp).2) h.versions h.ended
  obtain ⟨hecu, hdiscovered⟩ := h.discovered hmajor hminor hpoll
  have hperm := List.mergeSort_perm (validationTargetNames campaign) fun a b ↦ decide (a ≤ b)
  have hmem := hperm.mem_iff.mpr (mem_validationTargetNames htext)
  obtain ⟨updated, stores', htargets, hstores', hupdated⟩ := validateTargets_receiver
    (hperm.nodup_iff.mpr (nodup_validationTargetNames campaign)) hdiscovered h.versions hecu htext hv
    h.sound
  refine ⟨updated, stores', ?_, ?_, fun hall ↦ (bytes_eq_iff hmajor hminor).mp (hupdated hmem hall)⟩
  · simp only [validate, hwait, htargets]
  · rw [hstores', if_pos hmem, checked_versions (h.sound _) h.pending]
    simp only [bytes_eq_iff hmajor hminor]
    split
    · rename_i hpatch
      have hreported : (reported transport r.ecuId (UInt8.ofNat v.major)
          (UInt8.ofNat v.minor)).currentVersion = v.toString :=
        congrArg SemVer.toString ((bytes_eq_iff hmajor hminor).mpr hpatch)
      rw [hreported]
    · rfl

end Run

/-- Discovery finds the version that an ECU runs, and the validator confirms an update to it,
exactly where the patch number of the version is zero. -/
theorem can_discovery_confirms_iff (r : Receiver) (v : SemVer) (hmajor : v.major < 256)
    (hminor : v.minor < 256) :
    (∀ e : EcuStore, e.versions.currentVersion = v.toString →
      ((∃ message, discoveryResponse r.ecuId e = .ok message ∧
        ∀ transport before after, (∀ m ∈ before, ¬ Responds r.ecuId m) →
          ∃ vehicle ecu, discoverCan transport (before ++ message :: after) = .ok vehicle ∧
            vehicle.ecus.get? r.ecuId = some ecu ∧
            versionEq ecu.currentVersion e.versions.currentVersion = .ok true) ↔ v.patch = 0)) ∧
    ∀ transport campaign polls stores, UpdatedRun r v transport campaign polls stores →
      ∃ updated stores', validate campaign polls stores = (.ok (some updated), stores') ∧
        ((stores' r.ecuKey).versions = (stores r.ecuKey).versions.confirm v.toString ↔
          v.patch = 0) ∧
        (v.patch ≠ 0 → updated = false ∧ (stores' r.ecuKey).versions =
          (stores r.ecuKey).versions.rollbackPending "POST_INSTALL_VALIDATION_FAILED") := by
  refine ⟨fun e hversion ↦ ⟨?_, fun hpatch ↦ ?_⟩, fun transport campaign polls stores hrun ↦ ?_⟩
  · rintro ⟨message, hmessage, hdiscover⟩
    obtain ⟨vehicle, ecu, hvehicle, hecu, heq⟩ := hdiscover "VCAN" [] [] (by simp)
    obtain ⟨vehicle', hvehicle', hecu', -⟩ := @discoverCan_of_version _ _ _ "VCAN" [] [] _ hversion
      hmajor hminor hmessage (by simp)
    obtain rfl := Except.ok.inj (hvehicle'.symm.trans hvehicle)
    obtain rfl := Option.some.inj (hecu'.symm.trans hecu)
    rw [hversion, versionEq_reported _ _ hmajor hminor (parseVersion_toString_of_lt hmajor hminor
      (length_patch_of_response hversion hmessage))] at heq
    exact of_decide_eq_true (Except.ok.inj heq)
  · have hlength : (digitsOf v.patch).length ≤ 4300 := by
      rw [hpatch]
      decide
    have hmessage := discoveryResponse_of_version r.ecuId hversion hmajor hminor hlength
    refine ⟨_, hmessage, fun transport before after hbefore ↦ ?_⟩
    obtain ⟨vehicle, hvehicle, hecu, -⟩ := @discoverCan_of_version _ _ _ transport _ after _
      hversion hmajor hminor hmessage hbefore
    refine ⟨vehicle, _, hvehicle, hecu, ?_⟩
    rw [hversion, versionEq_reported _ _ hmajor hminor
      (parseVersion_toString_of_lt hmajor hminor hlength), decide_eq_true hpatch]
  · obtain ⟨updated, stores', hvalidate, hversions, hupdated⟩ := hrun.validate_eq hmajor hminor
    refine ⟨updated, stores', hvalidate, ⟨fun hconfirm ↦ ?_, fun hpatch ↦ ?_⟩, fun hpatch ↦ ?_⟩
    · by_contra hpatch
      rw [if_neg hpatch, hconfirm] at hversions
      have houtcome := congrArg VersionState.lastBootOutcome hversions
      cases houtcome
    · rw [hversions, if_pos hpatch]
    · rw [if_neg hpatch] at hversions
      exact ⟨Bool.eq_false_iff.mpr fun htrue ↦ hpatch (hupdated htrue), hversions⟩

/-! ## A patch release -/

def patchRelease : SemVer := ⟨2, 1, 3⟩

/-- The BCM runs 2.1.3 on trial. -/
def patchedEcu : EcuStore where
  version := some {
    currentVersion := patchRelease.toString
    activeSlot := .B
    pendingSlot := some .B
    pendingCommit := true
    lastBootOutcome := .pendingCommit }

def patchCampaign : Campaign where
  releaseVersion := "2.1.3"
  transport := "VCAN"
  targets := [{
    ecuName := "BCM ECU"
    targetVersion := patchRelease.toString
    minimumSupportedVersion := "1.0.0"
    hardwareVariant := "BCM-HW-A"
    minimumBootloader := "1.0.0"
    mandatory := true
    priority := 1 }]

theorem parseVersion_patchRelease : parseVersion patchRelease.toString = .ok patchRelease :=
  parseVersion_toString_of_lt (by decide) (by decide) (by decide)

theorem targetVersions_patchCampaign :
    targetVersions patchCampaign = Dict.empty.set "BCM ECU" patchRelease.toString := by
  rfl

theorem discoveryResponse_patchedEcu :
    discoveryResponse Receiver.bcm.ecuId patchedEcu =
      .ok ⟨0x202, [MessageType.discoveryResponse.code, 2, 1]⟩ :=
  @discoveryResponse_of_version patchedEcu patchRelease _ rfl (by decide) (by decide) (by decide)

theorem patch_release_not_discovered :
    ¬ ∃ message, discoveryResponse Receiver.bcm.ecuId patchedEcu = .ok message ∧
      ∃ vehicle ecu, discoverCan "VCAN" [message] = .ok vehicle ∧
        vehicle.ecus.get? Receiver.bcm.ecuId = some ecu ∧
        versionEq ecu.currentVersion patchedEcu.versions.currentVersion = .ok true := by
  rintro ⟨message, hmessage, vehicle, ecu, hvehicle, hecu, heq⟩
  obtain ⟨vehicle', hvehicle', hecu', -⟩ := @discoverCan_of_version Receiver.bcm.ecuId patchedEcu
    patchRelease "VCAN" [] [] message rfl (by decide) (by decide) hmessage (by simp)
  obtain rfl := Except.ok.inj (hvehicle'.symm.trans hvehicle)
  obtain rfl := Option.some.inj (hecu'.symm.trans hecu)
  have hfalse : versionEq _ patchRelease.toString = .ok false :=
    versionEq_reported "VCAN" Receiver.bcm.ecuId (by decide) (by decide) parseVersion_patchRelease
  exact absurd (hfalse.symm.trans heq) (by simp)

theorem patch_release_rolled_back :
    ∃ vehicle updated stores',
      validate patchCampaign [(vehicle, true)] (fun _ ↦ patchedEcu) =
        (.ok (some updated), stores') ∧ updated = false ∧
      ( stores' "bcm").versions.lastBootOutcome = .rolledBack := by
  obtain ⟨vehicle, hvehicle, -⟩ := @discoverCan_of_version Receiver.bcm.ecuId patchedEcu
    patchRelease "VCAN" [] [] _ rfl (by decide) (by decide) discoveryResponse_patchedEcu (by simp)
  have hrun : UpdatedRun .bcm patchRelease "VCAN" patchCampaign [(vehicle, true)]
      (fun _ ↦ patchedEcu) := {
    expected := ⟨_, by rw [targetVersions_patchCampaign]; rfl, parseVersion_patchRelease⟩
    versions := by
      intro name text htext
      rw [targetVersions_patchCampaign, Dict.get?_set] at htext
      split at htext
      · rw [← Option.some.inj htext]
        exact ⟨_, parseVersion_patchRelease⟩
      · cases htext
    sound := fun _ ↦ fresh_deliveredEcu.sound
    running := rfl
    pending := rfl
    heard := by
      intro poll hpoll
      rw [List.mem_singleton.mp hpoll]
      exact ⟨_, [], [], discoveryResponse_patchedEcu, by simp, hvehicle⟩
    ended := ⟨_, List.mem_singleton_self _, Or.inl rfl⟩ }
  obtain ⟨updated, stores', hvalidate, -, hrolled⟩ :=
    (can_discovery_confirms_iff .bcm patchRelease (by decide) (by decide)).2 _ _ _ _ hrun
  obtain ⟨hfalse, hversions⟩ := hrolled (by decide)
  exact ⟨vehicle, updated, stores', hvalidate, hfalse,
    congrArg VersionState.lastBootOutcome hversions⟩

end VehicleOta.Tcu
