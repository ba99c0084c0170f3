import VehicleOta.Tcu.SignedRelease

/-!
# The root of trust

The root of a release is verified under the keys that it brings along, and the trusted state
holds versions only.  So whoever knows the versions can put the next root in place, with a key of
his own.
-/

namespace VehicleOta.Tcu.UptaneVerifier

open CrashLogic TraceLogic Hash

/-! ## The release of a stranger -/

section Stranger

variable (keyid : String) (key : Bytes) (expires : Json) (version : ℤ)

def strangerTargets : Json := strangerRole keyid key expires version "targets" "targets" (.dict [])

def strangerSnapshot : Json :=
  strangerRole keyid key expires version "snapshot" "meta"
    (.dict [("targets.json", binding version (strangerTargets keyid key expires version))])

def strangerTimestamp : Json :=
  strangerRole keyid key expires version "timestamp" "meta"
    (.dict [("snapshot.json", binding version (strangerSnapshot keyid key expires version))])

def strangerRelease (now : ℤ) : Release where
  directory := "firmware"
  metadata := fun filename ↦
    if filename = "root.json" then some (.ok (strangerRoot keyid key expires version))
    else if filename = "timestamp.json" then some (.ok (strangerTimestamp keyid key expires version))
    else if filename = "snapshot.json" then some (.ok (strangerSnapshot keyid key expires version))
    else if filename = "targets.json" then some (.ok (strangerTargets keyid key expires version))
    else none
  artifacts := fun _ ↦ none
  now := now

variable {keyid key expires version} {now : ℤ}

/-- The release of a stranger is accepted on every state file with versions not above its own. -/
theorem verify_stranger {trusted : Json} (htrusted : trustedState s = .ok trusted)
    (hbelow : Below trusted version) (hversion : 1 ≤ version)
    (hexpires : Unexpired fromisoformat now expires) :
    Succeeded (verifyStep fromisoformat s (strangerRelease keyid key expires version now)).2 := by
  have hmetadata : (strangerRelease keyid key expires version now).metadata =
      signedDocument keyid key expires version (.dict []) := rfl
  have hartifacts : verifyArtifacts (strangerRelease keyid key expires version now) (.dict []) =
      .ok [] := rfl
  obtain ⟨state, hverify, -⟩ :=
    verify_signed hmetadata hexpires hartifacts hversion htrusted hbelow
  exact ⟨[], by rw [verifyStep, hverify]⟩

end Stranger

/-! ## Signatures under the root before -/

/-- The keys of the root of `earlier` that signed the root of `release`, and the threshold. -/
def rootSignatures (earlier release : Release) : Except PyError (List String × ℤ) := do
  let signed ← (← loadRole earlier "root.json").getItem "signed"
  let rule ← (← signed.getItem "roles").getItem "root"
  let threshold ← (← rule.getD "threshold" (.int 0)).toInt
  let valid ← validKeyids (← loadRole release "root.json") (← signed.getItem "keys") rule
  return (valid, threshold)

def SignedUnder (earlier release : Release) : Prop :=
  ∃ valid threshold, rootSignatures earlier release = .ok (valid, threshold) ∧
    threshold ≤ (valid.length : ℤ)

def text? : Json → Option String
  | .str s => some s
  | _ => none

/-- Some text is in no given list of key ids, whatever type of value it is. -/
theorem exists_fresh {keyids : Json} {n : ℕ} (h : keyids.len = .ok n) :
    ∃ name, keyids.contains (.str name) = .ok false := by
  cases keyids with
  | str s =>
      refine ⟨String.ofList ('k' :: s.toList), ?_⟩
      have hnot : ¬ 'k' :: s.toList <:+: s.toList := fun hsub ↦ by
        have hle := hsub.length_le
        simp at hle
      simp only [Json.contains, String.toList_ofList, hnot, decide_false]
  | list ys =>
      obtain ⟨name, hname⟩ := Infinite.exists_notMem_finset (ys.filterMap text?).toFinset
      refine ⟨name, ?_⟩
      have hany : (ys.any fun y ↦ Json.eq (.str name) y) = false := by
        rw [List.any_eq_false]
        intro y hy heq
        cases y with
        | str s =>
            have hs : name = s := by simpa [Json.eq] using heq
            exact hname (List.mem_toFinset.mpr (List.mem_filterMap.mpr ⟨.str s, hy, by rw [hs]; rfl⟩))
        | _ => simp [Json.eq] at heq
      rw [Json.contains, hany]
  | dict entries =>
      obtain ⟨name, hname⟩ := Infinite.exists_notMem_finset (entries.map Prod.fst).toFinset
      refine ⟨name, ?_⟩
      have hany : (entries.any fun e ↦ Json.eq (.str name) (.str e.1)) = false := by
        rw [List.any_eq_false]
        intro e he heq
        have hs : name = e.1 := by simpa [Json.eq] using heq
        exact hname (List.mem_toFinset.mpr (hs ▸ List.mem_map_of_mem he))
      simp only [Json.contains, Json.hashable, hany]
      rfl
  | _ => cases h

theorem validateRoot_root {signed roles keys : Json} {u : Unit} (h : validateRoot signed = .ok u)
    (hroles : signed.getItem "roles" = .ok roles) (hkeys : signed.getItem "keys" = .ok keys) :
    validateRule roles keys "root" = .ok () := by
  simp only [validateRoot, getD_of_getItem _ hroles, getD_of_getItem _ hkeys, bind_eq_ok,
    Except.ok.injEq, exists_eq_left'] at h
  obtain ⟨names, -, _, -, h⟩ := h
  have hfirst : (validateRule roles keys "root" >>= fun _ ↦
      ["timestamp", "snapshot", "targets"].forM (validateRule roles keys)) = .ok u := h
  obtain ⟨_, hrule, -⟩ := bind_eq_ok.mp hfirst
  exact hrule

theorem validateRule_ok {roles keys rule : Json} {u : Unit}
    (hrule : roles.getItem roleName = .ok rule) (h : validateRule roles keys roleName = .ok u) :
    ∃ threshold keyids n, (do (← rule.getD "threshold" (.int 0)).toInt) = .ok threshold ∧
      1 ≤ threshold ∧ rule.getItem "keyids" = .ok keyids ∧ keyids.len = .ok n := by
  simp only [validateRule, hrule, bind_eq_ok, raiseIf_eq_ok, not_lt, Except.ok.injEq,
    exists_eq_left'] at h
  obtain ⟨value, hvalue, threshold, hthreshold, keyids, hkeyids, _, hle, n, hn, _, hmet, -⟩ := h
  refine ⟨threshold, keyids, n, bind_eq_ok.mpr ⟨value, hvalue, hthreshold⟩, hle, ?_, hn⟩
  cases rule with
  | dict entries =>
      simp only [Json.getD, Except.ok.injEq] at hkeyids
      cases hlookup : Json.lookup entries "keyids" with
      | some found =>
          rw [hlookup] at hkeyids
          rw [Json.getItem, hlookup, ← hkeyids]
          rfl
      | none =>
          -- the empty list is too short for the threshold
          rw [hlookup] at hkeyids
          rw [← hkeyids] at hn
          obtain rfl := Except.ok.inj hn
          simp at hmet
          omega
  | _ => cases hvalue

/-- What the checks of an accepted release say about the root rule of its root. -/
theorem trustRoot_rule {trusted root : Json}
    (h : trustRoot fromisoformat release trusted = .ok root) :
    ∃ signed keys roles rule threshold keyids n expires,
      loadRole release "root.json" = .ok root ∧ root.getItem "signed" = .ok signed ∧
      signed.getItem "keys" = .ok keys ∧ signed.getItem "roles" = .ok roles ∧
      roles.getItem "root" = .ok rule ∧
      (do (← rule.getD "threshold" (.int 0)).toInt) = .ok threshold ∧ 1 ≤ threshold ∧
      rule.getItem "keyids" = .ok keyids ∧ keyids.len = .ok n ∧
      Unexpired fromisoformat release.now expires := by
  simp only [trustRoot, bind_eq_ok, pure, Except.pure, Except.ok.injEq] at h
  obtain ⟨loaded, hload, signed, hsigned, _, hvalid, _, hexpiry, keys, hkeys, roles, hroles, rule,
    hrule, _, -, _, -, rfl⟩ := h
  obtain ⟨expires, -, hexpires⟩ := checkExpiry_eq_ok.mp hexpiry
  obtain ⟨threshold, keyids, n, hthreshold, hle, hkeyids, hlen⟩ :=
    validateRule_ok hrule (validateRoot_root hvalid hroles hkeys)
  exact ⟨signed, keys, roles, rule, threshold, keyids, n, expires, hload, hsigned, hkeys, hroles, hrule,
    hthreshold, hle, hkeyids, hlen, hexpires⟩

/-- The signature of a stranger is not counted under a rule without his key. -/
theorem validKeyids_sign_fresh {keyid : String} {key : Bytes} {signed keys rule keyids : Json}
    (hkeyids : rule.getItem "keyids" = .ok keyids)
    (hfresh : keyids.contains (.str keyid) = .ok false) :
    validKeyids (sign keyid key signed) keys rule = .ok [] := by
  have hcount : countSignature keys rule signed.canonicalBytes [] (signature keyid key signed) =
      .ok [] := by
    have hkeyid : (signature keyid key signed).getItem "keyid" = .ok (.str keyid) := rfl
    simp only [countSignature, hkeyid, hkeyids, hfresh, bind, Except.bind]
    rfl
  have hsigned : (sign keyid key signed).getItem "signed" = .ok signed := rfl
  have hsignatures : (sign keyid key signed).getD "signatures" (.list []) =
      .ok (.list [signature keyid key signed]) := rfl
  simp only [validKeyids, hsignatures, hsigned, Json.iter, bind, Except.bind]
  rw [List.foldlM_cons, hcount]
  rfl

/-- Behind an accepted release, the versions in the state file can be read. -/
theorem below_of_verified {trusted state : Json} {m : Metadata} {targets : List TrustedTarget}
    (h : Verified fromisoformat release trusted m targets state) :
    ∃ version, 1 ≤ version ∧ Below state version := by
  obtain ⟨a, -, ha, -, -, hroot⟩ := h.versions (show "root" ∈ requiredRoles by decide)
  obtain ⟨b, -, hb, -, -, htimestamp⟩ := h.versions (show "timestamp" ∈ requiredRoles by decide)
  obtain ⟨c, -, hc, -, -, hsnapshot⟩ := h.versions (show "snapshot" ∈ requiredRoles by decide)
  obtain ⟨d, -, hd, -, -, htargets⟩ := h.versions (show "targets" ∈ requiredRoles by decide)
  obtain ⟨entries, roles, rfl, hroles⟩ := recordedState_dict h.recorded
  refine ⟨max (max a b) (max (max c d) 1), by simp, entries, roles, rfl, hroles, ?_⟩
  intro roleName hrole
  rw [← trustedVersion_dict hroles]
  simp only [requiredRoles, List.mem_cons, List.not_mem_nil, or_false] at hrole
  rcases hrole with rfl | rfl | rfl | rfl
  · exact ⟨a, hroot, by simp⟩
  · exact ⟨b, htimestamp, by simp⟩
  · exact ⟨c, hsnapshot, by simp⟩
  · exact ⟨d, htargets, by simp⟩

/-! The first release below is accepted on a new state file, and then the one of a stranger. -/

def firstRelease : Release :=
  strangerRelease "root-key" [0x11, 0x22] (.str "2030-01-01T00:00:00Z") 1 0

def secondRelease : Release :=
  strangerRelease "other-key" [0x66] (.str "2030-01-01T00:00:00Z") 1 0

theorem firstRelease_accepted : Succeeded (verifyStep nextYear none firstRelease).2 :=
  verify_stranger rfl below_empty le_rfl ⟨1, 0, rfl, by decide⟩

theorem below_firstRelease : ∃ state,
    (verifyStep nextYear none firstRelease).1 = some (.ok state) ∧ Below state 1 := by
  rcases verifyStep_cases nextYear none firstRelease with
    ⟨err, hstep⟩ | ⟨targets, trusted, m, state, -, hverified, hstep⟩
  · obtain ⟨targets, htargets⟩ := firstRelease_accepted
    rw [hstep] at htargets
    cases htargets
  refine ⟨state, by rw [hstep], ?_⟩
  obtain ⟨entries, roles, rfl, hroles⟩ := recordedState_dict hverified.recorded
  refine ⟨entries, roles, rfl, hroles, fun roleName hrole ↦ ?_⟩
  obtain ⟨v, -, hv, -, -, hstate⟩ := hverified.versions hrole
  rw [← trustedVersion_dict hroles]
  refine ⟨v, hstate, ?_⟩
  simp only [requiredRoles, List.mem_cons, List.not_mem_nil, or_false] at hrole
  rcases hrole with rfl | rfl | rfl | rfl <;> exact (Except.ok.inj hv).ge

theorem secondRelease_accepted_unsigned :
    Succeeded (verifyStep nextYear none firstRelease).2 ∧
    Succeeded (verifyStep nextYear (verifyStep nextYear none firstRelease).1 secondRelease).2 ∧
    ¬ SignedUnder firstRelease secondRelease := by
  obtain ⟨state, hstate, hbelow⟩ := below_firstRelease
  refine ⟨firstRelease_accepted, ?_, ?_⟩
  · rw [hstate]
    exact verify_stranger rfl hbelow le_rfl ⟨1, 0, rfl, by decide⟩
  · have hnone : validKeyids (strangerRoot "other-key" [0x66] (.str "2030-01-01T00:00:00Z") 1)
        (strangerKeys "root-key" [0x11, 0x22]) (strangerRule "root-key") = .ok [] :=
      validKeyids_sign_fresh rfl (by decide)
    have hsignatures : rootSignatures firstRelease secondRelease =
        (do return (← validKeyids (strangerRoot "other-key" [0x66] (.str "2030-01-01T00:00:00Z") 1)
          (strangerKeys "root-key" [0x11, 0x22]) (strangerRule "root-key"), 1)) := rfl
    rintro ⟨valid, threshold, hok, hle⟩
    rw [hsignatures, hnone] at hok
    obtain ⟨rfl, rfl⟩ := Prod.mk.inj (Except.ok.inj hok)
    exact absurd hle (by decide)

/-- Whatever release was accepted, and whatever key a stranger has: there is a release with his
key alone that is accepted next, and no key of the root before signed its root. -/
theorem root_of_trust_not_pinned (fromisoformat : String → Except PyError DateTime) (s : JsonFile)
    (earlier : Release) (haccepted : Succeeded (verifyStep fromisoformat s earlier).2) (key : Bytes) :
    ∃ keyid expires version threshold,
      Succeeded (verifyStep fromisoformat (verifyStep fromisoformat s earlier).1
        (strangerRelease keyid key expires version earlier.now)).2 ∧
      rootSignatures earlier (strangerRelease keyid key expires version earlier.now) =
        .ok ([], threshold) ∧
      ¬ SignedUnder earlier (strangerRelease keyid key expires version earlier.now) := by
  rcases verifyStep_cases fromisoformat s earlier with
    ⟨err, hstep⟩ | ⟨targets, trusted, m, state, htrusted, hverified, hstep⟩
  · obtain ⟨targets, htargets⟩ := haccepted
    rw [hstep] at htargets
    cases htargets
  obtain ⟨signed, keys, roles, rule, threshold, keyids, n, expires, hload, hsigned, hkeys, hroles,
    hrule, hthreshold, hpositive, hkeyids, hlen, hexpires⟩ := trustRoot_rule hverified.root
  obtain ⟨keyid, hfresh⟩ := exists_fresh hlen
  obtain ⟨version, hversion, hbelow⟩ := below_of_verified hverified
  have hnone : rootSignatures earlier (strangerRelease keyid key expires version earlier.now) =
      .ok ([], threshold) := by
    have hstranger : loadRole (strangerRelease keyid key expires version earlier.now) "root.json" =
        .ok (strangerRoot keyid key expires version) := rfl
    obtain ⟨value, hvalue, hint⟩ := bind_eq_ok.mp hthreshold
    have hvalid : validKeyids (strangerRoot keyid key expires version) keys rule = .ok [] :=
      validKeyids_sign_fresh hkeyids hfresh
    simp only [rootSignatures, hload, hsigned, hroles, hrule, hvalue, hint, hstranger, hkeys, hvalid,
      bind, Except.bind, pure, Except.pure]
  refine ⟨keyid, expires, version, threshold, ?_, hnone, ?_⟩
  · rw [hstep]
    exact verify_stranger rfl hbelow hversion hexpires
  · rintro ⟨valid, required, hok, hle⟩
    rw [hnone] at hok
    obtain ⟨rfl, rfl⟩ := Prod.mk.inj (Except.ok.inj hok)
    simp at hle
    omega

theorem root_of_trust_not_pinned_first : ∃ release,
    Succeeded (verifyStep nextYear (verifyStep nextYear none firstRelease).1 release).2 ∧
      ¬ SignedUnder firstRelease release := by
  obtain ⟨keyid, expires, version, _, haccepted, -, hsigned⟩ :=
    root_of_trust_not_pinned nextYear none firstRelease firstRelease_accepted [0x66]
  exact ⟨_, haccepted, hsigned⟩

end VehicleOta.Tcu.UptaneVerifier
