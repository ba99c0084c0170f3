import VehicleOta.Ecu.LifeCycle

/-!
# Losing power between the two records

Boot, confirmation and rollback write `version.json` and then `slot_state.json`.  After a
loss of power between the two the next reboot brings them together again, except behind a
confirmation or a rollback of an image whose journal is closed.
-/

namespace VehicleOta.Ecu

open CrashLogic FirmwareInstaller

/-- The two records agree. -/
structure Agrees (e : EcuStore) : Prop where
  active : e.versions.activeSlot = e.slotInfo.activeSlot
  confirmed : e.versions.confirmedSlot = e.slotInfo.confirmedSlot
  pending : e.versions.pendingSlot = none ↔ e.slotInfo.pendingSlot = none

/-- What the records share whether or not power has been lost. -/
structure Shared (e : EcuStore) : Prop where
  sound : e.Sound
  limit : 1 ≤ e.slotInfo.maxBootAttempts
  confirmed : e.versions.confirmedSlot = e.slotInfo.confirmedSlot

/-- An ECU that is up: its active slot is confirmed, or booted and on trial. -/
structure Up (e : EcuStore) : Prop extends Shared e where
  active : e.versions.activeSlot = e.slotInfo.activeSlot
  commit : e.versions.pendingCommit = e.versions.pendingSlot.isSome
  trial : ∀ q, e.versions.pendingSlot = some q →
    e.versions.activeSlot = q ∧ e.versions.pendingVersion ≠ ""
  idle : e.versions.pendingSlot = none → e.versions.activeSlot = e.versions.confirmedSlot

/-- … and `slot_state.json` names the same pending slot, with a closed journal. -/
structure Paired (e : EcuStore) : Prop extends Up e where
  same : e.slotInfo.pendingSlot = e.versions.pendingSlot
  closed : ∀ q, e.slotInfo.pendingSlot = some q → (e.slots q).incomplete = false

/-- `slot_state.json` names a slot whose installation was abandoned. -/
def Abandoned (e : EcuStore) : Prop :=
  ∃ p, e.slotInfo.pendingSlot = some p ∧ (e.slots p).incomplete = true

structure Running (e : EcuStore) : Prop extends Up e where
  slot : Paired e ∨ Abandoned e

/-- What the next reboot finds. -/
inductive Finding (e : EcuStore) : Prop
  | abandoned (h : Abandoned e)
  | bootable (q : Slot) (hS : e.slotInfo.pendingSlot = some q) (hV : e.versions.pendingSlot = some q)
      (hinc : (e.slots q).incomplete = false) (hcommit : e.versions.pendingCommit = true)
      (hversion : e.versions.pendingVersion ≠ "")
  | nothing (hS : e.slotInfo.pendingSlot = none) (hV : e.versions.pendingSlot = none)
      (hcommit : e.versions.pendingCommit = false)
      (hactiveV : e.versions.activeSlot = e.versions.confirmedSlot)
      (hactiveS : e.slotInfo.activeSlot = e.slotInfo.confirmedSlot)

/-- An ECU without power that the next reboot brings back. -/
structure Dark (e : EcuStore) : Prop extends Shared e where
  finding : Finding e

/-- Power is lost between the two records, and the next reboot cannot tell: behind
`version.json` of a confirmation, unless the abandoned installation it meets returns to the
same slot, or of a rollback of a slot with a closed journal. -/
def Torn (e : EcuStore) (k : ℕ) : Operation → Prop
  | .reboot => k = 1 ∧ e.versions.pendingCommit = true ∧
      e.slotInfo.maxBootAttempts ≤ e.slotInfo.bootAttempts ∧
      ∃ p, e.slotInfo.pendingSlot = some p ∧ (e.slots p).incomplete = false
  | .confirm actual => k = 1 ∧ (∃ normalized, normalizeVersion actual = .ok normalized) ∧
      ¬(e.slotInfo.activeSlot = e.slotInfo.confirmedSlot ∧ Abandoned e)
  | .rollback => k = 1 ∧ ∃ p, e.slotInfo.pendingSlot = some p ∧ (e.slots p).incomplete = false
  | _ => False

/-! ## The two kinds of stores -/

section Stores

variable {e t : EcuStore}

theorem Shared.quiet (h : Shared e) (hq : e.Quiet t) : Shared t := by
  refine ⟨hq.sound h.sound, ?_, ?_⟩
  · rw [hq.slotInfo]
    exact h.limit
  · rw [hq.versions, hq.slotInfo]
    exact h.confirmed

theorem Up.quiet (h : Up e) (hq : e.Quiet t) : Up t := by
  refine ⟨h.toShared.quiet hq, ?_, ?_, ?_, ?_⟩
  · rw [hq.versions, hq.slotInfo, h.active]
  · rw [hq.versions, h.commit]
  · rw [hq.versions]
    exact h.trial
  · rw [hq.versions]
    exact h.idle

theorem Paired.quiet (h : Paired e) (hq : e.Quiet t) : Paired t := by
  refine ⟨h.toUp.quiet hq, ?_, ?_⟩
  · rw [hq.versions, hq.slotInfo, h.same]
  · intro q hS
    rw [hq.slotInfo] at hS
    exact hq.incomplete (h.closed q hS)

theorem Paired.running (h : Paired e) : Running e := ⟨h.toUp, Or.inl h⟩

theorem Paired.agrees (h : Paired e) : Agrees e := ⟨h.active, h.confirmed, by rw [h.same]⟩

theorem Paired.dark (h : Paired e) : Dark e := by
  refine ⟨h.toShared, ?_⟩
  cases hV : e.versions.pendingSlot with
  | none =>
      have hidle := h.idle hV
      exact .nothing (h.same.trans hV) hV (by rw [h.commit, hV]; rfl) hidle
        (by rw [← h.active, hidle, h.confirmed])
  | some q =>
      have hS := h.same.trans hV
      exact .bootable q hS hV (h.closed q hS) (by rw [h.commit, hV]; rfl) (h.trial q hV).2

theorem Running.dark (h : Running e) : Dark e := by
  rcases h.slot with hpaired | habandoned
  · exact hpaired.dark
  · exact ⟨h.toShared, .abandoned habandoned⟩

theorem Shared.rolledBack (h : Shared e) (reason : String) : Paired (e.rolledBack reason) where
  sound := h.sound
  limit := h.limit
  confirmed := h.confirmed
  active := h.confirmed
  commit := rfl
  trial := fun _ hq ↦ absurd hq.symm (Option.some_ne_none _)
  idle := fun _ ↦ rfl
  same := rfl
  closed := fun _ hq ↦ absurd hq.symm (Option.some_ne_none _)

theorem Shared.booted {q : Slot} (h : Shared e) (hS : e.slotInfo.pendingSlot = some q)
    (hV : e.versions.pendingSlot = some q) (hinc : (e.slots q).incomplete = false)
    (hversion : e.versions.pendingVersion ≠ "") : Paired (e.booted q) := by
  have hpending : (e.booted q).versions.pendingSlot = some q := hV
  have hactive : (e.booted q).versions.activeSlot = q := by
    simp [EcuStore.booted, VersionState.bootPending, hV]
  refine ⟨⟨⟨h.sound, h.limit, h.confirmed⟩, hactive, ?_, ?_, ?_⟩, hS.trans hV.symm, ?_⟩
  · rw [hpending]
    rfl
  · intro q' hq'
    obtain rfl : q = q' := Option.some.inj (hpending.symm.trans hq')
    exact ⟨hactive, hversion⟩
  · rw [hpending]
    exact fun hnone ↦ absurd hnone (by simp)
  · intro q' hq'
    obtain rfl : q = q' := Option.some.inj (hS.symm.trans hq')
    exact hinc

theorem Running.confirmed_paired (h : Running e) (normalized : String)
    (hcommit : e.versions.pendingCommit = true) : Paired (e.confirmed normalized) := by
  rw [h.commit] at hcommit
  obtain ⟨q, hq⟩ := Option.isSome_iff_exists.mp hcommit
  have hS : e.slotInfo.activeSlot = q := h.active ▸ (h.trial q hq).1
  have hV : (e.confirmed normalized).versions.activeSlot = q := by
    simp [EcuStore.confirmed, VersionState.confirm, hq]
  exact
    { sound := h.sound
      limit := h.limit
      confirmed := hV.trans hS.symm
      active := hV.trans hS.symm
      commit := rfl
      trial := fun _ hq ↦ absurd hq.symm (Option.some_ne_none _)
      idle := fun _ ↦ rfl
      same := rfl
      closed := fun _ hq ↦ absurd hq.symm (Option.some_ne_none _) }

/-- Without a pending commit a pending slot with a closed journal stays pending. -/
theorem reboot_disagrees {p : Slot} (he : e.Sound) (hp : e.slotInfo.pendingSlot = some p)
    (hinc : (e.slots p).incomplete = false) (hcommit : e.versions.pendingCommit = false)
    (hV : e.versions.pendingSlot = none) : ¬Agrees (RebootManager.reboot.store e) := by
  obtain ⟨_, _, -, hq⟩ := (reboot_uncommitted hp hinc hcommit he).run
  intro hagrees
  have hpending := hagrees.pending
  rw [hq.versions, hq.slotInfo] at hpending
  have hnone := hpending.mp hV
  simp [SlotState.activatePending, hp] at hnone

/-- A reboot brings a dark ECU up again, with records that agree. -/
theorem Dark.reboot (h : Dark e) :
    RebootManager.reboot.returns (fun _ _ ↦ True) (fun _ t ↦ Paired t) e := by
  have hany : ∀ {ws C P}, (RebootManager.reboot).performs ws C P e →
      (∀ a t, P a t → Paired t) →
      RebootManager.reboot.returns (fun _ _ ↦ True) (fun _ t ↦ Paired t) e :=
    fun hperf hP ↦ (Persist.performs_mono hperf (fun _ _ _ ↦ trivial) hP).returns fun _ _ ↦ trivial
  cases h.finding with
  | abandoned habandoned =>
      obtain ⟨p, hp, hinc⟩ := habandoned
      exact hany (reboot_recovers hp hinc h.sound)
        fun _ _ ht ↦ (h.toShared.rolledBack _).quiet ht.2
  | bootable q hS hV hinc hcommit hversion =>
      by_cases hlimit : e.slotInfo.maxBootAttempts ≤ e.slotInfo.bootAttempts
      · exact hany (reboot_limit hS hinc hcommit hlimit h.sound)
          fun _ _ ht ↦ (h.toShared.rolledBack _).quiet ht.2
      · exact hany (reboot_boots hS hinc hcommit hversion (by omega) h.sound)
          fun _ _ ht ↦ (h.toShared.booted hS hV hinc hversion).quiet ht.2
  | nothing hS hV hcommit hactiveV hactiveS =>
      refine hany (reboot_idle hS hcommit) ?_
      rintro _ _ ⟨-, rfl⟩
      exact
        { sound := h.sound
          limit := h.limit
          confirmed := h.confirmed
          active := hactiveV.trans (h.confirmed.trans hactiveS.symm)
          commit := by
            change e.versions.pendingCommit = e.versions.pendingSlot.isSome
            rw [hcommit, hV]
            rfl
          trial := fun q hq ↦ absurd (hV.symm.trans hq) (by simp)
          idle := fun _ ↦ hactiveV
          same := hS.trans hV.symm
          closed := fun q hq ↦ absurd (hS.symm.trans hq) (by simp) }

theorem Dark.agrees (h : Dark e) : Agrees (RebootManager.reboot.store e) := by
  obtain ⟨_, _, hpaired⟩ := Persist.returns_run h.reboot
  exact hpaired.agrees

end Stores

/-! ## Where power is lost -/

section Cuts

variable {e : EcuStore}

/-- A cut in a program of two known writes and quiet ones. -/
theorem cut_cases {α : Type} {m : EcuM α} {i j : EcuFile} {x y : EcuStore}
    {P : α → EcuStore → Prop} (h : m.performs [(i, x), (j, y)] y.QuietWrite P e) (k : ℕ) :
    (k = 0 ∧ m.cutAfter k e = e) ∨ (k = 1 ∧ m.cutAfter k e = x) ∨
      (2 ≤ k ∧ y.Quiet (m.cutAfter k e)) := by
  match k with
  | 0 => exact Or.inl ⟨rfl, rfl⟩
  | 1 => exact Or.inr (Or.inl ⟨rfl, h.cutAfter_of_le (k := 1) (by simp)⟩)
  | k + 2 =>
      refine Or.inr (Or.inr ⟨by omega, ?_⟩)
      rcases h.cutAfter_of_ge (k := k + 2) (by simp) with heq | ⟨_, hw⟩
      · rw [heq]
        exact .refl y
      · exact hw.2

/-- The rollback of a pending slot, cut anywhere. -/
theorem rollback_cut {α : Type} {m : EcuM α} {P : α → EcuStore → Prop} {p : Slot} {reason : String}
    (h : Dark e) (hp : e.slotInfo.pendingSlot = some p)
    (hperf : m.performs
      [(.version, e.setVersions (e.versions.rollbackPending reason)),
        (.slotState, e.rolledBack reason)] (e.rolledBack reason).QuietWrite P e) (k : ℕ) :
    if k = 1 ∧ (e.slots p).incomplete = false then
      ¬Agrees (RebootManager.reboot.store (m.cutAfter k e))
    else Dark (m.cutAfter k e) := by
  split
  · rename_i htorn
    rcases cut_cases hperf k with ⟨hk, -⟩ | ⟨-, heq⟩ | ⟨hk, -⟩
    · omega
    · rw [heq]
      exact reboot_disagrees (e := e.setVersions _) h.sound hp htorn.2 rfl rfl
    · omega
  · rename_i hsafe
    rcases cut_cases hperf k with ⟨-, heq⟩ | ⟨hk, heq⟩ | ⟨-, hq⟩
    · rw [heq]
      exact h
    · have hinc : (e.slots p).incomplete = true := by
        cases hinc : (e.slots p).incomplete with
        | true => rfl
        | false => exact absurd ⟨hk, hinc⟩ hsafe
      rw [heq]
      exact ⟨⟨h.sound, h.limit, h.confirmed⟩, .abandoned ⟨p, hp, hinc⟩⟩
    · exact ((h.toShared.rolledBack reason).quiet hq).dark

theorem Dark.reboot_cut (h : Dark e) (k : ℕ) :
    (Torn e k .reboot → ¬Agrees (RebootManager.reboot.store (RebootManager.reboot.cutAfter k e))) ∧
      (¬Torn e k .reboot → Dark (RebootManager.reboot.cutAfter k e)) := by
  cases h.finding with
  | abandoned habandoned =>
      obtain ⟨p, hp, hinc⟩ := habandoned
      have hcut := rollback_cut h hp (reboot_recovers hp hinc h.sound) k
      rw [if_neg (by simp [hinc])] at hcut
      refine ⟨?_, fun _ ↦ hcut⟩
      rintro ⟨-, -, -, p', hp', hinc'⟩
      obtain rfl : p = p' := Option.some.inj (hp.symm.trans hp')
      rw [hinc] at hinc'
      cases hinc'
  | bootable q hS hV hinc hcommit hversion =>
      by_cases hlimit : e.slotInfo.maxBootAttempts ≤ e.slotInfo.bootAttempts
      · have hcut := rollback_cut h hS (reboot_limit hS hinc hcommit hlimit h.sound) k
        have htorn : Torn e k .reboot ↔ k = 1 :=
          ⟨fun ht ↦ ht.1, fun hk ↦ ⟨hk, hcommit, hlimit, q, hS, hinc⟩⟩
        rw [htorn]
        by_cases hk : k = 1
        · rw [if_pos ⟨hk, hinc⟩] at hcut
          exact ⟨fun _ ↦ hcut, fun hne ↦ absurd hk hne⟩
        · rw [if_neg fun hand ↦ hk hand.1] at hcut
          exact ⟨fun heq ↦ absurd heq hk, fun _ ↦ hcut⟩
      · refine ⟨fun ht ↦ absurd ht.2.2.1 hlimit, fun _ ↦ ?_⟩
        rcases cut_cases (reboot_boots hS hinc hcommit hversion (by omega) h.sound) k with
          ⟨-, heq⟩ | ⟨-, heq⟩ | ⟨-, hq⟩
        · rw [heq]
          exact h
        · rw [heq]
          exact ⟨⟨h.sound, h.limit, h.confirmed⟩, .bootable q hS hV hinc rfl hversion⟩
        · exact ((h.toShared.booted hS hV hinc hversion).quiet hq).dark
  | nothing hS hV hcommit hactiveV hactiveS =>
      refine ⟨?_, fun _ ↦ ?_⟩
      · rintro ⟨-, -, -, p, hp, -⟩
        exact absurd (hS.symm.trans hp) (by simp)
      · have hopened : Dark (e.setSlotInfo e.slotInfo) :=
          ⟨⟨h.sound, h.limit, h.confirmed⟩, .nothing hS hV hcommit hactiveV hactiveS⟩
        have hperf := Persist.performs_mono (reboot_idle hS hcommit) (D := fun _ t ↦ Dark t)
          (fun _ _ ↦ False.elim) fun _ _ _ ↦ trivial
        refine Persist.cutAfter_of_wp (Persist.wp_mono (hperf.returns ?_) (fun _ _ ↦ id)
          fun _ _ _ ↦ trivial) h k
        intro w hw
        rw [SlotManager.openingWrites] at hw
        split at hw
        · obtain rfl := List.mem_singleton.mp hw
          exact hopened
        · cases hw

theorem Running.pending (h : Running e) (hcommit : e.versions.pendingCommit = true) :
    ∃ p, e.slotInfo.pendingSlot = some p := by
  rcases h.slot with hpaired | ⟨p, hp, -⟩
  · rw [h.commit, ← hpaired.same] at hcommit
    exact Option.isSome_iff_exists.mp hcommit
  · exact ⟨p, hp⟩

/-- A confirmation cut between the two records. -/
theorem Running.confirm_torn (h : Running e) (normalized : String)
    (hcommit : e.versions.pendingCommit = true) :
    (e.slotInfo.activeSlot = e.slotInfo.confirmedSlot ∧ Abandoned e →
      Dark (e.setVersions (e.versions.confirm normalized))) ∧
    (¬(e.slotInfo.activeSlot = e.slotInfo.confirmedSlot ∧ Abandoned e) →
      ¬Agrees (RebootManager.reboot.store (e.setVersions (e.versions.confirm normalized)))) := by
  have hactive : (e.versions.confirm normalized).confirmedSlot = e.slotInfo.activeSlot :=
    (h.confirmed_paired normalized hcommit).confirmed
  constructor
  · rintro ⟨hsame, habandoned⟩
    exact ⟨⟨h.sound, h.limit, hactive.trans hsame⟩, .abandoned habandoned⟩
  · intro hnot
    rcases h.slot with hpaired | habandoned
    · obtain ⟨p, hp⟩ := h.pending hcommit
      exact reboot_disagrees (e := e.setVersions _) h.sound hp (hpaired.closed p hp) rfl rfl
    · obtain ⟨p, hp, hinc⟩ := id habandoned
      obtain ⟨_, _, -, hq⟩ := (reboot_recovers
        (e := e.setVersions (e.versions.confirm normalized)) hp hinc h.sound).run
      intro hagrees
      have hslots := hagrees.active
      rw [hq.versions, hq.slotInfo] at hslots
      exact hnot ⟨hactive.symm.trans hslots, habandoned⟩

theorem Running.confirm_cut {actual : String} (h : Running e)
    (hcommit : e.versions.pendingCommit = true) (k : ℕ) :
    (Torn e k (.confirm actual) →
        ¬Agrees (RebootManager.reboot.store ((PostInstallValidator.confirm actual).cutAfter k e))) ∧
      (¬Torn e k (.confirm actual) → Dark ((PostInstallValidator.confirm actual).cutAfter k e)) := by
  cases hversion : normalizeVersion actual with
  | error err =>
      have hstop : (PostInstallValidator.confirm actual).cutAfter k e = e := by
        simp [Persist.cutAfter, PostInstallValidator.confirm, VersionManager.confirmVersion,
          hversion, Persist.ofExcept, bind]
      rw [hstop]
      refine ⟨?_, fun _ ↦ h.dark⟩
      rintro ⟨-, ⟨normalized, hok⟩, -⟩
      rw [hversion] at hok
      cases hok
  | ok normalized =>
      obtain ⟨p, hp⟩ := h.pending hcommit
      have htorn := h.confirm_torn normalized hcommit
      rcases cut_cases (confirm_performs_pending hversion hp h.sound) k with
        ⟨hk, heq⟩ | ⟨hk, heq⟩ | ⟨hk, hq⟩
      · rw [heq]
        exact ⟨fun ht ↦ absurd ht.1 (by omega), fun _ ↦ h.dark⟩
      · rw [heq]
        refine ⟨fun ht ↦ htorn.2 ht.2.2, fun hsafe ↦ htorn.1 ?_⟩
        by_contra hnot
        exact hsafe ⟨hk, ⟨normalized, hversion⟩, hnot⟩
      · exact ⟨fun ht ↦ absurd ht.1 (by omega), fun _ ↦ ((h.confirmed_paired _ hcommit).quiet hq).dark⟩

theorem Running.rollback_cut (h : Running e) (hcommit : e.versions.pendingCommit = true) (k : ℕ) :
    (Torn e k .rollback →
        ¬Agrees (RebootManager.reboot.store (PostInstallValidator.rollback.cutAfter k e))) ∧
      (¬Torn e k .rollback → Dark (PostInstallValidator.rollback.cutAfter k e)) := by
  obtain ⟨p, hp⟩ := h.pending hcommit
  have hcut := Ecu.rollback_cut h.dark hp
    (rollback_performs_pending "POST_INSTALL_VALIDATION_FAILED" hp h.sound) k
  have htorn : Torn e k .rollback ↔ k = 1 ∧ (e.slots p).incomplete = false := by
    constructor
    · rintro ⟨hk, p', hp', hinc⟩
      obtain rfl : p = p' := Option.some.inj (hp.symm.trans hp')
      exact ⟨hk, hinc⟩
    · exact fun ⟨hk, hinc⟩ ↦ ⟨hk, p, hp, hinc⟩
  rw [htorn]
  split at hcut
  · rename_i hand
    exact ⟨fun _ ↦ hcut, fun hnot ↦ absurd hand hnot⟩
  · rename_i hnot
    exact ⟨fun hand ↦ absurd hand hnot, fun _ ↦ hcut⟩

end Cuts

/-! ## Installations -/

section Install

variable {e t : EcuStore} {metadata : Firmware.FirmwareImageMetadata} {payload : Bytes}
  {firmwareFile : FirmwareFile} {ecuName targetVersion normalized : String}

/-- Only the two records and the slot directories matter. -/
theorem Running.congr (h : Running e) (hV : t.versions = e.versions) (hS : t.slotInfo = e.slotInfo)
    (hslots : t.slots = e.slots) : Running t := by
  have hshared : Shared t := by
    refine ⟨fun s ↦ ?_, ?_, ?_⟩
    · rw [hslots]
      exact h.sound s
    · rw [hS]
      exact h.limit
    · rw [hV, hS]
      exact h.confirmed
  have hup : Up t := by
    refine ⟨hshared, ?_, ?_, ?_, ?_⟩
    · rw [hV, hS, h.active]
    · rw [hV, h.commit]
    · rw [hV]
      exact h.trial
    · rw [hV]
      exact h.idle
  refine ⟨hup, ?_⟩
  rcases h.slot with hpaired | ⟨p, hp, hinc⟩
  · refine Or.inl ⟨hup, by rw [hV, hS, hpaired.same], ?_⟩
    rw [hS, hslots]
    exact hpaired.closed
  · exact Or.inr ⟨p, by rw [hS, hp], by rw [hslots, hinc]⟩

/-- While the records are still the old ones, the next reboot finds what it found. -/
theorem Running.dark_flashing (h : Running e)
    (hs : Stage e e.versions e.slotInfo (Flashing (e.slots e.target)) t) : Dark t := by
  refine ⟨⟨hs.sound h.sound fun _ hd ↦ hd.sound, ?_, ?_⟩, ?_⟩
  · rw [hs.slotInfo]
    exact h.limit
  · rw [hs.versions, hs.slotInfo]
    exact h.confirmed
  rcases h.slot with hpaired | ⟨p, hp, hinc⟩
  · cases hpaired.dark.finding with
    | abandoned habandoned =>
        obtain ⟨p, hp, hinc⟩ := habandoned
        rw [hpaired.closed p hp] at hinc
        cases hinc
    | bootable q hS hV hinc hcommit hversion =>
        -- the slot on trial is active, so that it is not the target
        have hne : q ≠ e.target := by
          rw [EcuStore.target, ← h.active, (h.trial q hV).1]
          exact Slot.ne_other q
        refine .bootable q ?_ ?_ ?_ ?_ ?_
        · rw [hs.slotInfo, hS]
        · rw [hs.versions, hV]
        · rw [hs.others q hne, hinc]
        · rw [hs.versions, hcommit]
        · rw [hs.versions]
          exact hversion
    | nothing hS hV hcommit hactiveV hactiveS =>
        refine .nothing ?_ ?_ ?_ ?_ ?_
        · rw [hs.slotInfo, hS]
        · rw [hs.versions, hV]
        · rw [hs.versions, hcommit]
        · rw [hs.versions, hactiveV]
        · rw [hs.slotInfo, hactiveS]
  · refine .abandoned ⟨p, by rw [hs.slotInfo, hp], ?_⟩
    by_cases hpt : p = e.target
    · subst hpt
      exact hs.target.incomplete hinc
    · rw [hs.others p hpt, hinc]

theorem shared_of_stage {v : VersionState} {D : SlotDir → Prop} (h : Running e)
    (hs : Stage e v (stagedInfo e firmwareFile targetVersion) D t) (hD : ∀ d, D d → d.Sound)
    (hv : v.confirmedSlot = e.versions.confirmedSlot) : Shared t := by
  refine ⟨hs.sound h.sound hD, ?_, ?_⟩
  · rw [hs.slotInfo]
    exact h.limit
  · rw [hs.versions, hs.slotInfo, hv]
    exact h.confirmed

theorem pending_of_stage {v : VersionState} {D : SlotDir → Prop}
    (hs : Stage e v (stagedInfo e firmwareFile targetVersion) D t) :
    t.slotInfo.pendingSlot = some e.target := by
  rw [hs.slotInfo]
  rfl

/-- The verified image is bootable. -/
theorem bootable_of_stage {D : SlotDir → Prop} (hversion : normalized ≠ "")
    (hs : Stage e (e.versions.pend normalized (some e.target))
      (stagedInfo e firmwareFile targetVersion) D t)
    (hclosed : (t.slots e.target).incomplete = false) : Finding t := by
  refine .bootable e.target (pending_of_stage hs) ?_ hclosed ?_ ?_
  · rw [hs.versions]
    rfl
  · rw [hs.versions]
    rfl
  · rw [hs.versions]
    exact hversion

theorem Running.dark_staging {i : EcuFile} (h : Running e)
    (hw : StagingWrite e metadata payload firmwareFile targetVersion i t) : Dark t := by
  rcases hw.phase with hs | hs | ⟨normalized, hversion, hs⟩
  · exact h.dark_flashing hs
  · exact ⟨shared_of_stage h hs (fun _ hd ↦ hd.sound) rfl,
      .abandoned ⟨_, pending_of_stage hs, hs.target.incomplete⟩⟩
  · refine ⟨shared_of_stage h hs (fun _ hd ↦ hd.sound) rfl, ?_⟩
    cases hinc : (t.slots e.target).incomplete with
    | true => exact .abandoned ⟨_, pending_of_stage hs, hinc⟩
    | false => exact bootable_of_stage (normalizeVersion_ne_empty hversion) hs hinc

/-- An installation leaves a dark ECU wherever it is cut, and a running one where it ends. -/
theorem Running.install (h : Running e) :
    (install ecuName firmwareFile targetVersion).wp (fun _ t ↦ Dark t) (fun _ t ↦ Running t) e := by
  have hlegacy : ∀ u, Legacy e u → Running u := by
    rintro u ⟨installed, rfl⟩
    exact h.congr rfl rfl rfl
  apply install_wp
  · exact fun u hu ↦ (hlegacy u hu).dark
  · exact fun _ u _ hu ↦ hlegacy u hu
  · intro metadata payload u ⟨image, hdownload, hextract⟩ hu
    have hdesc := describes_of_extract hextract
    have hdown : u.downloads firmwareFile = some image := by
      obtain ⟨installed, rfl⟩ := hu
      exact hdownload
    have hrun := hlegacy u hu
    cases hversion : normalizeVersion targetVersion with
    | error err =>
        rw [Persist.wp_bind]
        refine Persist.wp_mono (stageImage_raises ecuName hrun.sound hdesc hdown
          hversion) (fun _ _ hw ↦ hrun.dark_staging hw) ?_
        rintro _ t ⟨rfl, hs⟩
        refine ⟨⟨shared_of_stage hrun hs (fun _ hd ↦ hd.sound) rfl, ?_, ?_, ?_, ?_⟩, Or.inr
          ⟨_, pending_of_stage hs, hs.target.incomplete⟩⟩
        · rw [hs.versions, hs.slotInfo]
          exact hrun.active
        · rw [hs.versions]
          exact hrun.commit
        · rw [hs.versions]
          exact hrun.trial
        · rw [hs.versions]
          exact hrun.idle
    | ok normalized =>
        have hstage := (stageImage_observes ecuName hrun.sound hdesc hdown hversion).1
        refine Persist.wp_bind_of_returns (Persist.returns_mono hstage
          (fun _ _ hw ↦ hrun.dark_staging hw) fun _ _ ↦ id) ?_
        intro _ t hs
        have hne := normalizeVersion_ne_empty hversion
        have hshared : Shared t := shared_of_stage hrun hs (fun _ hd ↦ hd.1.sound) rfl
        have hclosed := hs.target.2
        have hS : t.slotInfo.pendingSlot = some u.target := pending_of_stage hs
        have hV : t.versions.pendingSlot = some u.target := by
          rw [hs.versions]
          rfl
        have hpended : t.versions.pendingVersion ≠ "" := by
          rw [hs.versions]
          exact hne
        have hpaired : Paired (t.booted u.target) :=
          hshared.booted hS hV hclosed hpended
        have hlimit : t.slotInfo.bootAttempts < t.slotInfo.maxBootAttempts := by
          rw [hs.slotInfo]
          exact hrun.limit
        have hboot := Persist.performs_mono (reboot_boots hS hclosed
            (by rw [hs.versions]; rfl) hpended hlimit hshared.sound)
          (D := fun _ x ↦ Dark x) (fun _ _ hw ↦ (hpaired.quiet hw.2).dark) fun _ _ ↦ id
        refine Persist.wp_bind_of_returns (hboot.returns ?_) ?_
        · simp only [List.mem_cons, List.not_mem_nil, or_false, forall_eq_or_imp, forall_eq]
          exact ⟨⟨⟨hshared.sound, hshared.limit, hshared.confirmed⟩,
            .bootable _ hS hV hclosed rfl hpended⟩, hpaired.dark⟩
        · exact fun _ x hx ↦ (Persist.wp_pure _).mpr (hpaired.quiet hx.2).running

end Install

/-! ## Runs -/

/-- An ECU with and without power.  It runs complete operations, also ones that end with an
exception, and may lose power in any of them and in any reboot that follows, but not at a
torn place. -/
inductive PowerRun : (up : Bool) → EcuStore → Prop
  | fresh {m : ℕ} {e : EcuStore} (h : Fresh m e) (hm : 1 ≤ m) : PowerRun true e
  | complete {e : EcuStore} (h : PowerRun true e) (op : Operation) (hguard : op.Guarded e) :
      PowerRun true (op.run.store e)
  | lose {e : EcuStore} (h : PowerRun true e) (op : Operation) (hguard : op.Guarded e) (k : ℕ)
      (hsafe : ¬Torn e k op) : PowerRun false (op.run.cutAfter k e)
  | retry {e : EcuStore} (h : PowerRun false e) (k : ℕ) (hsafe : ¬Torn e k .reboot) :
      PowerRun false (RebootManager.reboot.cutAfter k e)
  | restart {e : EcuStore} (h : PowerRun false e) : PowerRun true (RebootManager.reboot.store e)

theorem Fresh.running {m : ℕ} {e : EcuStore} (h : Fresh m e) (hm : 1 ≤ m) : Running e := by
  have hS : e.slotInfo = { maxBootAttempts := m } := h.slotInfo
  have hV : e.versions = {} := h.versions
  have hup : Up e :=
    { sound := h.sound
      limit := by rw [hS]; exact hm
      confirmed := by rw [hS, hV]
      active := by rw [hS, hV]
      commit := by rw [hV]; rfl
      trial := by rw [hV]; exact fun _ hq ↦ absurd hq.symm (Option.some_ne_none _)
      idle := by rw [hV]; exact fun _ ↦ rfl }
  exact Paired.running ⟨hup, by rw [hS, hV],
    by rw [hS]; exact fun _ hq ↦ absurd hq.symm (Option.some_ne_none _)⟩

/-- A complete operation leaves the ECU up. -/
theorem Running.complete {e : EcuStore} (h : Running e) (op : Operation) (hguard : op.Guarded e) :
    Running (op.run.store e) := by
  cases op with
  | download firmwareFile content => exact h.congr rfl rfl rfl
  | install ecuName firmwareFile targetVersion =>
      rw [Operation.run, Persist.store_discard]
      exact h.install.2
  | reboot =>
      rw [Operation.run, Persist.store_discard]
      obtain ⟨_, _, hpaired⟩ := Persist.returns_run h.dark.reboot
      exact hpaired.running
  | confirm actual =>
      cases hversion : normalizeVersion actual with
      | error err =>
          have hstop : (Operation.confirm actual).run.store e = e := by
            simp [Operation.run, Persist.store, PostInstallValidator.confirm,
              VersionManager.confirmVersion, hversion, Persist.ofExcept, bind]
          rw [hstop]
          exact h
      | ok normalized =>
          obtain ⟨_, _, hq⟩ := (confirm_performs hversion h.sound).run
          exact ((h.confirmed_paired _ hguard).quiet hq).running
  | rollback =>
      obtain ⟨_, _, hq⟩ := (rollback_performs "POST_INSTALL_VALIDATION_FAILED" h.sound).run
      exact ((h.toShared.rolledBack _).quiet hq).running

/-- Power lost in an operation: the torn places are exactly those that the next reboot
does not repair. -/
theorem Running.cut {e : EcuStore} (h : Running e) (op : Operation) (hguard : op.Guarded e)
    (k : ℕ) :
    (Torn e k op → ¬Agrees (RebootManager.reboot.store (op.run.cutAfter k e))) ∧
      (¬Torn e k op → Dark (op.run.cutAfter k e)) := by
  cases op with
  | download firmwareFile content =>
      refine ⟨False.elim, fun _ ↦ ?_⟩
      have hdown : Running ((Operation.download firmwareFile content).run.store e) :=
        h.congr rfl rfl rfl
      exact Persist.cutAfter_of_wp (P := Dark) ((Persist.wp_write _ _).mpr ⟨hdown.dark, trivial⟩)
        h.dark k
  | install ecuName firmwareFile targetVersion =>
      refine ⟨False.elim, fun _ ↦ ?_⟩
      rw [Operation.run, Persist.cutAfter_discard]
      exact Persist.cutAfter_of_wp (Persist.wp_mono h.install (fun _ _ ↦ id) fun _ _ _ ↦ trivial)
        h.dark k
  | reboot =>
      rw [Operation.run, Persist.cutAfter_discard]
      exact h.dark.reboot_cut k
  | confirm actual => exact h.confirm_cut hguard k
  | rollback => exact h.rollback_cut hguard k

theorem PowerRun.inv {up : Bool} {e : EcuStore} (h : PowerRun up e) :
    if up then Running e else Dark e := by
  induction h with
  | fresh h hm => exact h.running hm
  | complete h op hguard ih => exact Running.complete ih op hguard
  | lose h op hguard k hsafe ih => exact (Running.cut ih op hguard k).2 hsafe
  | retry h k hsafe ih => exact (Dark.reboot_cut ih k).2 hsafe
  | restart h ih =>
      obtain ⟨_, _, hpaired⟩ := Persist.returns_run (Dark.reboot ih)
      exact hpaired.running

/-- Crash consistency of the two records: along runs that lose power at no torn place the
next complete reboot makes the records agree, and after one more loss of power it does so
exactly if that place is not torn, either. -/
theorem records_agree_iff_not_torn (up : Bool) (e : EcuStore) (h : PowerRun up e) :
    (up = false → Agrees (RebootManager.reboot.store e)) ∧
      ∀ op k, (if up then op.Guarded e else op = .reboot) →
        (Agrees (RebootManager.reboot.store (op.run.cutAfter k e)) ↔ ¬Torn e k op) := by
  have hinv := h.inv
  constructor
  · rintro rfl
    exact Dark.agrees hinv
  · intro op k hop
    have hcut : (Torn e k op → ¬Agrees (RebootManager.reboot.store (op.run.cutAfter k e))) ∧
        (¬Torn e k op → Dark (op.run.cutAfter k e)) := by
      cases up with
      | true => exact Running.cut hinv op hop k
      | false =>
          obtain rfl : op = .reboot := hop
          rw [Operation.run, Persist.cutAfter_discard]
          exact Dark.reboot_cut hinv k
    exact ⟨fun hagrees htorn ↦ hcut.1 htorn hagrees, fun hsafe ↦ (hcut.2 hsafe).agrees⟩

/-- A delivered ECU loses power in its first installation, then in the reboot. -/
theorem records_agree_delivered :
    let e := (Operation.install "bcm" bcmFirmware "2.0.0").run.cutAfter 12 deliveredEcu
    Agrees (RebootManager.reboot.store (Operation.reboot.run.cutAfter 2 e)) := by
  have hlost : PowerRun false ((Operation.install "bcm" bcmFirmware "2.0.0").run.cutAfter 12
      deliveredEcu) := .lose (.fresh fresh_deliveredEcu le_rfl)
        (.install "bcm" bcmFirmware "2.0.0") trivial 12 id
  exact ((records_agree_iff_not_torn false _ hlost).2 .reboot 2 rfl).mpr
    fun htorn ↦ absurd htorn.1 (by decide)

/-- Power lost behind `confirm_version` of the first confirmation. -/
theorem records_torn_by_confirm :
    ∃ e, PowerRun true e ∧ e.versions.pendingCommit = true ∧
      ¬Agrees (RebootManager.reboot.store ((PostInstallValidator.confirm "2.0.0").cutAfter 1 e)) := by
  have hup : PowerRun true ((Operation.install "bcm" bcmFirmware "2.0.0").run.store deliveredEcu) :=
    .complete (.fresh fresh_deliveredEcu le_rfl) (.install "bcm" bcmFirmware "2.0.0") trivial
  rw [Operation.run, Persist.store_discard] at hup
  obtain ⟨_, _, hrep⟩ := Persist.returns_run installed_deliveredEcu.1
  have hrun : Running _ := hup.inv
  refine ⟨_, hup, hrep.commit, (hrun.confirm_cut hrep.commit 1).1 ⟨rfl, ⟨"2.0.0", rfl⟩, ?_⟩⟩
  rintro ⟨hsame, -⟩
  rw [hrep.activeS, hrep.confirmedS] at hsame
  cases hsame

end VehicleOta.Ecu
