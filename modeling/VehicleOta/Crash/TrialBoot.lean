import Mathlib.Tactic

/-!
# Trial boots

An updater with a confirmed image and at most one image on trial.  A staged image boots at
once; every further boot counts, and the boot behind the last allowed one drops the trial.
-/

namespace TrialBoot

variable {σ ν : Type*}

structure Trial (σ ν : Type*) where
  slot : σ
  version : ν
  boots : ℕ

structure State (σ ν : Type*) where
  confirmedSlot : σ
  confirmedVersion : ν
  trial : Option (Trial σ ν)

inductive Op (σ ν : Type*) where
  | stage (slot : σ) (version : ν)
  | boot
  | confirm (version : ν)
  | reject

namespace State

def activeSlot (a : State σ ν) : σ :=
  match a.trial with
  | some t => t.slot
  | none => a.confirmedSlot

def currentVersion (a : State σ ν) : ν :=
  match a.trial with
  | some t => t.version
  | none => a.confirmedVersion

/-- One operation, with at most `m` boots of an image on trial. -/
def step (m : ℕ) (a : State σ ν) : Op σ ν → State σ ν
  | .stage slot version => { a with trial := some ⟨slot, version, 1⟩ }
  | .boot =>
      match a.trial with
      | none => a
      | some t =>
          if m ≤ t.boots then { a with trial := none }
          else { a with trial := some { t with boots := t.boots + 1 } }
  | .confirm version =>
      match a.trial with
      | none => a
      | some t => ⟨t.slot, version, none⟩
  | .reject => { a with trial := none }

/-- The boot behind the last allowed one returns to the confirmed image. -/
theorem step_boot_of_exhausted {m : ℕ} {a : State σ ν} {t : Trial σ ν} (ht : a.trial = some t)
    (h : m ≤ t.boots) : a.step m .boot = { a with trial := none } := by
  simp [step, ht, h]

end State

end TrialBoot
