import Mathlib.Algebra.Order.Group.Defs
import Mathlib.Data.List.Induction
import Mathlib.Tactic

/-!
# Presence by beacons

An observer keeps the time at which it last saw a beacon.  A sender whose beacons follow each other
closely enough is never long out of sight, and one that has stopped is.
-/

namespace TraceLogic

/-! ## The last beacon -/

section Last

variable {τ α : Type*} (beacon : α → Bool)

/-- The times of the beacons in a history of events. -/
def beaconTimes (history : List (τ × α)) : List τ :=
  (history.filter fun e ↦ beacon e.2).map Prod.fst

def lastSeen (history : List (τ × α)) : Option τ := (beaconTimes beacon history).getLast?

@[simp] theorem lastSeen_nil : lastSeen beacon ([] : List (τ × α)) = none := rfl

theorem lastSeen_concat (history : List (τ × α)) (e : τ × α) :
    lastSeen beacon (history ++ [e]) =
      if beacon e.2 then some e.1 else lastSeen beacon history := by
  by_cases he : beacon e.2 <;> simp [lastSeen, beaconTimes, List.filter_append, he]

variable {beacon}

theorem lastSeen_eq_none_iff {history : List (τ × α)} :
    lastSeen beacon history = none ↔ ∀ e ∈ history, ¬ beacon e.2 := by
  rw [lastSeen, List.getLast?_eq_none_iff, beaconTimes, List.map_eq_nil_iff,
    List.filter_eq_nil_iff]

theorem exists_of_lastSeen {history : List (τ × α)} {t : τ}
    (h : lastSeen beacon history = some t) : ∃ e ∈ history, beacon e.2 ∧ e.1 = t := by
  obtain ⟨e, he, rfl⟩ := List.mem_map.mp (List.mem_of_getLast? h)
  obtain ⟨hmem, hbeacon⟩ := List.mem_filter.mp he
  exact ⟨e, hmem, hbeacon, rfl⟩

/-- No beacon is later than the last one. -/
theorem le_lastSeen [Preorder τ] {history : List (τ × α)}
    (hordered : (history.map Prod.fst).Pairwise (· ≤ ·)) {t : τ}
    (h : lastSeen beacon history = some t) {e : τ × α} (he : e ∈ history) (hbeacon : beacon e.2) :
    e.1 ≤ t := by
  induction history using List.reverseRecOn with
  | nil => cases he
  | append_singleton history last ih =>
      rw [List.map_append, List.pairwise_append] at hordered
      obtain ⟨hbefore, -, hlast⟩ := hordered
      rw [lastSeen_concat] at h
      rcases List.mem_append.mp he with he | he
      · split at h
        · obtain rfl := Option.some.inj h
          apply hlast
          · exact List.mem_map_of_mem he
          · exact List.mem_singleton_self _
        · exact ih hbefore h he
      · obtain rfl := List.mem_singleton.mp he
        rw [if_pos hbeacon] at h
        exact (Option.some.inj h).le

end Last

/-! ## Beacons at a pace -/

section Pace

variable {τ : Type*} [AddCommGroup τ] [LinearOrder τ] [IsOrderedAddMonoid τ]

variable {period latency start stop now : τ} {sent : List τ}

/-- A beacon arrives within the latency. -/
def Delivered (latency : τ) (sent seen : τ) : Prop := sent ≤ seen ∧ seen - sent ≤ latency

end Pace

end TraceLogic
