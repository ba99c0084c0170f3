import VehicleOta.Graph.Acyclic

/-!
# Depth-first search for cycles

A search that keeps the nodes on its path and the nodes it has left.  It reports an error where it
comes back to its path, and returns at once from a node that it has left.  It finds a cycle if and
only if there is one.
-/

namespace DepthFirstLogic

open KahnLogic Relation

variable {α ε : Type*}

structure State (α ε : Type*) where
  visiting : List α
  visited : List α
  errors : List ε

section Search

variable [DecidableEq α]

def State.enter (s : State α ε) (node : α) : State α ε :=
  { s with visiting := node :: s.visiting }

def State.leave (s : State α ε) (node : α) : State α ε :=
  { s with visiting := s.visiting.erase node, visited := s.visited ++ [node] }

def State.found (s : State α ε) (error : ε) : State α ε := { s with errors := s.errors ++ [error] }

/-- A visit of `node` at the end of `path`, to a depth below the fuel. -/
def visit (next : α → List α) (report : List α → α → ε) :
    (fuel : ℕ) → (node : α) → (path : List α) → State α ε → Option (State α ε)
  | 0, _, _, _ => none
  | fuel + 1, node, path, s =>
      if node ∈ s.visiting then some (s.found (report path node))
      else if node ∈ s.visited then some s
      else ((next node).foldlM (fun s other ↦ visit next report fuel other (path ++ [node]) s)
        (s.enter node)).map fun s ↦ s.leave node

end Search

/-- `other` is one of the nodes behind `node`. -/
def Behind (next : α → List α) (other node : α) : Prop := other ∈ next node

/-- What visits of `nodes` make of a state. -/
structure Explored (next : α → List α) (nodes : List α) (s t : State α ε) : Prop where
  visiting : t.visiting = s.visiting
  visited : s.visited ⊆ t.visited
  errors : s.errors <+: t.errors
  /-- Nothing is reported as long as the path leads to the nodes and there is no cycle. -/
  sound : Acyclic (Behind next) →
    (∀ v ∈ s.visiting, ∀ node ∈ nodes, TransGen (Behind next) node v) → t.errors = s.errors
  /-- Without a report, every node is left behind the nodes that it leads to. -/
  complete : t.errors = [] → ParentsFirst (Behind next) s.visited →
    ParentsFirst (Behind next) t.visited ∧ ∀ node ∈ nodes, node ∈ t.visited

namespace Explored

variable {next : α → List α} {nodes : List α} {node : α} {s t u : State α ε}

theorem nil : Explored next [] s s where
  visiting := rfl
  visited := List.Subset.refl _
  errors := List.prefix_rfl
  sound _ _ := rfl
  complete _ h := ⟨h, fun _ hnode ↦ absurd hnode List.not_mem_nil⟩

theorem cons (hfirst : Explored next [node] s t) (hrest : Explored next nodes t u) :
    Explored next (node :: nodes) s u where
  visiting := hrest.visiting.trans hfirst.visiting
  visited := List.Subset.trans hfirst.visited hrest.visited
  errors := hfirst.errors.trans hrest.errors
  sound hacyclic hpath := by
    have hpath' : ∀ v ∈ t.visiting, ∀ other ∈ nodes, TransGen (Behind next) other v := by
      intro v hv other hother
      rw [hfirst.visiting] at hv
      exact hpath v hv other (List.mem_cons_of_mem node hother)
    rw [hrest.sound hacyclic hpath']
    refine hfirst.sound hacyclic fun v hv other hother ↦ ?_
    rw [List.mem_singleton.mp hother]
    exact hpath v hv node List.mem_cons_self
  complete hnone hs := by
    have hprefix := hrest.errors
    rw [hnone, List.prefix_nil] at hprefix
    obtain ⟨ht, hnode⟩ := hfirst.complete hprefix hs
    obtain ⟨hu, hnodes⟩ := hrest.complete hnone ht
    refine ⟨hu, fun other hother ↦ ?_⟩
    rcases List.mem_cons.mp hother with rfl | hother
    · exact hrest.visited (hnode other (List.mem_singleton_self other))
    · exact hnodes other hother

/-- A node on the path is a cycle. -/
theorem found (hnode : node ∈ s.visiting) (error : ε) : Explored next [node] s (s.found error) where
  visiting := rfl
  visited := List.Subset.refl _
  errors := List.prefix_append _ _
  sound hacyclic hpath :=
    absurd (hpath node hnode node (List.mem_singleton_self node)) (hacyclic node)
  complete hnone _ := absurd hnone (List.append_ne_nil_of_right_ne_nil _ (List.cons_ne_nil _ _))

theorem seen (hnode : node ∈ s.visited) : Explored next [node] s s where
  visiting := rfl
  visited := List.Subset.refl _
  errors := List.prefix_rfl
  sound _ _ := rfl
  complete _ hs := by
    refine ⟨hs, fun other hother ↦ ?_⟩
    rw [List.mem_singleton.mp hother]
    exact hnode

/-- A node is left when the nodes that it leads to have been visited. -/
theorem leave [DecidableEq α] (h : Explored next (next node) (s.enter node) t) :
    Explored next [node] s (t.leave node) where
  visiting := by
    rw [State.leave, h.visiting, State.enter, List.erase_cons_head]
  visited := List.Subset.trans h.visited (List.subset_append_left _ _)
  errors := h.errors
  sound hacyclic hpath := by
    refine h.sound hacyclic fun v hv other hother ↦ ?_
    rcases List.mem_cons.mp hv with rfl | hv
    · exact .single hother
    · exact .head hother (hpath v hv node (List.mem_singleton_self node))
  complete hnone hs := by
    obtain ⟨ht, hnext⟩ := h.complete hnone hs
    refine ⟨parentsFirst_concat ht hnext, fun other hother ↦ ?_⟩
    exact List.mem_append_right _ hother

end Explored

section Search

variable {next : α → List α} {report : List α → α → ε} {s t : State α ε}

/-- A loop whose rounds keep an invariant and succeed under it succeeds. -/
theorem exists_foldlM {σ β : Type*} {f : σ → β → Option σ} {I : σ → Prop}
    (hstep : ∀ s x, I s → ∃ t, f s x = some t ∧ I t) (xs : List β) {s : σ} (h : I s) :
    ∃ t, xs.foldlM f s = some t ∧ I t := by
  induction xs generalizing s with
  | nil => exact ⟨s, rfl, h⟩
  | cons x xs ih =>
      obtain ⟨u, hu, hI⟩ := hstep s x h
      obtain ⟨t, ht, hIt⟩ := ih hI
      refine ⟨t, ?_, hIt⟩
      rw [List.foldlM_cons, hu]
      exact ht

theorem explored_foldlM {f : State α ε → α → Option (State α ε)}
    (hf : ∀ s node t, f s node = some t → Explored next [node] s t) {nodes : List α}
    (h : nodes.foldlM f s = some t) : Explored next nodes s t := by
  induction nodes generalizing s with
  | nil =>
      obtain rfl := Option.some.inj h
      exact .nil
  | cons node nodes ih =>
      rw [List.foldlM_cons] at h
      obtain ⟨u, hu, hrest⟩ := Option.bind_eq_some_iff.mp h
      exact (hf s node u hu).cons (ih hrest)

variable [DecidableEq α]

theorem explored_visit {fuel : ℕ} {node : α} {path : List α}
    (h : visit next report fuel node path s = some t) : Explored next [node] s t := by
  induction fuel generalizing node path s t with
  | zero => cases h
  | succ fuel ih =>
      unfold visit at h
      split at h
      · rename_i hnode
        obtain rfl := Option.some.inj h
        exact .found hnode _
      · split at h
        · rename_i hnode
          obtain rfl := Option.some.inj h
          exact .seen hnode
        · obtain ⟨u, hu, rfl⟩ := Option.map_eq_some_iff.mp h
          exact (explored_foldlM (fun s node t ht ↦ ih ht) hu).leave

/-- A path holds nodes that lead on, each once, and one more node. -/
theorem exists_visit {keys : List α} (hkeys : ∀ node, node ∉ keys → next node = []) {fuel : ℕ}
    {node : α} {path : List α} (hfuel : (keys.filter (· ∉ s.visiting)).length < fuel) :
    ∃ t, visit next report fuel node path s = some t := by
  induction fuel generalizing node path s with
  | zero => exact absurd hfuel (Nat.not_lt_zero _)
  | succ fuel ih =>
      unfold visit
      split
      · exact ⟨_, rfl⟩
      rename_i hnode
      split
      · exact ⟨_, rfl⟩
      by_cases hkey : node ∈ keys
      · have hless : (keys.filter (· ∉ (s.enter node).visiting)).length <
            (keys.filter (· ∉ s.visiting)).length := by
          have hfilter : keys.filter (· ∉ (s.enter node).visiting) =
              (keys.filter (· ∉ s.visiting)).filter (· ≠ node) := by
            rw [List.filter_filter]
            exact List.filter_congr fun k _ ↦ by simp [State.enter]
          rw [hfilter]
          refine List.length_filter_lt_length_iff_exists.mpr ⟨node, ?_, by simp⟩
          exact List.mem_filter.mpr ⟨hkey, by simpa using hnode⟩
        have hstep : ∀ (u : State α ε) (other : α), u.visiting = (s.enter node).visiting →
            ∃ t, visit next report fuel other (path ++ [node]) u = some t ∧
              t.visiting = (s.enter node).visiting := by
          intro u other hu
          obtain ⟨t, ht⟩ := @ih u other (path ++ [node]) (by rw [hu]; omega)
          exact ⟨t, ht, (explored_visit ht).visiting.trans hu⟩
        obtain ⟨t, ht, -⟩ := exists_foldlM hstep (next node) rfl
        exact ⟨t.leave node, Option.map_eq_some_iff.mpr ⟨t, ht, rfl⟩⟩
      · rw [hkeys node hkey]
        exact ⟨_, rfl⟩

/-- A search from all nodes that lead on reports nothing if and only if there is no cycle. -/
theorem search_finds_cycle (report : List α → α → ε) {keys : List α}
    (hkeys : ∀ node, node ∉ keys → next node = []) {fuel : ℕ} (hfuel : keys.length < fuel) :
    ∃ t : State α ε,
      keys.foldlM (fun s node ↦ visit next report fuel node [] s) ⟨[], [], []⟩ = some t ∧
      (t.errors = [] ↔ Acyclic (Behind next)) := by
  have hstep : ∀ (u : State α ε) (node : α), u.visiting = [] →
      ∃ t, visit next report fuel node [] u = some t ∧ t.visiting = [] := by
    intro u node hu
    have hle : (keys.filter (· ∉ u.visiting)).length ≤ keys.length := List.length_filter_le _ _
    obtain ⟨t, ht⟩ : ∃ t, visit next report fuel node [] u = some t :=
      exists_visit hkeys (hle.trans_lt hfuel)
    exact ⟨t, ht, (explored_visit ht).visiting.trans hu⟩
  obtain ⟨t, ht, -⟩ := exists_foldlM hstep keys (s := ⟨[], [], []⟩) rfl
  have hexplored : Explored next keys ⟨[], [], []⟩ t :=
    explored_foldlM (fun s node t h ↦ explored_visit h) ht
  refine ⟨t, ht, fun hnone ↦ ?_, fun hacyclic ↦ ?_⟩
  · obtain ⟨hfirst, hall⟩ := hexplored.complete hnone fun before c after heq ↦ absurd heq (by simp)
    refine hfirst.acyclic fun other node hbehind ↦ hall node ?_
    by_contra hnot
    rw [Behind, hkeys node hnot] at hbehind
    exact List.not_mem_nil hbehind
  · exact hexplored.sound hacyclic fun v hv ↦ absurd hv List.not_mem_nil

end Search

end DepthFirstLogic
