import VehicleOta.Common.CanonicalJson

/-!
# What is read can be written

Every value that `json.loads` returns is one that `json.dumps` writes and `json.loads` reads back:
its integers are short enough, and no key occurs twice in a dictionary of it.
-/

namespace VehicleOta.Json

variable {float : List Char → Json} {fuel : ℕ} {text rest : List Char} {x : Json}

theorem printable_scanInteger {sign digits : List Char}
    (h : scanInteger sign digits text = .ok (x, rest)) : Printable float x := by
  rw [scanInteger] at h
  cases hdigits : intOfDigits digits with
  | error e =>
      rw [hdigits] at h
      cases h
  | ok n =>
      rw [hdigits] at h
      obtain ⟨rfl, -⟩ := Prod.mk.inj (Except.ok.inj h)
      have hlength := length_digitsOf_of_intOfDigits hdigits
      apply Printable.int
      split
      · exact hlength
      · rwa [Int.natAbs_neg]

theorem printable_scanConstant (h : scanConstant text = some (x, rest)) : Printable float x := by
  obtain ⟨constant, hmem, hfound⟩ := List.exists_of_findSome?_eq_some h
  obtain ⟨rest', -, heq⟩ := Option.map_eq_some_iff.mp hfound
  obtain ⟨rfl, -⟩ := Prod.mk.inj heq
  simp only [constants, List.mem_cons, List.not_mem_nil, or_false] at hmem
  rcases hmem with rfl | rfl | rfl | rfl | rfl | rfl
  · exact .null
  · exact .bool true
  · exact .bool false
  · exact .nan
  · exact .infinity false
  · exact .infinity true

/-- A later entry of a key replaces an earlier one. -/
theorem printable_ofPairs {es : List (String × Json)} (h : ∀ e ∈ es, Printable float e.2) :
    Printable float (dict (Dict.ofPairs es).entries) := by
  apply Printable.dict
  · exact (Dict.ofPairs es).nodup
  · intro e he
    exact h e (Dict.mem_of_get?_ofPairs (((Dict.ofPairs es).get?_eq_some_iff e.1 e.2).mpr he))

section Float

variable (hfloat : ∀ text, Printable float (float text))

include hfloat

theorem printable_scanNumber (h : scanNumber float text = .ok (x, rest)) : Printable float x := by
  rw [scanNumber] at h
  dsimp only at h
  -- the digits start with a zero or not, and the number is an integer or not
  split_ifs at h
  · exact printable_scanInteger h
  · exact (Prod.mk.inj (Except.ok.inj h)).1 ▸ hfloat _
  · exact printable_scanInteger h
  · exact (Prod.mk.inj (Except.ok.inj h)).1 ▸ hfloat _

theorem printable_scanAtom (h : scanAtom float text = .ok (x, rest)) : Printable float x := by
  rw [scanAtom] at h
  cases hconstant : scanConstant text with
  | some found =>
      rw [hconstant] at h
      obtain rfl := Except.ok.inj h
      exact printable_scanConstant hconstant
  | none =>
      rw [hconstant] at h
      exact printable_scanNumber hfloat h

/-- What the three readers return at a depth of the recursion. -/
structure ReadsPrintable (float : List Char → Json) (fuel : ℕ) : Prop where
  value : ∀ {text x rest}, scanValue float fuel text = .ok (x, rest) → Printable float x
  items : ∀ {text xs rest}, scanItems float fuel text = .ok (xs, rest) →
    ∀ x ∈ xs, Printable float x
  entries : ∀ {text es rest}, scanEntries float fuel text = .ok (es, rest) →
    ∀ e ∈ es, Printable float e.2

omit hfloat in
theorem ok_of_bind {α β : Type} {r : Except ReadError α} {f : α → Except ReadError β} {b : β}
    (h : (r >>= f) = .ok b) : ∃ a, r = .ok a ∧ f a = .ok b := by
  cases r with
  | error e => cases h
  | ok a => exact ⟨a, rfl, h⟩

theorem ReadsPrintable.scanValue (ih : ReadsPrintable float fuel)
    (h : scanValue float (fuel + 1) text = .ok (x, rest)) : Printable float x := by
  unfold Json.scanValue at h
  split at h
  · obtain ⟨s, -, hs⟩ := ok_of_bind h
    obtain ⟨rfl, -⟩ := Prod.mk.inj (Except.ok.inj hs)
    exact .str s.1
  · split at h
    · obtain ⟨rfl, -⟩ := Prod.mk.inj (Except.ok.inj h)
      exact .list (List.forall_mem_nil _)
    · obtain ⟨xs, hxs, hlist⟩ := ok_of_bind h
      obtain ⟨rfl, -⟩ := Prod.mk.inj (Except.ok.inj hlist)
      exact .list (ih.items hxs)
  · split at h
    · obtain ⟨rfl, -⟩ := Prod.mk.inj (Except.ok.inj h)
      exact .dict List.nodup_nil (List.forall_mem_nil _)
    · obtain ⟨es, hes, hdict⟩ := ok_of_bind h
      obtain ⟨rfl, -⟩ := Prod.mk.inj (Except.ok.inj hdict)
      exact printable_ofPairs (ih.entries hes)
  · exact printable_scanAtom hfloat h

omit hfloat in
theorem ReadsPrintable.scanItems (ih : ReadsPrintable float fuel) {xs : List Json}
    (h : scanItems float (fuel + 1) text = .ok (xs, rest)) : ∀ x ∈ xs, Printable float x := by
  rw [Json.scanItems] at h
  obtain ⟨first, hfirst, hbehind⟩ := ok_of_bind h
  have hx := ih.value hfirst
  dsimp only at hbehind
  split at hbehind
  · obtain ⟨rfl, -⟩ := Prod.mk.inj (Except.ok.inj hbehind)
    exact List.forall_mem_singleton.mpr hx
  · obtain ⟨later, hlater, hlist⟩ := ok_of_bind hbehind
    obtain ⟨rfl, -⟩ := Prod.mk.inj (Except.ok.inj hlist)
    exact List.forall_mem_cons.mpr ⟨hx, ih.items hlater⟩
  · cases hbehind

omit hfloat in
theorem ReadsPrintable.scanEntries (ih : ReadsPrintable float fuel) {es : List (String × Json)}
    (h : scanEntries float (fuel + 1) text = .ok (es, rest)) : ∀ e ∈ es, Printable float e.2 := by
  unfold Json.scanEntries at h
  split at h
  · obtain ⟨key, -, hcolon⟩ := ok_of_bind h
    dsimp only at hcolon
    split at hcolon
    · obtain ⟨value, hvalue, hbehind⟩ := ok_of_bind hcolon
      have hx := ih.value hvalue
      split at hbehind
      · obtain ⟨rfl, -⟩ := Prod.mk.inj (Except.ok.inj hbehind)
        exact List.forall_mem_singleton.mpr hx
      · obtain ⟨later, hlater, hdict⟩ := ok_of_bind hbehind
        obtain ⟨rfl, -⟩ := Prod.mk.inj (Except.ok.inj hdict)
        exact List.forall_mem_cons.mpr ⟨hx, ih.entries hlater⟩
      · cases hbehind
    · cases hcolon
  · cases h

/-- Induction on the depth, one lemma for each reader. -/
theorem readsPrintable (fuel : ℕ) : ReadsPrintable float fuel := by
  induction fuel with
  | zero =>
      constructor
      · intro text x rest h
        rw [Json.scanValue] at h
        cases h
      · intro text xs rest h
        rw [Json.scanItems] at h
        cases h
      · intro text es rest h
        rw [Json.scanEntries] at h
        cases h
  | succ fuel ih => exact ⟨ih.scanValue hfloat, ih.scanItems, ih.scanEntries⟩

/-- What was read can be written and read again. -/
theorem Printable.of_loads (h : loads float text = .ok x) : Printable float x := by
  obtain ⟨found, hfound, hrest⟩ := ok_of_bind h
  dsimp only at hrest
  split at hrest
  · obtain rfl := Except.ok.inj hrest
    exact (readsPrintable hfloat _).value hfound
  · cases hrest

end Float

end VehicleOta.Json
