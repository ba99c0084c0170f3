import Mathlib.Data.List.Induction
import Mathlib.Data.List.Nodup
import Mathlib.Tactic

/-!
# Bytes, slices, exceptions and dictionaries

The part of the Python data model that the translated functions use.
-/

namespace VehicleOta

/-- A `bytes` value. -/
abbrev Bytes := List UInt8

/-- The exception classes raised on the modelled paths, with their message.  The directories in
front of a file that an ECU does not find are left out of the message. -/
inductive PyError where
  | valueError (message : String)
  | runtimeError (message : String)
  | fileNotFoundError (message : String)
  | keyError (key : String)
  | typeError (message : String)
  | attributeError (message : String)
  | structError (message : String)
  | timeoutError (message : String)
  | overflowError (message : String)
  | indexError (message : String)
  deriving DecidableEq, Repr

/-- `if c: raise e` -/
def raiseIf (c : Prop) [Decidable c] (e : PyError) : Except PyError Unit :=
  if c then .error e else .ok ()

theorem raiseIf_eq_ok {c : Prop} [Decidable c] {e : PyError} {u : Unit} :
    raiseIf c e = .ok u ↔ ¬ c := by
  unfold raiseIf
  split <;> simp [*]

theorem bind_eq_ok {α β : Type} {x : Except PyError α} {f : α → Except PyError β} {b : β} :
    (x >>= f) = .ok b ↔ ∃ a, x = .ok a ∧ f a = .ok b := by
  cases x <;> simp [bind, Except.bind]

/-! ## Loops that may raise -/

section Loops

variable {α β σ : Type}

/-- What every round of a loop preserves holds behind it of the elements seen so far. -/
theorem foldlM_invariant {f : σ → α → Except PyError σ} {I : List α → σ → Prop}
    (hstep : ∀ done s a s', I done s → f s a = .ok s' → I (done ++ [a]) s')
    {xs done : List α} {s s' : σ} (h : I done s) (hfold : xs.foldlM f s = .ok s') :
    I (done ++ xs) s' := by
  induction xs generalizing done s with
  | nil =>
      obtain rfl := Except.ok.inj hfold
      rwa [List.append_nil]
  | cons x xs ih =>
      rw [List.foldlM_cons] at hfold
      obtain ⟨between, hx, hrest⟩ := bind_eq_ok.mp hfold
      have hlater := ih (hstep done s x between h hx) hrest
      rwa [List.append_assoc, List.singleton_append] at hlater

theorem mapM_eq_ok_map {f : α → Except PyError β} {g : α → β} {xs : List α}
    (h : ∀ x ∈ xs, f x = .ok (g x)) : xs.mapM f = .ok (xs.map g) := by
  induction xs with
  | nil => rfl
  | cons x xs ih =>
      rw [List.mapM_cons, h x List.mem_cons_self, ih fun y hy ↦ h y (List.mem_cons_of_mem x hy)]
      rfl

theorem exists_mapM_eq_ok {f : α → Except PyError β} {P : α → β → Prop} {xs : List α}
    (h : ∀ x ∈ xs, ∃ y, f x = .ok y ∧ P x y) : ∃ ys, xs.mapM f = .ok ys ∧ List.Forall₂ P xs ys := by
  induction xs with
  | nil => exact ⟨[], rfl, .nil⟩
  | cons x xs ih =>
      obtain ⟨y, hy, hp⟩ := h x List.mem_cons_self
      obtain ⟨ys, hys, hrest⟩ := ih fun z hz ↦ h z (List.mem_cons_of_mem x hz)
      refine ⟨y :: ys, ?_, .cons hp hrest⟩
      rw [List.mapM_cons, hy, hys]
      rfl

theorem exists_of_mapM_eq_ok {f : α → Except PyError β} {xs : List α} {ys : List β}
    (h : xs.mapM f = .ok ys) {x : α} (hx : x ∈ xs) : ∃ y, f x = .ok y := by
  induction xs generalizing ys with
  | nil => cases hx
  | cons first xs ih =>
      rw [List.mapM_cons] at h
      obtain ⟨y, hy, hrest⟩ := bind_eq_ok.mp h
      obtain ⟨ys', hys', -⟩ := bind_eq_ok.mp hrest
      rcases List.mem_cons.mp hx with rfl | hx
      · exact ⟨y, hy⟩
      · exact ih hys' hx

end Loops

/-! ## Bytes -/

/-- `int.from_bytes(data, "big")` -/
def intFromBytes (data : Bytes) : ℕ :=
  data.foldl (fun n b ↦ 256 * n + b.toNat) 0

/-- `n.to_bytes(length, "big")` for `n` below `256 ^ length`. -/
def intToBytes : (length : ℕ) → (n : ℕ) → Bytes
  | 0, _ => []
  | length + 1, n => intToBytes length (n / 256) ++ [UInt8.ofNat n]

/-- `n.to_bytes(length, "big")` -/
def toBytes (length n : ℕ) : Except PyError Bytes :=
  if n < 256 ^ length then .ok (intToBytes length n)
  else .error (.overflowError "int too big to convert")

/-- One element of `bytes([..])`. -/
def byteOf (n : ℤ) : Except PyError UInt8 :=
  if 0 ≤ n ∧ n < 256 then .ok (UInt8.ofNat n.toNat)
  else .error (.valueError "bytes must be in range(0, 256)")

/-- `data[i]` for `0 ≤ i`. -/
def getByte (data : Bytes) (i : ℕ) : Except PyError UInt8 :=
  match data[i]? with
  | some b => .ok b
  | none => .error (.indexError "index out of range")

/-- `data[i:j]` for `0 ≤ i`, `0 ≤ j`. -/
def slice {α : Type*} (data : List α) (i j : ℕ) : List α := (data.take j).drop i

/-- `data[-n:]` for `0 < n`. -/
def lastBytes {α : Type*} (data : List α) (n : ℕ) : List α := data.drop (data.length - n)

/-- `range(0, stop, step)` for `0 < step`. -/
def rangeStep (stop step : ℕ) : List ℕ :=
  (List.range ((stop + step - 1) / step)).map (· * step)

theorem slice_append_middle {α : Type*} (xs ys zs : List α) {i j : ℕ} (hi : i = xs.length)
    (hj : j = xs.length + ys.length) : slice (xs ++ ys ++ zs) i j = ys := by
  rw [slice, hi, hj, ← List.length_append, List.take_left, List.drop_left]

theorem lastBytes_append {α : Type*} (xs ys : List α) {n : ℕ} (h : ys.length = n) :
    lastBytes (xs ++ ys) n = ys := by
  rw [lastBytes, List.length_append, h, Nat.add_sub_cancel, List.drop_left]

@[simp] theorem intToBytes_length (length n : ℕ) : (intToBytes length n).length = length := by
  induction length generalizing n with
  | zero => rfl
  | succ length ih => simp [intToBytes, ih]

theorem intFromBytes_append (xs ys : Bytes) :
    intFromBytes (xs ++ ys) = intFromBytes xs * 256 ^ ys.length + intFromBytes ys := by
  induction ys using List.reverseRecOn with
  | nil => simp [intFromBytes]
  | append_singleton ys y ih =>
      rw [← List.append_assoc]
      simp only [intFromBytes, List.foldl_append, List.foldl_cons, List.foldl_nil,
        List.length_append, List.length_singleton, pow_succ] at ih ⊢
      rw [ih]
      ring

/-- `int.from_bytes` undoes `to_bytes` on numbers that fit. -/
theorem intFromBytes_intToBytes (length n : ℕ) (h : n < 256 ^ length) :
    intFromBytes (intToBytes length n) = n := by
  induction length generalizing n with
  | zero =>
      have : n = 0 := by simpa using h
      simp [intToBytes, intFromBytes, this]
  | succ length ih =>
      have hdiv : n / 256 < 256 ^ length := by
        rw [Nat.div_lt_iff_lt_mul (by decide), ← pow_succ]
        exact h
      rw [intToBytes, intFromBytes_append, ih _ hdiv]
      simp only [List.length_singleton, pow_one, intFromBytes, List.foldl_cons, List.foldl_nil,
        UInt8.toNat_ofNat']
      omega

/-! ## Dictionaries -/

/-- A `dict`: its entries in insertion order, with one entry for each key. -/
structure Dict (κ α : Type*) where
  entries : List (κ × α)
  nodup : (entries.map Prod.fst).Nodup

namespace Dict

variable {κ α β : Type*} [DecidableEq κ]

/-- Assignment to an existing key keeps its place; a new key goes to the end. -/
def setEntries (entries : List (κ × α)) (key : κ) (value : α) : List (κ × α) :=
  if key ∈ entries.map Prod.fst then
    entries.map fun e ↦ if e.1 = key then (key, value) else e
  else entries ++ [(key, value)]

theorem setEntries_keys (entries : List (κ × α)) (key : κ) (value : α) :
    (setEntries entries key value).map Prod.fst =
      if key ∈ entries.map Prod.fst then entries.map Prod.fst
      else entries.map Prod.fst ++ [key] := by
  unfold setEntries
  split
  · rw [List.map_map]
    apply List.map_congr_left
    intro e _
    by_cases he : e.1 = key <;> simp [he]
  · simp

def empty : Dict κ α := ⟨[], by simp⟩

/-- `d[key] = value` -/
def set (d : Dict κ α) (key : κ) (value : α) : Dict κ α where
  entries := setEntries d.entries key value
  nodup := by
    rw [setEntries_keys]
    split
    · exact d.nodup
    · rename_i hkey
      rw [List.nodup_append]
      refine ⟨d.nodup, by simp, ?_⟩
      intro a ha b hb hab
      exact hkey (by simpa [hab, List.mem_singleton.mp hb] using ha)

/-- `d.get(key)` -/
def get? (d : Dict κ α) (key : κ) : Option α := (d.entries.find? fun e ↦ e.1 = key).map Prod.snd

def keys (d : Dict κ α) : List κ := d.entries.map Prod.fst

def values (d : Dict κ α) : List α := d.entries.map Prod.snd

/-- `{key: value for …}`: a later pair overwrites an earlier one with the same key. -/
def ofPairs (pairs : List (κ × α)) : Dict κ α := pairs.foldl (fun d e ↦ d.set e.1 e.2) empty

/-- `d.update(other)` -/
def update (d : Dict κ α) (pairs : List (κ × α)) : Dict κ α :=
  pairs.foldl (fun d e ↦ d.set e.1 e.2) d

/-- `d.setdefault(key, value)` -/
def setDefault (d : Dict κ α) (key : κ) (value : α) : Dict κ α :=
  if (d.get? key).isSome then d else d.set key value

/-- `{key: f(key, value) for key, value in d.items()}` -/
def mapValues (f : κ → α → β) (d : Dict κ α) : Dict κ β where
  entries := d.entries.map fun e ↦ (e.1, f e.1 e.2)
  nodup := by
    rw [List.map_map]
    exact d.nodup

omit [DecidableEq κ] in
@[simp] theorem keys_mapValues (f : κ → α → β) (d : Dict κ α) :
    (d.mapValues f).keys = d.keys := by
  rw [keys, keys, mapValues, List.map_map]
  rfl

theorem get?_mapValues (f : κ → α → β) (d : Dict κ α) (key : κ) :
    (d.mapValues f).get? key = (d.get? key).map (f key) := by
  rw [get?, get?, mapValues, List.find?_map, Option.map_map, Option.map_map]
  cases h : d.entries.find? fun e ↦ e.1 = key with
  | none => simp [Function.comp_def, h]
  | some e =>
      have hkey : e.1 = key := by simpa using List.find?_some h
      simp [Function.comp_def, h, hkey]

@[simp] theorem get?_empty (key : κ) : (empty : Dict κ α).get? key = none := rfl

theorem get?_eq_some_iff (d : Dict κ α) (key : κ) (value : α) :
    d.get? key = some value ↔ (key, value) ∈ d.entries := by
  unfold get?
  constructor
  · intro h
    obtain ⟨e, he, rfl⟩ := Option.map_eq_some_iff.mp h
    have hkey : e.1 = key := by simpa using List.find?_some he
    exact hkey ▸ List.mem_of_find?_eq_some he
  · intro h
    have hsome : (d.entries.find? fun e ↦ e.1 = key).isSome := by
      rw [List.find?_isSome]
      exact ⟨_, h, by simp⟩
    obtain ⟨e, he⟩ := Option.isSome_iff_exists.mp hsome
    have hkey : e.1 = key := by simpa using List.find?_some he
    have hmem := List.mem_of_find?_eq_some he
    have heq : e = (key, value) := List.inj_on_of_nodup_map d.nodup hmem h hkey
    simp [he, heq]

theorem get?_eq_none_iff (d : Dict κ α) (key : κ) : d.get? key = none ↔ key ∉ d.keys := by
  simp only [get?, Option.map_eq_none_iff, List.find?_eq_none, keys, List.mem_map, not_exists,
    not_and, decide_eq_true_eq]

theorem isSome_get? (d : Dict κ α) (key : κ) : (d.get? key).isSome ↔ key ∈ d.keys := by
  rw [Option.isSome_iff_ne_none, Ne, get?_eq_none_iff, not_not]

@[simp] theorem get?_set_self (d : Dict κ α) (key : κ) (value : α) :
    (d.set key value).get? key = some value := by
  rw [get?_eq_some_iff]
  simp only [set, setEntries]
  split
  · rename_i h
    obtain ⟨e, he, hkey⟩ := List.mem_map.mp h
    exact List.mem_map.mpr ⟨e, he, by simp [hkey]⟩
  · simp

theorem get?_set_of_ne (d : Dict κ α) {key other : κ} (value : α) (h : other ≠ key) :
    (d.set key value).get? other = d.get? other := by
  apply Option.ext
  intro v
  simp only [get?_eq_some_iff, set, setEntries]
  split
  · simp only [List.mem_map]
    constructor
    · rintro ⟨e, he, heq⟩
      by_cases hkey : e.1 = key
      · rw [if_pos hkey, Prod.mk.injEq] at heq
        exact absurd heq.1.symm h
      · rw [if_neg hkey] at heq
        exact heq ▸ he
    · intro hmem
      exact ⟨(other, v), hmem, if_neg h⟩
  · simp [h]

theorem get?_set (d : Dict κ α) (key other : κ) (value : α) :
    (d.set key value).get? other = if other = key then some value else d.get? other := by
  split
  · rename_i h
    rw [h, get?_set_self]
  · rename_i h
    exact get?_set_of_ne d value h

@[simp] theorem keys_set (d : Dict κ α) (key : κ) (value : α) :
    (d.set key value).keys = if key ∈ d.keys then d.keys else d.keys ++ [key] :=
  setEntries_keys d.entries key value

theorem mem_keys_set (d : Dict κ α) (key other : κ) (value : α) :
    other ∈ (d.set key value).keys ↔ other = key ∨ other ∈ d.keys := by
  rw [keys_set]
  split
  · rename_i h
    constructor
    · exact Or.inr
    · rintro (rfl | h')
      · exact h
      · exact h'
  · simp [or_comm]

theorem mem_keys_update (d : Dict κ α) (pairs : List (κ × α)) (key : κ) :
    key ∈ (d.update pairs).keys ↔ key ∈ d.keys ∨ key ∈ pairs.map Prod.fst := by
  induction pairs generalizing d with
  | nil => simp [update]
  | cons e pairs ih =>
      have h := ih (d.set e.1 e.2)
      simp only [update, List.foldl_cons] at h ⊢
      rw [h, mem_keys_set]
      simp only [List.map_cons, List.mem_cons]
      tauto

theorem mem_keys_ofPairs (pairs : List (κ × α)) (key : κ) :
    key ∈ (ofPairs pairs).keys ↔ key ∈ pairs.map Prod.fst := by
  have h := mem_keys_update (empty : Dict κ α) pairs key
  simpa [update, ofPairs, keys, empty] using h

/-- With distinct keys an update looks its pairs up first. -/
theorem get?_update (d : Dict κ α) {pairs : List (κ × α)} (h : (pairs.map Prod.fst).Nodup)
    (key : κ) : (d.update pairs).get? key = (pairs.lookup key).or (d.get? key) := by
  induction pairs generalizing d with
  | nil => rfl
  | cons e rest ih =>
      obtain ⟨hnew, hrest⟩ := List.nodup_cons.mp h
      have hupdate : d.update (e :: rest) = (d.set e.1 e.2).update rest := rfl
      rw [hupdate, ih _ hrest, get?_set, List.lookup_cons]
      by_cases hkey : key = e.1
      · have hnone : rest.lookup key = none := by
          rw [List.lookup_eq_none_iff]
          intro p hp
          refine bne_iff_ne.mpr fun hp' ↦ hnew ?_
          rw [← hkey, hp']
          exact List.mem_map_of_mem hp
        rw [if_pos hkey, hnone, beq_iff_eq.mpr hkey]
        rfl
      · simp [hkey, beq_eq_false_iff_ne.mpr hkey]

theorem get?_setDefault_of_ne (d : Dict κ α) {key other : κ} (value : α) (h : other ≠ key) :
    (d.setDefault key value).get? other = d.get? other := by
  rw [setDefault]
  split
  · rfl
  · exact get?_set_of_ne d value h

theorem entries_set_of_not_mem (d : Dict κ α) {key : κ} (value : α) (h : key ∉ d.keys) :
    (d.set key value).entries = d.entries ++ [(key, value)] := by
  have hnot : key ∉ d.entries.map Prod.fst := h
  simp [set, setEntries, hnot]

/-- With distinct keys a comprehension keeps the pairs as they are. -/
theorem ofPairs_entries {pairs : List (κ × α)} (h : (pairs.map Prod.fst).Nodup) :
    (ofPairs pairs).entries = pairs := by
  have key : ∀ (d : Dict κ α) (rest : List (κ × α)),
      ((d.entries ++ rest).map Prod.fst).Nodup → (d.update rest).entries = d.entries ++ rest := by
    intro d rest
    induction rest generalizing d with
    | nil => simp [update]
    | cons e rest ih =>
        intro hnodup
        have hnot : e.1 ∉ d.entries.map Prod.fst := by
          rw [List.map_append, List.nodup_append] at hnodup
          intro hmem
          exact hnodup.2.2 _ hmem e.1 (by simp) rfl
        have hset : (d.set e.1 e.2).entries = d.entries ++ [e] :=
          entries_set_of_not_mem d e.2 hnot
        have h' := ih (d.set e.1 e.2) (by rw [hset]; simpa using hnodup)
        rw [hset] at h'
        simpa [update] using h'
  simpa [ofPairs, update, empty] using key empty pairs (by simpa [empty] using h)

/-- The value a comprehension ends with for a key is that of the last pair with it. -/
theorem mem_of_get?_ofPairs {pairs : List (κ × α)} {key : κ} {value : α}
    (h : (ofPairs pairs).get? key = some value) : (key, value) ∈ pairs := by
  have aux : ∀ (d : Dict κ α) (rest : List (κ × α)),
      (d.update rest).get? key = some value → d.get? key = some value ∨ (key, value) ∈ rest := by
    intro d rest
    induction rest generalizing d with
    | nil => exact Or.inl
    | cons e rest ih =>
        intro h
        rcases ih (d.set e.1 e.2) (by simpa [update] using h) with h | h
        · rw [get?_set] at h
          split at h
          · rename_i hkey
            rw [hkey, ← Option.some.inj h]
            exact Or.inr List.mem_cons_self
          · exact Or.inl h
        · exact Or.inr (List.mem_cons_of_mem _ h)
  simpa using aux empty pairs h

end Dict

end VehicleOta
