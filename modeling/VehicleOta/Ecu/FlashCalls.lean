import VehicleOta.Ecu.FlashMemory
import VehicleOta.Flash.NorMemory
import VehicleOta.Trace.Since

/-!
# Single calls of the flash emulator

What `erase_region` and `program` leave in the flash file for every content of it, whether they
return or raise.
-/

namespace VehicleOta.Ecu

open CrashLogic NorMemory

/-- The byte of `data` at `j` raises a bit of the byte it is programmed over. -/
def Offends (file data : Bytes) (start j : ℕ) : Prop :=
  ∃ old new, file[start + j]? = some old ∧ data[j]? = some new ∧ Raises old new

/-! ## One page -/

section Page

variable {file data : Bytes} {start x n k : ℕ}

theorem getElem?_slice (hk : k < n) : (slice data x (x + n))[k]? = data[x + k]? := by
  rw [slice, List.getElem?_drop, List.getElem?_take, if_pos (by omega)]

theorem getElem?_existing (hk : k < n) :
    (((patch file data start x).drop (start + x)).take n)[k]? = file[start + (x + k)]? := by
  rw [List.getElem?_take, if_pos hk, List.getElem?_drop, getElem?_patch_of_not (by omega),
    Nat.add_assoc]

/-- The check of one page fails on an offending byte. -/
theorem offends_of_any
    (h : ((((patch file data start x).drop (start + x)).take (slice data x (x + n)).length).zip
      (slice data x (x + n))).any (fun p ↦ (p.1 ||| p.2) != p.1) = true) :
    ∃ j, x ≤ j ∧ j < x + n ∧ Offends file data start j := by
  obtain ⟨⟨old, new⟩, hmem, hraise⟩ := List.any_eq_true.mp h
  obtain ⟨k, hk, hget⟩ := List.getElem_of_mem hmem
  have hzip := List.getElem?_eq_getElem hk
  rw [hget, List.getElem?_zip_eq_some] at hzip
  obtain ⟨hold, hnew⟩ := hzip
  have hlt : k < (slice data x (x + n)).length := (List.getElem?_eq_some_iff.mp hnew).1
  have hn : k < n := by
    have hle : (slice data x (x + n)).length ≤ n := by
      simp only [slice, List.length_drop, List.length_take]
      omega
    omega
  rw [getElem?_slice hn] at hnew
  rw [getElem?_existing hlt] at hold
  exact ⟨x + k, by omega, by omega, old, new, hold, hnew, by simpa [Raises] using hraise⟩

theorem not_offends_of_any
    (h : ((((patch file data start x).drop (start + x)).take (slice data x (x + n)).length).zip
      (slice data x (x + n))).any (fun p ↦ (p.1 ||| p.2) != p.1) = false)
    {j : ℕ} (hx : x ≤ j) (hn : j < x + n) : ¬ Offends file data start j := by
  rintro ⟨old, new, hold, hnew, hraise⟩
  obtain ⟨k, rfl⟩ := Nat.exists_eq_add_of_le hx
  have hslice : (slice data x (x + n))[k]? = some new := by rw [getElem?_slice (by omega), hnew]
  have hk : k < (slice data x (x + n)).length := (List.getElem?_eq_some_iff.mp hslice).1
  have hexisting : (((patch file data start x).drop (start + x)).take
      (slice data x (x + n)).length)[k]? = some old := (getElem?_existing hk).trans hold
  have hzip := (List.getElem?_zip_eq_some (z := (old, new))).mpr ⟨hexisting, hslice⟩
  have hmem := List.mem_of_getElem? hzip
  exact absurd (by simpa [Raises] using hraise) (List.any_eq_false.mp h _ hmem)

/-- A page that passes the check extends the patch. -/
theorem overwrite_page
    (h : ((((patch file data start x).drop (start + x)).take (slice data x (x + n)).length).zip
      (slice data x (x + n))).any (fun p ↦ (p.1 ||| p.2) != p.1) = false) :
    overwrite 0 (patch file data start x) (start + x)
        (List.zipWith (· &&& ·)
          (((patch file data start x).drop (start + x)).take (slice data x (x + n)).length)
          (slice data x (x + n))) =
      patch file data start (x + n) := by
  set chunk := slice data x (x + n) with hchunk
  set existing := ((patch file data start x).drop (start + x)).take chunk.length with hexisting
  set written := List.zipWith (· &&& ·) existing chunk with hwritten
  have hchunkLength : chunk.length = min n (data.length - x) := by
    simp only [hchunk, slice, List.length_drop, List.length_take]
    omega
  have hlength : written.length = min (file.length - (start + x)) chunk.length := by
    simp only [hwritten, hexisting, List.length_zipWith, List.length_take, List.length_drop,
      length_patch]
    omega
  have hfit : written = [] ∨ start + x + written.length ≤ (patch file data start x).length := by
    rw [length_patch]
    rcases Nat.eq_zero_or_pos written.length with hzero | hpos
    · exact Or.inl (List.length_eq_zero_iff.mp hzero)
    · exact Or.inr (by omega)
  apply List.ext_getElem?
  intro i
  rw [getElem?_overwrite _ _ _ _ hfit]
  split_ifs with hi
  · obtain ⟨k, hk⟩ := Nat.exists_eq_add_of_le hi.1
    have hkw : k < written.length := by omega
    have hchunkGet : chunk[k]? = some chunk[k] := List.getElem?_eq_getElem (by omega)
    have hexistingGet : existing[k]? = some (existing.get ⟨k, by
        rw [hwritten, List.length_zipWith] at hkw; omega⟩) := List.getElem?_eq_getElem _
    set old := existing.get ⟨k, by rw [hwritten, List.length_zipWith] at hkw; omega⟩
    have hdata : data[i - start]? = some chunk[k] := by
      rw [← hchunkGet, hchunk, getElem?_slice (by omega)]
      congr 1
      omega
    have hnot : ¬ Raises old chunk[k] := by
      have hzip := (List.getElem?_zip_eq_some (z := (old, chunk[k]))).mpr ⟨hexistingGet, hchunkGet⟩
      have hmem := List.mem_of_getElem? hzip
      have hfalse := List.any_eq_false.mp h _ hmem
      simpa [Raises] using hfalse
    rw [getElem?_patch_of_get (by omega) (by omega) (by omega) hdata, hwritten,
      show i - (start + x) = k by omega, List.getElem?_zipWith, hexistingGet, hchunkGet]
    exact congrArg some (and_eq_of_not_raises hnot)
  · rw [getElem?_patch, getElem?_patch]
    cases hfile : file[i]? with
    | none => rfl
    | some old =>
        have hlt : i < file.length := (List.getElem?_eq_some_iff.mp hfile).1
        rw [Option.map_some, Option.map_some]
        congr 1
        by_cases hlow : i < start + x
        · by_cases hstart : start ≤ i
          · rw [if_pos ⟨hstart, hlow⟩, if_pos ⟨hstart, by omega⟩]
          · rw [if_neg (by omega), if_neg (by omega)]
        · rw [if_neg (by omega)]
          split_ifs with hin
          · rw [List.getD_eq_getElem?_getD, List.getElem?_eq_none (by omega), Option.getD_none]
          · rfl

end Page

/-! ## Whole calls -/

namespace FlashMemoryEmulator

variable {self : FlashMemoryEmulator} {d : SlotDir} {file data : Bytes} {address size : ℕ}

/-- How a call of `program` ends: refused at once, stopped at the first page that would raise a
bit with the pages before it written, or done. -/
inductive Programmed (self : FlashMemoryEmulator) (address : ℕ) (data file : Bytes) (d : SlotDir) :
    Except PyError PUnit → SlotDir → Prop where
  | refused (message : String)
      (h : address < self.baseAddress ∨
        self.partitionSize < address - self.baseAddress + data.length) :
      Programmed self address data file d (.error (.valueError message)) d
  | stopped (k : ℕ) (message : String)
      (hbefore : ∀ j < k * self.pageSize, ¬ Offends file data (address - self.baseAddress) j)
      (hpage : ∃ j, k * self.pageSize ≤ j ∧ j < k * self.pageSize + self.pageSize ∧
        Offends file data (address - self.baseAddress) j)
      (haddress : self.baseAddress ≤ address)
      (hfit : address - self.baseAddress + data.length ≤ self.partitionSize) :
      Programmed self address data file d (.error (.valueError message))
        { d with
          memory := some (patch file data (address - self.baseAddress) (k * self.pageSize)) }
  | done (n : ℕ) (layout : Option FlashLayout) (journal : Option Journal)
      (haddress : self.baseAddress ≤ address)
      (hfit : address - self.baseAddress + data.length ≤ self.partitionSize)
      (hn : 0 < self.pageSize → data.length ≤ n)
      (hnone : ∀ j < n, ¬ Offends file data (address - self.baseAddress) j) :
      Programmed self address data file d (.ok ⟨⟩)
        { d with
          memory := some (patch file data (address - self.baseAddress) n)
          layout := layout
          journal := journal }

theorem offset_of_le (h : self.baseAddress ≤ address) :
    self.offset address = .ok (address - self.baseAddress) := if_neg (Nat.not_lt.mpr h)

theorem offset_of_lt (h : address < self.baseAddress) :
    self.offset address = .error (.valueError "Flash address precedes emulated base address") :=
  if_pos h

theorem programPage_wp {start x : ℕ} (hmemory : d.memory = some (patch file data start x)) :
    (self.programPage start data x).wp (fun _ _ ↦ True)
      (fun r t ↦
        (∃ message, r = .error (.valueError message)) ∧ t = d ∧
            (∃ j, x ≤ j ∧ j < x + self.pageSize ∧ Offends file data start j) ∨
          r = .ok ⟨⟩ ∧ t = { d with memory := some (patch file data start (x + self.pageSize)) } ∧
            ∀ j, x ≤ j → j < x + self.pageSize → ¬ Offends file data start j) d := by
  simp only [programPage, openMemory, Persist.wp_bind, Persist.wp_reads, hmemory,
    Persist.wp_pure]
  split
  · rename_i hflip
    rw [Persist.wp_raise]
    exact Or.inl ⟨⟨_, rfl⟩, rfl, offends_of_any hflip⟩
  · rename_i hflip
    have hflip := Bool.eq_false_iff.mpr hflip
    rw [writeMemory, Persist.wp_write]
    refine ⟨trivial, Or.inr ⟨rfl, ?_, fun j ↦ not_offends_of_any hflip⟩⟩
    rw [hmemory, Option.map_some, overwrite_page hflip]

theorem program_wp (address : ℕ) (hmemory : d.memory = some file) :
    (self.program address data).wp (fun _ _ ↦ True) (Programmed self address data file d) d := by
  rw [program, Persist.wp_bind, Persist.wp_ofExcept]
  rcases Nat.lt_or_ge address self.baseAddress with hlow | haddress
  · rw [offset_of_lt hlow]
    exact .refused _ (Or.inl hlow)
  · rw [offset_of_le haddress]
    dsimp only
    split
    · rename_i hlarge
      rw [Persist.wp_raise]
      exact .refused _ (Or.inr hlarge)
    · rename_i hfit
      have hfit := Nat.not_lt.mp hfit
      simp only [Persist.wp_bind, openMemory, Persist.wp_reads, hmemory, Persist.wp_pure]
      -- after the pages `pre` the patch reaches their end, and none of them raised a bit
      apply Persist.wp_forEach fun pre t ↦
        t = { d with memory := some (patch file data (address - self.baseAddress)
            (pre.length * self.pageSize)) } ∧
          ∀ j < pre.length * self.pageSize, ¬ Offends file data (address - self.baseAddress) j
      · rw [List.length_nil, Nat.zero_mul, patch_zero, ← hmemory]
        exact ⟨rfl, fun j hj ↦ absurd hj (Nat.not_lt_zero j)⟩
      · rintro pre x post t hsplit ⟨rfl, hbefore⟩
        have hpage : 0 < self.pageSize := by
          by_contra hzero
          obtain hzero := Nat.eq_zero_of_not_pos hzero
          simp [rangeStep, hzero] at hsplit
        obtain ⟨rfl, -⟩ := rangeStep_split hpage hsplit
        refine Persist.wp_mono (programPage_wp rfl) (fun _ _ ↦ id) ?_
        rintro r t (⟨⟨message, rfl⟩, rfl, hoffends⟩ | ⟨rfl, rfl, hnone⟩)
        · exact .stopped pre.length message hbefore hoffends haddress hfit
        · rw [List.length_append, List.length_singleton, Nat.add_mul, Nat.one_mul]
          refine ⟨rfl, fun j hj ↦ ?_⟩
          rcases Nat.lt_or_ge j (pre.length * self.pageSize) with hlt | hge
          · exact hbefore j hlt
          · exact hnone j hge hj
      · rintro t ⟨rfl, hnone⟩
        simp only [loadLayout, saveLayout, updateJournal, Persist.wp_reads, Persist.wp_write,
          true_and]
        exact .done _ _ _ haddress hfit (fun hpage ↦ length_rangeStep_mul_ge hpage) hnone

/-! ## Refused calls -/

/-- The pages before the first one that would raise a bit hold what is programmed there. -/
def RepeatsEarlierPages (self : FlashMemoryEmulator) (file data : Bytes) (start : ℕ) : Prop :=
  ∃ k, (∃ j, k * self.pageSize ≤ j ∧ j < k * self.pageSize + self.pageSize ∧
      Offends file data start j) ∧
    ∀ j < k * self.pageSize, file[start + j]? = data[j]?

theorem not_offends_of_eq {start j : ℕ} (h : file[start + j]? = data[j]?) :
    ¬ Offends file data start j := by
  rintro ⟨old, new, hold, hnew, hraise⟩
  obtain rfl := Option.some.inj (hold.symm.trans (h.trans hnew))
  exact hraise UInt8.or_self

theorem patch_eq_self_iff {start n j : ℕ} (hn : n ≤ j) (hoffends : Offends file data start j) :
    patch file data start n = file ↔ ∀ j < n, file[start + j]? = data[j]? := by
  obtain ⟨old, new, hold, hnew, -⟩ := hoffends
  have hfile := (List.getElem?_eq_some_iff.mp hold).1
  have hdata := (List.getElem?_eq_some_iff.mp hnew).1
  have hpatched : ∀ i < n, (patch file data start n)[start + i]? = data[i]? := by
    intro i hi
    have hget : data[start + i - start]? = some data[i] := by
      rw [Nat.add_sub_cancel_left]
      exact List.getElem?_eq_getElem (by omega)
    rw [getElem?_patch_of_get (by omega) (by omega) (by omega) hget]
    exact (List.getElem?_eq_getElem (by omega)).symm
  constructor
  · intro h i hi
    rw [← hpatched i hi, h]
  · intro h
    apply List.ext_getElem?
    intro i
    by_cases hin : start ≤ i ∧ i < start + n
    · obtain ⟨m, rfl⟩ := Nat.exists_eq_add_of_le hin.1
      rw [hpatched m (by omega), h m (by omega)]
    · exact getElem?_patch_of_not (by omega)

theorem store_program_eq_iff {r : Except PyError PUnit} {t : SlotDir} {message : String}
    (hmemory : d.memory = some file) (h : Programmed self address data file d r t)
    (herror : r = .error (.valueError message)) :
    (t.memory = d.memory ∧ t.layout = d.layout ∧ t.journal = d.journal) ↔
      address < self.baseAddress ∨
        self.partitionSize < address - self.baseAddress + data.length ∨
        self.RepeatsEarlierPages file data (address - self.baseAddress) := by
  cases h with
  | refused message hrefused =>
      exact ⟨fun _ ↦ hrefused.imp_right Or.inl, fun _ ↦ ⟨rfl, rfl, rfl⟩⟩
  | done n layout journal haddress hfit hn hnone => cases herror
  | stopped k message hbefore hpage haddress hfit =>
      obtain ⟨j, hkj, hjk, hoffends⟩ := hpage
      have hpatch := patch_eq_self_iff hkj hoffends
      constructor
      · rintro ⟨hsame, -, -⟩
        rw [hmemory, Option.some.injEq] at hsame
        exact Or.inr (Or.inr ⟨k, ⟨j, hkj, hjk, hoffends⟩, hpatch.mp hsame⟩)
      · rintro (hlow | hlarge | ⟨k', ⟨j', hkj', hjk', hoffends'⟩, hsame⟩)
        · omega
        · omega
        · -- the first offending page is one and the same
          have hle : k' ≤ k := by
            by_contra hlt
            have hmul : (k + 1) * self.pageSize ≤ k' * self.pageSize :=
              Nat.mul_le_mul_right _ (by omega)
            rw [Nat.add_mul, Nat.one_mul] at hmul
            exact not_offends_of_eq (hsame j (by omega)) hoffends
          have hge : k ≤ k' := by
            by_contra hlt
            have hmul : (k' + 1) * self.pageSize ≤ k * self.pageSize :=
              Nat.mul_le_mul_right _ (by omega)
            rw [Nat.add_mul, Nat.one_mul] at hmul
            exact hbefore j' (by omega) hoffends'
          obtain rfl := le_antisymm hle hge
          rw [hmemory]
          exact ⟨congrArg some (hpatch.mpr hsame), rfl, rfl⟩

/-- A call of `program` on a missing file raises no `ValueError` behind the address checks. -/
theorem refused_of_missing {message : String} (hmemory : d.memory = none)
    (h : (self.program address data d).result = .error (.valueError message)) :
    (self.program address data).store d = d ∧ (address < self.baseAddress ∨
      self.partitionSize < address - self.baseAddress + data.length) := by
  have hwp : (self.program address data).wp (fun _ _ ↦ True) (fun r t ↦
      r = .error (.fileNotFoundError "flash_memory.bin") ∨
        t = d ∧ (address < self.baseAddress ∨
          self.partitionSize < address - self.baseAddress + data.length)) d := by
    rw [program, Persist.wp_bind, Persist.wp_ofExcept]
    rcases Nat.lt_or_ge address self.baseAddress with hlow | haddress
    · rw [offset_of_lt hlow]
      exact Or.inr ⟨rfl, Or.inl hlow⟩
    · rw [offset_of_le haddress]
      dsimp only
      split
      · rename_i hlarge
        rw [Persist.wp_raise]
        exact Or.inr ⟨rfl, Or.inr hlarge⟩
      · simp [openMemory, hmemory]
  rcases hwp.2 with hmissing | hrefused
  · rw [hmissing] at h
    cases h
  · exact hrefused

/-- A call of `program` that raises `ValueError` leaves the flash file, the layout and the
journal as they were exactly if it failed the address checks, or if all pages before the first
one that would raise a bit already hold what they were to be programmed with. -/
theorem refused_program_iff (self : FlashMemoryEmulator) {d : SlotDir} {address : ℕ}
    {payload : Bytes} {message : String}
    (h : (self.program address payload d).result = .error (.valueError message)) :
    (((self.program address payload).store d).memory = d.memory ∧
        ((self.program address payload).store d).layout = d.layout ∧
        ((self.program address payload).store d).journal = d.journal) ↔
      address < self.baseAddress ∨
        self.partitionSize < address - self.baseAddress + payload.length ∨
        ∃ file, d.memory = some file ∧
          self.RepeatsEarlierPages file payload (address - self.baseAddress) := by
  cases hmemory : d.memory with
  | none =>
      obtain ⟨hstore, hrefused⟩ := refused_of_missing hmemory h
      rw [hstore, hmemory]
      exact ⟨fun _ ↦ hrefused.imp_right Or.inl, fun _ ↦ ⟨rfl, rfl, rfl⟩⟩
  | some file =>
      have hends := (@program_wp self _ _ payload address hmemory).2
      rw [← hmemory, store_program_eq_iff hmemory hends h, hmemory]
      simp only [Option.some.injEq, exists_eq_left']

/-- Eight bytes of flash, in pages of two, the last byte already programmed to zero. -/
def halfProgrammed : SlotDir := { memory := some [0xFF, 0xFF, 0xFF, 0xFF, 0xFF, 0xFF, 0xFF, 0x00] }

def smallFlash : FlashMemoryEmulator :=
  { baseAddress := 0x08000000, partitionSize := 8, pageSize := 2, sectorSize := 4 }

theorem refused_program_writes :
    (smallFlash.program 0x08000004 [0x12, 0x34, 0x56, 0x78] halfProgrammed).result =
        .error (.valueError "Flash programming attempted to set erased bits back to 1") ∧
      ((smallFlash.program 0x08000004 [0x12, 0x34, 0x56, 0x78]).store halfProgrammed).memory =
        some [0xFF, 0xFF, 0xFF, 0xFF, 0x12, 0x34, 0xFF, 0x00] := by
  decide +kernel

theorem refused_program_one_page :
    (((smallFlash.program 0x08000006 [0x56, 0x78]).store halfProgrammed).memory =
        halfProgrammed.memory ∧
      ((smallFlash.program 0x08000006 [0x56, 0x78]).store halfProgrammed).layout =
        halfProgrammed.layout ∧
      ((smallFlash.program 0x08000006 [0x56, 0x78]).store halfProgrammed).journal =
        halfProgrammed.journal) :=
  (@refused_program_iff smallFlash halfProgrammed 0x08000006 [0x56, 0x78]
    "Flash programming attempted to set erased bits back to 1" (by decide +kernel)).mpr
    (Or.inr (Or.inr ⟨_, rfl, 0, ⟨1, by decide, by decide, 0x00, 0x78, rfl, rfl, by decide⟩,
      fun _ hj ↦ absurd hj (by simp)⟩))

end FlashMemoryEmulator

end VehicleOta.Ecu
