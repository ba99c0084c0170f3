import VehicleOta.Ecu.FlashCalls
import VehicleOta.Ecu.FlashSpec

/-!
# Sequences of calls of the flash emulator

From `initialize` on the partition behaves as NOR memory under any calls of `erase_region` and
`program`, except that erasing nothing in the middle of a sector erases the sector.
-/

namespace VehicleOta.Ecu

open CrashLogic NorMemory TraceLogic

inductive FlashCall where
  | eraseRegion (address size : ℕ)
  | program (address : ℕ) (payload : Bytes)

/-- The byte of the flash file at an offset. -/
def SlotDir.byteAt (d : SlotDir) (i : ℕ) : Option UInt8 := d.memory.bind (·[i]?)

namespace FlashMemoryEmulator

variable {self : FlashMemoryEmulator} {d : SlotDir} {file data : Bytes} {address size i : ℕ}

def call (self : FlashMemoryEmulator) : FlashCall → FlashM PUnit
  | .eraseRegion address size => self.eraseRegion address size
  | .program address payload => self.program address payload

/-- The directory after a call, whether it returned or raised, and how it ended. -/
def perform (self : FlashMemoryEmulator) (d : SlotDir) (c : FlashCall) :
    SlotDir × Except PyError PUnit :=
  ((self.call c).store d, (self.call c d).result)

/-- The byte at offset `i` lies in a sector that the region touches. -/
def TouchesSector (self : FlashMemoryEmulator) (address size i : ℕ) : Prop :=
  ∃ x, self.baseAddress ≤ x ∧ address ≤ x ∧ x < address + size ∧
    (x - self.baseAddress) / self.sectorSize = i / self.sectorSize

/-- The call is an erasure that covers the byte at offset `i`. -/
def Covers (self : FlashMemoryEmulator) (c : FlashCall) (i : ℕ) : Prop :=
  ∃ address size, c = .eraseRegion address size ∧ self.baseAddress ≤ address ∧
    self.TouchesSector address size i

/-! ## Erasing -/

/-- The offsets that `erase_region` writes to, for a region at offset `start`. -/
def Erases (self : FlashMemoryEmulator) (start size i : ℕ) : Prop :=
  start / self.sectorSize * self.sectorSize ≤ i ∧
    i < (start + size + self.sectorSize - 1) / self.sectorSize * self.sectorSize

theorem erases_iff (hsector : 0 < self.sectorSize) {start : ℕ} :
    self.Erases start size i ↔
      start / self.sectorSize ≤ i / self.sectorSize ∧
        i / self.sectorSize * self.sectorSize < start + size := by
  rw [Erases, Nat.le_div_iff_mul_le hsector]
  refine and_congr_right fun _ ↦ ?_
  rw [← Nat.div_lt_iff_lt_mul hsector, Nat.lt_iff_add_one_le, Nat.le_div_iff_mul_le hsector,
    Nat.add_mul, Nat.one_mul]
  omega

/-- Where the region is not empty the erased bytes are those of the touched sectors. -/
theorem erases_iff_touchesSector (hsector : 0 < self.sectorSize)
    (haddress : self.baseAddress ≤ address) (hsize : 0 < size) :
    self.Erases (address - self.baseAddress) size i ↔ self.TouchesSector address size i := by
  rw [erases_iff hsector]
  constructor
  · rintro ⟨hlow, hhigh⟩
    -- the first byte of the region or of the sector, whichever comes later
    refine ⟨self.baseAddress + max (address - self.baseAddress)
      (i / self.sectorSize * self.sectorSize), by omega, by omega, by omega, ?_⟩
    rw [Nat.add_sub_cancel_left]
    rcases le_total (address - self.baseAddress) (i / self.sectorSize * self.sectorSize) with h | h
    · rw [max_eq_right h, Nat.mul_div_cancel _ hsector]
    · rw [max_eq_left h]
      refine le_antisymm hlow ?_
      exact (Nat.le_div_iff_mul_le hsector).mpr h
  · rintro ⟨x, -, hax, hxa, hsame⟩
    refine ⟨?_, ?_⟩
    · rw [← hsame]
      exact Nat.div_le_div_right (by omega)
    · have hle := Nat.div_mul_le_self (x - self.baseAddress) self.sectorSize
      rw [hsame] at hle
      omega

/-- An empty region erases the sector it lies in, unless it lies at the start of one. -/
theorem erases_zero_iff (hsector : 0 < self.sectorSize) {start : ℕ} :
    self.Erases start 0 i ↔
      start % self.sectorSize ≠ 0 ∧ i / self.sectorSize = start / self.sectorSize := by
  rw [erases_iff hsector, Nat.add_zero]
  have hsplit := Nat.div_add_mod' start self.sectorSize
  constructor
  · rintro ⟨hlow, hhigh⟩
    have hsame : i / self.sectorSize = start / self.sectorSize := by
      refine le_antisymm ?_ hlow
      exact (Nat.le_div_iff_mul_le hsector).mpr hhigh.le
    rw [hsame] at hhigh
    exact ⟨by omega, hsame⟩
  · rintro ⟨hmod, hsame⟩
    rw [hsame]
    exact ⟨le_rfl, by omega⟩

/-- What `erase_region` leaves in a partition of the right size. -/
inductive Erased (self : FlashMemoryEmulator) (address size : ℕ) (file : Bytes) (d : SlotDir) :
    Except PyError PUnit → SlotDir → Prop where
  | refused (message : String) (h : address < self.baseAddress) :
      Erased self address size file d (.error (.valueError message)) d
  | done (file' : Bytes) (journal : Option Journal) (h : self.baseAddress ≤ address)
      (hlength : file'.length = file.length)
      (herased : ∀ i, self.Erases (address - self.baseAddress) size i → i < file.length →
        file'[i]? = some erasedByte)
      (hkept : ∀ i, ¬ self.Erases (address - self.baseAddress) size i → file'[i]? = file[i]?) :
      Erased self address size file d (.ok ⟨⟩) { d with memory := some file', journal := journal }

theorem eraseRegion_wp (hmemory : d.memory = some file)
    (hlength : file.length = self.partitionSize) :
    (self.eraseRegion address size).wp (fun _ _ ↦ True) (Erased self address size file d) d := by
  rw [eraseRegion, Persist.wp_bind, Persist.wp_ofExcept]
  rcases Nat.lt_or_ge address self.baseAddress with hlow | haddress
  · rw [offset_of_lt hlow]
    exact .refused _ hlow
  · rw [offset_of_le haddress, offset_of_le (Nat.le_add_right_of_le haddress),
      show address + size - self.baseAddress = address - self.baseAddress + size by omega]
    simp only [Persist.wp_bind, Persist.wp_ofExcept, openMemory, Persist.wp_reads, hmemory,
      Persist.wp_pure, writeMemory, Persist.wp_write, updateJournal, Option.map_some, true_and]
    set start := (address - self.baseAddress) / self.sectorSize * self.sectorSize with hstart
    set stop := min self.partitionSize
      ((address - self.baseAddress + size + self.sectorSize - 1) / self.sectorSize *
        self.sectorSize) with hstop
    have hfit : List.replicate (stop - start) erasedByte = [] ∨
        start + (List.replicate (stop - start) erasedByte).length ≤ file.length := by
      rw [List.length_replicate]
      rcases Nat.eq_zero_or_pos (stop - start) with hzero | hpos
      · exact Or.inl (by rw [hzero, List.replicate_zero])
      · exact Or.inr (by omega)
    have hget := getElem?_overwrite 0 file (List.replicate (stop - start) erasedByte) start hfit
    rw [List.length_replicate] at hget
    refine .done _ _ haddress ?_ (fun i hi hlt ↦ ?_) fun i hi ↦ ?_
    · rcases hfit with hnil | hfit
      · rw [hnil, overwrite_nil]
      · exact length_overwrite _ _ _ _ hfit
    · have hin : start ≤ i ∧ i < start + (stop - start) := by
        have hi' := hi
        rw [Erases, ← hstart] at hi'
        omega
      rw [hget, if_pos hin, List.getElem?_replicate, if_pos (by omega)]
    · have hout : ¬ (start ≤ i ∧ i < start + (stop - start)) := by
        rw [Erases, ← hstart] at hi
        omega
      rw [hget, if_neg hout]

/-! ## One call -/

/-- The flash file is there and as long as the partition. -/
def Sized (self : FlashMemoryEmulator) (d : SlotDir) : Prop :=
  ∃ file, d.memory = some file ∧ file.length = self.partitionSize

/-- The call is not an empty erasure inside a sector that holds a byte other than 0xFF. -/
def HarmlessCall (self : FlashMemoryEmulator) (d : SlotDir) (c : FlashCall) : Prop :=
  ∀ address, c = .eraseRegion address 0 → self.baseAddress ≤ address →
    (address - self.baseAddress) % self.sectorSize ≠ 0 →
    ∀ i b, i / self.sectorSize = (address - self.baseAddress) / self.sectorSize →
      d.byteAt i = some b → b = erasedByte

/-- The byte at offset `i` is still there and no bit of it has risen. -/
def WornAt (i : ℕ) (d t : SlotDir) : Prop :=
  ∀ old, d.byteAt i = some old → ∃ new, t.byteAt i = some new ∧ Worn old new

theorem wornAt_refl (i : ℕ) (d : SlotDir) : WornAt i d d := fun old h ↦ ⟨old, h, .refl old⟩

theorem wornAt_of_eq {t : SlotDir} (h : t.byteAt i = d.byteAt i) : WornAt i d t :=
  fun old hold ↦ ⟨old, h.trans hold, .refl old⟩

theorem wornAt_trans (i : ℕ) (d t u : SlotDir) (h : WornAt i d t) (h' : WornAt i t u) :
    WornAt i d u := by
  intro old hold
  obtain ⟨mid, hmid, hworn⟩ := h old hold
  obtain ⟨new, hnew, hworn'⟩ := h' mid hmid
  exact ⟨new, hnew, hworn.trans hworn'⟩

theorem byteAt_of_memory (h : d.memory = some file) (i : ℕ) : d.byteAt i = file[i]? := by
  rw [SlotDir.byteAt, h, Option.bind_some]

theorem erased_perform (hmemory : d.memory = some file)
    (hlength : file.length = self.partitionSize) (address size : ℕ) :
    Erased self address size file d (self.perform d (.eraseRegion address size)).2
      (self.perform d (.eraseRegion address size)).1 := (eraseRegion_wp hmemory hlength).2

theorem programmed_perform (hmemory : d.memory = some file) (address : ℕ) (payload : Bytes) :
    Programmed self address payload file d (self.perform d (.program address payload)).2
      (self.perform d (.program address payload)).1 := (program_wp address hmemory).2

theorem Erased.sized {r : Except PyError PUnit} {t : SlotDir} (hmemory : d.memory = some file)
    (hlength : file.length = self.partitionSize) (h : Erased self address size file d r t) :
    self.Sized t := by
  cases h with
  | refused message h => exact ⟨file, hmemory, hlength⟩
  | done file' journal h hsame herased hkept => exact ⟨file', rfl, hsame.trans hlength⟩

theorem Programmed.sized {r : Except PyError PUnit} {t : SlotDir} (hmemory : d.memory = some file)
    (hlength : file.length = self.partitionSize) (h : Programmed self address data file d r t) :
    self.Sized t := by
  cases h with
  | refused message h => exact ⟨file, hmemory, hlength⟩
  | stopped k message hbefore hpage haddress hfit => exact ⟨_, rfl, length_patch.trans hlength⟩
  | done n layout journal haddress hfit hn hnone => exact ⟨_, rfl, length_patch.trans hlength⟩

theorem sized_perform (h : self.Sized d) (c : FlashCall) : self.Sized (self.perform d c).1 := by
  obtain ⟨file, hmemory, hlength⟩ := h
  cases c with
  | eraseRegion address size =>
      exact (erased_perform hmemory hlength address size).sized hmemory hlength
  | program address payload =>
      exact (programmed_perform hmemory address payload).sized hmemory hlength

/-- A patch without offending bytes wears its bytes. -/
theorem worn_patch {start n : ℕ} (h : ∀ j < n, ¬ Offends file data start j) {old : UInt8}
    (hold : file[i]? = some old) :
    ∃ new, (patch file data start n)[i]? = some new ∧ Worn old new := by
  rw [getElem?_patch, hold, Option.map_some]
  refine ⟨_, rfl, ?_⟩
  split_ifs with hin
  · cases hdata : data[i - start]? with
    | none =>
        rw [List.getD_eq_getElem?_getD, hdata]
        exact .refl old
    | some new =>
        rw [List.getD_eq_getElem?_getD, hdata]
        apply worn_of_not_raises
        intro hraise
        have hat : file[start + (i - start)]? = some old := by
          rwa [show start + (i - start) = i by omega]
        exact h (i - start) (by omega) ⟨old, new, hat, hdata, hraise⟩
  · exact .refl old

theorem Programmed.wornAt {r : Except PyError PUnit} {t : SlotDir} (hmemory : d.memory = some file)
    (h : Programmed self address data file d r t) (i : ℕ) : WornAt i d t := by
  intro old hold
  rw [byteAt_of_memory hmemory] at hold
  cases h with
  | refused message h => exact ⟨old, by rw [byteAt_of_memory hmemory, hold], .refl old⟩
  | stopped k message hbefore hpage haddress hfit =>
      rw [byteAt_of_memory rfl]
      exact worn_patch hbefore hold
  | done n layout journal haddress hfit hn hnone =>
      rw [byteAt_of_memory rfl]
      exact worn_patch hnone hold

/-- `program` keeps the bytes outside its range. -/
theorem Programmed.byteAt_eq {r : Except PyError PUnit} {t : SlotDir}
    (hmemory : d.memory = some file) (h : Programmed self address data file d r t)
    (hi : self.baseAddress + i < address ∨ address + data.length ≤ self.baseAddress + i) :
    t.byteAt i = d.byteAt i := by
  rw [byteAt_of_memory hmemory]
  cases h with
  | refused message h => exact byteAt_of_memory hmemory i
  | stopped k message hbefore hpage haddress hfit =>
      rw [byteAt_of_memory rfl]
      exact getElem?_patch_of_length_le (by omega)
  | done n layout journal haddress hfit hn hnone =>
      rw [byteAt_of_memory rfl]
      exact getElem?_patch_of_length_le (by omega)

/-- Outside the touched sectors only an empty erasure changes anything. -/
theorem Erased.byteAt_eq {r : Except PyError PUnit} {t : SlotDir} (hsector : 0 < self.sectorSize)
    (hmemory : d.memory = some file) (h : Erased self address size file d r t)
    (hi : ¬ self.TouchesSector address size i)
    (hempty : size = 0 → ¬ self.Erases (address - self.baseAddress) 0 i) :
    t.byteAt i = d.byteAt i := by
  rw [byteAt_of_memory hmemory]
  cases h with
  | refused message h => exact byteAt_of_memory hmemory i
  | done file' journal haddress hlength herased hkept =>
      rw [byteAt_of_memory rfl]
      apply hkept
      rcases Nat.eq_zero_or_pos size with rfl | hsize
      · exact hempty rfl
      · rwa [erases_iff_touchesSector hsector haddress hsize]

theorem Erased.eq_of_lt {r : Except PyError PUnit} {t : SlotDir}
    (h : Erased self address size file d r t) (haddress : address < self.baseAddress) : t = d := by
  cases h with
  | refused message h => rfl
  | done file' journal h _ _ _ => omega

theorem Erased.byteAt_eq_erased {r : Except PyError PUnit} {t : SlotDir}
    (h : Erased self address size file d r t) (haddress : self.baseAddress ≤ address)
    (hi : self.Erases (address - self.baseAddress) size i) (hlt : i < file.length) :
    t.byteAt i = some erasedByte := by
  cases h with
  | refused message h => omega
  | done file' journal haddress' hlength herased hkept =>
      rw [byteAt_of_memory rfl]
      exact herased i hi hlt

/-- Harmless calls wear every byte that they do not cover. -/
theorem wornAt_perform (hsector : 0 < self.sectorSize) (h : self.Sized d) {c : FlashCall}
    (hc : self.HarmlessCall d c) (hcovers : ¬ self.Covers c i) :
    WornAt i d (self.perform d c).1 := by
  obtain ⟨file, hmemory, hlength⟩ := h
  cases c with
  | program address payload => exact (programmed_perform hmemory address payload).wornAt hmemory i
  | eraseRegion address size =>
      have herased := erased_perform hmemory hlength address size
      by_cases haddress : self.baseAddress ≤ address
      · have htouch : ¬ self.TouchesSector address size i := fun htouch ↦
          hcovers ⟨address, size, rfl, haddress, htouch⟩
        by_cases hempty : size = 0 ∧ self.Erases (address - self.baseAddress) 0 i
        · obtain ⟨rfl, herases⟩ := hempty
          obtain ⟨hmod, hsame⟩ := (erases_zero_iff hsector).mp herases
          intro old hold
          have hff := hc address rfl haddress hmod i old hsame hold
          rw [byteAt_of_memory hmemory] at hold
          refine ⟨erasedByte, herased.byteAt_eq_erased haddress herases
            (List.getElem?_eq_some_iff.mp hold).1, ?_⟩
          rw [hff]
          exact .refl _
        · exact wornAt_of_eq (herased.byteAt_eq hsector hmemory htouch fun hsize herases ↦
            hempty ⟨hsize, herases⟩)
      · rw [herased.eq_of_lt (Nat.lt_of_not_le haddress)]
        exact wornAt_refl i d

/-! ## Reading back -/

theorem read_eq (hmemory : d.memory = some file) (haddress : self.baseAddress ≤ address)
    (hfit : address - self.baseAddress + size ≤ self.partitionSize) :
    (self.read address size d).result =
      .ok ((file.drop (address - self.baseAddress)).take size) := by
  have hwp : (self.read address size).wp (fun _ _ ↦ True) (fun r _ ↦
      r = .ok ((file.drop (address - self.baseAddress)).take size)) d := by
    rw [read, Persist.wp_bind, Persist.wp_ofExcept, offset_of_le haddress]
    dsimp only
    rw [if_neg (Nat.not_lt.mpr hfit)]
    simp only [openMemory, Persist.wp_bind, Persist.wp_reads, hmemory, Persist.wp_pure]
  exact hwp.2

theorem not_raises_erased (b : UInt8) : ¬ Raises erasedByte b := not_not.mpr (or_erased b)

/-- Programming what was just erased succeeds and is read back. -/
theorem read_program_erase (hpage : 0 < self.pageSize) (hsector : 0 < self.sectorSize)
    (h : self.Sized d)
    (haddress : self.baseAddress ≤ address) (hdata : data.length ≤ size)
    (hfit : address - self.baseAddress + data.length ≤ self.partitionSize) :
    (self.perform (self.perform d (.eraseRegion address size)).1 (.program address data)).2 =
        .ok ⟨⟩ ∧
      (self.read address data.length (self.perform (self.perform d (.eraseRegion address size)).1
        (.program address data)).1).result = .ok data := by
  obtain ⟨file, hmemory, hlength⟩ := h
  have herased := erased_perform hmemory hlength address size
  obtain ⟨file', hmemory', hlength'⟩ := herased.sized hmemory hlength
  have hnone : ∀ j, ¬ Offends file' data (address - self.baseAddress) j := by
    rintro j ⟨old, new, hold, hnew, hraise⟩
    have hj := (List.getElem?_eq_some_iff.mp hnew).1
    have herases : self.Erases (address - self.baseAddress) size
        (address - self.baseAddress + j) := by
      rw [erases_iff hsector]
      refine ⟨Nat.div_le_div_right (by omega), ?_⟩
      have hle := Nat.div_mul_le_self (address - self.baseAddress + j) self.sectorSize
      omega
    have hff := herased.byteAt_eq_erased haddress herases (by omega)
    rw [byteAt_of_memory hmemory', hold] at hff
    obtain rfl := Option.some.inj hff
    exact not_raises_erased new hraise
  have hprogrammed := @programmed_perform self _ _ hmemory' address data
  generalize self.perform (self.perform d (.eraseRegion address size)).1 (.program address data) =
    outcome at hprogrammed ⊢
  obtain ⟨t, r⟩ := outcome
  dsimp only at hprogrammed ⊢
  cases hprogrammed with
  | refused message h => omega
  | stopped k message hbefore hoffends _ _ =>
      obtain ⟨j, -, -, hj⟩ := hoffends
      exact absurd hj (hnone j)
  | done n layout journal _ _ hn _ =>
      refine ⟨rfl, ?_⟩
      rw [read_eq rfl haddress hfit, take_drop_patch (by omega) (hn hpage)]

/-! ## Runs -/

/-- The directory after `initialize` and the calls. -/
def after (self : FlashMemoryEmulator) (d : SlotDir) (calls : List FlashCall) : SlotDir :=
  (run self.perform (self.initializeFlash.store d) calls).1

/-- In every state that the calls lead through the partition has its size, bits rise by covering
erasures only, what is erased can be programmed and read back, and an erasure or a programming
changes nothing outside its sectors or its range. -/
structure ActsAsNor (flash : FlashMemoryEmulator) (d : SlotDir) (calls : List FlashCall) : Prop where
  sized : ∀ before rest, calls = before ++ rest → flash.Sized (flash.after d before)
  worn : ∀ before middle rest i, calls = before ++ (middle ++ rest) →
    (∀ c ∈ middle, ¬ flash.Covers c i) →
      WornAt i (flash.after d before) (flash.after d (before ++ middle))
  readBack : ∀ before rest address size payload, calls = before ++ rest →
    flash.baseAddress ≤ address → payload.length ≤ size →
      address - flash.baseAddress + payload.length ≤ flash.partitionSize →
        let erased := (flash.perform (flash.after d before) (.eraseRegion address size)).1
        (flash.perform erased (.program address payload)).2 = .ok ⟨⟩ ∧
          (flash.read address payload.length
            (flash.perform erased (.program address payload)).1).result = .ok payload
  eraseFrame : ∀ before address size rest i, calls = before ++ .eraseRegion address size :: rest →
    ¬ flash.TouchesSector address size i →
      (flash.after d (before ++ [.eraseRegion address size])).byteAt i =
        (flash.after d before).byteAt i
  programFrame : ∀ before address payload rest i,
    calls = before ++ .program address payload :: rest →
    flash.baseAddress + i < address ∨ address + payload.length ≤ flash.baseAddress + i →
      (flash.after d (before ++ [.program address payload])).byteAt i =
        (flash.after d before).byteAt i

theorem sized_initializeFlash (self : FlashMemoryEmulator) (d : SlotDir) :
    self.Sized (self.initializeFlash.store d) := by
  have hwp : self.initializeFlash.wp (fun _ _ ↦ True) (fun _ t ↦ self.Sized t) d := by
    simp only [initializeFlash, saveLayout, updateJournal, writeControlBlock, readControlBlock,
      Persist.wp_bind, Persist.wp_write, Persist.wp_reads, true_and]
    exact ⟨_, rfl, List.length_replicate⟩
  exact hwp.2

theorem sized_after (self : FlashMemoryEmulator) (d : SlotDir) (calls : List FlashCall) :
    self.Sized (self.after d calls) :=
  run_invariant (A := fun _ _ _ ↦ True) (I := fun t _ ↦ self.Sized t)
    (sized_initializeFlash self d) (fun _ _ c h _ ↦ sized_perform h c) calls
    (admissible_of_forall (fun _ _ _ ↦ trivial) _ _)

theorem after_concat (self : FlashMemoryEmulator) (d : SlotDir) (calls : List FlashCall)
    (c : FlashCall) : self.after d (calls ++ [c]) = (self.perform (self.after d calls) c).1 := by
  rw [after, run_concat]
  rfl

/-- Erasing nothing inside a sector keeps the other bytes only if it is harmless. -/
theorem harmlessCall_of_frame (hsector : 0 < self.sectorSize) (h : self.Sized d) {c : FlashCall}
    (hframe : ∀ address size i, c = .eraseRegion address size →
      ¬ self.TouchesSector address size i → (self.perform d c).1.byteAt i = d.byteAt i) :
    self.HarmlessCall d c := by
  rintro address rfl haddress hmod i b hsame hb
  obtain ⟨file, hmemory, hlength⟩ := h
  have htouch : ¬ self.TouchesSector address 0 i := by
    rintro ⟨x, -, hlow, hhigh, -⟩
    omega
  have hlt : i < file.length := by
    rw [byteAt_of_memory hmemory] at hb
    exact (List.getElem?_eq_some_iff.mp hb).1
  have hff := (erased_perform hmemory hlength address 0).byteAt_eq_erased haddress
    ((erases_zero_iff hsector).mpr ⟨hmod, hsame⟩) hlt
  rw [hframe address 0 i rfl htouch, hb] at hff
  exact Option.some.inj hff

/-- From any directory and for any calls, the emulator acts as NOR flash exactly if no call of
`erase_region` of size 0 lies inside a sector that holds a byte other than 0xFF. -/
theorem actsAsNor_iff (self : FlashMemoryEmulator) (hpage : 0 < self.pageSize)
    (hsector : 0 < self.sectorSize) (d : SlotDir) (calls : List FlashCall) :
    self.ActsAsNor d calls ↔
      Admissible self.perform (fun t _ c ↦ self.HarmlessCall t c) (self.initializeFlash.store d)
        calls := by
  constructor
  · intro h before c rest heq
    refine harmlessCall_of_frame hsector (sized_after self d before) fun address size i hc hi ↦ ?_
    subst hc
    have hframe := h.eraseFrame before address size rest i heq hi
    rwa [after_concat] at hframe
  · intro h
    refine ⟨fun before _ _ ↦ sized_after self d before, ?_, ?_, ?_, ?_⟩
    · intro before middle rest i heq hmiddle
      refine run_relates (wornAt_refl i) (wornAt_trans i) fun front c back hsplit ↦ ?_
      have hc := h (before ++ front) c (back ++ rest) (by rw [heq, hsplit]; simp)
      exact wornAt_perform hsector (sized_after self d (before ++ front)) hc
        (hmiddle c (by rw [hsplit]; simp))
    · intro before rest address size payload _ haddress hsize hfit
      exact read_program_erase hpage hsector (sized_after self d before) haddress hsize hfit
    · intro before address size rest i heq hi
      rw [after_concat]
      obtain ⟨file, hmemory, hlength⟩ := sized_after self d before
      have herased := erased_perform hmemory hlength address size
      rcases Nat.lt_or_ge address self.baseAddress with hlow | haddress
      · rw [herased.eq_of_lt hlow]
      · by_cases hempty : size = 0 ∧ self.Erases (address - self.baseAddress) 0 i
        · obtain ⟨rfl, herases⟩ := hempty
          obtain ⟨hmod, hsame⟩ := (erases_zero_iff hsector).mp herases
          -- the sector of an empty erasure is erased already
          have hharmless := h before (.eraseRegion address 0) rest heq address rfl haddress hmod i
          rcases Nat.lt_or_ge i file.length with hlt | hge
          · have hb : (self.after d before).byteAt i = some file[i] := by
              rw [byteAt_of_memory hmemory]
              exact List.getElem?_eq_getElem hlt
            rw [herased.byteAt_eq_erased haddress herases hlt, hb, hharmless _ hsame hb]
          · obtain ⟨file', hmemory', hlength'⟩ := herased.sized hmemory hlength
            rw [byteAt_of_memory hmemory', byteAt_of_memory hmemory,
              List.getElem?_eq_none (by omega), List.getElem?_eq_none hge]
        · exact herased.byteAt_eq hsector hmemory hi fun hsize herases ↦ hempty ⟨hsize, herases⟩
    · intro before address payload rest i _ hi
      rw [after_concat]
      obtain ⟨file, hmemory, -⟩ := sized_after self d before
      exact (programmed_perform hmemory address payload).byteAt_eq hmemory hi

/-- A byte is programmed to zero, and erasing no byte next to it erases it. -/
theorem empty_erase_erases :
    (smallFlash.after {} [.program 0x08000000 [0x00]]).byteAt 0 = some 0x00 ∧
      (smallFlash.after {} [.program 0x08000000 [0x00], .eraseRegion 0x08000001 0]).byteAt 0 =
        some 0xFF ∧
      ¬ smallFlash.ActsAsNor {} [.program 0x08000000 [0x00], .eraseRegion 0x08000001 0] := by
  refine ⟨by decide +kernel, by decide +kernel, fun h ↦ ?_⟩
  have htouch : ¬ smallFlash.TouchesSector 0x08000001 0 0 := by
    rintro ⟨x, -, hlow, hhigh, -⟩
    omega
  have hframe := h.eraseFrame [.program 0x08000000 [0x00]] 0x08000001 0 [] 0 rfl htouch
  exact absurd hframe (by decide +kernel)

theorem actsAsNor_smallFlash :
    smallFlash.ActsAsNor {} [.program 0x08000000 [0x00], .eraseRegion 0x08000004 0] :=
  (actsAsNor_iff smallFlash (by decide) (by decide) {} _).mpr (by
    intro before c rest heq address hc haddress hmod i b hsame hb
    subst hc
    have hmem : FlashCall.eraseRegion address 0 ∈
        before ++ FlashCall.eraseRegion address 0 :: rest := by simp
    rw [← heq] at hmem
    obtain rfl : address = 0x08000004 := by simpa using hmem
    exact absurd (by decide) hmod)

end FlashMemoryEmulator

end VehicleOta.Ecu
