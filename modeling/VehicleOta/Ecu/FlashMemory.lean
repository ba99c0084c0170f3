import VehicleOta.Crash.Persist
import VehicleOta.Hash.Sha256
import VehicleOta.Python.Files

/-!
# The flash partition of one slot

`ecus/base/flash_memory.py`.  The store is the slot directory; every `open` for writing is
one atomic write.  Addresses that the files hold as hexadecimal text are kept as numbers.
-/

namespace VehicleOta.Ecu

open CrashLogic Hash

inductive JournalState where
  | initialized
  | prepared
  | erased
  | programmed
  | verified
  | pendingActivation
  | bootedPending
  | confirmed
  | rolledBack
  deriving DecidableEq, Repr

/-- A value in a JSON object. -/
inductive Field where
  | text (value : String)
  | number (value : ℕ)
  | flag (value : Bool)
  deriving DecidableEq, Repr

/-- `flash_journal.json` -/
structure Journal where
  state : JournalState
  baseAddress : ℕ
  partitionSize : ℕ
  extra : List (String × Field) := []
  deriving DecidableEq, Repr

def defaultPageSize : ℕ := 256

def defaultSectorSize : ℕ := 4096

structure FlashGeometry where
  baseAddress : ℕ
  partitionSize : ℕ
  pageSize : ℕ := defaultPageSize
  sectorSize : ℕ := defaultSectorSize
  deriving DecidableEq, Repr

/-- `flash_layout.json`; only `initialize` writes the geometry keys. -/
structure FlashLayout where
  geometry : Option FlashGeometry := none
  lastProgrammedAddress : Option ℕ := none
  lastProgrammedSize : ℕ := 0
  lastChunkSha256 : String := ""
  payloadSha256 : String := ""
  payloadSize : Option ℕ := none
  payloadAddress : Option ℕ := none
  deriving DecidableEq, Repr

/-- `activation_control.json` -/
abbrev ControlBlock := Dict String Field

def flashFileNames : List String :=
  ["flash_memory.bin", "flash_layout.json", "flash_journal.json", "activation_control.json"]

/-- The name of an image file, which lies beside the files of the emulator. -/
structure FirmwareFile where
  name : String
  notFlashFile : name ∉ flashFileNames
  deriving DecidableEq

/-- The files of a slot directory. -/
structure SlotDir where
  memory : Option Bytes := none
  layout : Option FlashLayout := none
  journal : Option Journal := none
  control : Option ControlBlock := none
  images : FirmwareFile → Option Bytes := fun _ ↦ none

def SlotDir.withImage (d : SlotDir) (file : FirmwareFile) (image : Option Bytes) : SlotDir :=
  { d with images := Function.update d.images file image }

inductive SlotFile where
  | memory
  | layout
  | journal
  | control
  | image
  deriving DecidableEq, Repr

/-- A program on a slot directory. -/
abbrev FlashM := Persist SlotFile SlotDir PyError

/-- The emulator object; `slot_directory` is the store its methods run on. -/
structure FlashMemoryEmulator extends FlashGeometry

namespace FlashMemoryEmulator

def erasedByte : UInt8 := 0xFF

variable (self : FlashMemoryEmulator)

def saveLayout (data : FlashLayout) : FlashM PUnit :=
  Persist.write .layout fun d ↦ { d with layout := some data }

def loadLayout : FlashM FlashLayout := Persist.reads fun d ↦ d.layout.getD {}

def updateJournal (state : JournalState) (extra : List (String × Field) := []) : FlashM PUnit :=
  Persist.write .journal fun d ↦
    { d with journal := some ⟨state, self.baseAddress, self.partitionSize, extra⟩ }

def readControlBlock : FlashM ControlBlock := Persist.reads fun d ↦ d.control.getD Dict.empty

def writeControlBlock (fields : List (String × Field)) : FlashM PUnit := do
  let control ← readControlBlock
  let control := control.update fields
  let control := control.setDefault "base_address" (.number self.baseAddress)
  let control := control.setDefault "partition_size" (.number self.partitionSize)
  Persist.write .control fun d ↦ { d with control := some control }

def initializeFlash : FlashM PUnit := do
  Persist.write .memory fun d ↦
    { d with memory := some (List.replicate self.partitionSize erasedByte) }
  saveLayout { geometry := some self.toFlashGeometry }
  self.updateJournal .initialized
  self.writeControlBlock [("bootable", .flag false), ("confirmed", .flag false),
    ("active", .flag false), ("rollback_reason", .text "")]

def offset (address : ℕ) : Except PyError ℕ :=
  if address < self.baseAddress then
    .error (.valueError "Flash address precedes emulated base address")
  else .ok (address - self.baseAddress)

/-- `open(self.flash_file, …)` on an existing file. -/
def openMemory : FlashM Bytes := do
  match ← Persist.reads SlotDir.memory with
  | some file => return file
  | none => Persist.raise (.fileNotFoundError "flash_memory.bin")

def writeMemory (position : ℕ) (data : Bytes) : FlashM PUnit :=
  Persist.write .memory fun d ↦
    { d with memory := d.memory.map fun file ↦ overwrite 0 file position data }

def eraseRegion (address size : ℕ) : FlashM PUnit := do
  let startOffset ← Persist.ofExcept (self.offset address)
  let endOffset ← Persist.ofExcept (self.offset (address + size))
  let eraseStart := startOffset / self.sectorSize * self.sectorSize
  let eraseEnd := (endOffset + self.sectorSize - 1) / self.sectorSize * self.sectorSize
  let eraseEnd := min self.partitionSize eraseEnd
  let _ ← openMemory
  writeMemory eraseStart (List.replicate (eraseEnd - eraseStart) erasedByte)
  self.updateJournal .erased [("erase_start", .number address), ("erase_size", .number size)]

/-- One pass of the page loop of `program`. -/
def programPage (startOffset : ℕ) (payload : Bytes) (pageOffset : ℕ) : FlashM PUnit := do
  let chunk := slice payload pageOffset (pageOffset + self.pageSize)
  let file ← openMemory
  let existing := (file.drop (startOffset + pageOffset)).take chunk.length
  if (existing.zip chunk).any fun p ↦ (p.1 ||| p.2) != p.1 then
    Persist.raise (.valueError "Flash programming attempted to set erased bits back to 1")
  else writeMemory (startOffset + pageOffset) (List.zipWith (· &&& ·) existing chunk)

def program (address : ℕ) (payload : Bytes) : FlashM PUnit := do
  let startOffset ← Persist.ofExcept (self.offset address)
  if self.partitionSize < startOffset + payload.length then
    Persist.raise (.valueError "Flash write exceeds partition size")
  else do
    let _ ← openMemory
    Persist.forEach (rangeStep payload.length self.pageSize) (self.programPage startOffset payload)
    let layout ← loadLayout
    let digest := hexDigest (sha256 payload)
    saveLayout { layout with
      lastProgrammedAddress := some address
      lastProgrammedSize := payload.length
      lastChunkSha256 := digest }
    self.updateJournal .programmed [("program_address", .number address),
      ("program_size", .number payload.length), ("last_chunk_sha256", .text digest)]

def read (address size : ℕ) : FlashM Bytes := do
  let offset ← Persist.ofExcept (self.offset address)
  if self.partitionSize < offset + size then
    Persist.raise (.valueError "Flash read exceeds partition size")
  else do
    let file ← openMemory
    return (file.drop offset).take size

def verify (address : ℕ) (payload : Bytes) : FlashM Bool := do
  return (← self.read address payload.length) == payload

def sha256 (address size : ℕ) : FlashM String := do
  return hexDigest (Hash.sha256 (← self.read address size))

def recordPayloadMetadata (address : ℕ) (payload : Bytes) : FlashM PUnit := do
  let layout ← loadLayout
  saveLayout { layout with
    payloadSha256 := hexDigest (Hash.sha256 payload)
    payloadSize := some payload.length
    payloadAddress := some address }

end FlashMemoryEmulator

/-- `SlotManager.INCOMPLETE_JOURNAL_STATES` -/
def incompleteJournalStates : List JournalState :=
  [.initialized, .prepared, .erased, .programmed]

/-- The journal names a state from which a boot must not go on. -/
def SlotDir.incomplete (d : SlotDir) : Bool :=
  match d.journal with
  | some journal => journal.state ∈ incompleteJournalStates
  | none => false

end VehicleOta.Ecu
