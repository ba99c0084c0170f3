import VehicleOta.Trace.Since
import VehicleOta.Uds.Programming

/-!
# The history behind the flags of a programming server

The flags of a server are meant as a memory of what was answered since the session was
opened.  `Opened`, `Keyed`, `MemoryErased`, `Requested` and `Verified` say what they are a
memory of, on the trace of exchanges; `Explained` is what one request may do to the flags.
-/

namespace VehicleOta.Uds

open ProgrammingServer TraceLogic

/-! ## Exchanges -/

/-- A request and everything the server did about it. -/
structure Exchange where
  request : Bytes
  actions : List Action
  error : Option PyError

/-- The first byte of a response. -/
def Action.responseCode? : Action → Option UInt8
  | .send payload => payload.head?
  | _ => none

def Action.saved? : Action → Option (String × Bytes)
  | .save file data => some (file, data)
  | _ => none

def Action.isInstall : Action → Bool
  | .install _ _ _ => true
  | _ => false

namespace Exchange

variable (x : Exchange)

/-- A request for the service, answered positively. -/
def Accepted (serviceId : UInt8) : Prop :=
  x.request.head? = some serviceId ∧
    some (positiveResponseSid serviceId) ∈ x.actions.map Action.responseCode?

def SessionControl : Prop := x.Accepted sidDiagnosticSessionControl

def KeyAccepted : Prop :=
  x.Accepted sidSecurityAccess ∧ x.request.getD 1 0 = securityAccessSendKey

def Erased : Prop :=
  x.Accepted sidRoutineControl ∧ x.request.getD 1 0 = routineControlStart ∧
    intFromBytes (slice x.request 2 4) = routineEraseMemory

def DownloadRequested : Prop := x.Accepted sidRequestDownload

/-- A positive `RequestTransferExit` that saved `data` and found its digest to be the one of
the original. -/
def TransferExited (file : String) (data : Bytes) : Prop :=
  x.Accepted sidRequestTransferExit ∧ .save file data ∈ x.actions ∧
    ∃ original, .compare original data true ∈ x.actions ∧
      Hash.sha256 original = Hash.sha256 data

def Expired : Prop := .expire ∈ x.actions

def Launched : Prop := ∃ a ∈ x.actions, a.isInstall

/-- The files saved, in order. -/
def saves : List (String × Bytes) := x.actions.filterMap Action.saved?

/-- The session was neither opened anew nor closed by its timeout. -/
def Quiet : Prop := ¬ x.SessionControl ∧ ¬ x.Expired

instance (serviceId : UInt8) : Decidable (x.Accepted serviceId) := by
  unfold Accepted
  infer_instance

instance : Decidable x.SessionControl := inferInstanceAs (Decidable (x.Accepted _))

instance : Decidable x.Erased := inferInstanceAs (Decidable (_ ∧ _))

instance : Decidable x.DownloadRequested := inferInstanceAs (Decidable (x.Accepted _))

instance : Decidable x.Expired := inferInstanceAs (Decidable (_ ∈ _))

instance : Decidable x.Launched := inferInstanceAs (Decidable (∃ a ∈ _, _))

instance : Decidable x.Quiet := inferInstanceAs (Decidable (_ ∧ _))

end Exchange

/-- What the trace has saved last. -/
def lastSaved (trace : List Exchange) : Option (String × Bytes) :=
  (trace.flatMap Exchange.saves).getLast?

theorem lastSaved_concat (trace : List Exchange) (x : Exchange) :
    lastSaved (trace ++ [x]) = x.saves.getLast?.or (lastSaved trace) := by
  simp [lastSaved, List.flatMap_append, List.getLast?_append]

/-! ## Stages of a programming session -/

/-- A marked exchange in the session, with `earlier` before it and the session undisturbed
since. -/
def Then (mark : Exchange → Prop) (earlier : List Exchange → Prop) : List Exchange → Prop :=
  Since Exchange.Quiet fun past x ↦ mark x ∧ x.Quiet ∧ earlier past

/-- Undisturbed since the last `DiagnosticSessionControl`. -/
def Opened : List Exchange → Prop :=
  Since Exchange.Quiet fun _ x ↦ x.SessionControl ∧ ¬ x.Expired

def Keyed : List Exchange → Prop := Then Exchange.KeyAccepted Opened

def MemoryErased : List Exchange → Prop := Then Exchange.Erased Keyed

def Requested : List Exchange → Prop := Then Exchange.DownloadRequested MemoryErased

/-- `data` was saved and verified after a requested download, and the memory was neither
erased nor requested again since. -/
def Verified (file : String) (data : Bytes) : List Exchange → Prop :=
  Since (fun x ↦ x.Quiet ∧ ¬ x.Erased ∧ ¬ x.DownloadRequested) fun past x ↦
    x.TransferExited file data ∧ x.Quiet ∧ Requested past

theorem Then.concat {mark : Exchange → Prop} {earlier : List Exchange → Prop}
    {trace : List Exchange} {x : Exchange} (hx : x.Quiet)
    (h : Then mark earlier trace ∨ mark x ∧ earlier trace) : Then mark earlier (trace ++ [x]) := by
  rcases h with h | ⟨hmark, hearlier⟩
  · exact Since.concat h hx
  · exact since_of_mark ⟨hmark, hx, hearlier⟩

/-- Each stage contains the one before it. -/
theorem Then.earlier {mark : Exchange → Prop} {earlier : List Exchange → Prop}
    {trace : List Exchange} (hstable : ∀ t x, earlier t → x.Quiet → earlier (t ++ [x]))
    (h : Then mark earlier trace) : earlier trace := by
  obtain ⟨past, m, rest, rfl, ⟨-, hm, hpast⟩, hrest⟩ := h
  have hkept : ∀ rest : List Exchange, (∀ x ∈ rest, x.Quiet) → earlier (past ++ [m] ++ rest) := by
    intro rest
    induction rest using List.reverseRecOn with
    | nil => exact fun _ ↦ by simpa using hstable past m hpast hm
    | append_singleton rest x ih =>
        intro hquiet
        rw [← List.append_assoc]
        exact hstable _ x (ih fun y hy ↦ hquiet y (by simp [hy])) (hquiet x (by simp))
  simpa using hkept rest hrest

theorem Opened.concat {trace : List Exchange} {x : Exchange} (h : Opened trace) (hx : x.Quiet) :
    Opened (trace ++ [x]) := Since.concat h hx

theorem Keyed.opened {trace : List Exchange} (h : Keyed trace) : Opened trace :=
  Then.earlier (fun _ _ ht hx ↦ ht.concat hx) h

end VehicleOta.Uds
