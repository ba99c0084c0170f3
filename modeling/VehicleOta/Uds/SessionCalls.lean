import VehicleOta.Uds.SessionStages

/-!
# The calls up to the last block

One triple for each method of the transport that `FlashManager` calls, up to the end of
`transfer_data`.
-/

namespace VehicleOta.Uds

open ProgrammingServer TraceLogic BlockLogic

namespace Bench

variable {σ : Type} {x : Bench σ}

/-! ## The calls of a session -/

section Builders

variable {library? : Option UdsSessionLibrary}
  (hlibrary : ∀ library, library? = some library → library.Documented)
include hlibrary

end Builders

section Session

variable [ProgrammingServer σ] {serving : σ → Prop} {erase : Bytes → σ → σ}
  {calls : Action → σ → Prop} {past : List Exchange} {s₀ : σ} {firmware : Bytes} {call : Action}
  {saved : List (String × Bytes)} {t : Tester σ}

/-- Where the tester stands, with the number of its next request. -/
abbrev Stage (calls : Action → σ → Prop) (past : List Exchange) (call : Action)
    (saved : List (String × Bytes)) (P : ℕ → σ → Prop) (t : Tester σ) : Prop :=
  UnderWay calls past call saved t ∧ P t.exchanges.length t.server

/-- The programming session has just been opened. -/
structure InSession (x : Bench σ) (past : List Exchange) (s₀ : σ) (n : ℕ) (s : σ) : Prop where
  number : n = past.length + 1
  opened : Opened x past n s
  locked : (base s).securityLockedUntil = (base s₀).securityLockedUntil

structure Keyed (x : Bench σ) (past : List Exchange) (n : ℕ) (s : σ) : Prop where
  opened : Opened x past n s
  ready : Ready s

variable (hserves : ServesSession x.handle serving erase calls) (hdocumented : x.Documented)
include hserves hdocumented

end Session

end Bench

end VehicleOta.Uds
