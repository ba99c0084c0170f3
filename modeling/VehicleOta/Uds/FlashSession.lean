import VehicleOta.Uds.SessionCalls

/-!
# A whole flashing session

`UDSClient.flash_firmware` as far as the reset, on either server in any state, over a channel on
which every answer arrives in time.
-/

namespace VehicleOta.Uds

open ProgrammingServer TraceLogic BlockLogic

namespace Bench

variable {σ : Type} {x : Bench σ}

section Session

variable [ProgrammingServer σ] {serving : σ → Prop} {erase : Bytes → σ → σ}
  {calls : Action → σ → Prop} {past : List Exchange} {s₀ : σ} {firmware : Bytes} {call : Action}
  {saved : List (String × Bytes)} {t : Tester σ}

variable (hserves : ServesSession x.handle serving erase calls) (hdocumented : x.Documented)
include hserves hdocumented

/-! ### Behind the download -/

end Session

end Bench

/-! ## Both servers -/

end VehicleOta.Uds
