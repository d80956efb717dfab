import Mathlib.Data.Int.Notation
import Mathlib.Data.Nat.Notation

/-!
# `sysCfg.h`: the run state and the report

* `RunState` — the values `Sys_State_Run` takes in the modelled threads;
* `Report` — `Check_report_st`, the result of the last check.
-/

namespace IpncRdk.SysCfg

/-- The `MDVR_Sys_…` constants that are ever stored as the run state. -/
inductive RunState
  | exeTask
  | idle
  | warning
  | airkiss
  deriving DecidableEq, Repr

/-- `Check_report_st`; `date` is the string in its 20 bytes. -/
structure Report where
  date : List UInt8
  percent : ℤ
  result : ℤ
  isValid : Bool
  errCode : ℤ
  deriving DecidableEq, Repr

end IpncRdk.SysCfg
