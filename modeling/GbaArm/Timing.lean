/-! The master cycle counter and the power state of the core. -/
namespace GbaArm

inductive PowerState
  | running | halted | stopped
  deriving DecidableEq, Repr

def PowerState.name : PowerState → String
  | running => "Running"
  | halted => "Halted"
  | stopped => "Stopped"

structure Timing where
  cycles : Nat := 0
  power : PowerState := .running
  deriving DecidableEq, Repr

/-- A request to change the power state. -/
inductive PowerChange
  | halt | stop | wake
  deriving DecidableEq, Repr

namespace Timing

def advance (t : Timing) (clocks : Nat) : Timing := { t with cycles := t.cycles + clocks }

def isIdle (t : Timing) : Bool := t.power != .running

def change (t : Timing) : PowerChange → Timing
  | .halt => { t with power := .halted }
  | .stop => { t with power := .stopped }
  | .wake => { t with power := .running }

end Timing

end GbaArm
