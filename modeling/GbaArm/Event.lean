import GbaArm.Memory
import GbaArm.Status
import GbaArm.Text.Hex
import GbaArm.Timing

/-! What the machine reports as it runs, and the words of the log for it. -/
namespace GbaArm

/-- Importance of a log record, the gravest first. -/
inductive Level
  | error | warn | info | debug | trace
  deriving DecidableEq, Repr

namespace Level

def all : List Level := [error, warn, info, debug, trace]

def name : Level → String
  | error => "ERROR"
  | warn => "WARN"
  | info => "INFO"
  | debug => "DEBUG"
  | trace => "TRACE"

/-- Graver levels have lower ranks; the lowest is 1. -/
def rank : Level → Nat
  | error => 1
  | warn => 2
  | info => 3
  | debug => 4
  | trace => 5

/-- The level of a name in any case. -/
def ofName? (text : String) : Option Level := all.find? fun level => level.name == text.toUpper

end Level

/-- The part of the machine that reports an event. -/
inductive Source
  | cpu | armCode | wait | memory | timing | program
  deriving DecidableEq, Repr

def Source.name : Source → String
  | cpu => "arm7gba_core::cpu"
  | armCode => "arm7gba_core::cpu::arm"
  | wait => "arm7gba_core::wait"
  | memory => "arm7gba_core::mem"
  | timing => "arm7gba_core::timing"
  | program => "arm7gba"

inductive Event
  | modeChanged (old new : Mode)
  | exceptionEntered (mode : Mode) (vector returnAddress : UInt32)
  | undefinedInstruction (word address : UInt32)
  | thumbBranch (target : UInt32)
  | imageLoaded (kind : ImageKind) (size : Nat)
  | waitLowWritten (data : UInt8) (sramClocks : Nat)
  | waitHighWritten (data : UInt8) (prefetch : Bool)
  | ewramWaitWritten (clocks : Nat)
  | halted (cycle : Nat)
  | stopped (cycle : Nat)
  | woken (state : PowerState) (cycle : Nat)
  | runStarted (path : String) (budget : Nat)
  deriving DecidableEq, Repr

namespace Event

def level : Event → Level
  | undefinedInstruction .. | thumbBranch .. => .warn
  | imageLoaded .. | runStarted .. => .info
  | _ => .debug

def source : Event → Source
  | modeChanged .. | exceptionEntered .. | undefinedInstruction .. => .cpu
  | thumbBranch .. => .armCode
  | imageLoaded .. => .memory
  | waitLowWritten .. | waitHighWritten .. | ewramWaitWritten .. => .wait
  | halted .. | stopped .. | woken .. => .timing
  | runStarted .. => .program

def message : Event → String
  | modeChanged old new => "mode " ++ old.name ++ " -> " ++ new.name
  | exceptionEntered mode vector returnAddress =>
    "exception -> " ++ mode.name ++ " vector 0x" ++ Text.hexUpper 2 vector.toNat ++ ", return " ++
      Text.wordText returnAddress
  | undefinedInstruction word address =>
    "undefined instruction " ++ Text.hexUpper 8 word.toNat ++ " at " ++ Text.hexUpper 8 address.toNat
  | thumbBranch target => "BX into THUMB code at " ++ Text.wordText target
  | imageLoaded kind size => kind.name ++ " loaded (" ++ toString size ++ " bytes)"
  | waitLowWritten data sramClocks =>
    "WAITCNT low <- " ++ Text.byteText data ++ " (sram " ++ toString sramClocks ++ " clocks)"
  | waitHighWritten data prefetch =>
    "WAITCNT high <- " ++ Text.byteText data ++ " (prefetch " ++ (if prefetch then "on" else "off") ++ ")"
  | ewramWaitWritten clocks => "EWRAM wait <- " ++ toString clocks ++ " clocks"
  | halted cycle => "HALTCNT: halt at cycle " ++ toString cycle
  | stopped cycle => "HALTCNT: stop at cycle " ++ toString cycle
  | woken state cycle => "woken from " ++ state.name ++ " at cycle " ++ toString cycle
  | runStarted path budget => "running " ++ path ++ " for " ++ toString budget ++ " cycles"

end Event

/-- What a change of power state reports; waking what already runs is no event. -/
def Timing.events (t : Timing) : PowerChange → List Event
  | .halt => [.halted t.cycles]
  | .stop => [.stopped t.cycles]
  | .wake => if t.isIdle then [.woken t.power t.cycles] else []

end GbaArm
