import GbaArm.Flags
import GbaArm.Registers

/-!
The state of the processor. Three latches hold the words being fetched, decoded and executed; R15 is
the address of the word being fetched, so an instruction reads its own address plus 8 there.
-/
namespace GbaArm

structure Pipeline where
  fetch : UInt32 := 0
  decode : UInt32 := 0
  execute : UInt32 := 0
  /-- Refill steps left after a write to the program counter. -/
  bubbles : Nat
  deriving DecidableEq, Repr

/-- The latches move on by one stage. -/
def Pipeline.advance (p : Pipeline) : Pipeline := { p with execute := p.decode, decode := p.fetch }

structure Cpu where
  regs : RegisterFile
  flags : Flags
  /-- The low byte of the status word: interrupt masks, instruction set and mode. -/
  control : UInt8
  pipe : Pipeline
  irqLine : Bool
  irqPending : Bool
  deriving DecidableEq, Repr

namespace Cpu

/-- Hardware reset: Supervisor mode, interrupts masked, fetching from 0. -/
def initial : Cpu where
  regs := RegisterFile.zeroed
  flags := Flags.clear
  control := 0xD3
  pipe := { bubbles := 2 }
  irqLine := false
  irqPending := false

variable (c : Cpu)

def pc : UInt32 := c.regs.pc

def mode : Mode := Mode.ofBits c.control.toUInt32

def status : StatusWord := ⟨c.flags.nzcv ||| c.control.toUInt32⟩

/-- The saved status word of the present mode. -/
def savedStatus : Option UInt32 := c.regs.savedStatus c.mode

def isThumb : Bool := c.control &&& 0x20 != 0

def instructionSet : InstructionSet := if c.isThumb then .thumb else .arm

def irqDisabled : Bool := c.control &&& 0x80 != 0

def isRefilling : Bool := 0 < c.pipe.bubbles

/-- An interrupt is pending while the line is raised and not masked. -/
def refreshIrq : Cpu := { c with irqPending := c.irqLine && !c.irqDisabled }

/-- The state of the interrupt line, given the requests that reach the processor. -/
def setIrqLine (requests : UInt16) : Cpu := { c with irqLine := requests != 0 }.refreshIrq

/-- Brings the registers of `mode` into view. The control byte stays. -/
def switchBank (mode : Mode) : Cpu := { c with regs := c.regs.switchBank c.mode mode }

/-- Writes the control byte together with the registers it selects. -/
def setControl (value : UInt8) : Cpu :=
  { c.switchBank (Mode.ofBits value.toUInt32) with control := value }.refreshIrq

/-- Writes the whole status word. -/
def setStatus (value : UInt32) : Cpu :=
  { c with flags := Flags.ofNzcv value }.setControl value.toUInt8

def advancePc : Cpu := { c with regs := c.regs.advancePc }

def writeReg (n : Nat) (value : UInt32) : Cpu := { c with regs := c.regs.write n value }

/-- The register side of an exception: the old status is saved, interrupts are masked, ARM state and
`mode` are entered, and R14 holds the address of the next instruction to execute. -/
def enterException (mode : Mode) : Cpu :=
  let old := c.status.raw
  let c := c.switchBank mode
  let regs := (c.regs.setSavedStatus old mode).write 14 (c.pc - 4)
  { c with regs, control := (c.control &&& 0x40) ||| 0x80 ||| mode.toBits.toUInt8 }.refreshIrq

end Cpu

end GbaArm
