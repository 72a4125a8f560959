import GbaArm.Core.Basic
import GbaArm.Shift

/-! Moves between registers and status words, and the jump that selects the instruction set. -/
namespace GbaArm.Core

variable {β : Type} [Bus β] (m : Core β)

/-- A mode without a saved status word reads the present one in its place. -/
def readStatus (word : UInt32) : Core β :=
  let present := m.cpu.status.raw
  let value := if bit word 22 then m.cpu.savedStatus.getD present else present
  (m.onCpu Cpu.advancePc).writeRegister (Field.rd word) value

/-- The flags are always written. The control byte needs its field bit and a mode field other than
User's, and keeps ARM state. -/
def writePresentStatus (word value : UInt32) : Core β :=
  let m := m.onCpu fun c => { c with flags := Flags.ofNzcv value }
  if bit word 16 && m.cpu.control &&& 0x1F != 0x10 then m.setControl (value.toUInt8 &&& 0xDF) else m

/-- Writes the flags of the saved status word, and its control byte if asked to. -/
def writeSavedStatus (withControl : Bool) (value : UInt32) : Core β :=
  match m.cpu.savedStatus with
  | some old =>
    let control := if withControl then value &&& 0xFF else old &&& 0xFF
    m.onCpu fun c =>
      { c with regs := c.regs.setSavedStatus ((value &&& 0xF0000000) ||| control) c.mode }
  | none => m

/-- Bit 22 selects the saved status word, bit 25 an immediate, which only reaches the flags. -/
def writeStatus (word : UInt32) : Core β :=
  let immediate := (Shift.rotatedImmediate word).value
  let register := m.cpu.regs.read (Field.rm word)
  let m :=
    match bit word 25, bit word 22 with
    | false, false => m.writePresentStatus word register
    | false, true => m.writeSavedStatus (bit word 16) register
    | true, false => m.onCpu fun c => { c with flags := Flags.ofNzcv immediate }
    | true, true => m.writeSavedStatus false immediate
  m.onCpu Cpu.advancePc

/-- Bit 0 of the target selects the 16-bit instruction set. -/
def branchExchange (word : UInt32) : Core β :=
  let target := m.cpu.regs.read (Field.rm word)
  if bit target 0 then
    let m := m.note (.thumbBranch (alignHalf target))
    let m := m.onCpu fun c => { c with control := c.control ||| 0x20 }
    m.branch (alignHalf target)
  else m.branch (alignWord target)

/-- The offset of a branch: bits 23 to 0 as a signed count of words. -/
def branchOffset (word : UInt32) : UInt32 := arithmeticShiftRight (word <<< 8) 6

/-- A linking branch leaves the address of the next instruction in R14. -/
def branchBy (word : UInt32) (link : Bool) : Core β :=
  let m := if link then m.onCpu fun c => c.writeReg 14 (c.pc - 4) else m
  m.branch (m.cpu.pc + branchOffset word)

end GbaArm.Core
