import GbaArm.Core.BlockTransfer
import GbaArm.Core.Exception
import GbaArm.Core.Multiply
import GbaArm.Core.StatusTransfer
import GbaArm.Core.Transfer

/-! One step of the pipeline: a refill bubble, the entry into an interrupt, or an instruction. -/
namespace GbaArm.Core

variable {β : Type} [Bus β] (m : Core β)

def execute (word : UInt32) : Opcode → Core β
  | .dataProcessing op setFlags byRegister => m.dataProcessing word op setFlags byRegister
  | .readStatus => m.readStatus word
  | .writeStatus => m.writeStatus word
  | .branchExchange => m.branchExchange word
  | .multiply accumulate setFlags => m.multiply word accumulate setFlags
  | .multiplyLong signed accumulate setFlags => m.multiplyLong word signed accumulate setFlags
  | .halfTransfer kind indexing => m.halfTransfer word kind indexing
  | .transfer load byte indexing scaled => m.transfer word load byte indexing scaled
  | .swap byte => m.swap word byte
  | .blockTransfer => m.blockTransfer word
  | .branch link => m.branchBy word link
  | .softwareInterrupt => m.softwareInterrupt
  | .undefined => m.undefinedInstruction

/-- The word at the program counter enters the pipeline. -/
def fetch : Core β :=
  let (value, m) := m.readBus (Bus.fetch32 m.cpu.pc)
  m.onCpu fun c => { c with pipe := { c.pipe with fetch := value } }

def advancePipe : Core β := m.onCpu fun c => { c with pipe := c.pipe.advance }

/-- A word whose condition fails only moves the program counter on. -/
def executeIf (word : UInt32) : Core β :=
  if (Condition.ofWord word).holds m.cpu.flags then m.execute word (Opcode.ofWord word)
  else m.onCpu Cpu.advancePc

def stepInstruction : Core β :=
  let m := m.fetch
  (m.executeIf m.cpu.pipe.execute).advancePipe

def stepBubble : Core β :=
  let m := m.onCpu fun c => { c with pipe := { c.pipe with bubbles := c.pipe.bubbles - 1 } }
  (m.fetch.onCpu Cpu.advancePc).advancePipe

def step : Core β :=
  if m.cpu.isRefilling then m.stepBubble
  else if m.cpu.irqPending then m.irq
  else m.stepInstruction

/-- The state a boot program leaves behind before it jumps to `entry`. -/
def skipBoot (entry : UInt32) : Core β :=
  let m := (m.setStatus 0x13).onCpu fun c => c.writeReg 13 0x03007FE0
  let m := (m.setStatus 0x12).onCpu fun c => c.writeReg 13 0x03007FA0
  let m := (m.setStatus 0x1F).onCpu fun c => c.writeReg 13 0x03007F00
  m.branch entry

end GbaArm.Core
