import GbaArm.Core.Basic
import GbaArm.Opcode
import GbaArm.Shift

/-! Data processing: an operation on a register and a shifted operand. -/
namespace GbaArm

/-- Result of an operation that leaves the flags alone. -/
def AluOp.value (op : AluOp) (flags : Flags) (a b : UInt32) : UInt32 :=
  match op with
  | .and | .tst => a &&& b
  | .eor | .teq => a ^^^ b
  | .sub | .cmp => a - b
  | .rsb => b - a
  | .add | .cmn => a + b
  | .adc => a + b + flags.carryBit
  | .sbc => a - b - flags.borrowBit
  | .rsc => b - a - flags.borrowBit
  | .orr => a ||| b
  | .mov => b
  | .bic => a &&& ~~~b
  | .mvn => ~~~b

/-- Result and flags. Logical operations keep the carry they are given, and the overflow. -/
def AluOp.valueFlags (op : AluOp) (flags : Flags) (a b : UInt32) : UInt32 × Flags :=
  match op with
  | .sub | .cmp => flags.sub a b
  | .rsb => flags.sub b a
  | .add | .cmn => flags.add a b
  | .adc => flags.adc a b
  | .sbc => flags.sbc a b
  | .rsc => flags.sbc b a
  | .and | .tst | .eor | .teq | .orr | .mov | .bic | .mvn =>
    let result := op.value flags a b
    (result, flags.setNZ result)

/-- The carry out of the shifter, where there is one. -/
def Flags.takeCarry (f : Flags) : Option Bool → Flags
  | some set => f.setCarryBit set
  | none => f

/-- A register shifted by an amount that the instruction encodes. -/
def Cpu.shiftedByImmediate (c : Cpu) (word : UInt32) : Shifted :=
  (ShiftKind.ofWord word).immediate (c.regs.read (Field.rm word)) ((word >>> 7) &&& 0x1F) c.flags.c

/-- The second operand where no register gives the shift amount. -/
def Cpu.immediateOperand (c : Cpu) (word : UInt32) : Shifted :=
  if bit word 25 then Shift.rotatedImmediate word else c.shiftedByImmediate word

namespace Core

variable {β : Type} [Bus β] (m : Core β)

/-- A register shifted by another. The value is read before the extra cycle, the amount after it. -/
def shiftedByRegister (word : UInt32) : Shifted × Core β :=
  let value := m.cpu.regs.read (Field.rm word)
  let m := m.internalCycle
  let amount := m.cpu.regs.read (Field.rs word) &&& 0xFF
  ((ShiftKind.ofWord word).register value amount, m)

/-- Where the amount comes from a register, the program counter moves on before any operand is read. -/
def dataProcessing (word : UInt32) (op : AluOp) (setFlags byRegister : Bool) : Core β :=
  let m := if byRegister then m.onCpu Cpu.advancePc else m
  let a := m.cpu.regs.read (Field.rn word)
  let (operand, m) :=
    if byRegister then m.shiftedByRegister word else (m.cpu.immediateOperand word, m)
  let flags := if setFlags && op.isLogical then m.cpu.flags.takeCarry operand.carry else m.cpu.flags
  let (result, flags) :=
    if setFlags then op.valueFlags flags a operand.value
    else (op.value flags a operand.value, flags)
  let m := m.onCpu fun c => { c with flags }
  let m := if byRegister then m else m.onCpu Cpu.advancePc
  if op.isCompare then m
  else if setFlags then m.writeRegisterRestoring (Field.rd word) result
  else m.writeRegister (Field.rd word) result

end Core

end GbaArm
