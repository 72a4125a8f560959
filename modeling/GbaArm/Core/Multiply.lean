import GbaArm.Core.Basic

/-!
Multiplication. The multiplier takes one cycle for every significant byte of its second operand.
-/
namespace GbaArm.Core

/-- Cycles from 1 to 4: the bytes of `rs` up to which only zeros, or sign bits if `signed`, follow. -/
def multiplierCycles (rs : UInt32) (signed : Bool) : Nat :=
  let insignificant (mask : UInt32) : Bool :=
    rs &&& mask == 0 || (signed && rs &&& mask == mask)
  if insignificant 0xFFFFFF00 then 1
  else if insignificant 0xFFFF0000 then 2
  else if insignificant 0xFF000000 then 3
  else 4

variable {β : Type} [Bus β] (m : Core β)

/-- The low word of a product. Adding to it takes one more cycle. -/
def product32 (rm rs : UInt32) (accumulate : Bool) : UInt32 × Core β :=
  (rm * rs, m.internalCycles (multiplierCycles rs true + accumulate.toNat))

/-- A product of 64 bits, with `sum` added if there is one. -/
def product64 (rm rs : UInt32) (signed : Bool) (sum : Option UInt64) : UInt64 × Core β :=
  let product :=
    if signed then signExtend64 rm * signExtend64 rs else rm.toUInt64 * rs.toUInt64
  (product + sum.getD 0, m.internalCycles (multiplierCycles rs signed + 1 + sum.isSome.toNat))

/-- R15 is never written; the program counter moves on before the first write. -/
def writeProductHigh (word value : UInt32) : Core β :=
  let m := m.onCpu Cpu.advancePc
  if Field.rn word = 15 then m else m.onCpu fun c => c.writeReg (Field.rn word) value

def writeProductLow (word value : UInt32) : Core β :=
  if Field.rd word = 15 then m else m.onCpu fun c => c.writeReg (Field.rd word) value

/-- A destination that is also the first operand leaves the product at zero, at no cost. -/
def multiply (word : UInt32) (accumulate setFlags : Bool) : Core β :=
  let (product, m) :=
    if Field.rn word = Field.rm word then (0, m)
    else m.product32 (m.cpu.regs.read (Field.rm word)) (m.cpu.regs.read (Field.rs word)) accumulate
  let result := if accumulate then product + m.cpu.regs.read (Field.rd word) else product
  let m :=
    if setFlags then m.onCpu fun c => { c with flags := c.flags.clearCarry.setNZ result } else m
  m.writeProductHigh word result

def multiplyLong (word : UInt32) (signed accumulate setFlags : Bool) : Core β :=
  let regs := m.cpu.regs
  let sum :=
    if accumulate then some (join (regs.read (Field.rn word)) (regs.read (Field.rd word))) else none
  let (result, m) := m.product64 (regs.read (Field.rm word)) (regs.read (Field.rs word)) signed sum
  let high := (result >>> 32).toUInt32
  let low := result.toUInt32
  let m :=
    if setFlags then
      m.onCpu fun c =>
        { c with flags := (c.flags.clearCarry.setNegative high).setZero (high ||| low) }
    else m
  (m.writeProductHigh word high).writeProductLow word low

end GbaArm.Core
