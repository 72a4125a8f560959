import GbaArm.Word

/-!
The barrel shifter. Every form gives the shifted value and the carry out, which is `none` when the
shift leaves the carry flag alone.
-/
namespace GbaArm

structure Shifted where
  value : UInt32
  carry : Option Bool
  deriving DecidableEq, Repr

namespace Shift

variable (value amount : UInt32)

/-- Left by an encoded amount. Zero is a plain move. -/
def lslImmediate : Shifted :=
  if amount = 0 then ⟨value, none⟩ else ⟨value <<< amount, some (bit value (32 - amount))⟩

/-- Right by an encoded amount. Zero stands for 32. -/
def lsrImmediate : Shifted :=
  if amount = 0 then ⟨0, some (bit value 31)⟩ else ⟨value >>> amount, some (bit value (amount - 1))⟩

/-- Arithmetic right by an encoded amount. Zero stands for 32. -/
def asrImmediate : Shifted :=
  if amount = 0 then ⟨arithmeticShiftRight value 31, some (bit value 31)⟩
  else ⟨arithmeticShiftRight value amount, some (bit value (amount - 1))⟩

/-- Rotation by an encoded amount. Zero moves one place through the carry. -/
def rorImmediate (carryIn : Bool) : Shifted :=
  let top : UInt32 := if carryIn then 0x80000000 else 0
  if amount = 0 then ⟨top ||| (value >>> 1), some (bit value 0)⟩
  else ⟨rotateRight value amount, some (bit value (amount - 1))⟩

/-- Left by the full amount in a register. -/
def lslRegister : Shifted :=
  if amount = 0 then ⟨value, none⟩
  else if amount < 32 then ⟨value <<< amount, some (bit value (32 - amount))⟩
  else if amount = 32 then ⟨0, some (bit value 0)⟩
  else ⟨0, some false⟩

def lsrRegister : Shifted :=
  if amount = 0 then ⟨value, none⟩
  else if amount < 32 then ⟨value >>> amount, some (bit value (amount - 1))⟩
  else if amount = 32 then ⟨0, some (bit value 31)⟩
  else ⟨0, some false⟩

def asrRegister : Shifted :=
  if amount = 0 then ⟨value, none⟩
  else if amount < 32 then ⟨arithmeticShiftRight value amount, some (bit value (amount - 1))⟩
  else ⟨arithmeticShiftRight value 31, some (bit value 31)⟩

def rorRegister : Shifted :=
  if amount = 0 then ⟨value, none⟩
  else if amount &&& 31 = 0 then ⟨value, some (bit value 31)⟩
  else ⟨rotateRight value (amount &&& 31), some (bit value ((amount &&& 31) - 1))⟩

/-- The low byte of an instruction rotated right by twice its rotate field. -/
def rotatedImmediate (word : UInt32) : Shifted :=
  let amount := (word >>> 7) &&& 0x1E
  let value := rotateRight (word &&& 0xFF) amount
  ⟨value, if amount = 0 then none else some (bit value 31)⟩

end Shift

inductive ShiftKind
  | lsl | lsr | asr | ror
  deriving DecidableEq, Repr

namespace ShiftKind

/-- The kind in bits 6 and 5 of an instruction. -/
def ofWord (word : UInt32) : ShiftKind :=
  match ((word >>> 5) &&& 3).toNat with
  | 0 => lsl
  | 1 => lsr
  | 2 => asr
  | _ => ror

/-- Shift by an encoded amount from 0 to 31. -/
def immediate (kind : ShiftKind) (value amount : UInt32) (carryIn : Bool) : Shifted :=
  match kind with
  | lsl => Shift.lslImmediate value amount
  | lsr => Shift.lsrImmediate value amount
  | asr => Shift.asrImmediate value amount
  | ror => Shift.rorImmediate value amount carryIn

/-- Shift by an amount read from a register. -/
def register (kind : ShiftKind) (value amount : UInt32) : Shifted :=
  match kind with
  | lsl => Shift.lslRegister value amount
  | lsr => Shift.lsrRegister value amount
  | asr => Shift.asrRegister value amount
  | ror => Shift.rorRegister value amount

end ShiftKind

end GbaArm
