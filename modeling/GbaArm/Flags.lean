/-!
Condition flags, evaluated lazily: N is bit 31 of its word, Z is set when its word is zero, and C and
V are bit 31 of theirs. The bits below carry no meaning.
-/
namespace GbaArm

structure Flags where
  negative : UInt32
  zero : UInt32
  carry : UInt32
  overflow : UInt32
  deriving DecidableEq, Repr

namespace Flags

variable (f : Flags) (a b : UInt32)

/-- All four flags clear. -/
def clear : Flags := ⟨0, 1, 0, 0⟩

def n : Bool := f.negative &&& 0x80000000 != 0

def z : Bool := f.zero == 0

def c : Bool := f.carry &&& 0x80000000 != 0

def v : Bool := f.overflow &&& 0x80000000 != 0

/-- Carry as 0 or 1. -/
def carryBit : UInt32 := f.carry >>> 31

/-- Inverted carry as 0 or 1, the borrow of a subtraction. -/
def borrowBit : UInt32 := (~~~f.carry) >>> 31

def setNZ (result : UInt32) : Flags := { f with negative := result, zero := result }

def setNegative (word : UInt32) : Flags := { f with negative := word }

def setZero (word : UInt32) : Flags := { f with zero := word }

/-- Bit 31 of `word` becomes the carry. -/
def setCarry (word : UInt32) : Flags := { f with carry := word }

def setCarryBit (set : Bool) : Flags := { f with carry := if set then 0x80000000 else 0 }

def clearCarry : Flags := { f with carry := 0 }

def setOverflowBit (set : Bool) : Flags := { f with overflow := if set then 0x80000000 else 0 }

/-- Sum and its flags, with `carryIn` added. -/
def sum (carryIn : UInt32) : UInt32 × Flags :=
  let result := a + b + carryIn
  (result,
    { negative := result
      zero := result
      carry := if UInt32.size ≤ a.toNat + b.toNat + carryIn.toNat then 0x80000000 else 0
      overflow := (a ^^^ result) &&& (b ^^^ result) })

/-- Difference and its flags, with `borrowIn` taken off. The carry is set when nothing was borrowed. -/
def difference (borrowIn : UInt32) : UInt32 × Flags :=
  let result := a - b - borrowIn
  (result,
    { negative := result
      zero := result
      carry := if b.toNat + borrowIn.toNat ≤ a.toNat then 0x80000000 else 0
      overflow := (a ^^^ b) &&& (a ^^^ result) })

def add (_ : Flags) : UInt32 × Flags := sum a b 0

def adc : UInt32 × Flags := sum a b f.carryBit

def sub (_ : Flags) : UInt32 × Flags := difference a b 0

def sbc : UInt32 × Flags := difference a b f.borrowBit

def cmp : Flags := (f.sub a b).2

def cmn : Flags := (f.add a b).2

/-- The flags in bits 31 to 28, all other bits zero. -/
def nzcv : UInt32 :=
  let negative := f.negative &&& 0x80000000
  let zero : UInt32 := if f.z then 0x40000000 else 0
  let carry := (f.carry &&& 0x80000000) >>> 2
  let overflow := (f.overflow &&& 0x80000000) >>> 3
  negative ||| zero ||| carry ||| overflow

/-- The flags held in bits 31 to 28 of `word`. -/
def ofNzcv (word : UInt32) : Flags where
  negative := word
  zero := ~~~word &&& 0x40000000
  carry := word <<< 2
  overflow := word <<< 3

end Flags

/-- The sixteen condition codes, in the order of their encodings. -/
inductive Condition
  | eq | ne | cs | cc | mi | pl | vs | vc | hi | ls | ge | lt | gt | le | al | nv
  deriving DecidableEq, Repr

namespace Condition

/-- The code in bits 31 to 28 of an instruction. -/
def ofWord (word : UInt32) : Condition :=
  match (word >>> 28).toNat with
  | 0 => eq | 1 => ne | 2 => cs | 3 => cc | 4 => mi | 5 => pl | 6 => vs | 7 => vc
  | 8 => hi | 9 => ls | 10 => ge | 11 => lt | 12 => gt | 13 => le | 14 => al | _ => nv

/-- `nv` executes like `al` on this processor. -/
def holds : Condition → Flags → Bool
  | eq, f => f.z
  | ne, f => !f.z
  | cs, f => f.c
  | cc, f => !f.c
  | mi, f => f.n
  | pl, f => !f.n
  | vs, f => f.v
  | vc, f => !f.v
  | hi, f => f.c && !f.z
  | ls, f => !f.c || f.z
  | ge, f => f.n == f.v
  | lt, f => f.n != f.v
  | gt, f => !f.z && f.n == f.v
  | le, f => f.z || f.n != f.v
  | al, _ | nv, _ => true

end Condition

end GbaArm
