/-! Bit operations on 32-bit words. Shift amounts are read modulo 32. -/
namespace GbaArm

/-- Bit `n` of a word. -/
def bit (w n : UInt32) : Bool := (w >>> n) &&& 1 != 0

def rotateRight (w n : UInt32) : UInt32 := (w >>> n) ||| (w <<< (32 - n))

/-- Shift right, filling with copies of the sign bit. -/
def arithmeticShiftRight (w n : UInt32) : UInt32 := (w.toInt32 >>> n.toInt32).toUInt32

def signExtend8 (w : UInt32) : UInt32 := w.toUInt8.toInt8.toInt32.toUInt32

def signExtend16 (w : UInt32) : UInt32 := w.toUInt16.toInt16.toInt32.toUInt32

def signExtend64 (w : UInt32) : UInt64 := w.toInt32.toInt64.toUInt64

def alignWord (address : UInt32) : UInt32 := address &&& 0xFFFFFFFC

def alignHalf (address : UInt32) : UInt32 := address &&& 0xFFFFFFFE

/-- Two words as one double word. -/
def join (high low : UInt32) : UInt64 := (high.toUInt64 <<< 32) ||| low.toUInt64

end GbaArm
