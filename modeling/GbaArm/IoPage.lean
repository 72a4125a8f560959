import GbaArm.Interrupt
import GbaArm.Memory

/-!
The I/O registers other than wait control and power. The interrupt registers and POSTFLG are decoded;
every other byte below the size of the page is plain storage.
-/
namespace GbaArm

structure IoPage where
  irq : InterruptController := {}
  postFlag : UInt8 := 0
  bytes : ByteArray

namespace IoPage

def size : Nat := 0x400

def blank : IoPage := { bytes := Bytes.filled size 0 }

variable (p : IoPage) (offset : Nat)

/-- Whether the interrupt controller owns the byte. -/
def isInterrupt (offset : Nat) : Bool := 0x200 ≤ offset && offset ≤ 0x20B

def readByte : UInt8 :=
  if isInterrupt offset then p.irq.readByte offset
  else if offset = 0x300 then p.postFlag
  else if offset = 0x301 then 0
  else Bytes.get p.bytes offset

/-- POSTFLG keeps one bit. -/
def writeByte (value : UInt8) : IoPage :=
  if isInterrupt offset then { p with irq := p.irq.writeByte offset value }
  else if offset = 0x300 then { p with postFlag := value &&& 1 }
  else { p with bytes := Bytes.set p.bytes offset value }

end IoPage

end GbaArm
