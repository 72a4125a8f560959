import GbaArm.Bus
import GbaArm.Cpu
import GbaArm.Word

/-!
The processor on a bus: jumps, register writes that may be jumps, status changes, and data access.
Every write to R15 goes through `branch`, which owns the two refill bubbles.
-/
namespace GbaArm

structure Core (β : Type) where
  cpu : Cpu
  bus : β

namespace Core

variable {β : Type} [Bus β] (m : Core β)

def onCpu (f : Cpu → Cpu) : Core β := { m with cpu := f m.cpu }

def onBus (f : β → β) : Core β := { m with bus := f m.bus }

def note (e : Event) : Core β := m.onBus (Bus.note e)

/-- Reports a change from the present mode to `mode`. -/
def noteMode (mode : Mode) : Core β :=
  if m.cpu.mode = mode then m else m.note (.modeChanged m.cpu.mode mode)

/-- Continues at `target`, after two refill bubbles. -/
def branch (target : UInt32) : Core β where
  cpu := { m.cpu with regs := m.cpu.regs.setPc target, pipe := { m.cpu.pipe with bubbles := 2 } }
  bus := Bus.branched target m.bus

def setControl (value : UInt8) : Core β :=
  (m.noteMode (Mode.ofBits value.toUInt32)).onCpu fun c => c.setControl value

def setStatus (value : UInt32) : Core β :=
  (m.noteMode (Mode.ofBits value)).onCpu fun c => c.setStatus value

/-- The saved status word of the present mode becomes the status word, if there is one. -/
def restoreStatus : Core β :=
  match m.cpu.savedStatus with
  | some saved => m.setStatus saved
  | none => m

/-- R15 as a destination is a jump. -/
def writeRegister (n : Nat) (value : UInt32) : Core β :=
  if n < 15 then m.onCpu fun c => c.writeReg n value else m.branch (alignWord value)

/-- Exception return: a jump that first restores the status word. -/
def returnTo (value : UInt32) : Core β :=
  let m := m.restoreStatus
  m.branch (if m.cpu.isThumb then alignHalf value else alignWord value)

/-- As `writeRegister`, with an exception return for R15. -/
def writeRegisterRestoring (n : Nat) (value : UInt32) : Core β :=
  if n < 15 then m.onCpu fun c => c.writeReg n value else m.returnTo value

/-- Register `n` as User mode sees it. -/
def readUser (n : Nat) : UInt32 := m.cpu.regs.readUser n m.cpu.mode

def writeUser (n : Nat) (value : UInt32) : Core β :=
  m.onCpu fun c => { c with regs := c.regs.writeUser n value c.mode }

/-- Writes a base register as User mode sees it. -/
def writeUserBase (n : Nat) (value : UInt32) : Core β :=
  if n < 15 then m.writeUser n value else m.branch (alignWord value)

def internalCycle : Core β := m.onBus (Bus.internalCycle m.cpu.pc)

def internalCycles (count : Nat) : Core β := m.onBus (Bus.internalCycles m.cpu.pc count)

/-- The edge before an access. Both edges break the fetch sequence. -/
def openAccess : Core β := m.onBus fun b => Bus.nonSequential (Bus.executingAt m.cpu.pc b)

/-- The edge after an access. -/
def closeAccess : Core β := m.onBus Bus.nonSequential

def readBus {α : Type} (read : β → α × β) : α × Core β :=
  let (value, bus) := read m.bus
  (value, { m with bus })

/-- The word at an address that is not aligned is rotated until its byte comes lowest. -/
def loadWord (address : UInt32) : UInt32 × Core β :=
  let (value, m) := m.openAccess.readBus (Bus.read32 (alignWord address))
  (rotateRight value (8 * (address &&& 3)), m.closeAccess)

/-- A halfword at an odd address is rotated by a byte. -/
def loadHalf (address : UInt32) : UInt32 × Core β :=
  let (value, m) := m.openAccess.readBus (Bus.read16 (alignHalf address))
  (rotateRight value.toUInt32 (8 * (address &&& 1)), m.closeAccess)

def loadByte (address : UInt32) : UInt32 × Core β :=
  let (value, m) := m.openAccess.readBus (Bus.read8 address)
  (value.toUInt32, m.closeAccess)

def storeWord (address value : UInt32) : Core β :=
  (m.openAccess.onBus (Bus.write32 (alignWord address) value)).closeAccess

def storeHalf (address value : UInt32) : Core β :=
  (m.openAccess.onBus (Bus.write16 (alignHalf address) value.toUInt16)).closeAccess

def storeByte (address value : UInt32) : Core β :=
  (m.openAccess.onBus (Bus.write8 address value.toUInt8)).closeAccess

end Core

namespace Field

variable (word : UInt32)

/-- Bits 19 to 16. -/
def rn : Nat := ((word >>> 16) &&& 0xF).toNat

/-- Bits 15 to 12. -/
def rd : Nat := ((word >>> 12) &&& 0xF).toNat

/-- Bits 11 to 8. -/
def rs : Nat := ((word >>> 8) &&& 0xF).toNat

/-- Bits 3 to 0. -/
def rm : Nat := (word &&& 0xF).toNat

end Field

end GbaArm
