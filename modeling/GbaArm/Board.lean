import GbaArm.Bus
import GbaArm.Fault
import GbaArm.IoPage
import GbaArm.Log
import GbaArm.Wait
import GbaArm.Word

/-!
The real bus: memories, I/O page, wait states, clock and log. Every access first charges its clocks,
then takes effect.
-/
namespace GbaArm

structure Board where
  memory : Memory
  io : IoPage
  wait : WaitStates
  timing : Timing
  /-- The program counter as the bus last heard of it. -/
  pc : UInt32
  log : Log

namespace Board

def initial (log : Log) : Board where
  memory := Memory.blank
  io := IoPage.blank
  wait := WaitStates.initial
  timing := {}
  pc := 0
  log := log

variable (b : Board)

def note (e : Event) : Board := { b with log := b.log.note e }

def noteAll (events : List Event) : Board := { b with log := b.log.noteAll events }

/-- Replaces one of the images and keeps everything else. -/
def load (kind : ImageKind) (image : ByteArray) : Except Fault Board := do
  let memory ← b.memory.load kind image
  return { b with memory }.note (.imageLoaded kind image.size)

/-- Clears I/O, wait states and clock. Memories and log stay. -/
def reset : Board :=
  { b with io := IoPage.blank, wait := WaitStates.initial, timing := {}, pc := 0 }

/-- Advances the clock by what the wait states charge. -/
def charge (cost : WaitStates → Nat × WaitStates) : Board :=
  let (clocks, wait) := cost b.wait
  { b with wait, timing := b.timing.advance clocks }

/-- One cycle with nothing executing. -/
def idle : Board := b.charge fun w => w.singleClock b.pc

def configure (write : ConfigWrite) : Board :=
  let wait := b.wait.configure write
  { b with wait }.noteAll (write.events wait)

def changePower (change : PowerChange) : Board :=
  let events := b.timing.events change
  { b with timing := b.timing.change change }.noteAll events

def setRendering (video oam : Bool) : Board := { b with wait := b.wait.setRendering video oam }

def request (line : IrqLine) : Board := { b with io := { b.io with irq := b.io.irq.request line } }

/-- The offset of an address in the I/O page. -/
def ioOffset (address : UInt32) : UInt32 := address &&& 0xFFFFFF

/-- The memory-control register repeats every 64 KiB. -/
def isMemoryControl (offset : UInt32) : Bool := offset &&& 0xFFFC == 0x800

def readIoByte (address : UInt32) : UInt8 :=
  let offset := ioOffset address
  if offset = 0x204 then b.wait.waitLow
  else if offset = 0x205 then b.wait.waitHigh
  else if isMemoryControl offset then b.wait.readControlByte offset
  else b.io.readByte offset.toNat

def writeIoByte (address : UInt32) (value : UInt8) : Board :=
  let offset := ioOffset address
  if offset = 0x204 then b.configure (.waitLow value)
  else if offset = 0x205 then b.configure (.waitHigh value)
  else if offset = 0x301 then b.changePower (if value &&& 0x80 = 0 then .halt else .stop)
  else if isMemoryControl offset then b.configure (.controlByte offset value)
  else { b with io := b.io.writeByte offset.toNat value }

/-- A wider access is made of bytes, the lowest first. -/
def readIo (width : Width) (address : UInt32) : UInt32 :=
  let part (i : UInt32) : UInt32 := (b.readIoByte (address + i)).toUInt32
  match width with
  | .byte => part 0
  | .half => part 0 ||| (part 1 <<< 8)
  | .word => part 0 ||| (part 1 <<< 8) ||| (part 2 <<< 16) ||| (part 3 <<< 24)

def writeIo (width : Width) (address value : UInt32) : Board :=
  match width with
  | .byte => b.writeIoByte address value.toUInt8
  | .half =>
    let b := b.writeIoByte address value.toUInt8
    b.writeIoByte (address + 1) (value >>> 8).toUInt8
  | .word =>
    let b := b.writeIoByte address value.toUInt8
    let b := b.writeIoByte (address + 1) (value >>> 8).toUInt8
    let b := b.writeIoByte (address + 2) (value >>> 16).toUInt8
    b.writeIoByte (address + 3) (value >>> 24).toUInt8

/-- The value at an address, without its cost. -/
def valueAt (width : Width) (address : UInt32) : UInt32 :=
  if Region.ofAddress address = .io then b.readIo width (width.align address)
  else b.memory.value width address

/-- The effect of a write, without its cost. -/
def updateAt (width : Width) (address value : UInt32) : Board :=
  if Region.ofAddress address = .io then b.writeIo width (width.align address) value
  else { b with memory := b.memory.update width address value }

def chargeAccess (width : Width) (address : UInt32) : Board :=
  b.charge fun w => w.access width b.pc (width.align address)

def read (width : Width) (address : UInt32) : UInt32 × Board :=
  let b := b.chargeAccess width address
  (b.valueAt width address, b)

def write (width : Width) (address value : UInt32) : Board :=
  (b.chargeAccess width address).updateAt width address value

/-- Instructions cannot be fetched from the I/O page, which reads zero here. -/
def fetch (address : UInt32) : UInt32 × Board :=
  let address := alignWord address
  let b := { b with pc := address }.charge fun w => w.fetch address
  (b.memory.value .word address, b)

def internalCycle (pc : UInt32) : Board := { b with pc }.charge fun w => w.internalCycle pc

def internalCycles (pc : UInt32) (count : Nat) : Board :=
  { b with pc }.charge fun w => w.internalCycles pc count

end Board

instance : Bus Board where
  read32 address b := b.read .word address
  read16 address b :=
    let (value, b) := b.read .half address
    (value.toUInt16, b)
  read8 address b :=
    let (value, b) := b.read .byte address
    (value.toUInt8, b)
  write32 address value b := b.write .word address value
  write16 address value b := b.write .half address value.toUInt32
  write8 address value b := b.write .byte address value.toUInt32
  fetch32 address b := b.fetch address
  internalCycle pc b := b.internalCycle pc
  internalCycles pc count b := b.internalCycles pc count
  nonSequential b := { b with wait := b.wait.breakSequence }
  executingAt pc b := { b with pc }
  branched target b := { b with pc := target, wait := b.wait.breakStream }
  note event b := b.note event

end GbaArm
