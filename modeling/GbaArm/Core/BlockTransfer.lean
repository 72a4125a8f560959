import GbaArm.Core.Basic

/-!
Transfers of a list of registers. Registers move lowest first, the lowest at the lowest address. Words
go straight to the bus, with no rotation and no break between them.
-/
namespace GbaArm

/-- How a block transfer walks memory. -/
structure BlockMode where
  /-- Step before each access, in the direction of `up`. -/
  before : Bool
  /-- Towards higher addresses. -/
  up : Bool
  /-- User registers, or an exception return if R15 is loaded. -/
  user : Bool
  writeback : Bool
  load : Bool
  deriving DecidableEq, Repr

namespace BlockMode

def ofWord (word : UInt32) : BlockMode where
  before := bit word 24
  up := bit word 23
  user := bit word 22
  writeback := bit word 21
  load := bit word 20

variable (mode : BlockMode) (base : UInt32)

/-- Memory is always walked upwards. A transfer downwards that steps after each access so becomes a
walk that steps before it. -/
def stepsFirst : Bool := mode.before == mode.up

/-- Where the walk over `count` registers starts. -/
def start (count : UInt32) : UInt32 := if mode.up then base else base - 4 * count

/-- The address of the access at a place of the walk. -/
def accessed (place : UInt32) : UInt32 := if mode.stepsFirst then place + 4 else place

/-- The base after `count` registers. -/
def finalBase (count : UInt32) : UInt32 := if mode.up then base + 4 * count else base - 4 * count

/-- The address read when the list is empty. -/
def emptyAddress : UInt32 :=
  let step : UInt32 := if mode.writeback then 0x40 else 4
  if mode.before then if mode.up then base + step else base - step else base

/-- The base after an empty list. -/
def emptyBase : UInt32 := if mode.up then base + 0x40 else base - 0x40

end BlockMode

/-- The registers of a block transfer, lowest first. -/
def registerList (word : UInt32) : List Nat := (List.range 16).filter fun n => bit word n.toUInt32

namespace Core

variable {β : Type} [Bus β]

/-- Stores registers from `place` on. The base is written back once the first word is out. -/
def storeList (mode : BlockMode) (n : Nat) (finalBase : UInt32) :
    List Nat → (first : Bool) → (place : UInt32) → Core β → Core β
  | [], _, _, m => m
  | r :: rest, first, place, m =>
    let value := if mode.user then m.readUser r else m.cpu.regs.read r
    let m := m.onBus (Bus.write32 (alignWord (mode.accessed place)) value)
    let m := if first && mode.writeback then m.writeRegister n finalBase else m
    storeList mode n finalBase rest false (place + 4) m

/-- The destination of one loaded word. User registers are meant unless R15 is loaded too. -/
def writeLoaded (mode : BlockMode) (withPc : Bool) (r : Nat) (value : UInt32) (m : Core β) : Core β :=
  if mode.user then
    if r < 15 then
      if withPc then m.onCpu fun c => c.writeReg r value else m.writeUser r value
    else m.returnTo value
  else m.writeRegister r value

def loadList (mode : BlockMode) (withPc : Bool) :
    List Nat → (place : UInt32) → Core β → Core β
  | [], _, m => m
  | r :: rest, place, m =>
    let (value, m) := m.readBus (Bus.read32 (alignWord (mode.accessed place)))
    loadList mode withPc rest (place + 4) (writeLoaded mode withPc r value m)

variable (m : Core β)

/-- An empty list stores nothing and leaves the base alone. -/
def blockStore (word : UInt32) (mode : BlockMode) : Core β :=
  let list := registerList word
  if list.isEmpty then m
  else
    let count := list.length.toUInt32
    let base := m.cpu.regs.read (Field.rn word)
    let m := m.openAccess
    let m := storeList mode (Field.rn word) (mode.finalBase base count) list true
      (mode.start base count) m
    m.closeAccess

/-- Loads R15 when the list is empty, and moves the base by sixteen words. -/
def loadEmpty (word base : UInt32) (mode : BlockMode) : Core β :=
  let (value, m) := m.readBus (Bus.read32 (alignWord (mode.emptyAddress base)))
  let m := if mode.user then m.returnTo value else m.writeRegister 15 value
  if mode.writeback then m.writeRegister (Field.rn word) (mode.emptyBase base) else m

/-- The base is written back after the loads, so it wins over a loaded base. Without writeback, plain
loads that step down after each access break the sequence once more. -/
def loadListed (word base : UInt32) (mode : BlockMode) : Core β :=
  let list := registerList word
  let count := list.length.toUInt32
  let m := loadList mode (bit word 15) list (mode.start base count) m
  if mode.writeback then m.writeRegister (Field.rn word) (mode.finalBase base count)
  else if !mode.before && !mode.up && !mode.user then m.onBus Bus.nonSequential
  else m

def blockLoad (word : UInt32) (mode : BlockMode) : Core β :=
  let base := m.cpu.regs.read (Field.rn word)
  let m := m.openAccess
  let m :=
    if (registerList word).isEmpty then m.loadEmpty word base mode else m.loadListed word base mode
  m.closeAccess.internalCycle

def blockTransfer (word : UInt32) : Core β :=
  let m := m.onCpu Cpu.advancePc
  let mode := BlockMode.ofWord word
  if mode.load then m.blockLoad word mode else m.blockStore word mode

end Core

end GbaArm
