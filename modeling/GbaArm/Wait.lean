import GbaArm.Event

/-!
Wait states of the bus and the prefetch buffer of the cartridge.

Costs of the cartridge windows stand in two tables indexed by `(address >>> 24) ||| mark`, where the
mark is 16 for a non-sequential access. An operation gives the clocks it charges and the next state.
-/
namespace GbaArm

/-- Whether code at `pc` runs from the cartridge. -/
def inCartridge (pc : UInt32) : Bool := 0x08000000 ≤ pc && pc < 0x0E000000

structure WaitStates where
  /-- The memory-control register as last written. -/
  memoryControl : UInt32
  ewramWait : Nat
  sramWait : Nat
  waitLow : UInt8
  waitHigh : UInt8
  videoWait : Nat
  oamWait : Nat
  /-- The next cartridge access is non-sequential. -/
  nonSequential : Bool
  /-- Halfwords in the prefetch buffer. -/
  buffered : Nat
  /-- Clocks the prefetcher has banked. -/
  pending : Int
  halfCosts : Vector UInt8 32
  wordCosts : Vector UInt8 32
  prefetch : Bool
  deriving DecidableEq, Repr

/-- A write to one of the two configuration registers. -/
inductive ConfigWrite
  | waitLow (data : UInt8)
  | waitHigh (data : UInt8)
  | waitBoth (data : UInt16)
  | controlByte (address : UInt32) (data : UInt8)
  | controlHalf (address : UInt32) (data : UInt16)
  | controlWord (data : UInt32)
  deriving DecidableEq, Repr

namespace WaitStates

/-- Halfwords the prefetch buffer can hold. -/
def bufferDepth : Nat := 8

/-- No more clocks are banked from here on. -/
def pendingLimit : Int := 0xFF

/-- Clocks of a first access for a two-bit control field: 5, 4, 3 or 9. -/
def firstAccess (control : UInt8) : Nat :=
  if control &&& 3 = 3 then 9 else 5 - (control &&& 3).toNat

/-- Clocks of a following access: bit 2 selects 2, otherwise it is 3, 5 or 9 by the window. -/
def secondAccess (window : Nat) (control : UInt8) : Nat :=
  if control &&& 4 = 0 then ((2 <<< window.toUInt32) + 1 : UInt32).toNat else 2

variable (w : WaitStates)

/-- Sets the costs of cartridge window 0, 1 or 2. A window covers two values of the top byte. -/
def setWindow (window : Nat) (control : UInt8) : WaitStates :=
  let first := firstAccess control
  let second := secondAccess window control
  let even := 2 * window
  let odd := 2 * window + 1
  let place (table : Vector UInt8 32) (base cost : Nat) : Vector UInt8 32 :=
    (table.setIfInBounds (base ||| even) (UInt8.ofNat cost)).setIfInBounds (base ||| odd)
      (UInt8.ofNat cost)
  { w with
    halfCosts := place (place w.halfCosts 0x18 first) 0x08 second
    wordCosts := place (place w.wordCosts 0x18 (first + second)) 0x08 (2 * second) }

/-- Both registers hold their reset values; the first cartridge access is non-sequential. -/
def initial : WaitStates :=
  let bare : WaitStates :=
    { memoryControl := 0x0D000020
      ewramWait := 3
      sramWait := 5
      waitLow := 0
      waitHigh := 0
      videoWait := 1
      oamWait := 1
      nonSequential := true
      buffered := 0
      pending := 0
      halfCosts := Vector.replicate 32 0
      wordCosts := Vector.replicate 32 0
      prefetch := false }
  ((bare.setWindow 0 0).setWindow 1 0).setWindow 2 0

/-- Cost of a halfword at a table index, read modulo 32. -/
def halfCost (index : Nat) : Nat := (w.halfCosts.get ⟨index % 32, Nat.mod_lt _ (by decide)⟩).toNat

/-- Cost of a word at a table index, read modulo 32. -/
def wordCost (index : Nat) : Nat := (w.wordCosts.get ⟨index % 32, Nat.mod_lt _ (by decide)⟩).toNat

/-- The table index of an access to `address` under the present mark. -/
def costIndex (address : UInt32) : Nat :=
  (address >>> 24).toNat ||| (if w.nonSequential then 0x10 else 0)

def resetPrefetch : WaitStates := { w with pending := 0, buffered := 0 }

def breakSequence : WaitStates := { w with nonSequential := true }

/-- After a jump the prefetch buffer no longer holds what comes next. -/
def breakStream : WaitStates := w.breakSequence.resetPrefetch

def writeWaitLow (data : UInt8) : WaitStates :=
  { (w.setWindow 0 (data >>> 2)).setWindow 1 (data >>> 5) with
    sramWait := firstAccess data
    waitLow := data }

/-- Switching the prefetcher on, and every write that leaves it off, empties its buffer. -/
def writeWaitHigh (data : UInt8) : WaitStates :=
  let enable := data &&& 0x40 != 0
  let w := w.setWindow 2 data
  let w := if enable && w.prefetch then w else w.resetPrefetch
  { w with prefetch := enable, waitHigh := data &&& 0x5F }

/-- Clocks of external work RAM for a value of the memory-control register. -/
def ewramClocks (control : UInt32) : Nat := 16 - ((control >>> 24) &&& 0xF).toNat

def writeControlByte (address : UInt32) (data : UInt8) : WaitStates :=
  let shift := 8 * (address &&& 3)
  let byte := data.toUInt32 <<< shift
  let mask := ~~~((0xFF : UInt32) <<< shift)
  let control := (w.memoryControl &&& mask) ||| byte
  if address &&& 3 = 3 then { w with memoryControl := control, ewramWait := ewramClocks control }
  else { w with memoryControl := control }

def writeControlHalf (address : UInt32) (data : UInt16) : WaitStates :=
  let half := data.toUInt32
  if address &&& 2 = 0 then { w with memoryControl := (w.memoryControl &&& 0xFFFF0000) ||| half }
  else
    let high := half <<< 16
    let control := high ||| (w.memoryControl &&& 0xFFFF)
    { w with memoryControl := control, ewramWait := ewramClocks control }

def writeControlWord (data : UInt32) : WaitStates :=
  { w with memoryControl := data, ewramWait := ewramClocks data }

def configure : ConfigWrite → WaitStates
  | .waitLow data => w.writeWaitLow data
  | .waitHigh data => w.writeWaitHigh data
  | .waitBoth data => (w.writeWaitLow data.toUInt8).writeWaitHigh (data >>> 8).toUInt8
  | .controlByte address data => w.writeControlByte address data
  | .controlHalf address data => w.writeControlHalf address data
  | .controlWord data => w.writeControlWord data

def readWait : UInt16 := w.waitLow.toUInt16 ||| (w.waitHigh.toUInt16 <<< 8)

/-- Only bits 0 to 3, 5 and 24 to 31 of the memory-control register can be read. -/
def readControlByte (address : UInt32) : UInt8 :=
  match (address &&& 3).toNat with
  | 0 => (w.memoryControl &&& 0x2F).toUInt8
  | 3 => (w.memoryControl >>> 24).toUInt8
  | _ => 0

def readControlHalf (address : UInt32) : UInt16 :=
  if address &&& 2 = 0 then (w.memoryControl &&& 0x2F).toUInt16
  else ((w.memoryControl >>> 16) &&& 0xFF00).toUInt16

def readControlWord : UInt32 := w.memoryControl &&& 0xFF00002F

/-- The bank is a signed word and wraps around. -/
def wrapBank (clocks : Int) : Int := Int.bmod clocks UInt32.size

/-- Charges `clocks`; while code runs from the cartridge the prefetcher banks them. -/
def multiClock (pc : UInt32) (clocks : Nat) : Nat × WaitStates :=
  (clocks,
    if inCartridge pc then
      if w.pending < pendingLimit then { w with pending := wrapBank (w.pending + clocks) } else w
    else w.resetPrefetch)

def singleClock (pc : UInt32) : Nat × WaitStates := w.multiClock pc 1

/-- Without the prefetcher, idling while code runs from the cartridge breaks the sequence. -/
def internalCycles (pc : UInt32) (clocks : Nat) : Nat × WaitStates :=
  if w.prefetch then w.multiClock pc clocks
  else (clocks, if inCartridge pc then w.breakSequence else w)

def internalCycle (pc : UInt32) : Nat × WaitStates := w.internalCycles pc 1

/-- Turns clocks into buffered halfwords of `cost` each while clocks and room are left, letting the
last halfword run into debt. -/
def drainLoop (cost : Nat) : (room : Nat) → WaitStates → WaitStates
  | 0, w => w
  | room + 1, w =>
    if 0 < w.pending then
      drainLoop cost room { w with pending := w.pending - cost, buffered := w.buffered + 1 }
    else w

/-- Settles the banked clocks before a data access to the cartridge; a debt is paid at once. -/
def drainOverdue (pc : UInt32) : Nat × WaitStates :=
  if 0 < w.pending then
    let w := drainLoop (w.halfCost (pc >>> 24).toNat) (bufferDepth - w.buffered) w
    if w.pending < 0 then (w.pending.natAbs, { w with pending := 0 }) else (0, w)
  else (0, w)

/-- Turns clocks into buffered halfwords of `cost` each while they can be paid in full. -/
def fillLoop (cost : Nat) : (room : Nat) → WaitStates → WaitStates
  | 0, w => w
  | room + 1, w =>
    if cost ≤ w.pending then
      fillLoop cost room { w with pending := w.pending - cost, buffered := w.buffered + 1 }
    else w

/-- A sequence cannot go on across a 128 KiB boundary. -/
def checkBoundary (address : UInt32) : WaitStates :=
  if address &&& 0x1FFFF = 0 then w.breakSequence else w

/-- A data access of at most 16 bits. -/
def romHalf (pc address : UInt32) : Nat × WaitStates :=
  let (debt, w) := w.drainOverdue pc
  let w := w.checkBoundary address
  (debt + w.halfCost (w.costIndex address), { w with nonSequential := false })

def romWord (pc address : UInt32) : Nat × WaitStates :=
  let (debt, w) := w.drainOverdue pc
  let w := w.checkBoundary address
  (debt + w.wordCost (w.costIndex address), { w with nonSequential := false })

/-- Charges what a fetch still lacks, or the one clock of a fetch that lacks nothing. -/
def settle : Nat × WaitStates :=
  if w.pending < 0 then (w.pending.natAbs, { w with pending := 0 }) else (1, w)

/-- An instruction fetch with the prefetcher on. -/
def romFetchBuffered (address : UInt32) : Nat × WaitStates :=
  let w := fillLoop (w.halfCost (address >>> 24).toNat) (bufferDepth - w.buffered) w
  match w.buffered with
  | 0 => settle
      { w with
        pending := wrapBank (w.pending - w.wordCost (w.costIndex address)), nonSequential := false }
  | 1 => settle
      { w with
        pending := wrapBank (w.pending - w.halfCost (w.costIndex address)), nonSequential := false
        buffered := 0 }
  | more + 2 => settle { w with pending := wrapBank (w.pending + 1), buffered := more }

/-- An instruction fetch from the cartridge. -/
def romFetch (address : UInt32) : Nat × WaitStates :=
  let w := w.checkBoundary address
  if w.prefetch then w.romFetchBuffered address
  else (w.wordCost (w.costIndex address), { w with nonSequential := false })

/-- A data access at an aligned address, while executing at `pc`. -/
def access (width : Width) (pc address : UInt32) : Nat × WaitStates :=
  match Region.ofAddress address, width with
  | .ewram, .word => w.multiClock pc (2 * w.ewramWait)
  | .ewram, _ => w.multiClock pc w.ewramWait
  | .palette, .word | .vram, .word => w.multiClock pc (2 * w.videoWait)
  | .palette, _ | .vram, _ => w.multiClock pc w.videoWait
  | .oam, _ => w.multiClock pc w.oamWait
  | .rom, .word => w.romWord pc address
  | .rom, _ => w.romHalf pc address
  | .sram, _ => w.multiClock pc w.sramWait
  | .bios, _ | .iwram, _ | .io, _ | .unmapped, _ => w.singleClock pc

/-- An instruction fetch from save memory. -/
def sramFetch : Nat × WaitStates := (w.sramWait, w.resetPrefetch)

/-- An instruction fetch at an aligned address. -/
def fetch (address : UInt32) : Nat × WaitStates :=
  match Region.ofAddress address with
  | .ewram => (2 * w.ewramWait, w)
  | .palette | .vram => (2 * w.videoWait, w)
  | .oam => (w.oamWait, w)
  | .rom => w.romFetch address
  | .sram => w.sramFetch
  | .bios | .iwram | .io | .unmapped => w.singleClock address

/-- Video memory is charged one clock while the video unit owns it, and object memory alike. -/
def setRendering (video oam : Bool) : WaitStates :=
  { w with videoWait := video.toNat, oamWait := oam.toNat }

end WaitStates

/-- What a configuration write reports, from the state after it. A halfword written to the
memory-control register is silent. -/
def ConfigWrite.events (after : WaitStates) : ConfigWrite → List Event
  | waitLow data => [.waitLowWritten data after.sramWait]
  | waitHigh data => [.waitHighWritten data after.prefetch]
  | waitBoth data =>
    [.waitLowWritten data.toUInt8 after.sramWait, .waitHighWritten (data >>> 8).toUInt8 after.prefetch]
  | controlByte address _ => if address &&& 3 = 3 then [.ewramWaitWritten after.ewramWait] else []
  | controlHalf .. => []
  | controlWord _ => [.ewramWaitWritten after.ewramWait]

end GbaArm
