/-! The interrupt controller: enable (IE), request (IF) and master enable (IME) registers. -/
namespace GbaArm

/-- The interrupt sources, in the order of their bits. -/
inductive IrqLine
  | vBlank | hBlank | vCounter | timer0 | timer1 | timer2 | timer3 | serial
  | dma0 | dma1 | dma2 | dma3 | keypad | gamePak
  deriving DecidableEq, Repr

namespace IrqLine

def all : List IrqLine :=
  [vBlank, hBlank, vCounter, timer0, timer1, timer2, timer3, serial, dma0, dma1, dma2, dma3, keypad,
    gamePak]

def number : IrqLine → UInt16
  | vBlank => 0
  | hBlank => 1
  | vCounter => 2
  | timer0 => 3
  | timer1 => 4
  | timer2 => 5
  | timer3 => 6
  | serial => 7
  | dma0 => 8
  | dma1 => 9
  | dma2 => 10
  | dma3 => 11
  | keypad => 12
  | gamePak => 13

def mask (line : IrqLine) : UInt16 := 1 <<< line.number

def name : IrqLine → String
  | vBlank => "VBlank"
  | hBlank => "HBlank"
  | vCounter => "VCounter"
  | timer0 => "Timer0"
  | timer1 => "Timer1"
  | timer2 => "Timer2"
  | timer3 => "Timer3"
  | serial => "Serial"
  | dma0 => "Dma0"
  | dma1 => "Dma1"
  | dma2 => "Dma2"
  | dma3 => "Dma3"
  | keypad => "Keypad"
  | gamePak => "GamePak"

end IrqLine

structure InterruptController where
  enabled : UInt16 := 0
  requested : UInt16 := 0
  masterEnable : Bool := false
  deriving DecidableEq, Repr

namespace InterruptController

variable (c : InterruptController)

/-- Only the fourteen lines can be enabled. -/
def writeEnabled (value : UInt16) : InterruptController := { c with enabled := value &&& 0x3FFF }

/-- Every bit that is one withdraws its request. -/
def acknowledge (value : UInt16) : InterruptController :=
  { c with requested := c.requested &&& ~~~value }

def writeMasterEnable (value : UInt16) : InterruptController :=
  { c with masterEnable := value &&& 1 != 0 }

def request (line : IrqLine) : InterruptController := { c with requested := c.requested ||| line.mask }

/-- Requests that are enabled, whatever the master enable says. They wake a halted core. -/
def matching : UInt16 := c.enabled &&& c.requested

/-- The requests that reach the processor. -/
def line : UInt16 := if c.masterEnable then c.matching else 0

/-- A byte of the registers; offsets are those of the I/O page. -/
def readByte (offset : Nat) : UInt8 :=
  match offset with
  | 0x200 => c.enabled.toUInt8
  | 0x201 => (c.enabled >>> 8).toUInt8
  | 0x202 => c.requested.toUInt8
  | 0x203 => (c.requested >>> 8).toUInt8
  | 0x208 => c.masterEnable.toNat.toUInt8
  | _ => 0

def writeByte (offset : Nat) (value : UInt8) : InterruptController :=
  let value := value.toUInt16
  match offset with
  | 0x200 => c.writeEnabled ((c.enabled &&& 0xFF00) ||| value)
  | 0x201 =>
    let high := value <<< 8
    c.writeEnabled ((c.enabled &&& 0x00FF) ||| high)
  | 0x202 => c.acknowledge value
  | 0x203 => c.acknowledge (value <<< 8)
  | 0x208 => c.writeMasterEnable value
  | _ => c

end InterruptController

end GbaArm
