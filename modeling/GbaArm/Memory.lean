/-! The memories of the console, and little-endian access to a run of bytes. -/
namespace GbaArm

/-- The size of a data access. -/
inductive Width
  | byte | half | word
  deriving DecidableEq, Repr

namespace Width

def bytes : Width → Nat
  | byte => 1
  | half => 2
  | word => 4

/-- The address with its bits below the width cleared. -/
def align : Width → UInt32 → UInt32
  | byte, a => a
  | half, a => a &&& 0xFFFFFFFE
  | word, a => a &&& 0xFFFFFFFC

/-- The position of an address inside its aligned unit. -/
def lane : Width → UInt32 → UInt32
  | byte, _ => 0
  | half, a => a &&& 1
  | word, a => a &&& 3

end Width

namespace Bytes

/-- `n` copies of a byte, after those of `start`. -/
def extend (byte : UInt8) : Nat → ByteArray → ByteArray
  | 0, start => start
  | n + 1, start => extend byte n (start.push byte)

def filled (n : Nat) (byte : UInt8) : ByteArray := extend byte n (ByteArray.emptyWithCapacity n)

def get (bytes : ByteArray) (i : Nat) : UInt8 := if h : i < bytes.size then bytes[i] else 0

def set (bytes : ByteArray) (i : Nat) (value : UInt8) : ByteArray :=
  if h : i < bytes.size then bytes.set i value h else bytes

/-- The unit at `offset`, or `none` if it does not lie inside. -/
def load (width : Width) (bytes : ByteArray) (offset : Nat) : Option UInt32 :=
  if offset + width.bytes ≤ bytes.size then
    let part (i : Nat) : UInt32 := (get bytes (offset + i)).toUInt32
    some <| match width with
      | .byte => part 0
      | .half => part 0 ||| (part 1 <<< 8)
      | .word => part 0 ||| (part 1 <<< 8) ||| (part 2 <<< 16) ||| (part 3 <<< 24)
  else none

/-- Stores the unit at `offset`; does nothing if it does not lie inside. -/
def store (width : Width) (bytes : ByteArray) (offset : Nat) (value : UInt32) : ByteArray :=
  if offset + width.bytes ≤ bytes.size then
    match width with
    | .byte => set bytes offset value.toUInt8
    | .half =>
      let bytes := set bytes offset value.toUInt8
      set bytes (offset + 1) (value >>> 8).toUInt8
    | .word =>
      let bytes := set bytes offset value.toUInt8
      let bytes := set bytes (offset + 1) (value >>> 8).toUInt8
      let bytes := set bytes (offset + 2) (value >>> 16).toUInt8
      set bytes (offset + 3) (value >>> 24).toUInt8
  else bytes

end Bytes

/-- What an address selects, by its top byte. -/
inductive Region
  | bios | ewram | iwram | io | palette | vram | oam | rom | sram | unmapped
  deriving DecidableEq, Repr

def Region.ofAddress (address : UInt32) : Region :=
  match (address >>> 24).toNat with
  | 0x0 => bios
  | 0x2 => ewram
  | 0x3 => iwram
  | 0x4 => io
  | 0x5 => palette
  | 0x6 => vram
  | 0x7 => oam
  | 0x8 | 0x9 | 0xA | 0xB | 0xC | 0xD => rom
  | 0xE | 0xF => sram
  | _ => unmapped

/-- The two images a user supplies. -/
inductive ImageKind
  | bios | rom
  deriving DecidableEq, Repr

def ImageKind.name : ImageKind → String
  | bios => "BIOS"
  | rom => "ROM"

structure Memory where
  bios : ByteArray
  ewram : ByteArray
  iwram : ByteArray
  palette : ByteArray
  vram : ByteArray
  oam : ByteArray
  rom : ByteArray
  sram : ByteArray

namespace Memory

def biosSize : Nat := 0x4000
def ewramSize : Nat := 0x40000
def iwramSize : Nat := 0x8000
def paletteSize : Nat := 0x400
def vramSize : Nat := 0x18000
def oamSize : Nat := 0x400
def sramSize : Nat := 0x10000

/-- The longest cartridge image. -/
def romLimit : Nat := 0x2000000

/-- Memory at power-on: no cartridge, save memory erased, all else zero. -/
def blank : Memory where
  bios := Bytes.filled biosSize 0
  ewram := Bytes.filled ewramSize 0
  iwram := Bytes.filled iwramSize 0
  palette := Bytes.filled paletteSize 0
  vram := Bytes.filled vramSize 0
  oam := Bytes.filled oamSize 0
  rom := ByteArray.empty
  sram := Bytes.filled sramSize 0xFF

/-- The image with zeros after it, up to the size of the BIOS. -/
def padBios (image : ByteArray) : ByteArray := Bytes.extend 0 (biosSize - image.size) image

/-- Video memory is 96 KiB in a window of 128: the last quarter repeats the one before it. -/
def vramOffset (address : UInt32) : Nat :=
  let offset := (address &&& 0x1FFFF).toNat
  if 0x18000 ≤ offset then offset - 0x8000 else offset

/-- Past the end of the image the cartridge bus shows the halfword address. -/
def openBus (address : UInt32) : UInt32 := (address >>> 1) &&& 0xFFFF

variable (m : Memory)

def romHalf (address : UInt32) : UInt32 :=
  (Bytes.load .half m.rom (address &&& 0x1FFFFFE).toNat).getD (openBus address)

def romWord (address : UInt32) : UInt32 :=
  match Bytes.load .word m.rom (address &&& 0x1FFFFFC).toNat with
  | some value => value
  | none => openBus address ||| (openBus (address + 2) <<< 16)

/-- The cartridge at an aligned address. Bytes are cut out of halfwords. -/
def romValue (width : Width) (address : UInt32) : UInt32 :=
  match width with
  | .byte => (m.romHalf address >>> (8 * (address &&& 1))) &&& 0xFF
  | .half => m.romHalf address
  | .word => m.romWord address

def sramByte (address : UInt32) : UInt8 := Bytes.get m.sram (address &&& 0xFFFF).toNat

/-- Save memory has a bus of eight bits: wider reads repeat the byte. -/
def sramValue (width : Width) (address : UInt32) : UInt32 :=
  let byte := (m.sramByte address).toUInt32
  match width with
  | .byte => byte
  | .half => byte * 0x0101
  | .word => byte * 0x01010101

/-- The value read at `address`, which need not be aligned. The I/O page is not a memory. -/
def value (width : Width) (address : UInt32) : UInt32 :=
  let a := width.align address
  match Region.ofAddress address with
  | .bios => (Bytes.load width m.bios a.toNat).getD 0
  | .ewram => (Bytes.load width m.ewram (a &&& 0x3FFFF).toNat).getD 0
  | .iwram => (Bytes.load width m.iwram (a &&& 0x7FFF).toNat).getD 0
  | .palette => (Bytes.load width m.palette (a &&& 0x3FF).toNat).getD 0
  | .vram => (Bytes.load width m.vram (vramOffset a)).getD 0
  | .oam => (Bytes.load width m.oam (a &&& 0x3FF).toNat).getD 0
  | .rom => m.romValue width a
  | .sram => m.sramValue width address
  | .io | .unmapped => 0

/-- Writes the memory `address` selects; BIOS and cartridge are read-only. Save memory takes the one
byte of `v` that lies at the exact address. -/
def update (width : Width) (address v : UInt32) : Memory :=
  let a := width.align address
  match Region.ofAddress address with
  | .ewram => { m with ewram := Bytes.store width m.ewram (a &&& 0x3FFFF).toNat v }
  | .iwram => { m with iwram := Bytes.store width m.iwram (a &&& 0x7FFF).toNat v }
  | .palette => { m with palette := Bytes.store width m.palette (a &&& 0x3FF).toNat v }
  | .vram => { m with vram := Bytes.store width m.vram (vramOffset a) v }
  | .oam => { m with oam := Bytes.store width m.oam (a &&& 0x3FF).toNat v }
  | .sram =>
    let byte := (v >>> (8 * width.lane address)).toUInt8
    { m with sram := Bytes.set m.sram (address &&& 0xFFFF).toNat byte }
  | .bios | .io | .rom | .unmapped => m

end Memory

end GbaArm
