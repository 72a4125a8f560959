import GbaArm.Proofs.Locations
import GbaArm.Proofs.WordRuns

/-!
Single accesses of every width: the call a record shows of one, and the bytes that a flat memory keeps.
-/
namespace GbaArm

namespace Bus

variable {β : Type} [Bus β]

/-- Reads one unit. -/
def load (width : Width) (address : UInt32) (b : β) : UInt32 × β :=
  match width with
  | .byte =>
    let (value, b) := Bus.read8 address b
    (value.toUInt32, b)
  | .half =>
    let (value, b) := Bus.read16 address b
    (value.toUInt32, b)
  | .word => Bus.read32 address b

/-- Writes one unit, of the low bits of a value. -/
def store (width : Width) (address value : UInt32) : β → β :=
  match width with
  | .byte => Bus.write8 address value.toUInt8
  | .half => Bus.write16 address value.toUInt16
  | .word => Bus.write32 address value

end Bus

/-- The bits of a value that cross a bus of the width. -/
def Width.cut : Width → UInt32 → UInt32
  | byte, value => value.toUInt8.toUInt32
  | half, value => value.toUInt16.toUInt32
  | word, value => value

/-- Every byte of the unit crosses. -/
theorem byteOf_cut {width : Width} (value : UInt32) {i : Nat} (hi : i < width.bytes) :
    byteOf (width.cut value) i = byteOf value i := by
  refine UInt8.toNat_inj.mp ?_
  cases width with
  | byte =>
    obtain rfl : i = 0 := Nat.lt_one_iff.mp hi
    rw [Width.cut, toNat_byteOf _ (by decide), toNat_byteOf _ (by decide), UInt8.toNat_toUInt32,
      UInt32.toNat_toUInt8]
    omega
  | half =>
    obtain rfl | rfl : i = 0 ∨ i = 1 := by
      simp only [Width.bytes] at hi
      omega
    all_goals
      rw [Width.cut, toNat_byteOf _ (by decide), toNat_byteOf _ (by decide), UInt16.toNat_toUInt32,
        UInt32.toNat_toUInt16]
      omega
  | word => rfl

/-- The call that reads a unit. -/
def BusCall.load : Width → (address value : UInt32) → BusCall
  | .byte, address, value => .read8 address value.toUInt8
  | .half, address, value => .read16 address value.toUInt16
  | .word, address, value => .read32 address value

/-- The call that writes a unit. -/
def BusCall.store : Width → (address value : UInt32) → BusCall
  | .byte, address, value => .write8 address value.toUInt8
  | .half, address, value => .write16 address value.toUInt16
  | .word, address, value => .write32 address value

namespace Traced

variable {β : Type} [Bus β] (width : Width) (address : UInt32)

theorem record_load (t : Traced β) : (Bus.load width address t).2.record =
    t.record ++ [.load width address (Bus.load width address t).1] := by
  cases width with
  | byte =>
    have call : BusCall.load .byte address (Bus.load .byte address t).1 =
        .read8 address (Bus.read8 address t).1 := congrArg _ (UInt8.toUInt8_toUInt32 _)
    exact (record_ask t _ _).trans (congrArg (t.record ++ [·]) call.symm)
  | half =>
    have call : BusCall.load .half address (Bus.load .half address t).1 =
        .read16 address (Bus.read16 address t).1 := congrArg _ (UInt16.toUInt16_toUInt32 _)
    exact (record_ask t _ _).trans (congrArg (t.record ++ [·]) call.symm)
  | word => exact record_ask t _ _

theorem record_store (value : UInt32) (t : Traced β) : (Bus.store width address value t).record =
    t.record ++ [.store width address value] := by
  cases width <;> exact record_tell t _ _

end Traced

/-- A bus that is a flat memory of bytes. Units are aligned and little-endian, and no call but a write
changes a byte. -/
structure FlatBytes (β : Type) [Bus β] where
  byte : β → UInt32 → UInt8
  load (width : Width) (address : UInt32) (b : β) (aligned : width.align address = address) :
    (Bus.load width address b).1.toNat =
      Nat.ofDigits 256 ((List.range width.bytes).map fun i => (byte b (address + i.toUInt32)).toNat)
  byte_load (width : Width) (address : UInt32) (b : β) : byte (Bus.load width address b).2 = byte b
  byte_store (width : Width) (address value : UInt32) (b : β)
    (aligned : width.align address = address) (other : UInt32) :
    byte (Bus.store width address value b) other =
      if (other - address).toNat < width.bytes then byteOf value (other - address).toNat
      else byte b other
  byte_internalCycle (pc : UInt32) (b : β) : byte (Bus.internalCycle pc b) = byte b
  byte_nonSequential (b : β) : byte (Bus.nonSequential b) = byte b
  byte_executingAt (pc : UInt32) (b : β) : byte (Bus.executingAt pc b) = byte b
  byte_branched (target : UInt32) (b : β) : byte (Bus.branched target b) = byte b

/-- A record of the calls does not touch the memory below it. -/
def FlatBytes.traced {β : Type} [Bus β] (flat : FlatBytes β) : FlatBytes (Traced β) where
  byte t := flat.byte t.bus
  load width address t aligned := by
    have below : (Bus.load width address t).1 = (Bus.load width address t.bus).1 := by
      cases width <;> rfl
    rw [below]
    exact flat.load width address t.bus aligned
  byte_load width address t := by
    have below : (Bus.load width address t).2.bus = (Bus.load width address t.bus).2 := by
      cases width <;> rfl
    rw [below]
    exact flat.byte_load width address t.bus
  byte_store width address value t aligned other := by
    have below : (Bus.store width address value t).bus = Bus.store width address value t.bus := by
      cases width <;> rfl
    rw [below]
    exact flat.byte_store width address value t.bus aligned other
  byte_internalCycle pc t := flat.byte_internalCycle pc t.bus
  byte_nonSequential t := flat.byte_nonSequential t.bus
  byte_executingAt pc t := flat.byte_executingAt pc t.bus
  byte_branched target t := flat.byte_branched target t.bus

/-- A memory of bytes, read and written in aligned units. -/
structure ByteRam where
  byte : UInt32 → UInt8

namespace ByteRam

variable (width : Width) (address : UInt32)

def get (ram : ByteRam) : UInt32 :=
  UInt32.ofNat (Nat.ofDigits 256 ((List.range width.bytes).map fun i =>
    (ram.byte (width.align address + i.toUInt32)).toNat))

def set (value : UInt32) (ram : ByteRam) : ByteRam where
  byte other :=
    let i := (other - width.align address).toNat
    if i < width.bytes then byteOf value i else ram.byte other

instance : Bus ByteRam where
  read32 address ram := (ram.get .word address, ram)
  read16 address ram := ((ram.get .half address).toUInt16, ram)
  read8 address ram := ((ram.get .byte address).toUInt8, ram)
  write32 address value ram := ram.set .word address value
  write16 address value ram := ram.set .half address value.toUInt32
  write8 address value ram := ram.set .byte address value.toUInt32
  internalCycle _ ram := ram
  nonSequential ram := ram
  executingAt _ ram := ram
  branched _ ram := ram

/-- The bytes of a unit write a number that fits it. -/
theorem digits_lt (ram : ByteRam) : Nat.ofDigits 256 ((List.range width.bytes).map fun i =>
    (ram.byte (width.align address + i.toUInt32)).toNat) < 256 ^ width.bytes := by
  refine lt_of_lt_of_eq (Nat.ofDigits_lt_base_pow_length (by decide) fun d hd => ?_) ?_
  · obtain ⟨i, -, rfl⟩ := List.mem_map.mp hd
    exact UInt8.toNat_lt _
  · rw [List.length_map, List.length_range]

theorem toNat_get (ram : ByteRam) : (ram.get width address).toNat =
    Nat.ofDigits 256 ((List.range width.bytes).map fun i =>
      (ram.byte (width.align address + i.toUInt32)).toNat) :=
  Nat.mod_eq_of_lt (lt_of_lt_of_le (digits_lt width address ram) (by cases width <;> decide))

theorem load_eq (ram : ByteRam) : (Bus.load width address ram).1 = ram.get width address := by
  have small := digits_lt width address ram
  rw [← toNat_get] at small
  refine UInt32.toNat_inj.mp ?_
  cases width with
  | byte | half => exact Nat.mod_eq_of_lt small
  | word => rfl

/-- The narrower a write, the fewer bytes of its value reach the memory. -/
theorem store_eq (value : UInt32) (ram : ByteRam) :
    Bus.store width address value ram = ram.set width address value := by
  have crossed : Bus.store width address value ram = ram.set width address (width.cut value) := by
    cases width <;> rfl
  rw [crossed]
  refine congrArg ByteRam.mk (funext fun other => ?_)
  dsimp only
  split
  · next inside => exact byteOf_cut value inside
  · rfl

def flat : FlatBytes ByteRam where
  byte := ByteRam.byte
  load width address ram aligned := by rw [load_eq, toNat_get, aligned]
  byte_load width address ram := by cases width <;> rfl
  byte_store width address value ram aligned other := by rw [store_eq, set, aligned]
  byte_internalCycle _ _ := rfl
  byte_nonSequential _ := rfl
  byte_executingAt _ _ := rfl
  byte_branched _ _ := rfl

end ByteRam

end GbaArm
