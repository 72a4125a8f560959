import GbaArm.Proofs.MemoryMap
import GbaArm.Proofs.SingleTransfers

/-!
Save memory from both ends of its bus of eight bits. The bus takes the byte that lies at the exact address,
but the processor hands it addresses aligned to the unit, so from there only the first byte of each unit
can be reached by wider accesses.
-/
namespace GbaArm

variable {address : UInt32}

theorem Location.ofAddress_sram (sram : Region.ofAddress address = .sram) :
    ofAddress address = ⟨.sram, address.toNat % 0x10000⟩ := by
  rw [ofAddress, sram]
  rfl

/-- The unit around an address lies in the same 64 KiB. -/
theorem Location.ofAddress_align_sram (sram : Region.ofAddress address = .sram) (width : Width) :
    ofAddress (width.align address) =
      ⟨.sram, address.toNat % 0x10000 - address.toNat % width.bytes⟩ := by
  rw [ofAddress_sram ((ofAddress_align width address).trans sram), toNat_align]
  cases width <;> simp only [Width.bytes] <;> congr 1 <;> omega

/-- An address and its aligned unit name the same byte only if they are the same. -/
theorem Location.ofAddress_align_eq_iff (sram : Region.ofAddress address = .sram) (width : Width) :
    ofAddress (width.align address) = ofAddress address ↔ address.toNat % width.bytes = 0 := by
  rw [ofAddress_align_sram sram, ofAddress_sram sram]
  simp only [Location.mk.injEq, true_and]
  cases width <;> simp only [Width.bytes] <;> omega

theorem toNat_repeated (width : Width) (byte : UInt8) :
    (width.repeated byte.toUInt32).toNat =
      Nat.ofDigits 256 (List.replicate width.bytes byte.toNat) := by
  have small := byte.toNat_lt
  cases width with
  | byte => exact (UInt8.toNat_toUInt32 byte).trans (Nat.ofDigits_singleton ..).symm
  | half | word =>
    simp only [Width.repeated, UInt32.toNat_mul, UInt8.toNat_toUInt32, Width.bytes,
      List.replicate_succ, List.replicate_zero, Nat.ofDigits_cons, Nat.ofDigits_nil]
    refine (Nat.mod_eq_of_lt ?_).trans ?_ <;> simp <;> omega

/-- Every lane of a repeated byte carries it. -/
theorem byteOf_repeated {width : Width} (byte : UInt8) {i : Nat} (hi : i < width.bytes) :
    byteOf (width.repeated byte.toUInt32) i = byte := by
  have four : width.bytes ≤ 4 := by cases width <;> decide
  have bounded : ∀ d ∈ List.replicate width.bytes byte.toNat, d < 256 := by
    intro d hd
    rw [List.eq_of_mem_replicate hd]
    exact byte.toNat_lt
  have lane : width.bytes - i = (width.bytes - i - 1) + 1 := by omega
  rw [← UInt8.toNat_inj, toNat_byteOf _ (by omega), toNat_repeated,
    Nat.ofDigits_div_pow_eq_ofDigits_drop i (by decide) _ bounded, List.drop_replicate, lane,
    List.replicate_succ, Nat.ofDigits_cons, Nat.add_mul_mod_self_left]
  exact Nat.mod_eq_of_lt byte.toNat_lt

namespace Board

variable {b : Board}

theorem store_eq_write (b : Board) (width : Width) (address value : UInt32) :
    Bus.store width address value b = b.write width address (width.cut value) := by
  cases width <;> rfl

/-- A store through the bus puts the byte of the value that belongs to the exact address there, and touches
nothing else. -/
theorem byteAt_store (sized : b.memory.Sized) (sram : Region.ofAddress address = .sram) (width : Width)
    (value : UInt32) (l : Location) :
    (Bus.store width address value b).memory.byteAt l =
      if l = .ofAddress address then byteOf value (address.toNat % width.bytes)
      else b.memory.byteAt l := by
  rw [store_eq_write, memory_write, Memory.byteAt_update sized, written_sram sram, Core.toNat_lane,
    byteOf_cut value (Nat.mod_lt _ width.bytes_pos), Location.ofAddress_sram sram]
  by_cases here : l = ⟨.sram, address.toNat % 0x10000⟩
  · rw [if_pos here, here, List.lookup_cons, beq_self_eq_true, Option.getD_some]
  · have missed : (l == ⟨.sram, address.toNat % 0x10000⟩) = false := beq_false_of_ne here
    rw [if_neg here, List.lookup_cons, missed]
    rfl

/-- A load through the bus repeats the byte at the exact address. -/
theorem value_load (b : Board) (sram : Region.ofAddress address = .sram) (width : Width) :
    (Bus.load width address b).1 =
      width.cut (width.repeated (b.memory.byteAt (.ofAddress address)).toUInt32) := by
  have page : (address &&& 0xFFFF).toNat = address.toNat % 0x10000 := toNat_and_low (k := 16) rfl _
  have value : (b.read width address).1 =
      width.repeated (b.memory.byteAt (.ofAddress address)).toUInt32 := by
    rw [read_of_memory b width (by rw [sram]; decide), Memory.value, sram, Memory.byteAt,
      Location.ofAddress_sram sram]
    simp only [Memory.sramValue, Memory.sramByte, page]
    cases width <;> rfl
  rw [← value]
  cases width <;> rfl

end Board

/-- Save memory starts out erased. -/
theorem Memory.byteAt_blank_sram {i : Nat} (hi : i < sramSize) : blank.byteAt ⟨.sram, i⟩ = 0xFF := by
  simp only [byteAt, bytesOf, blank]
  exact Bytes.get_filled hi 0xFF

namespace Core

variable {β : Type} [Bus β]

/-- Stores one unit. -/
def store (m : Core β) : Width → (address value : UInt32) → Core β
  | .byte => m.storeByte
  | .half => m.storeHalf
  | .word => m.storeWord

/-- Loads one unit. -/
def load (m : Core β) : Width → (address : UInt32) → UInt32 × Core β
  | .byte => m.loadByte
  | .half => m.loadHalf
  | .word => m.loadWord

variable (m : Core Board)

theorem memory_store (width : Width) (address value : UInt32) : (m.store width address value).bus.memory =
    (Bus.store width (width.align address) value m.bus).memory := by
  simp only [Board.store_eq_write, Board.memory_write]
  cases width <;> exact Board.memory_write ..

/-- A store from the processor puts the lowest byte of the value at the start of the unit. -/
theorem byteAt_store_sram (sized : m.bus.memory.Sized) (sram : Region.ofAddress address = .sram)
    (width : Width) (value : UInt32) (l : Location) :
    (m.store width address value).bus.memory.byteAt l =
      if l = .ofAddress (width.align address) then byteOf value 0 else m.bus.memory.byteAt l := by
  have start : (width.align address).toNat % width.bytes = 0 := by
    rw [toNat_align]
    cases width <;> simp only [Width.bytes] <;> omega
  rw [memory_store, Board.byteAt_store sized ((ofAddress_align width address).trans sram), start]

/-- A word turned right by whole bytes has the byte of the lane lowest. -/
theorem toUInt8_rotateRight (width : Width) (address raw : UInt32) :
    (rotateRight raw (8 * width.lane address)).toUInt8 = byteOf raw (address.toNat % width.bytes) := by
  have within := lane_lt width address
  have turned := toNat_laneBits width address
  have amount : (8 * (address.toNat % width.bytes)).toUInt32 = 8 * width.lane address := by
    rw [← turned]
    exact UInt32.ofNat_toNat
  have inside : (8 * width.lane address).toNat < 32 := by omega
  rw [byteOf, amount]
  apply UInt8.eq_of_bits
  intro i hi
  simp only [UInt32.toBitVec_toUInt8, BitVec.getLsbD_setWidth,
    getLsbD_rotateRight raw i inside (by omega), getLsbD_shiftRight raw i inside]
  rw [Nat.mod_eq_of_lt (by omega)]

theorem load_eq (width : Width) (address : UInt32) : (m.load width address).1 =
    rotateRight (Bus.load width (width.align address) m.openAccess.bus).1 (8 * width.lane address) := by
  cases width with
  | byte => exact (ShiftKind.rotateRight_zero _).symm
  | half | word => rfl

/-- A load into the processor has the byte at the start of the unit lowest. -/
theorem low_load (sram : Region.ofAddress address = .sram) (width : Width) :
    (m.load width address).1.toUInt8 = m.bus.memory.byteAt (.ofAddress (width.align address)) := by
  have lane := Nat.mod_lt address.toNat width.bytes_pos
  have held := Board.value_load m.openAccess.bus ((ofAddress_align width address).trans sram) width
  rw [load_eq, toUInt8_rotateRight, held, byteOf_cut _ lane, byteOf_repeated _ lane]
  rfl

end Core

namespace Board

/-- What reaches save memory from the processor and from the bus. Of a store by the processor the lowest
byte lands at the start of the unit; the bus takes the byte that belongs to the exact address. So they do
the same exactly if the address is aligned, or if both bytes are there already. What the processor loads
has the byte at the start of the unit lowest, whatever the address. -/
theorem save_lanes (log : Log) (requests : List BoardRequest) (cpu : Cpu) (width : Width)
    (address value : UInt32) (sram : Region.ofAddress address = .sram) :
    let b := (initial log).run requests
    let m : Core Board := ⟨cpu, b⟩
    let held := b.memory.byteAt
    let place := Location.ofAddress address
    let start := Location.ofAddress (width.align address)
    let lane := address.toNat % width.bytes
    let stored := (m.store width address value).bus.memory.byteAt
    let written := (Bus.store width address value b).memory.byteAt
    (∀ l, stored l = if l = start then byteOf value 0 else held l) ∧
    (∀ l, written l = if l = place then byteOf value lane else held l) ∧
    (stored = written ↔ lane = 0 ∨ held start = byteOf value 0 ∧ held place = byteOf value lane) ∧
    (m.load width address).1.toUInt8 = held start ∧
    (m.load .byte address).1.toUInt8 = held place := by
  intro b m held place start lane stored written
  have sized : b.memory.Sized := ((furnished_initial log).run requests).sized
  have fromCore : ∀ l, stored l = if l = start then byteOf value 0 else held l :=
    Core.byteAt_store_sram m sized sram width value
  have fromBus : ∀ l, written l = if l = place then byteOf value lane else held l :=
    byteAt_store sized sram width value
  refine ⟨fromCore, fromBus, ?_, Core.low_load m sram width, Core.low_load m sram .byte⟩
  have apart : start = place ↔ lane = 0 := Location.ofAddress_align_eq_iff sram width
  constructor
  · intro same
    by_cases aligned : lane = 0
    · exact .inl aligned
    · have atStart := congrFun same start
      have atPlace := congrFun same place
      have other : start ≠ place := mt apart.mp aligned
      rw [fromCore, fromBus, if_pos rfl, if_neg other] at atStart
      rw [fromCore, fromBus, if_pos rfl, if_neg other.symm] at atPlace
      exact .inr ⟨atStart.symm, atPlace⟩
  · rintro (aligned | ⟨atStart, atPlace⟩) <;> funext l <;> rw [fromCore, fromBus]
    · rw [apart.mpr aligned, aligned]
    · by_cases hs : l = start <;> by_cases hp : l = place <;> grind

/-- From power-on a halfword stored at an even address of save memory comes to the same from both ends. -/
theorem save_lanes_even :
    let m : Core Board := ⟨Cpu.initial, initial .silent⟩
    Region.ofAddress 0x0F020006 = .sram ∧
      (m.store .half 0x0F020006 0xAB5A).bus.memory.byteAt =
        (Bus.store .half 0x0F020006 0xAB5A m.bus).memory.byteAt := by
  have sram : Region.ofAddress 0x0F020006 = .sram := by decide
  have lanes := save_lanes .silent [] Cpu.initial .half 0x0F020006 0xAB5A sram
  exact ⟨sram, lanes.2.2.1.mpr (.inl (by decide))⟩

/-- A word stored by the processor at the second byte of a unit leaves that byte erased, where the bus puts
the second byte of the word, and a load of the same word finds what lies at the first. -/
theorem save_lanes_lost :
    let m : Core Board := ⟨Cpu.initial, initial .silent⟩
    let k := m.storeWord 0x0E000001 0x44332211
    k.bus.memory.byteAt ⟨.sram, 1⟩ = 0xFF ∧
    (Bus.write32 0x0E000001 0x44332211 m.bus).memory.byteAt ⟨.sram, 1⟩ = 0x22 ∧
    (k.loadWord 0x0E000001).1.toUInt8 = 0x11 ∧ (k.loadByte 0x0E000001).1.toUInt8 = 0xFF := by
  intro m k
  have sram : Region.ofAddress 0x0E000001 = .sram := by decide
  have sized : m.bus.memory.Sized := Memory.sized_blank
  have stored : ∀ l, k.bus.memory.byteAt l = if l = .ofAddress 0x0E000000 then 0x11
      else m.bus.memory.byteAt l := Core.byteAt_store_sram m sized sram .word 0x44332211
  have erased : k.bus.memory.byteAt ⟨.sram, 1⟩ = 0xFF := by
    rw [stored, if_neg (by decide)]
    exact Memory.byteAt_blank_sram (by decide)
  have lowest : k.bus.memory.byteAt ⟨.sram, 0⟩ = 0x11 := by
    rw [stored, if_pos (by decide)]
  refine ⟨erased, byteAt_store sized sram .word 0x44332211 ⟨.sram, 1⟩, ?_, ?_⟩
  · exact (Core.low_load k sram .word).trans lowest
  · exact (Core.low_load k sram .byte).trans erased

end Board

end GbaArm
