import GbaArm.Proofs.MemoryMap

/-!
How far a cartridge is read. Each read asks whether the image holds the whole unit that it takes its bytes
from, so the last bytes of an image whose length is no multiple of four are seen by some widths or by none.
-/
namespace GbaArm

/-- The size of the unit that a read of the cartridge is cut out of. -/
def Width.cartridgeUnit : Width → Nat
  | byte | half => 2
  | word => 4

/-- The byte that a read shows at an address of the cartridge window: that of the image if the image holds
the unit around it, else one of the halfword address. -/
def shownByte (image : ByteArray) (width : Width) (address : UInt32) : UInt8 :=
  let p := Region.rom.offset address.toNat
  if p / width.cartridgeUnit < image.size / width.cartridgeUnit then Bytes.get image p
  else byteOf (Memory.openBus address) (p % 2)

theorem toNat_openBus (address : UInt32) :
    (Memory.openBus address).toNat = address.toNat / 2 % 65536 := by
  rw [Memory.openBus, toNat_and_low (k := 16) rfl, UInt32.toNat_shiftRight, Nat.shiftRight_eq_div_pow]
  rfl

/-- Both addresses of a halfword have the same halfword address. -/
theorem openBus_congr {a b : UInt32} (same : a.toNat / 2 = b.toNat / 2) :
    Memory.openBus a = Memory.openBus b := by
  rw [← UInt32.toNat_inj, toNat_openBus, toNat_openBus, same]

/-- Where a unit of the cartridge begins. -/
theorem toNat_and_rom {mask : UInt32} (width : Width) (address : UInt32)
    (split : address &&& mask = width.align (address &&& 0x1FFFFFF)) :
    (address &&& mask).toNat =
      address.toNat % 0x2000000 - address.toNat % 0x2000000 % width.bytes := by
  have window : (address &&& 0x1FFFFFF).toNat = address.toNat % 0x2000000 := toNat_and_low (k := 25) rfl _
  rw [split, toNat_align, window]

/-- A unit is shown whole or not at all. -/
theorem byteOf_unit {image : ByteArray} {width : Width} (whole : width.cartridgeUnit = width.bytes)
    {address other : UInt32} {offset i : Nat} (aligned : offset % width.bytes = 0)
    (hi : i < width.bytes) (place : Region.rom.offset address.toNat = offset + i)
    (shown : byteOf other i = byteOf (Memory.openBus address) ((offset + i) % 2)) :
    byteOf ((Bytes.load width image offset).getD other) i = shownByte image width address := by
  have inside : (offset + i) / width.bytes < image.size / width.bytes ↔
      offset + width.bytes ≤ image.size := by
    cases width <;> simp only [Width.bytes] at aligned hi ⊢ <;> omega
  simp only [shownByte, place, whole, inside]
  by_cases fits : offset + width.bytes ≤ image.size
  · rw [if_pos fits, ← Bytes.byteOf_load fits hi, Bytes.load_of_fits fits]
    rfl
  · rw [if_neg fits, Bytes.load, if_neg fits, Option.getD_none, shown]

namespace Memory

variable (m : Memory) {i : Nat}

theorem byteOf_romHalf (address : UInt32) (hi : i < 2) :
    byteOf (m.romHalf address) i = shownByte m.rom .half (Width.half.align address + i.toUInt32) := by
  have start : (address &&& 0x1FFFFFE).toNat = _ :=
    toNat_and_rom .half address (UInt32.and_assoc address 0x1FFFFFF 0xFFFFFFFE).symm
  have place := toNat_align_add .half address hi
  rw [toNat_align] at place
  simp only [Width.bytes] at start place
  refine byteOf_unit rfl (by simp only [Width.bytes]; omega) hi ?_ ?_
  · simp only [Region.offset]
    omega
  · have lane : ((address &&& 0x1FFFFFE).toNat + i) % 2 = i := by omega
    rw [lane, openBus_congr]
    omega

theorem byteOf_romWord {address : UInt32} (aligned : Width.word.align address = address) (hi : i < 4) :
    byteOf (m.romWord address) i = shownByte m.rom .word (address + i.toUInt32) := by
  have start : (address &&& 0x1FFFFFC).toNat = _ :=
    toNat_and_rom .word address (UInt32.and_assoc address 0x1FFFFFF 0xFFFFFFFC).symm
  have place := toNat_align_add .word address hi
  have next := toNat_align_add .word address (i := 2) (by decide)
  have whole := toNat_align .word address
  rw [aligned] at place next whole
  simp only [Width.bytes] at start whole
  have high : (address + 2).toNat = address.toNat + 2 := next
  have word : m.romWord address = (Bytes.load .word m.rom (address &&& 0x1FFFFFC).toNat).getD
      (openBus address ||| (openBus (address + 2) <<< 16)) := by
    rw [romWord]
    split
    · next found => rw [found, Option.getD_some]
    · next lost => rw [lost, Option.getD_none]
  rw [word]
  refine byteOf_unit rfl (by simp only [Width.bytes]; omega) hi ?_ ?_
  · simp only [Region.offset]
    omega
  · have halfword : ∀ a, (openBus a).toNat < 65536 := fun a => by rw [toNat_openBus]; omega
    have lane : ((address &&& 0x1FFFFFC).toNat + i) % 2 = i % 2 := by omega
    rw [lane, byteOf_halves (halfword _) (halfword _) hi]
    refine congrArg (byteOf · _) ?_
    split <;> exact openBus_congr (by omega)

/-- Bytes are cut out of halfwords. -/
theorem romValue_byte (address : UInt32) :
    byteOf (m.romValue .byte address) 0 = byteOf (m.romHalf address) (address.toNat % 2) := by
  have lane : (address &&& 1).toNat = address.toNat % 2 := toNat_and_low (k := 1) rfl _
  have amount : (8 * (address &&& 1)).toNat % 32 = 8 * (address.toNat % 2) := by
    rw [UInt32.toNat_mul, lane]
    show 8 * (address.toNat % 2) % 4294967296 % 32 = _
    omega
  rw [romValue, ← UInt8.toNat_inj, toNat_byteOf _ (by decide), toNat_byteOf _ (by omega), toNat_lowByte,
    UInt32.toNat_shiftRight, amount, Nat.shiftRight_eq_div_pow, Nat.pow_mul, Nat.pow_zero, Nat.div_one,
    Nat.mod_mod]

/-- Every byte that a read gives is the one shown at its address. -/
theorem byteOf_romValue (width : Width) (address : UInt32) (hi : i < width.bytes) :
    byteOf (m.romValue width (width.align address)) i =
      shownByte m.rom width (width.align address + i.toUInt32) := by
  cases width with
  | byte =>
    obtain rfl : i = 0 := Nat.lt_one_iff.mp hi
    have lane : address.toNat % 2 < Width.half.bytes := Nat.mod_lt _ (by decide)
    have whole : Width.half.align address + (address.toNat % 2).toUInt32 = address := by
      apply UInt32.toNat_inj.mp
      rw [toNat_align_add .half address lane, toNat_align]
      simp only [Width.bytes]
      omega
    refine (m.romValue_byte address).trans ?_
    rw [byteOf_romHalf m address lane, whole]
    exact congrArg (shownByte m.rom .byte) (UInt32.add_zero address).symm
  | half =>
    refine (m.byteOf_romHalf _ hi).trans ?_
    rw [align_align]
  | word => exact m.byteOf_romWord (align_align .word address) hi

end Memory

variable {image : ByteArray} {width : Width} {address : UInt32}

/-- An image made of whole units has no tail. -/
theorem shownByte_of_dvd (even : width.cartridgeUnit ∣ image.size)
    (inside : Region.rom.offset address.toNat < image.size) :
    shownByte image width address = Bytes.get image (Region.rom.offset address.toNat) := by
  refine if_pos ?_
  cases width <;> simp only [Width.cartridgeUnit] at even ⊢ <;> omega

/-- Byte reads lose the last byte of an image of odd length. -/
theorem shownByte_byte {i : Nat} (hi : i < image.size) (place : address.toNat % 0x2000000 = i) :
    shownByte image .byte address =
      if i + 1 = image.size ∧ image.size % 2 = 1 then (i / 2).toUInt8 else Bytes.get image i := by
  have offset : Region.rom.offset address.toNat = i := place
  have lost : ¬ i / 2 < image.size / 2 ↔ i + 1 = image.size ∧ image.size % 2 = 1 := by omega
  simp only [shownByte, offset, Width.cartridgeUnit, ← lost, ite_not]
  split
  · rfl
  · next tail =>
    have lane : i % 2 = 0 := by omega
    rw [lane, ← UInt8.toNat_inj, toNat_byteOf _ (by decide), toNat_openBus]
    show address.toNat / 2 % 65536 / 1 % 256 = i / 2 % 256
    omega

namespace Board

/-- What a board shows of a cartridge image. -/
structure Shows (image : ByteArray) (b : Board) : Prop where
  /-- A read gives the bytes of the image where the image holds the whole unit that they are cut out of,
  and bytes of the halfword address elsewhere. -/
  reads (width : Width) (address : UInt32) : Region.ofAddress address = .rom → ∀ i < width.bytes,
    byteOf (b.read width address).1 i = shownByte image width (width.align address + i.toUInt32)
  /-- A fetch gives the bytes that a read of a word gives. -/
  fetches (address : UInt32) : Region.ofAddress address = .rom → ∀ i < 4,
    byteOf (b.fetch address).1 i = shownByte image .word (alignWord address + i.toUInt32)
  /-- Single bytes show the image in each of its windows, but for the last one of an odd length. -/
  bytes (window : UInt32) : window ∈ [0x08000000, 0x0A000000, 0x0C000000] → ∀ i < image.size,
    (Bus.read8 (window + i.toUInt32) b).1 =
      if i + 1 = image.size ∧ image.size % 2 = 1 then (i / 2).toUInt8 else Bytes.get image i
  /-- An image made of whole units is shown whole. -/
  whole (width : Width) (address : UInt32) : width.cartridgeUnit ∣ image.size →
    Region.ofAddress address = .rom → ∀ i < width.bytes,
      let place := Region.rom.offset (width.align address + i.toUInt32).toNat
      place < image.size → byteOf (b.read width address).1 i = Bytes.get image place

variable {b : Board}

theorem byteOf_read (holds : b.memory.rom = image) (rom : Region.ofAddress address = .rom) {i : Nat}
    (hi : i < width.bytes) :
    byteOf (b.read width address).1 i = shownByte image width (width.align address + i.toUInt32) := by
  have value : (b.read width address).1 = b.memory.romValue width (width.align address) := by
    rw [read_of_memory b width (by rw [rom]; decide), Memory.value, rom]
  rw [value, b.memory.byteOf_romValue width address hi, holds]

theorem ofAddress_of_top (least : 8 ≤ address.toNat / 0x1000000)
    (most : address.toNat / 0x1000000 < 14) : Region.ofAddress address = .rom := by
  have top : (address >>> 24).toNat = address.toNat / 0x1000000 := by
    rw [UInt32.toNat_shiftRight, Nat.shiftRight_eq_div_pow]
    rfl
  rw [Region.ofAddress, top]
  obtain h | h | h | h | h | h : address.toNat / 0x1000000 = 8 ∨ address.toNat / 0x1000000 = 9 ∨
      address.toNat / 0x1000000 = 10 ∨ address.toNat / 0x1000000 = 11 ∨
      address.toNat / 0x1000000 = 12 ∨ address.toNat / 0x1000000 = 13 := by omega
  all_goals
    rw [h]
    rfl

/-- Where an index of the image lies in each window. -/
theorem window_add {window : UInt32} (listed : window ∈ [0x08000000, 0x0A000000, 0x0C000000]) {i : Nat}
    (hi : i < 0x2000000) : Region.ofAddress (window + i.toUInt32) = .rom ∧
      (window + i.toUInt32).toNat % 0x2000000 = i := by
  have start : window.toNat = 0x08000000 ∨ window.toNat = 0x0A000000 ∨ window.toNat = 0x0C000000 := by
    simp only [List.mem_cons, List.not_mem_nil, or_false] at listed
    obtain rfl | rfl | rfl := listed <;> decide
  have index : i.toUInt32.toNat = i := Nat.mod_eq_of_lt (by omega)
  have sum : (window + i.toUInt32).toNat = window.toNat + i := by
    rw [UInt32.toNat_add, index]
    omega
  rw [sum]
  exact ⟨ofAddress_of_top (by omega) (by omega), by omega⟩

theorem shows_of_rom (holds : b.memory.rom = image) (fits : image.size ≤ Memory.romLimit) :
    b.Shows image where
  reads width address rom i := byteOf_read holds rom
  fetches address rom i hi := by
    have memory : Region.ofAddress address ≠ .io := by
      rw [rom]
      decide
    have aligned : Region.ofAddress (alignWord address) = .rom := (ofAddress_align .word address).trans rom
    rw [fetch_eq_read b memory, byteOf_read holds aligned hi]
    exact congrArg (shownByte image .word <| · + _) (align_align .word address)
  bytes window listed i hi := by
    obtain ⟨rom, place⟩ := window_add listed (Nat.lt_of_lt_of_le hi fits)
    have lowest : (Bus.read8 (window + i.toUInt32) b).1 =
        byteOf (b.read .byte (window + i.toUInt32)).1 0 := by simp [Bus.read8, byteOf]
    rw [lowest, byteOf_read holds rom (i := 0) Width.byte.bytes_pos]
    exact shownByte_byte hi ((congrArg (·.toNat % _) (UInt32.add_zero _)).trans place)
  whole width address even rom i hi := by
    intro place inside
    rw [byteOf_read holds rom hi]
    exact shownByte_of_dvd even inside

/-- An image is accepted, and shown until the next one is loaded, as far as its length allows. -/
theorem cartridge_shown (b : Board) (image : ByteArray) (present : 0 < image.size)
    (fits : image.size ≤ Memory.romLimit) :
    ∃ loaded, b.load .rom image = .ok loaded ∧
      ∀ requests, (∀ r ∈ requests, r.isLoad = false) → (loaded.run requests).Shows image := by
  have accepted : b.memory.load .rom image = .ok { b.memory with rom := image } :=
    if_pos ⟨present, fits⟩
  refine ⟨({ b with memory := { b.memory with rom := image } } : Board).note
    (.imageLoaded .rom image.size), ?_, fun requests quiet => ?_⟩
  · rw [load, accepted]
    rfl
  · exact shows_of_rom (images_run _ quiet).2 fits

/-- Three bytes, read in a mirror of the window after a write that the cartridge ignores. -/
theorem cartridge_shown_three :
    let image : ByteArray := ⟨#[0x11, 0x22, 0x33]⟩
    0 < image.size ∧ image.size ≤ Memory.romLimit ∧
    ∃ loaded, (initial .silent).load .rom image = .ok loaded ∧
      (Bus.read8 0x0A000001 (loaded.run [.write .byte 0x08000001 0xFF])).1 = 0x22 := by
  intro image
  obtain ⟨loaded, accepted, shown⟩ := cartridge_shown (initial .silent) image (by decide) (by decide)
  have quiet : ∀ r ∈ [BoardRequest.write .byte 0x08000001 0xFF], r.isLoad = false := by decide
  exact ⟨by decide, by decide, loaded, accepted,
    (shown _ quiet).bytes 0x0A000000 (by decide) 1 (by decide)⟩

/-- The third of three bytes is never seen, and words lose the last two of six, which halfwords find. -/
theorem cartridge_tail_lost :
    (∃ loaded, (initial .silent).load .rom ⟨#[0x11, 0x22, 0x33]⟩ = .ok loaded ∧
      (Bus.read8 0x08000002 loaded).1 = 1) ∧
    ∃ loaded, (initial .silent).load .rom ⟨#[0x11, 0x22, 0x33, 0x44, 0x55, 0x66]⟩ = .ok loaded ∧
      (Bus.read16 0x08000004 loaded).1 = 0x6655 ∧ (Bus.read32 0x08000004 loaded).1 = 0x00030002 ∧
      (Bus.fetch32 0x08000004 loaded).1 = 0x00030002 :=
  ⟨⟨_, rfl, by decide +kernel⟩, _, rfl, by decide +kernel⟩

end Board

end GbaArm
