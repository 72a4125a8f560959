import GbaArm.Proofs.Bits
import GbaArm.Proofs.BusRuns
import GbaArm.Proofs.ByteAccess

/-!
The memory map, told by address: which byte of which memory an address leads to, which bytes an access
covers, and what a write changes.
-/
namespace GbaArm

namespace Region

/-- The writable memories that take accesses of every width. -/
def isRam : Region → Bool
  | ewram | iwram | palette | vram | oam => true
  | _ => false

/-- Where an address leads within its region. Video memory repeats every 128 KiB, and its last quarter
lies over the one before it. Of the I/O page the memory-control register alone repeats. -/
def offset (region : Region) (address : Nat) : Nat :=
  match region with
  | ewram => address % 0x40000
  | iwram => address % 0x8000
  | palette | oam => address % 0x400
  | vram => if address % 0x20000 < 0x18000 then address % 0x20000 else address % 0x20000 - 0x8000
  | sram => address % 0x10000
  | rom => address % 0x2000000
  | io =>
    let inside := address % 0x1000000
    if inside % 0x10000 / 4 = 0x200 then inside % 0x10000 else inside
  | bios | unmapped => address % 0x1000000

/-- The size of the memory behind a region. A cartridge may have any. -/
def capacity : Region → Nat
  | bios => Memory.biosSize
  | ewram => Memory.ewramSize
  | iwram => Memory.iwramSize
  | palette => Memory.paletteSize
  | vram => Memory.vramSize
  | oam => Memory.oamSize
  | sram => Memory.sramSize
  | rom | io | unmapped => 0

end Region

/-- One byte of one region. -/
structure Location where
  region : Region
  offset : Nat
  deriving DecidableEq

namespace Location

def ofAddress (address : UInt32) : Location :=
  let region := Region.ofAddress address
  ⟨region, region.offset address.toNat⟩

end Location

/-- A byte on every lane of a bus. -/
def Width.repeated : Width → UInt32 → UInt32
  | byte, lane => lane
  | half, lane => lane * 0x0101
  | word, lane => lane * 0x01010101

/-- The bytes of the aligned unit that an address lies in, the lowest first. -/
def Width.unit (width : Width) (address : UInt32) : List Location :=
  (List.range width.bytes).map fun i => .ofAddress (width.align address + i.toUInt32)

/-- The bytes a write puts in place. Save memory takes the one that belongs to the exact address. -/
def written (width : Width) (address value : UInt32) : List (Location × UInt8) :=
  let region := Region.ofAddress address
  if region.isRam then
    (List.range width.bytes).map fun i =>
      (.ofAddress (width.align address + i.toUInt32), byteOf value i)
  else if region = .sram then [(.ofAddress address, byteOf value (width.lane address).toNat)]
  else []

namespace Memory

def bytesOf (m : Memory) : Region → ByteArray
  | .bios => m.bios
  | .ewram => m.ewram
  | .iwram => m.iwram
  | .palette => m.palette
  | .vram => m.vram
  | .oam => m.oam
  | .rom => m.rom
  | .sram => m.sram
  | .io | .unmapped => ByteArray.empty

def byteAt (m : Memory) (l : Location) : UInt8 := Bytes.get (m.bytesOf l.region) l.offset

/-- The value at an address, or `none` if it takes bytes that its memory lacks. Only the BIOS and the
cartridge are asked first how far they reach. -/
def find (m : Memory) (width : Width) (address : UInt32) : Option UInt32 :=
  let region := Region.ofAddress address
  let a := width.align address
  match region with
  | .ewram | .iwram | .palette | .vram | .oam =>
    Bytes.load width (m.bytesOf region) (region.offset a.toNat)
  | .bios => if a.toNat < biosSize then Bytes.load width m.bios a.toNat else some 0
  | .sram => (Bytes.load .byte m.sram (region.offset address.toNat)).map width.repeated
  | .rom => some (m.romValue width a)
  | .io | .unmapped => some 0

/-- Every memory but the cartridge has the size its region calls for. -/
def Sized (m : Memory) : Prop := ∀ region, region ≠ .rom → (m.bytesOf region).size = region.capacity

end Memory

theorem toNat_align (width : Width) (address : UInt32) :
    (width.align address).toNat = address.toNat - address.toNat % width.bytes := by
  cases width with
  | byte => exact (congrArg (address.toNat - ·) (Nat.mod_one _)).symm
  | half => exact toNat_alignHalf address
  | word => exact toNat_alignWord address

theorem align_align (width : Width) (address : UInt32) :
    width.align (width.align address) = width.align address := by
  apply UInt32.toNat_inj.mp
  rw [toNat_align, toNat_align]
  cases width <;> simp only [Width.bytes] <;> omega

/-- An aligned unit does not run past the last address. -/
theorem toNat_align_add (width : Width) (address : UInt32) {i : Nat} (hi : i < width.bytes) :
    (width.align address + i.toUInt32).toNat = (width.align address).toNat + i := by
  have aligned := toNat_align width address
  have := address.toNat_lt
  have small : i.toUInt32.toNat = i := by
    cases width <;> simp only [Width.bytes] at hi <;> simp [Nat.toUInt32] <;> omega
  rw [UInt32.toNat_add, small]
  cases width <;> simp only [Width.bytes] at hi aligned <;> omega

theorem Region.ofAddress_congr {a b : UInt32} (h : a.toNat / 0x1000000 = b.toNat / 0x1000000) :
    Region.ofAddress a = Region.ofAddress b := by
  have top : a >>> 24 = b >>> 24 := by
    apply UInt32.toNat_inj.mp
    rw [UInt32.toNat_shiftRight, UInt32.toNat_shiftRight, Nat.shiftRight_eq_div_pow,
      Nat.shiftRight_eq_div_pow]
    exact h
  rw [ofAddress, ofAddress, top]

/-- An aligned unit lies in one region. -/
theorem ofAddress_align_add (width : Width) (address : UInt32) {i : Nat} (hi : i < width.bytes) :
    Region.ofAddress (width.align address + i.toUInt32) = Region.ofAddress address := by
  have aligned := toNat_align width address
  apply Region.ofAddress_congr
  rw [toNat_align_add width address hi, aligned]
  cases width <;> simp only [Width.bytes] at hi ⊢ <;> omega

/-- No unit runs past a word. -/
theorem align_add_lt (width : Width) (address : UInt32) {i : Nat} (hi : i < width.bytes) :
    (width.align address).toNat % 4 + i < 4 := by
  rw [toNat_align]
  cases width <;> simp only [Width.bytes] at hi ⊢ <;> omega

namespace Region

variable {region : Region} (ram : region.isRam = true)
include ram

/-- Mirrors, and the fold of video memory, begin at multiples of four, so they split no unit. -/
theorem offset_add (n : Nat) {i : Nat} (hi : n % 4 + i < 4) :
    region.offset (n + i) = region.offset n + i := by
  cases region with
  | ewram | iwram | palette | oam => simp only [offset]; omega
  | vram =>
    simp only [offset]
    split <;> split <;> omega
  | bios | io | rom | sram | unmapped => cases ram

theorem offset_lt (n : Nat) : region.offset n < region.capacity := by
  cases region with
  | ewram | iwram | palette | oam => exact Nat.mod_lt n (by decide)
  | vram =>
    simp only [offset, capacity, Memory.vramSize]
    split <;> omega
  | bios | io | rom | sram | unmapped => cases ram

/-- A unit lies inside its memory. -/
theorem offset_align_le (width : Width) (address : UInt32) :
    region.offset (width.align address).toNat + width.bytes ≤ region.capacity := by
  have last : width.bytes - 1 < width.bytes := Nat.sub_lt width.bytes_pos Nat.one_pos
  have inside := offset_lt ram ((width.align address).toNat + (width.bytes - 1))
  rw [offset_add ram _ (align_add_lt width address last)] at inside
  omega

end Region

theorem ofAddress_unit {address : UInt32} (ram : (Region.ofAddress address).isRam = true)
    (width : Width) {i : Nat} (hi : i < width.bytes) :
    Location.ofAddress (width.align address + i.toUInt32) =
      ⟨Region.ofAddress address,
        (Region.ofAddress address).offset (width.align address).toNat + i⟩ := by
  rw [Location.ofAddress, ofAddress_align_add width address hi, toNat_align_add width address hi,
    Region.offset_add ram _ (align_add_lt width address hi)]

theorem toNat_and_low {mask : UInt32} {k : Nat} (low : mask.toNat = 2 ^ k - 1) (address : UInt32) :
    (address &&& mask).toNat = address.toNat % 2 ^ k := by
  rw [UInt32.toNat_and, low, Nat.and_two_pow_sub_one_eq_mod]

theorem vramOffset_eq (address : UInt32) :
    Memory.vramOffset address = Region.vram.offset address.toNat := by
  have window : (address &&& 0x1FFFF).toNat = address.toNat % 0x20000 := toNat_and_low (k := 17) rfl _
  rw [Memory.vramOffset, window, Region.offset]
  split <;> split <;> omega

namespace Memory

variable {m : Memory} {width : Width} {address : UInt32}

theorem Sized.fits (sized : m.Sized) (ram : (Region.ofAddress address).isRam = true) (width : Width) :
    (Region.ofAddress address).offset (width.align address).toNat + width.bytes ≤
      (m.bytesOf (Region.ofAddress address)).size := by
  rw [sized _ fun rom => by rw [rom] at ram; cases ram]
  exact Region.offset_align_le ram width address

theorem value_of_ram (m : Memory) (width : Width)
    (ram : (Region.ofAddress address).isRam = true) :
    m.value width address = (Bytes.load width (m.bytesOf (Region.ofAddress address))
      ((Region.ofAddress address).offset (width.align address).toNat)).getD 0 := by
  unfold value
  cases hr : Region.ofAddress address with
  | ewram => exact congrArg (Option.getD · 0) (congrArg _ (toNat_and_low (k := 18) rfl _))
  | iwram => exact congrArg (Option.getD · 0) (congrArg _ (toNat_and_low (k := 15) rfl _))
  | palette | oam => exact congrArg (Option.getD · 0) (congrArg _ (toNat_and_low (k := 10) rfl _))
  | vram => exact congrArg (Option.getD · 0) (congrArg _ (vramOffset_eq _))
  | bios | io | rom | sram | unmapped => rw [hr] at ram; cases ram

theorem bytesOf_update (m : Memory) (width : Width) (v : UInt32)
    (ram : (Region.ofAddress address).isRam = true) :
    (m.update width address v).bytesOf (Region.ofAddress address) =
      Bytes.store width (m.bytesOf (Region.ofAddress address))
        ((Region.ofAddress address).offset (width.align address).toNat) v := by
  unfold update
  cases hr : Region.ofAddress address with
  | ewram => exact congrArg (Bytes.store width m.ewram · v) (toNat_and_low (k := 18) rfl _)
  | iwram => exact congrArg (Bytes.store width m.iwram · v) (toNat_and_low (k := 15) rfl _)
  | palette => exact congrArg (Bytes.store width m.palette · v) (toNat_and_low (k := 10) rfl _)
  | oam => exact congrArg (Bytes.store width m.oam · v) (toNat_and_low (k := 10) rfl _)
  | vram => exact congrArg (Bytes.store width m.vram · v) (vramOffset_eq _)
  | bios | io | rom | sram | unmapped => rw [hr] at ram; cases ram

theorem bytesOf_update_other (m : Memory) (width : Width) (v : UInt32) {region : Region}
    (other : region ≠ Region.ofAddress address) :
    (m.update width address v).bytesOf region = m.bytesOf region := by
  unfold update
  cases hr : Region.ofAddress address with
  | bios | io | rom | unmapped => rfl
  | ewram | iwram | palette | vram | oam | sram =>
    rw [hr] at other
    cases region <;> first | rfl | exact absurd rfl other

end Memory

/-- Finds its place in a run of consecutive bytes. -/
theorem lookup_run (region : Region) (start n : Nat) (f : Nat → UInt8) (l : Location) :
    ((List.range n).map fun i => ((⟨region, start + i⟩ : Location), f i)).lookup l =
      if l.region = region ∧ start ≤ l.offset ∧ l.offset < start + n then some (f (l.offset - start))
      else none := by
  induction n with
  | zero => simp
  | succ n ih =>
    rw [List.range_succ, List.map_append, List.lookup_append, ih]
    by_cases last : l = ⟨region, start + n⟩
    · simp [last]
    · have missed : (l == ⟨region, start + n⟩) = false := beq_false_of_ne last
      have other : ¬(l.region = region ∧ l.offset = start + n) := fun h =>
        last (by cases l; cases h.1; cases h.2; rfl)
      rw [List.map_singleton, List.lookup_cons, missed, List.lookup_nil, Option.or_none]
      congr 1
      refine propext ⟨fun ⟨same, least, most⟩ => ⟨same, least, by omega⟩, ?_⟩
      rintro ⟨same, least, most⟩
      have : l.offset ≠ start + n := fun h => other ⟨same, h⟩
      exact ⟨same, least, by omega⟩

variable {m : Memory} {width : Width} {address : UInt32}

theorem lookup_written (ram : (Region.ofAddress address).isRam = true) (v : UInt32) (l : Location) :
    (written width address v).lookup l =
      let start := (Region.ofAddress address).offset (width.align address).toNat
      if l.region = Region.ofAddress address ∧ start ≤ l.offset ∧ l.offset < start + width.bytes then
        some (byteOf v (l.offset - start))
      else none := by
  have run : (written width address v) = (List.range width.bytes).map fun i =>
      ((⟨Region.ofAddress address,
        (Region.ofAddress address).offset (width.align address).toNat + i⟩ : Location), byteOf v i) := by
    rw [written, if_pos ram]
    exact List.map_congr_left fun i hi =>
      congrArg (·, byteOf v i) (ofAddress_unit ram width (List.mem_range.mp hi))
  rw [run, lookup_run]

/-- A write puts no byte beyond its memory. -/
theorem written_lt (sized : m.Sized) {v : UInt32} {entry : Location × UInt8}
    (h : entry ∈ written width address v) : entry.1.offset < (m.bytesOf entry.1.region).size := by
  unfold written at h
  simp only at h
  split at h
  · next ram =>
    obtain ⟨i, hi, rfl⟩ := List.mem_map.mp h
    have fits := sized.fits ram width
    have hi := List.mem_range.mp hi
    rw [ofAddress_unit ram width hi]
    exact Nat.lt_of_lt_of_le (Nat.add_lt_add_left hi _) fits
  · split at h
    · next sram =>
      obtain rfl := List.mem_singleton.mp h
      rw [Location.ofAddress, sram, sized .sram (by decide)]
      exact Nat.mod_lt _ (by decide)
    · cases h

theorem written_sram (sram : Region.ofAddress address = .sram) (width : Width) (v : UInt32) :
    written width address v =
      [(⟨.sram, address.toNat % 0x10000⟩, byteOf v (width.lane address).toNat)] := by
  simp [written, Location.ofAddress, sram, Region.isRam, Region.offset]

theorem written_other (ram : (Region.ofAddress address).isRam = false)
    (sram : Region.ofAddress address ≠ .sram) (width : Width) (v : UInt32) :
    written width address v = [] := by
  simp [written, ram, sram]

theorem Memory.byteAt_update_ram (sized : m.Sized) (ram : (Region.ofAddress address).isRam = true)
    (width : Width) (v : UInt32) (l : Location) :
    (m.update width address v).byteAt l = ((written width address v).lookup l).getD (m.byteAt l) := by
  have fits := sized.fits ram width
  rw [lookup_written ram, byteAt]
  simp only
  by_cases same : l.region = Region.ofAddress address
  · rw [same, bytesOf_update m width v ram]
    simp only [true_and]
    split
    · next inside =>
      obtain ⟨least, most⟩ := inside
      rw [← Nat.add_sub_cancel' least, Bytes.get_store_inside fits v (by omega)]
      simp
    · next outside =>
      rw [Bytes.get_store_outside v (by omega), Option.getD_none, byteAt, same]
  · rw [bytesOf_update_other m width v same, if_neg fun h => same h.1]
    rfl

/-- A write changes exactly the bytes it puts in place. -/
theorem Memory.byteAt_update (sized : m.Sized) (width : Width) (address v : UInt32) (l : Location) :
    (m.update width address v).byteAt l = ((written width address v).lookup l).getD (m.byteAt l) := by
  cases hr : Region.ofAddress address with
  | ewram | iwram | palette | vram | oam => exact byteAt_update_ram sized (by rw [hr]; rfl) width v l
  | sram =>
    have page : (address &&& 0xFFFF).toNat = address.toNat % 0x10000 := toNat_and_low (k := 16) rfl _
    have size : m.sram.size = 0x10000 := sized .sram (by decide)
    have inside : address.toNat % 0x10000 < m.sram.size := size.symm ▸ Nat.mod_lt _ (by decide)
    have shift : 8 * width.lane address = (8 * (width.lane address).toNat).toUInt32 := by simp
    rw [written_sram hr, update, hr]
    simp only [page, shift]
    by_cases here : l = ⟨.sram, address.toNat % 0x10000⟩
    · rw [here, List.lookup_cons, beq_self_eq_true]
      exact Bytes.get_set_self inside _
    · have missed : (l == ⟨.sram, address.toNat % 0x10000⟩) = false := beq_false_of_ne here
      rw [List.lookup_cons, missed]
      obtain ⟨region, offset⟩ := l
      cases region with
      | sram =>
        have apart : address.toNat % 0x10000 ≠ offset := fun h => here (congrArg _ h.symm)
        exact Bytes.get_set_other apart _
      | _ => rfl
  | bios | io | rom | unmapped =>
    rw [written_other (by rw [hr]; rfl) (by rw [hr]; decide), update, hr]
    rfl

namespace Memory

/-- A write keeps every size. -/
theorem size_update (m : Memory) (width : Width) (address v : UInt32) (region : Region) :
    ((m.update width address v).bytesOf region).size = (m.bytesOf region).size := by
  by_cases written : region = Region.ofAddress address
  · rw [written]
    cases hr : Region.ofAddress address with
    | sram => simp [update, hr, bytesOf]
    | ewram | iwram | palette | vram | oam =>
      rw [← hr, bytesOf_update m width v (by rw [hr]; rfl), Bytes.size_store]
    | bios | io | rom | unmapped => simp [update, hr]
  · rw [bytesOf_update_other m width v written]

theorem Sized.update (sized : m.Sized) (width : Width) (address v : UInt32) :
    (m.update width address v).Sized := fun region other => by
  rw [size_update, sized region other]

theorem sized_blank : blank.Sized := fun region other => by
  cases region with
  | rom => exact absurd rfl other
  | io | unmapped => rfl
  | _ => simp only [blank, bytesOf, Bytes.size_filled, Region.capacity]

theorem byteAt_blank {l : Location} (ram : l.region.isRam = true) : blank.byteAt l = 0 := by
  obtain ⟨region, offset⟩ := l
  cases region with
  | ewram | iwram | palette | vram | oam => simp only [byteAt, bytesOf, blank, Bytes.get_filled_zero]
  | bios | io | rom | sram | unmapped => cases ram

/-- An image replaces its own memory alone. -/
theorem load_cases {loaded : Memory} {kind : ImageKind} {image : ByteArray}
    (h : m.load kind image = .ok loaded) :
    (image.size ≤ biosSize ∧ loaded = { m with bios := padBios image }) ∨
      loaded = { m with rom := image } := by
  cases kind with
  | bios =>
    rw [load] at h
    split at h
    · next short => exact .inl ⟨short, (Except.ok.inj h).symm⟩
    · cases h
  | rom =>
    rw [load] at h
    split at h
    · exact .inr (Except.ok.inj h).symm
    · cases h

theorem Sized.load (sized : m.Sized) {loaded : Memory} {kind : ImageKind} {image : ByteArray}
    (h : m.load kind image = .ok loaded) : loaded.Sized := fun region other => by
  obtain ⟨short, rfl⟩ | rfl := load_cases h
  · cases region with
    | bios =>
      show (padBios image).size = biosSize
      rw [padBios, Bytes.size_extend]
      omega
    | _ => exact sized _ other
  · cases region with
    | rom => exact absurd rfl other
    | _ => exact sized _ other

theorem byteAt_load {loaded : Memory} {kind : ImageKind} {image : ByteArray}
    (h : m.load kind image = .ok loaded) {l : Location} (ram : l.region.isRam = true) :
    loaded.byteAt l = m.byteAt l := by
  obtain ⟨region, offset⟩ := l
  obtain ⟨-, rfl⟩ | rfl := load_cases h <;> cases region <;> first | rfl | cases ram

/-- A read takes no byte that its memory lacks. -/
theorem find_eq_value (sized : m.Sized) (width : Width) (address : UInt32) :
    m.find width address = some (m.value width address) := by
  cases hr : Region.ofAddress address with
  | ewram | iwram | palette | vram | oam =>
    have ram : (Region.ofAddress address).isRam = true := by rw [hr]; rfl
    rw [value_of_ram m width ram, ← Bytes.load_of_fits (sized.fits ram width), find]
    simp only [hr]
  | bios =>
    have size : m.bios.size = biosSize := sized .bios (by decide)
    have aligned := toNat_align width address
    simp only [find, value, hr]
    by_cases inside : (width.align address).toNat < biosSize
    · rw [if_pos inside]
      refine Bytes.load_of_fits ?_
      rw [size]
      cases width <;> simp only [Width.bytes, biosSize] at aligned inside ⊢ <;> omega
    · have positive := width.bytes_pos
      have beyond : ¬ (width.align address).toNat + width.bytes ≤ m.bios.size := by omega
      rw [if_neg inside, Bytes.load, if_neg beyond]
      rfl
  | sram =>
    have size : m.sram.size = 0x10000 := sized .sram (by decide)
    have page : (address &&& 0xFFFF).toNat = address.toNat % 0x10000 := toNat_and_low (k := 16) rfl _
    have inside : address.toNat % 0x10000 + Width.byte.bytes ≤ m.sram.size :=
      size.symm ▸ Nat.mod_lt _ (by decide)
    simp only [find, value, hr, Region.offset, sramValue, sramByte, page, Bytes.load,
      if_pos inside, Option.map_some]
    cases width <;> rfl
  | rom | io | unmapped => simp only [find, value, hr]

/-- A read of work or video memory gives the number its bytes write in base 256. -/
theorem toNat_value (sized : m.Sized) (ram : (Region.ofAddress address).isRam = true)
    (width : Width) :
    (m.value width address).toNat =
      Nat.ofDigits 256 ((width.unit address).map fun l => (m.byteAt l).toNat) := by
  have fits := sized.fits ram width
  rw [value_of_ram m width ram, Bytes.toNat_load fits, Width.unit, List.map_map]
  refine congrArg _ (List.map_congr_left fun i hi => ?_)
  rw [Function.comp, ofAddress_unit ram width (List.mem_range.mp hi)]
  rfl

end Memory

end GbaArm
