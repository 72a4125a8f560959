import GbaArm.Proofs.IoRegisters
import GbaArm.Proofs.BusRuns

/-! Runs of the real bus, and what is found in its memories after them. -/
namespace GbaArm

namespace BoardRequest

def isLoad : BoardRequest → Bool
  | load .. => true
  | _ => false

/-- The bytes of memory that a request puts in place. -/
def stores : BoardRequest → List (Location × UInt8)
  | write width address value => written width address value
  | _ => []

end BoardRequest

/-- The byte last stored at a location. Work and video memory start out zero. -/
def lastStored (requests : List BoardRequest) (l : Location) : UInt8 :=
  requests.foldl (fun byte request => (request.stores.lookup l).getD byte) 0

namespace Board

/-- What the memory map promises of a board after the requests. -/
structure Mapped (requests : List BoardRequest) (b : Board) : Prop where
  /-- A read of work or video memory gives the number that the bytes last stored in its unit write in
  base 256, the lowest first. -/
  reads (width : Width) (address : UInt32) : (Region.ofAddress address).isRam = true →
    (b.read width address).1.toNat =
      Nat.ofDigits 256 ((width.unit address).map fun l => (lastStored requests l).toNat)
  /-- So it gives what reads of the single bytes give. -/
  narrow (width : Width) (address : UInt32) : (Region.ofAddress address).isRam = true →
    (b.read width address).1.toNat = Nat.ofDigits 256 ((List.range width.bytes).map fun i =>
      (b.read .byte (width.align address + i.toUInt32)).1.toNat)
  /-- A write replaces the bytes it puts in place, and no other byte of any memory. -/
  writes (width : Width) (address value : UInt32) (l : Location) :
    (b.write width address value).memory.byteAt l =
      ((written width address value).lookup l).getD (b.memory.byteAt l)
  /-- Outside the I/O page it changes memory alone. -/
  elsewhere (width : Width) (address value : UInt32) : Region.ofAddress address ≠ .io →
    (b.write width address value).view =
      { b.view with memory := (b.write width address value).memory }
  /-- In the I/O page it leaves what the bytes outside its unit read, and the power state unless byte
  0x301 is in its unit. -/
  registers (width : Width) (address value other : UInt32) : Region.ofAddress address = .io →
    Region.ofAddress other = .io → Location.ofAddress other ∉ width.unit address →
    (b.write width address value).readIoByte other = b.readIoByte other
  power (width : Width) (address value : UInt32) : Region.ofAddress address = .io →
    Location.ofAddress 0x04000301 ∉ width.unit address →
    (b.write width address value).timing.power = b.timing.power
  /-- Only a load changes an image. -/
  images (more : List BoardRequest) : (∀ r ∈ more, r.isLoad = false) →
    (b.run more).memory.bios = b.memory.bios ∧ (b.run more).memory.rom = b.memory.rom
  /-- Nothing changes a size but that of the cartridge. -/
  sizes (region : Region) : region ≠ .rom → (b.memory.bytesOf region).size = region.capacity
  page : b.io.bytes.size = IoPage.size
  /-- No access goes beyond its memory. -/
  found (width : Width) (address : UInt32) : Region.ofAddress address ≠ .io →
    b.memory.find width address = some (b.read width address).1
  placed (width : Width) (address value : UInt32) (entry : Location × UInt8) :
    entry ∈ written width address value → entry.1.offset < (b.memory.bytesOf entry.1.region).size
  /-- A fetch finds the word that a read finds. -/
  fetches (address : UInt32) : Region.ofAddress address ≠ .io →
    (b.fetch address).1 = (b.read .word (alignWord address)).1

/-- What holds of the memories and the I/O page whatever was asked. -/
structure Furnished (b : Board) : Prop where
  sized : b.memory.Sized
  page : b.io.bytes.size = IoPage.size
  masked : b.io.irq.Masked

variable {b : Board}

theorem memory_configure (b : Board) (write : ConfigWrite) :
    (b.configure write).memory = b.memory := rfl

theorem memory_writeIoByte (b : Board) (address : UInt32) (value : UInt8) :
    (b.writeIoByte address value).memory = b.memory := by
  unfold writeIoByte
  simp only
  split
  · exact memory_configure b _
  · split
    · exact memory_configure b _
    · split
      · rfl
      · split
        · exact memory_configure b _
        · rfl

theorem memory_writeIo (b : Board) (width : Width) (address value : UInt32) :
    (b.writeIo width address value).memory = b.memory := by
  refine writeIo_keeps (P := fun c => c.memory = b.memory) rfl width value ?_
  intro k _ c v same
  exact (memory_writeIoByte c _ v).trans same

theorem memory_write (b : Board) (width : Width) (address value : UInt32) :
    (b.write width address value).memory = b.memory.update width address value := by
  unfold write updateAt
  split
  · next io =>
    rw [memory_writeIo, Memory.update, io]
    rfl
  · rfl

theorem memory_serve (b : Board) {request : BoardRequest} (quiet : request.isLoad = false) :
    (b.serve request).memory = match request with
      | .write width address value => b.memory.update width address value
      | _ => b.memory := by
  cases request with
  | write => exact memory_write ..
  | changePower change => cases change <;> rfl
  | load => cases quiet
  | _ => rfl

theorem Furnished.writeIoByte (h : b.Furnished) (address : UInt32) (value : UInt8) :
    (b.writeIoByte address value).Furnished where
  sized := memory_writeIoByte b address value ▸ h.sized
  page := by
    obtain same | written := io_writeIoByte b address value
    · rw [same, h.page]
    · rw [written, IoPage.size_writeByte, h.page]
  masked := masked_writeIoByte h.masked address value

theorem Furnished.write (h : b.Furnished) (width : Width) (address value : UInt32) :
    (b.write width address value).Furnished := by
  unfold Board.write updateAt
  have charged : (b.chargeAccess width address).Furnished := { h with }
  split
  · exact writeIo_keeps charged width value fun _ _ _ v hc => hc.writeIoByte _ v
  · exact { charged with sized := Memory.Sized.update h.sized width address value }

/-- A load puts an image in place or does nothing. -/
theorem serve_load (b : Board) (kind : ImageKind) (image : ByteArray) :
    b.serve (.load kind image) = b ∨
      ∃ memory, b.memory.load kind image = .ok memory ∧
        b.serve (.load kind image) = ({ b with memory } : Board).note (.imageLoaded kind image.size) := by
  rw [serve, load]
  cases b.memory.load kind image with
  | error fault => exact .inl rfl
  | ok memory => exact .inr ⟨memory, rfl, rfl⟩

theorem Furnished.serve (h : b.Furnished) (request : BoardRequest) : (b.serve request).Furnished := by
  cases request with
  | write width address value => exact h.write width address value
  | changePower change => cases change <;> exact { h with }
  | request line => exact { h with masked := h.masked.request line }
  | load kind image =>
    obtain same | ⟨memory, loaded, placed⟩ := serve_load b kind image
    · rw [same]; exact h
    · rw [placed]; exact { h with sized := Memory.Sized.load h.sized loaded }
  | reset => exact { sized := h.sized, page := IoPage.size_blank, masked := InterruptController.masked_initial }
  | _ => exact { h with }

theorem furnished_initial (log : Log) : (initial log).Furnished :=
  { sized := Memory.sized_blank, page := IoPage.size_blank, masked := InterruptController.masked_initial }

theorem Furnished.run (h : b.Furnished) (requests : List BoardRequest) : (b.run requests).Furnished := by
  induction requests generalizing b with
  | nil => exact h
  | cons request rest ih => exact ih (h.serve request)

theorem byteAt_serve (h : b.Furnished) (request : BoardRequest) {l : Location}
    (ram : l.region.isRam = true) :
    (b.serve request).memory.byteAt l =
      (request.stores.lookup l).getD (b.memory.byteAt l) := by
  cases request with
  | load kind image =>
    obtain same | ⟨memory, loaded, placed⟩ := serve_load b kind image
    · rw [same]; rfl
    · rw [placed]; exact Memory.byteAt_load loaded ram
  | write width address value =>
    rw [memory_serve b rfl]
    exact Memory.byteAt_update h.sized width address value l
  | _ =>
    rw [memory_serve b rfl]
    rfl

theorem byteAt_run (h : b.Furnished) (requests : List BoardRequest) {l : Location}
    (ram : l.region.isRam = true) :
    (b.run requests).memory.byteAt l =
      requests.foldl (fun byte request => (request.stores.lookup l).getD byte)
        (b.memory.byteAt l) := by
  induction requests generalizing b with
  | nil => rfl
  | cons request rest ih =>
    rw [run, List.foldl_cons, List.foldl_cons, ← byteAt_serve h request ram]
    exact ih (h.serve request)

/-- From power-on each byte of work and video memory is the one last stored there. -/
theorem byteAt_initial_run (log : Log) (requests : List BoardRequest) {l : Location}
    (ram : l.region.isRam = true) :
    ((initial log).run requests).memory.byteAt l = lastStored requests l := by
  rw [byteAt_run (furnished_initial log) requests ram]
  exact congrArg (requests.foldl _) (Memory.byteAt_blank ram)

theorem images_run (b : Board) {requests : List BoardRequest}
    (quiet : ∀ r ∈ requests, r.isLoad = false) :
    (b.run requests).memory.bios = b.memory.bios ∧ (b.run requests).memory.rom = b.memory.rom := by
  induction requests generalizing b with
  | nil => exact ⟨rfl, rfl⟩
  | cons request rest ih =>
    obtain ⟨first, others⟩ := List.forall_mem_cons.mp quiet
    have kept : (b.serve request).memory.bios = b.memory.bios ∧
        (b.serve request).memory.rom = b.memory.rom := by
      rw [memory_serve b first]
      split
      · next width address value =>
        unfold Memory.update
        split <;> exact ⟨rfl, rfl⟩
      · exact ⟨rfl, rfl⟩
    obtain ⟨bios, rom⟩ := ih (b.serve request) others
    exact ⟨bios.trans kept.1, rom.trans kept.2⟩

theorem read_of_memory (b : Board) (width : Width) {address : UInt32}
    (memory : Region.ofAddress address ≠ .io) :
    (b.read width address).1 = b.memory.value width address := if_neg memory

theorem toNat_read (h : b.Furnished) (width : Width) {address : UInt32}
    (ram : (Region.ofAddress address).isRam = true) :
    (b.read width address).1.toNat =
      Nat.ofDigits 256 ((width.unit address).map fun l => (b.memory.byteAt l).toNat) := by
  rw [read_of_memory b width fun io => by rw [io] at ram; cases ram]
  exact Memory.toNat_value h.sized ram width

theorem toNat_read_byte (h : b.Furnished) {address : UInt32}
    (ram : (Region.ofAddress address).isRam = true) :
    (b.read .byte address).1.toNat = (b.memory.byteAt (.ofAddress address)).toNat := by
  rw [toNat_read h .byte ram]
  simp [Width.unit, Width.bytes, Width.align]

theorem readIoByte_chargeAccess (b : Board) (width : Width) (address other : UInt32) :
    (b.chargeAccess width address).readIoByte other = b.readIoByte other := by
  rw [← readIoByte_view, view_chargeAccess, readIoByte_view]

/-- Bytes outside the unit lie elsewhere in the page. -/
theorem offset_ne_of_unit {width : Width} {address other : UInt32}
    (io : Region.ofAddress address = .io) (io' : Region.ofAddress other = .io)
    (apart : Location.ofAddress other ∉ width.unit address) {k : Nat} (hk : k < width.bytes) :
    Region.io.offset other.toNat ≠
      Region.io.offset (width.align address + k.toUInt32).toNat := by
  intro same
  refine apart (List.mem_map.mpr ⟨k, List.mem_range.mpr hk, ?_⟩)
  rw [Location.ofAddress, Location.ofAddress, ofAddress_align_add width address hk, io, io', same]

theorem readIoByte_write (h : b.Furnished) (width : Width) (value : UInt32) {address other : UInt32}
    (io : Region.ofAddress address = .io) (io' : Region.ofAddress other = .io)
    (apart : Location.ofAddress other ∉ width.unit address) :
    (b.write width address value).readIoByte other = b.readIoByte other := by
  have masked : (b.chargeAccess width address).io.irq.Masked := h.masked
  rw [write, updateAt, if_pos io, readIoByte_writeIo masked width value, readIoByte_chargeAccess]
  intro k hk
  exact offset_ne_of_unit io io' apart hk

theorem power_write (b : Board) (width : Width) (value : UInt32) {address : UInt32}
    (io : Region.ofAddress address = .io)
    (apart : Location.ofAddress 0x04000301 ∉ width.unit address) :
    (b.write width address value).timing.power = b.timing.power := by
  rw [write, updateAt, if_pos io, power_writeIo width value]
  · rfl
  · intro k hk same
    have offset := toNat_ioOffset (width.align address + k.toUInt32)
    rw [same] at offset
    refine offset_ne_of_unit io (by decide) apart hk ?_
    simp only [Region.offset, ← offset]
    rfl

theorem view_write_of_memory (b : Board) (width : Width) (value : UInt32) {address : UInt32}
    (memory : Region.ofAddress address ≠ .io) :
    (b.write width address value).view =
      { b.view with memory := (b.write width address value).memory } := by
  rw [memory_write, ← view_write, updateAt, if_neg memory]
  rfl

theorem fetch_eq_read (b : Board) {address : UInt32} (memory : Region.ofAddress address ≠ .io) :
    (b.fetch address).1 = (b.read .word (alignWord address)).1 := by
  have aligned : Region.ofAddress (alignWord address) ≠ .io :=
    fun io => memory ((ofAddress_align .word address).symm.trans io)
  rw [read_of_memory b .word aligned]
  rfl

/-- After any requests from power-on memory answers as its map says. -/
theorem memory_mapped (log : Log) (requests : List BoardRequest) :
    Mapped requests ((initial log).run requests) := by
  have held : ((initial log).run requests).Furnished := (furnished_initial log).run requests
  have stored := fun {l} => byteAt_initial_run log requests (l := l)
  generalize (initial log).run requests = b at held stored
  refine
    { reads := fun width address ram => ?_
      narrow := fun width address ram => ?_
      writes := fun width address value l => ?_
      elsewhere := fun width address value => view_write_of_memory b width value
      registers := fun width address value other => readIoByte_write held width value
      power := fun width address value => power_write b width value
      images := fun more => images_run b
      sizes := held.sized
      page := held.page
      found := fun width address memory => ?_
      placed := fun width address value entry => written_lt held.sized
      fetches := fun address => fetch_eq_read b }
  · rw [toNat_read held width ram]
    refine congrArg _ (List.map_congr_left fun l hl => ?_)
    obtain ⟨i, hi, rfl⟩ := List.mem_map.mp hl
    rw [stored]
    rw [Location.ofAddress, ofAddress_align_add width address (List.mem_range.mp hi)]
    exact ram
  · rw [toNat_read held width ram, Width.unit, List.map_map]
    refine congrArg _ (List.map_congr_left fun i hi => ?_)
    have ram : (Region.ofAddress (width.align address + i.toUInt32)).isRam = true := by
      rw [ofAddress_align_add width address (List.mem_range.mp hi)]
      exact ram
    exact (toNat_read_byte held ram).symm
  · rw [memory_write]
    exact Memory.byteAt_update held.sized width address value l
  · rw [read_of_memory b width memory]
    exact Memory.find_eq_value held.sized width address

/-- A word and a byte written to two mirrors of video memory are read back from a third. -/
theorem memory_mapped_fold :
    let requests := [.write .word 0x0601A001 0x44332211, .write .byte 0x06012002 0xEE]
    (Region.ofAddress 0x0603A003).isRam = true ∧
      (((initial .silent).run requests).read .half 0x0603A003).1.toNat = 0x44EE := by
  intro requests
  have ram : (Region.ofAddress 0x0603A003).isRam = true := by decide
  have read := (memory_mapped .silent requests).reads .half 0x0603A003 ram
  exact ⟨ram, read.trans (by decide +kernel)⟩

end Board

end GbaArm
