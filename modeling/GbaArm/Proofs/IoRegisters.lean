import GbaArm.Proofs.BoardView
import GbaArm.Proofs.Locations

/-! The I/O page byte by byte: a write to one byte leaves what the others read. -/
namespace GbaArm

theorem UInt8.eq_of_bits {a b : UInt8}
    (h : ∀ i < 8, a.toBitVec.getLsbD i = b.toBitVec.getLsbD i) : a = b :=
  UInt8.toBitVec_inj.mp (BitVec.eq_of_getLsbD_eq h)

namespace InterruptController

/-- No line above the fourteenth is enabled. -/
def Masked (c : InterruptController) : Prop := c.enabled &&& 0x3FFF = c.enabled

variable {c : InterruptController}

theorem masked_initial : Masked {} :=
  (by decide : (0 : UInt16) &&& 0x3FFF = 0)

theorem Masked.writeByte (h : c.Masked) (offset : Nat) (value : UInt8) :
    (c.writeByte offset value).Masked := by
  have masked : ∀ word : UInt16, (c.writeEnabled word).Masked := fun word => by
    rw [Masked, writeEnabled, UInt16.and_assoc]
    rfl
  unfold InterruptController.writeByte
  simp only
  split
  · exact masked _
  · exact masked _
  all_goals exact h

theorem Masked.request (h : c.Masked) (line : IrqLine) : (c.request line).Masked := h

theorem high_writeEnabled (h : c.Masked) (value : UInt8) :
    ((c.writeEnabled ((c.enabled &&& 0xFF00) ||| value.toUInt16)).enabled >>> 8).toUInt8 =
      (c.enabled >>> 8).toUInt8 := by
  apply UInt8.eq_of_bits
  intro i hi
  have h := congrArg (fun w => w.toBitVec.getLsbD (8 + i)) h
  have high : (0xFF00#16).getLsbD (8 + i) = true :=
    (by decide : ∀ i < 8, (0xFF00#16).getLsbD (8 + i) = true) i hi
  simp [writeEnabled] at h ⊢
  simp [high, hi]
  exact h

theorem low_writeEnabled {high : UInt16} (above : high.toUInt8 = 0) :
    (c.writeEnabled ((c.enabled &&& 0x00FF) ||| high)).enabled.toUInt8 = c.enabled.toUInt8 := by
  have low : (0x00FF : UInt16).toUInt8 = -1 := rfl
  have line : (0x3FFF : UInt16).toUInt8 = -1 := rfl
  rw [writeEnabled, UInt16.toUInt8_and, UInt16.toUInt8_or, UInt16.toUInt8_and, above, low, line,
    UInt8.and_neg_one, UInt8.and_neg_one, UInt8.or_zero]

theorem high_acknowledge (value : UInt8) :
    ((c.acknowledge value.toUInt16).requested >>> 8).toUInt8 = (c.requested >>> 8).toUInt8 := by
  apply UInt8.eq_of_bits
  intro i hi
  have short : 8 + i < 16 := by omega
  simp [acknowledge, hi, short]

theorem low_acknowledge {high : UInt16} (above : high.toUInt8 = 0) :
    (c.acknowledge high).requested.toUInt8 = c.requested.toUInt8 := by
  rw [acknowledge, UInt16.toUInt8_and, UInt16.toUInt8_not, above]
  exact UInt8.and_neg_one

theorem toUInt8_high (value : UInt8) : (value.toUInt16 <<< 8).toUInt8 = 0 := by
  apply UInt8.eq_of_bits
  intro i hi
  simp [hi]

theorem readByte_writeByte (h : c.Masked) {i j : Nat} (apart : i ≠ j) (value : UInt8) :
    (c.writeByte j value).readByte i = c.readByte i := by
  unfold writeByte
  simp only
  split
  · unfold readByte
    split
    · exact absurd rfl apart
    · exact high_writeEnabled h value
    all_goals rfl
  · unfold readByte
    split
    · exact low_writeEnabled (toUInt8_high value)
    · exact absurd rfl apart
    all_goals rfl
  · unfold readByte
    split
    · rfl
    · rfl
    · exact absurd rfl apart
    · exact high_acknowledge value
    all_goals rfl
  · unfold readByte
    split
    · rfl
    · rfl
    · exact low_acknowledge (toUInt8_high value)
    · exact absurd rfl apart
    all_goals rfl
  · unfold readByte
    split
    case h_5 => exact absurd rfl apart
    all_goals rfl
  · rfl

end InterruptController

namespace IoPage

variable {p : IoPage}

theorem readByte_writeByte (h : p.irq.Masked) {i j : Nat} (apart : i ≠ j) (value : UInt8) :
    (p.writeByte j value).readByte i = p.readByte i := by
  unfold writeByte
  split
  · unfold readByte
    split
    · exact InterruptController.readByte_writeByte h apart value
    · rfl
  · split
    · next posted =>
      unfold readByte
      rw [if_neg (by omega : ¬ i = 0x300), if_neg (by omega : ¬ i = 0x300)]
    · unfold readByte
      simp only [Bytes.get_set_other apart.symm]

theorem masked_writeByte (h : p.irq.Masked) (offset : Nat) (value : UInt8) :
    (p.writeByte offset value).irq.Masked := by
  unfold writeByte
  split
  · exact h.writeByte offset value
  · split <;> exact h

theorem size_blank : blank.bytes.size = size := by
  simp only [blank, Bytes.size_filled]

theorem size_writeByte (p : IoPage) (offset : Nat) (value : UInt8) :
    (p.writeByte offset value).bytes.size = p.bytes.size := by
  unfold writeByte
  split
  · rfl
  · split
    · rfl
    · exact Bytes.size_set ..

end IoPage

theorem toNat_and_three (a : UInt32) : (a &&& 3).toNat = a.toNat % 4 := toNat_and_low (k := 2) rfl a

/-- The register with another byte in a place of it. -/
def replaceByte (control k : UInt32) (data : UInt8) : UInt32 :=
  control &&& ~~~((0xFF : UInt32) <<< (8 * k)) ||| data.toUInt32 <<< (8 * k)

theorem byteOf_replaceByte (control : UInt32) (data : UInt8) {i : Nat} (hi : i < 4) {k : UInt32}
    (hk : k.toNat < 4) :
    byteOf (replaceByte control k data) i = if i = k.toNat then data else byteOf control i := by
  have amount : 8 * k = (8 * k.toNat).toUInt32 := by
    rw [← UInt32.toNat_inj, UInt32.toNat_mul]
    simp only [Nat.toUInt32, UInt32.toNat_ofNat', UInt32.reduceToNat]
  have kept : ∀ i < 4, ∀ k < 4, byteOf (~~~((0xFF : UInt32) <<< (8 * k).toUInt32)) i =
      if i = k then 0 else -1 := by decide
  rw [replaceByte, amount, byteOf_or, byteOf_and, kept i hi k.toNat hk, byteOf_shiftLeft data hi hk]
  split
  · rw [UInt8.and_zero, UInt8.zero_or]
  · rw [UInt8.and_neg_one, UInt8.or_zero]

namespace WaitStates

/-- The bits of the register that can be read, byte by byte. -/
def readableControl : Nat → UInt8
  | 0 => 0x2F
  | 3 => 0xFF
  | _ => 0

theorem readControlByte_eq (w : WaitStates) (address : UInt32) :
    w.readControlByte address =
      byteOf w.memoryControl (address.toNat % 4) &&& readableControl (address.toNat % 4) := by
  have place := toNat_and_three address
  unfold readControlByte
  rw [place]
  obtain h | h | h | h : address.toNat % 4 = 0 ∨ address.toNat % 4 = 1 ∨ address.toNat % 4 = 2 ∨
    address.toNat % 4 = 3 := by omega
  all_goals rw [h]
  · exact UInt32.toUInt8_and ..
  · exact UInt8.and_zero.symm
  · exact UInt8.and_zero.symm
  · exact UInt8.and_neg_one.symm

/-- A byte written to the register takes the place of the one there. -/
theorem registers_writeControlByte (w : WaitStates) (address : UInt32) (data : UInt8) :
    (w.writeControlByte address data).registers =
      { w.registers with memoryControl := replaceByte w.memoryControl (address &&& 3) data } := by
  unfold writeControlByte
  simp only
  split <;> rfl

theorem readControlByte_writeControlByte (w : WaitStates) (i j : UInt32) (data : UInt8) :
    (w.writeControlByte j data).readControlByte i =
      if i.toNat % 4 = j.toNat % 4 then data &&& readableControl (i.toNat % 4)
      else w.readControlByte i := by
  have control : (w.writeControlByte j data).memoryControl = replaceByte w.memoryControl (j &&& 3) data :=
    congrArg WaitRegisters.memoryControl (registers_writeControlByte w j data)
  have lane := toNat_and_three j
  rw [readControlByte_eq, control, byteOf_replaceByte _ _ (Nat.mod_lt _ (by decide)) (by omega), lane]
  split
  · rfl
  · exact (readControlByte_eq w i).symm

end WaitStates

namespace Board

variable {b : Board} {i j : UInt32}

theorem toNat_ioOffset (address : UInt32) : (ioOffset address).toNat = address.toNat % 0x1000000 :=
  toNat_and_low (k := 24) rfl address

theorem isMemoryControl_iff (offset : UInt32) :
    isMemoryControl offset = true ↔ offset.toNat % 0x10000 / 4 = 0x200 := by
  have masked : (offset &&& 0xFFFC).toNat = offset.toNat % 0x10000 - offset.toNat % 0x10000 % 4 := by
    have low : (offset &&& 0xFFFF).toNat = offset.toNat % 0x10000 := toNat_and_low (k := 16) rfl offset
    have split : offset &&& 0xFFFC = alignWord (offset &&& 0xFFFF) := by
      rw [alignWord, UInt32.and_assoc]
      rfl
    rw [split, toNat_alignWord, low]
  rw [isMemoryControl, beq_iff_eq, ← UInt32.toNat_inj, masked]
  show _ = 0x800 ↔ _
  omega

theorem readIoByte_congr {b b' : Board} (address : UInt32)
    (low : ioOffset address = 0x204 → b'.wait.waitLow = b.wait.waitLow)
    (high : ioOffset address = 0x205 → b'.wait.waitHigh = b.wait.waitHigh)
    (control : isMemoryControl (ioOffset address) = true →
      b'.wait.readControlByte (ioOffset address) = b.wait.readControlByte (ioOffset address))
    (plain : isMemoryControl (ioOffset address) = false →
      b'.io.readByte (ioOffset address).toNat = b.io.readByte (ioOffset address).toNat) :
    b'.readIoByte address = b.readIoByte address := by
  unfold readIoByte
  simp only
  split
  · next h => exact low h
  · split
    · next h => exact high h
    · split
      · next h => exact control h
      · next h => exact plain (Bool.eq_false_iff.mpr h)

theorem io_configure (b : Board) (write : ConfigWrite) : (b.configure write).io = b.io := rfl

theorem readIoByte_configure (b : Board) {write : ConfigWrite} {w : WaitStates}
    (hw : b.wait.configure write = w) (address : UInt32) :
    (b.configure write).readIoByte address = ({ b with wait := w } : Board).readIoByte address := by
  subst hw
  rfl

theorem readControlByte_congr {w k : WaitStates} (same : w.memoryControl = k.memoryControl)
    (address : UInt32) : w.readControlByte address = k.readControlByte address := by
  rw [WaitStates.readControlByte, same, WaitStates.readControlByte]

/-- A write to one byte of the I/O page leaves what the others read. -/
theorem readIoByte_writeIoByte (masked : b.io.irq.Masked)
    (apart : Region.io.offset i.toNat ≠ Region.io.offset j.toNat) (value : UInt8) :
    (b.writeIoByte j value).readIoByte i = b.readIoByte i := by
  have hi := toNat_ioOffset i
  have hj := toNat_ioOffset j
  simp only [Region.offset, ← hi, ← hj] at apart
  unfold writeIoByte
  simp only
  split
  · next at204 =>
    have written := b.wait.registers_writeWaitLow value
    rw [readIoByte_configure b (w := b.wait.writeWaitLow value) rfl]
    generalize b.wait.writeWaitLow value = w at written ⊢
    obtain ⟨-, high, control⟩ := WaitRegisters.mk.inj written
    exact readIoByte_congr i (fun h => absurd (by rw [h, at204]) apart) (fun _ => high)
      (fun _ => readControlByte_congr control _) fun _ => rfl
  · split
    · next at205 =>
      have written := b.wait.registers_writeWaitHigh value
      rw [readIoByte_configure b (w := b.wait.writeWaitHigh value) rfl]
      generalize b.wait.writeWaitHigh value = w at written ⊢
      obtain ⟨low, -, control⟩ := WaitRegisters.mk.inj written
      exact readIoByte_congr i (fun _ => low) (fun h => absurd (by rw [h, at205]) apart)
        (fun _ => readControlByte_congr control _) fun _ => rfl
    · split
      · exact readIoByte_congr i (fun _ => rfl) (fun _ => rfl) (fun _ => rfl) fun _ => rfl
      · split
        · next control =>
          have cj := (isMemoryControl_iff _).mp control
          obtain ⟨low, high, -⟩ := WaitRegisters.mk.inj
            (b.wait.registers_writeControlByte (ioOffset j) value)
          refine readIoByte_congr i (fun _ => low) (fun _ => high) (fun ci => ?_) fun _ => rfl
          have ci := (isMemoryControl_iff _).mp ci
          rw [if_pos ci, if_pos cj] at apart
          exact (WaitStates.readControlByte_writeControlByte _ _ _ value).trans (if_neg (by omega))
        · next plain =>
          refine readIoByte_congr i (fun _ => rfl) (fun _ => rfl) (fun _ => rfl) fun ci => ?_
          have ci := mt (isMemoryControl_iff _).mpr (Bool.eq_false_iff.mp ci)
          rw [if_neg ci, if_neg (mt (isMemoryControl_iff _).mpr plain)] at apart
          exact IoPage.readByte_writeByte masked apart value

/-- Of the page itself, a write to one byte changes that byte or nothing. -/
theorem io_writeIoByte (b : Board) (address : UInt32) (value : UInt8) :
    (b.writeIoByte address value).io = b.io ∨
      (b.writeIoByte address value).io = b.io.writeByte (ioOffset address).toNat value := by
  unfold writeIoByte
  simp only
  split
  · exact .inl (io_configure b _)
  · split
    · exact .inl (io_configure b _)
    · split
      · exact .inl rfl
      · split
        · exact .inl (io_configure b _)
        · exact .inr rfl

theorem masked_writeIoByte (masked : b.io.irq.Masked) (address : UInt32) (value : UInt8) :
    (b.writeIoByte address value).io.irq.Masked := by
  obtain same | written := io_writeIoByte b address value
  · exact same ▸ masked
  · exact written ▸ IoPage.masked_writeByte masked _ value

/-- Only byte 0x301 changes the power state. -/
theorem power_writeIoByte (apart : ioOffset j ≠ 0x301) (value : UInt8) :
    (b.writeIoByte j value).timing.power = b.timing.power := by
  have configured : ∀ write, (b.configure write).timing = b.timing := fun _ => rfl
  unfold writeIoByte
  simp only [if_neg apart]
  split
  · rw [configured]
  · split
    · rw [configured]
    · split
      · rw [configured]
      · rfl

/-- A write to the I/O page is made of writes to its bytes. -/
theorem writeIo_keeps {P : Board → Prop} (h : P b) (width : Width) (value : UInt32)
    (byte : ∀ k < width.bytes, ∀ c v, P c → P (c.writeIoByte (j + k.toUInt32) v)) :
    P (b.writeIo width j value) := by
  have first : 0 < width.bytes → ∀ v, P (b.writeIoByte j v) := by
    intro inside v
    have written := byte 0 inside b v h
    rwa [show j + (0 : Nat).toUInt32 = j from UInt32.add_zero j] at written
  cases width with
  | byte => exact first (by decide) _
  | half => exact byte 1 (by decide) _ _ (first (by decide) _)
  | word =>
    have second := byte 1 (by decide) _ (value >>> 8).toUInt8 (first (by decide) value.toUInt8)
    have third := byte 2 (by decide) _ (value >>> 16).toUInt8 second
    exact byte 3 (by decide) _ _ third

/-- A write to the I/O page leaves what the bytes outside it read. -/
theorem readIoByte_writeIo (masked : b.io.irq.Masked) (width : Width) (value : UInt32)
    (apart : ∀ k < width.bytes,
      Region.io.offset i.toNat ≠ Region.io.offset (j + k.toUInt32).toNat) :
    (b.writeIo width j value).readIoByte i = b.readIoByte i := by
  have kept : (b.writeIo width j value).io.irq.Masked ∧
      (b.writeIo width j value).readIoByte i = b.readIoByte i := by
    refine writeIo_keeps (P := fun c => c.io.irq.Masked ∧ c.readIoByte i = b.readIoByte i)
      ⟨masked, rfl⟩ width value ?_
    rintro k hk c v ⟨hc, same⟩
    exact ⟨masked_writeIoByte hc _ v, (readIoByte_writeIoByte hc (apart k hk) v).trans same⟩
  exact kept.2

theorem power_writeIo (width : Width) (value : UInt32)
    (apart : ∀ k < width.bytes, ioOffset (j + k.toUInt32) ≠ 0x301) :
    (b.writeIo width j value).timing.power = b.timing.power := by
  refine writeIo_keeps (P := fun c => c.timing.power = b.timing.power) rfl width value ?_
  intro k hk c v same
  exact (power_writeIoByte (apart k hk) v).trans same

/-- A byte written to the I/O page takes no time, and reaches the wait states as a configuration write
or not at all. -/
theorem wait_writeIoByte (b : Board) (address : UInt32) (value : UInt8) :
    (b.writeIoByte address value).timing.cycles = b.timing.cycles ∧
      ((b.writeIoByte address value).wait = b.wait ∨
        ∃ write, (b.writeIoByte address value).wait = b.wait.configure write) := by
  have configured : ∀ write, (b.configure write).timing.cycles = b.timing.cycles ∧
      ((b.configure write).wait = b.wait ∨
        ∃ write', (b.configure write).wait = b.wait.configure write') :=
    fun write => ⟨rfl, .inr ⟨write, rfl⟩⟩
  unfold writeIoByte
  simp only
  split
  · exact configured _
  · split
    · exact configured _
    · split
      · split <;> exact ⟨rfl, .inl rfl⟩
      · split
        · exact configured _
        · exact ⟨rfl, .inl rfl⟩

theorem pc_writeIoByte (b : Board) (address : UInt32) (value : UInt8) :
    (b.writeIoByte address value).pc = b.pc := by
  have configured : ∀ write, (b.configure write).pc = b.pc := fun write => rfl
  unfold writeIoByte
  simp only
  split
  · exact configured _
  · split
    · exact configured _
    · split
      · rfl
      · split
        · exact configured _
        · rfl

theorem cycles_updateAt (b : Board) (width : Width) (address value : UInt32) :
    (b.updateAt width address value).timing.cycles = b.timing.cycles := by
  unfold updateAt
  split
  · refine writeIo_keeps (P := fun c => c.timing.cycles = b.timing.cycles) rfl width value ?_
    intro k _ c v still
    exact (wait_writeIoByte c _ v).1.trans still
  · rfl

theorem pc_updateAt (b : Board) (width : Width) (address value : UInt32) :
    (b.updateAt width address value).pc = b.pc := by
  unfold updateAt
  split
  · refine writeIo_keeps (P := fun c => c.pc = b.pc) rfl width value ?_
    intro k _ c v still
    exact (pc_writeIoByte c _ v).trans still
  · rfl

/-- What configuration writes keep, a write to memory or to the I/O page keeps. -/
theorem updateAt_keeps {P : WaitStates → Prop} (configure : ∀ w write, P w → P (w.configure write))
    (h : P b.wait) (width : Width) (address value : UInt32) :
    P (b.updateAt width address value).wait := by
  unfold updateAt
  split
  · refine writeIo_keeps (P := fun c => P c.wait) h width value ?_
    intro k _ c v kept
    obtain same | ⟨write, written⟩ := (wait_writeIoByte c (width.align address + k.toUInt32) v).2
    · exact same.symm ▸ kept
    · exact written.symm ▸ configure _ _ kept
  · exact h

theorem cycles_write (b : Board) (width : Width) (address value : UInt32) :
    (b.write width address value).timing.cycles =
      b.timing.cycles + (b.wait.access width b.pc (width.align address)).1 :=
  cycles_updateAt (b.chargeAccess width address) width address value

end Board

end GbaArm
