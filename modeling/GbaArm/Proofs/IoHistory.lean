import GbaArm.Proofs.History
import GbaArm.Proofs.MemoryMap

/-!
The I/O page as a history. Every byte of it reads as it was last written, cut to the bits it keeps, whatever
was done to the others, and a bit of the request register is set from a request on until it is withdrawn.
-/
namespace GbaArm

/-- What happens to the I/O page. -/
inductive IoEvent
  /-- A byte is written to a place of the page. -/
  | wrote (place : Nat) (value : UInt8)
  /-- An interrupt is requested. -/
  | raised (line : IrqLine)

namespace IoEvent

def wroteTo (place : Nat) : IoEvent → Option UInt8
  | wrote other value => if other = place then some value else none
  | raised _ => none

/-- The event requests the line of bit `k`. -/
def Raises (k : Nat) : IoEvent → Prop
  | wrote .. => False
  | raised line => line.number.toNat = k

/-- The event writes a one to bit `k` of the request register. -/
def Withdraws (k : Nat) : IoEvent → Prop
  | wrote place value => place = 0x202 + k / 8 ∧ value.toNat.testBit (k % 8) = true
  | raised _ => False

theorem not_withdraws {place k : Nat} (low : place ≠ 0x202) (high : place ≠ 0x203) (hk : k < 16)
    (value : UInt8) : ¬ (wrote place value).Withdraws k := by
  rintro ⟨here, -⟩
  omega

end IoEvent

/-- The place of the I/O page that an address leads to. -/
def ioPlace (address : UInt32) : Nat := Region.io.offset address.toNat

/-- The bits that a place keeps of a byte written there. The request register keeps no byte. -/
def keptBits (place : Nat) : UInt8 :=
  match place with
  | 0x201 => 0x3F
  | 0x205 => 0x5F
  | 0x208 | 0x300 => 1
  | 0x206 | 0x207 | 0x209 | 0x20A | 0x20B | 0x301 => 0
  | 0x800 => 0x2F
  | 0x803 => 0xFF
  | _ => if place < IoPage.size then 0xFF else 0

/-- What a place reads from power-on. -/
def powerOn (place : Nat) : UInt8 :=
  match place with
  | 0x800 => 0x20
  | 0x803 => 0x0D
  | _ => 0

/-- What a place reads after a history. -/
def recalled (past : List IoEvent) (place : Nat) : UInt8 :=
  match lastSupplied (IoEvent.wroteTo place) past with
  | some value => value &&& keptBits place
  | none => powerOn place

/-- What a request adds to the history. A write is made of the writes to its bytes, the lowest first, and a
reset begins a new history. -/
def BoardRequest.extend (past : List IoEvent) : BoardRequest → List IoEvent
  | write width address value =>
    if Region.ofAddress address = .io then
      past ++ (List.range width.bytes).map fun k =>
        .wrote (ioPlace (width.align address + k.toUInt32)) (byteOf value k)
    else past
  | request line => past ++ [.raised line]
  | reset => []
  | _ => past

/-- The events since power-on or the last reset. -/
def ioHistory (requests : List BoardRequest) : List IoEvent := requests.foldl BoardRequest.extend []

theorem recalled_wrote (past : List IoEvent) (place other : Nat) (value : UInt8) :
    recalled (past ++ [.wrote place value]) other =
      if place = other then value &&& keptBits other else recalled past other := by
  by_cases same : place = other <;> simp [recalled, lastSupplied_concat, IoEvent.wroteTo, same]

theorem recalled_raised (past : List IoEvent) (line : IrqLine) (place : Nat) :
    recalled (past ++ [.raised line]) place = recalled past place := by
  rw [recalled, lastSupplied_concat, IoEvent.wroteTo]
  rfl

theorem IoPage.isInterrupt_iff (offset : Nat) :
    isInterrupt offset = true ↔ 0x200 ≤ offset ∧ offset ≤ 0x20B := by
  simp [isInterrupt]

namespace InterruptController

theorem low_writeEnabled_self (c : InterruptController) (value : UInt8) :
    (c.writeEnabled ((c.enabled &&& 0xFF00) ||| value.toUInt16)).enabled.toUInt8 = value := by
  have cleared : (0xFF00 : UInt16).toUInt8 = 0 := rfl
  have line : (0x3FFF : UInt16).toUInt8 = -1 := rfl
  rw [writeEnabled, UInt16.toUInt8_and, UInt16.toUInt8_or, UInt16.toUInt8_and, cleared, line,
    UInt8.and_zero, UInt8.zero_or, UInt8.and_neg_one, UInt8.toUInt8_toUInt16]

theorem high_writeEnabled_self (c : InterruptController) (value : UInt8) :
    ((c.writeEnabled ((c.enabled &&& (0x00FF : UInt16)) ||| (value.toUInt16 <<< 8))).enabled >>> 8).toUInt8 =
      value &&& 0x3F := by
  have cleared : ((0x00FF : UInt16) >>> 8).toUInt8 = 0 := rfl
  have line : ((0x3FFF : UInt16) >>> 8).toUInt8 = 0x3F := rfl
  have moved : (value.toUInt16 <<< 8 >>> 8).toUInt8 = value := by
    have := value.toNat_lt
    rw [← UInt8.toNat_inj]
    simp [Nat.shiftLeft_eq, Nat.shiftRight_eq_div_pow]
    omega
  rw [writeEnabled, UInt16.shiftRight_and, UInt16.shiftRight_or, UInt16.shiftRight_and, UInt16.toUInt8_and,
    UInt16.toUInt8_or, UInt16.toUInt8_and, cleared, line, moved, UInt8.and_zero, UInt8.zero_or]

theorem masterEnable_byte (value : UInt8) :
    (value.toUInt16 &&& 1 != 0).toNat.toUInt8 = value &&& 1 := by
  have narrow : value &&& 1 = (value.toUInt16 &&& 1).toUInt8 := by
    rw [UInt16.toUInt8_and, UInt8.toUInt8_toUInt16]
    rfl
  have single : (value.toUInt16 &&& 1).toNat = value.toNat % 2 := by
    rw [UInt16.toNat_and, UInt8.toNat_toUInt16]
    exact Nat.and_one_is_mod _
  have bit : value.toUInt16 &&& 1 = 0 ∨ value.toUInt16 &&& 1 = 1 := by
    rw [← UInt16.toNat_inj, ← UInt16.toNat_inj, single]
    exact Nat.mod_two_eq_zero_or_one _
  rw [narrow]
  obtain clear | set := bit
  · rw [clear]
    rfl
  · rw [set]
    rfl

/-- What a byte of the registers reads after it was written, the request register apart. -/
theorem readByte_writeByte_self (c : InterruptController) {offset : Nat}
    (inside : IoPage.isInterrupt offset = true) (low : offset ≠ 0x202) (high : offset ≠ 0x203)
    (timed : offset ≠ 0x204 ∧ offset ≠ 0x205) (value : UInt8) :
    (c.writeByte offset value).readByte offset = value &&& keptBits offset := by
  unfold writeByte
  simp only
  split
  · exact (c.low_writeEnabled_self value).trans UInt8.and_neg_one.symm
  · exact c.high_writeEnabled_self value
  · exact absurd rfl low
  · exact absurd rfl high
  · exact masterEnable_byte value
  · next enable enableHigh _ _ master =>
    have apart : offset ≠ 0x200 ∧ offset ≠ 0x201 ∧ offset ≠ 0x208 := ⟨enable, enableHigh, master⟩
    obtain ⟨least, most⟩ := (IoPage.isInterrupt_iff offset).mp inside
    obtain rfl | rfl | rfl | rfl | rfl :
      offset = 0x206 ∨ offset = 0x207 ∨ offset = 0x209 ∨ offset = 0x20A ∨ offset = 0x20B := by omega
    all_goals exact UInt8.and_zero.symm

theorem testBit_acknowledge (c : InterruptController) (value : UInt16) {k : Nat} (hk : k < 16) :
    (c.acknowledge value).requested.toNat.testBit k =
      (c.requested.toNat.testBit k && !value.toNat.testBit k) := by
  show (c.acknowledge value).requested.toBitVec.getLsbD k =
    (c.requested.toBitVec.getLsbD k && !value.toBitVec.getLsbD k)
  rw [acknowledge, UInt16.toBitVec_and, UInt16.toBitVec_not, BitVec.getLsbD_and, BitVec.getLsbD_not,
    decide_eq_true hk, Bool.true_and]

theorem withdraws_low (value : UInt8) (k : Nat) :
    (IoEvent.wrote 0x202 value).Withdraws k ↔ value.toUInt16.toNat.testBit k = true := by
  rw [UInt8.toNat_toUInt16, IoEvent.Withdraws]
  by_cases hk : k < 8
  · rw [Nat.mod_eq_of_lt hk, Nat.div_eq_of_lt hk]
    exact and_iff_right rfl
  · have short : value.toNat.testBit k = false := Nat.testBit_lt_two_pow
      (Nat.lt_of_lt_of_le value.toNat_lt (Nat.pow_le_pow_right (by decide) (Nat.le_of_not_lt hk)))
    rw [short]
    exact iff_of_false (fun h => by omega) Bool.false_ne_true

theorem withdraws_high (value : UInt8) {k : Nat} (hk : k < 16) :
    (IoEvent.wrote 0x203 value).Withdraws k ↔ (value.toUInt16 <<< 8).toNat.testBit k = true := by
  rw [toNat_highByte, Nat.testBit_shiftLeft, IoEvent.Withdraws]
  by_cases high : 8 ≤ k
  · have lane : k / 8 = 1 ∧ k % 8 = k - 8 := by omega
    simp [high, lane]
  · have lane : k / 8 = 0 := by omega
    simp [high, lane]

/-- A write withdraws the requests whose bits it writes as ones. -/
theorem testBit_writeByte (c : InterruptController) (offset : Nat) (value : UInt8) {k : Nat} (hk : k < 16) :
    (c.writeByte offset value).requested.toNat.testBit k = true ↔
      c.requested.toNat.testBit k = true ∧ ¬ (IoEvent.wrote offset value).Withdraws k := by
  unfold writeByte
  simp only
  split
  · exact (and_iff_left (IoEvent.not_withdraws (by decide) (by decide) hk value)).symm
  · exact (and_iff_left (IoEvent.not_withdraws (by decide) (by decide) hk value)).symm
  · rw [testBit_acknowledge c _ hk, withdraws_low]
    simp
  · rw [testBit_acknowledge c _ hk, withdraws_high value hk]
    simp
  · exact (and_iff_left (IoEvent.not_withdraws (by decide) (by decide) hk value)).symm
  · next low high _ => exact (and_iff_left (IoEvent.not_withdraws low high hk value)).symm

theorem testBit_request (c : InterruptController) (line : IrqLine) {k : Nat} (hk : k < 16) :
    (c.request line).requested.toNat.testBit k = true ↔
      (IoEvent.raised line).Raises k ∨ c.requested.toNat.testBit k = true := by
  have single : ∀ k < 16, line.mask.toNat.testBit k = decide (line.number.toNat = k) := by
    cases line <;> decide
  rw [request, UInt16.toNat_or, Nat.testBit_or, single k hk, Bool.or_eq_true, decide_eq_true_iff, or_comm]
  rfl

end InterruptController

namespace IoPage

variable {p : IoPage}

/-- What a byte of the page itself reads after it was written, the request register apart. -/
theorem readByte_writeByte_self (whole : p.bytes.size = size) {offset : Nat}
    (low : offset ≠ 0x202) (high : offset ≠ 0x203) (timed : offset ≠ 0x204 ∧ offset ≠ 0x205)
    (halt : offset ≠ 0x301) (control : offset / 4 ≠ 0x200) (value : UInt8) :
    (p.writeByte offset value).readByte offset = value &&& keptBits offset := by
  unfold writeByte
  split
  · next inside =>
    rw [readByte, if_pos inside]
    exact p.irq.readByte_writeByte_self inside low high timed value
  · next outside =>
    split
    · next posted =>
      subst posted
      rfl
    · next stored =>
      have beyond := mt (isInterrupt_iff offset).mpr outside
      have kept : keptBits offset = if offset < size then 0xFF else 0 := by
        unfold keptBits
        split <;> first | omega | rfl
      rw [readByte, if_neg outside, if_neg stored, if_neg halt, kept]
      split
      · next inside => exact (Bytes.get_set_self (whole.symm ▸ inside) value).trans UInt8.and_neg_one.symm
      · next past =>
        rw [UInt8.and_zero]
        exact Bytes.get_of_size_le (by rw [Bytes.size_set, whole]; omega)

theorem readByte_blank (offset : Nat) : blank.readByte offset = 0 := by
  have quiet : ∀ offset, ({} : InterruptController).readByte offset = 0 := by
    intro offset
    unfold InterruptController.readByte
    split <;> rfl
  simp only [blank, readByte, quiet, Bytes.get_filled_zero, ite_self]

/-- A request shows in the request register alone. -/
theorem readByte_request (p : IoPage) (line : IrqLine) {offset : Nat} (low : offset ≠ 0x202)
    (high : offset ≠ 0x203) :
    ({ p with irq := p.irq.request line } : IoPage).readByte offset = p.readByte offset := by
  have same : (p.irq.request line).readByte offset = p.irq.readByte offset := by
    unfold InterruptController.readByte
    split
    · rfl
    · rfl
    · exact absurd rfl low
    · exact absurd rfl high
    all_goals rfl
  simp only [readByte, same]

theorem testBit_writeByte (p : IoPage) (offset : Nat) (value : UInt8) {k : Nat} (hk : k < 16) :
    (p.writeByte offset value).irq.requested.toNat.testBit k = true ↔
      p.irq.requested.toNat.testBit k = true ∧ ¬ (IoEvent.wrote offset value).Withdraws k := by
  unfold writeByte
  split
  · exact p.irq.testBit_writeByte offset value hk
  · next outside =>
    have beyond := mt (isInterrupt_iff offset).mpr outside
    have elsewhere : ¬ (IoEvent.wrote offset value).Withdraws k :=
      IoEvent.not_withdraws (by omega) (by omega) hk value
    split <;> exact (and_iff_left elsewhere).symm

end IoPage

namespace Board

variable {b c : Board} {i j address : UInt32} {past : List IoEvent}

theorem isMemoryControl_place (address : UInt32) :
    isMemoryControl (ioOffset address) = true ↔ ioPlace address / 4 = 0x200 := by
  rw [isMemoryControl_iff, toNat_ioOffset, ioPlace, Region.offset]
  split <;> omega

theorem ioPlace_plain (plain : isMemoryControl (ioOffset address) = false) :
    ioPlace address = (ioOffset address).toNat := by
  have outside := mt (isMemoryControl_iff _).mpr (Bool.eq_false_iff.mp plain)
  rw [toNat_ioOffset] at outside ⊢
  exact if_neg outside

theorem ioPlace_control (control : isMemoryControl (ioOffset address) = true) :
    ioPlace address % 4 = (ioOffset address).toNat % 4 := by
  have inside := (isMemoryControl_iff _).mp control
  rw [toNat_ioOffset] at inside ⊢
  have place : ioPlace address = address.toNat % 0x1000000 % 0x10000 := if_pos inside
  omega

theorem keptBits_control {place : Nat} (control : place / 4 = 0x200) :
    keptBits place = WaitStates.readableControl (place % 4) := by
  obtain rfl | rfl | rfl | rfl : place = 0x800 ∨ place = 0x801 ∨ place = 0x802 ∨ place = 0x803 := by omega
  all_goals rfl

theorem ne_of_control (control : isMemoryControl (ioOffset address) = true) {offset : UInt32}
    (plain : isMemoryControl offset = false) : ioOffset address ≠ offset := by
  rintro rfl
  exact Bool.false_ne_true (plain.symm.trans control)

theorem readIoByte_control (b : Board) (control : isMemoryControl (ioOffset address) = true) :
    b.readIoByte address = b.wait.readControlByte (ioOffset address) := by
  unfold readIoByte
  simp only
  rw [if_neg (ne_of_control control rfl), if_neg (ne_of_control control rfl), if_pos control]

theorem writeIoByte_control (b : Board) (control : isMemoryControl (ioOffset address) = true)
    (value : UInt8) :
    b.writeIoByte address value = b.configure (.controlByte (ioOffset address) value) := by
  unfold writeIoByte
  simp only
  rw [if_neg (ne_of_control control rfl), if_neg (ne_of_control control rfl),
    if_neg (ne_of_control control rfl), if_pos control]

/-- A byte written to the page reads cut to the bits that its place keeps. -/
theorem readIoByte_writeIoByte_self (whole : b.io.bytes.size = IoPage.size) (same : ioPlace i = ioPlace j)
    (low : ioPlace j ≠ 0x202) (high : ioPlace j ≠ 0x203) (value : UInt8) :
    (b.writeIoByte j value).readIoByte i = value &&& keptBits (ioPlace j) := by
  have both : isMemoryControl (ioOffset i) = isMemoryControl (ioOffset j) := by
    rw [Bool.eq_iff_iff, isMemoryControl_place, isMemoryControl_place, same]
  cases control : isMemoryControl (ioOffset j) with
  | true =>
    rw [control] at both
    have lane : (ioOffset i).toNat % 4 = (ioOffset j).toNat % 4 := by
      rw [← ioPlace_control both, ← ioPlace_control control, same]
    rw [readIoByte_control _ both, writeIoByte_control b control,
      keptBits_control ((isMemoryControl_place j).mp control), ioPlace_control control, ← lane]
    exact (b.wait.readControlByte_writeControlByte _ _ value).trans (if_pos lane)
  | false =>
    rw [control] at both
    have here : ioOffset i = ioOffset j := by
      rw [← UInt32.toNat_inj, ← ioPlace_plain both, ← ioPlace_plain control, same]
    have place := ioPlace_plain control
    unfold writeIoByte readIoByte
    simp only [here, control, Bool.false_eq_true, if_false]
    split
    · next timed =>
      have written := congrArg WaitRegisters.waitLow (b.wait.registers_writeWaitLow value)
      rw [place, timed]
      exact written.trans UInt8.and_neg_one.symm
    · split
      · next timed =>
        have written := congrArg WaitRegisters.waitHigh (b.wait.registers_writeWaitHigh value)
        rw [place, timed]
        exact written
      · split
        · next halt =>
          rw [place, halt]
          exact UInt8.and_zero.symm
        · next zero one halt =>
          have outside := mt (isMemoryControl_place j).mpr (Bool.eq_false_iff.mp control)
          have apart : ∀ offset : UInt32, ioOffset j ≠ offset → (ioOffset j).toNat ≠ offset.toNat :=
            fun _ => mt UInt32.toNat_inj.mp
          rw [place] at low high outside ⊢
          exact IoPage.readByte_writeByte_self whole low high ⟨apart 0x204 zero, apart 0x205 one⟩
            (apart 0x301 halt) outside value

/-- A byte written to the page withdraws the requests whose bits it writes as ones, if it is written to the
request register. -/
theorem testBit_writeIoByte (b : Board) (address : UInt32) (value : UInt8) {k : Nat} (hk : k < 16) :
    (b.writeIoByte address value).io.irq.requested.toNat.testBit k = true ↔
      b.io.irq.requested.toNat.testBit k = true ∧
        ¬ (IoEvent.wrote (ioPlace address) value).Withdraws k := by
  cases control : isMemoryControl (ioOffset address) with
  | true =>
    have place := (isMemoryControl_place address).mp control
    rw [writeIoByte_control b control]
    exact (and_iff_left (IoEvent.not_withdraws (by omega) (by omega) hk value)).symm
  | false =>
    have place := ioPlace_plain control
    have elsewhere : ∀ offset : UInt32, ioOffset address = offset → offset.toNat ≠ 0x202 →
        offset.toNat ≠ 0x203 → ¬ (IoEvent.wrote (ioPlace address) value).Withdraws k := by
      rintro offset rfl low high
      rw [place]
      exact IoEvent.not_withdraws low high hk value
    unfold writeIoByte
    simp only [control, Bool.false_eq_true, if_false]
    split
    · next timed => exact (and_iff_left (elsewhere _ timed (by decide) (by decide))).symm
    · split
      · next timed => exact (and_iff_left (elsewhere _ timed (by decide) (by decide))).symm
      · split
        · next halt => exact (and_iff_left (elsewhere _ halt (by decide) (by decide))).symm
        · rw [place]
          exact b.io.testBit_writeByte _ value hk

/-- What a board recalls of the events. -/
structure Recalls (past : List IoEvent) (b : Board) : Prop where
  furnished : b.Furnished
  reads (address : UInt32) : ioPlace address ≠ 0x202 → ioPlace address ≠ 0x203 →
    b.readIoByte address = recalled past (ioPlace address)
  bits (k : Nat) : k < 16 →
    (b.io.irq.requested.toNat.testBit k = true ↔ Since (IoEvent.Raises k) (IoEvent.Withdraws k) past)

theorem Furnished.congr (h : b.Furnished) (memory : c.memory = b.memory) (io : c.io = b.io) :
    c.Furnished where
  sized := memory ▸ h.sized
  page := io ▸ h.page
  masked := io ▸ h.masked

/-- What is read depends on the page and on the registers of the wait states. -/
theorem Recalls.congr (h : b.Recalls past) (furnished : c.Furnished) (io : c.io = b.io)
    (registers : c.wait.registers = b.wait.registers) : c.Recalls past where
  furnished := furnished
  reads address low high := by
    obtain ⟨waitLow, waitHigh, control⟩ := WaitRegisters.mk.inj registers
    rw [← h.reads address low high]
    exact readIoByte_congr address (fun _ => waitLow) (fun _ => waitHigh)
      (fun _ => readControlByte_congr control _) fun _ => by rw [io]
  bits k hk := by rw [io, h.bits k hk]

theorem recalls_nil (furnished : b.Furnished) (io : b.io = IoPage.blank)
    (registers : b.wait.registers = WaitStates.initial.registers) : b.Recalls [] where
  furnished := furnished
  reads address _ _ := by
    obtain ⟨waitLow, waitHigh, memoryControl⟩ := WaitRegisters.mk.inj registers
    show b.readIoByte address = powerOn (ioPlace address)
    cases control : isMemoryControl (ioOffset address) with
    | true =>
      have place := (isMemoryControl_place address).mp control
      rw [readIoByte_control b control, WaitStates.readControlByte_eq, memoryControl, ← ioPlace_control control]
      obtain h | h | h | h :
        ioPlace address = 0x800 ∨ ioPlace address = 0x801 ∨ ioPlace address = 0x802 ∨
          ioPlace address = 0x803 := by omega
      all_goals
        rw [h]
        rfl
    | false =>
      have outside := mt (isMemoryControl_place address).mpr (Bool.eq_false_iff.mp control)
      have zero : powerOn (ioPlace address) = 0 := by
        unfold powerOn
        split <;> first | omega | rfl
      unfold readIoByte
      simp only [control, Bool.false_eq_true, if_false, zero, io, IoPage.readByte_blank]
      split
      · exact waitLow
      · split
        · exact waitHigh
        · rfl
  bits k _ := by
    rw [io]
    exact iff_of_false (by simp [IoPage.blank]) not_since_nil

theorem Recalls.wrote (h : b.Recalls past) (address : UInt32) (value : UInt8) :
    (b.writeIoByte address value).Recalls (past ++ [.wrote (ioPlace address) value]) where
  furnished := h.furnished.writeIoByte address value
  reads other low high := by
    rw [recalled_wrote]
    split
    · next same =>
      rw [← same] at low high ⊢
      exact readIoByte_writeIoByte_self h.furnished.page same.symm low high value
    · next apart =>
      exact (readIoByte_writeIoByte h.furnished.masked (Ne.symm apart) value).trans (h.reads other low high)
  bits k hk := by
    rw [testBit_writeIoByte b address value hk, h.bits k hk, since_concat]
    exact (or_iff_right id).symm

theorem Recalls.raised (h : b.Recalls past) (line : IrqLine) :
    (b.request line).Recalls (past ++ [.raised line]) where
  furnished := h.furnished.serve (.request line)
  reads address low high := by
    rw [recalled_raised, ← h.reads address low high]
    refine readIoByte_congr address (fun _ => rfl) (fun _ => rfl) (fun _ => rfl) fun plain => ?_
    rw [ioPlace_plain plain] at low high
    exact IoPage.readByte_request b.io line low high
  bits k hk := by
    have kept : ¬ (IoEvent.raised line).Withdraws k := id
    rw [since_concat, ← h.bits k hk, and_iff_left kept]
    exact b.io.irq.testBit_request line hk

theorem byteOf_readIo (b : Board) (width : Width) (address : UInt32) {k : Nat} (hk : k < width.bytes) :
    byteOf (b.readIo width address) k = b.readIoByte (address + k.toUInt32) := by
  have parts (bound : Nat) (hk : k < 4) :=
    byteOf_compose (fun k => if k < bound then b.readIoByte (address + k.toUInt32) else 0) hk
  cases width with
  | byte =>
    obtain rfl : k = 0 := Nat.lt_one_iff.mp hk
    simpa [readIo] using parts 1 (by decide)
  | half =>
    have inside : k < 2 := hk
    simpa [readIo, inside] using parts 2 (by omega)
  | word =>
    have inside : k < 4 := hk
    simpa [readIo, inside] using parts 4 inside

/-- A write to the page writes its bytes one after another. -/
theorem writeIo_eq_foldl (b : Board) (width : Width) (address value : UInt32) :
    b.writeIo width address value =
      (List.range width.bytes).foldl
        (fun c k => c.writeIoByte (address + k.toUInt32) (byteOf value k)) b := by
  have lowest : byteOf value 0 = value.toUInt8 := by simp [byteOf]
  have first : address + (0 : Nat).toUInt32 = address := UInt32.add_zero address
  cases width <;> simp only [writeIo, Width.bytes, List.range_succ, List.range_zero, List.nil_append,
    List.cons_append, List.foldl_cons, List.foldl_nil, lowest, first] <;> rfl

theorem Recalls.foldl (h : b.Recalls past) (place : Nat → UInt32) (value : Nat → UInt8) (ks : List Nat) :
    (ks.foldl (fun c k => c.writeIoByte (place k) (value k)) b).Recalls
      (past ++ ks.map fun k => .wrote (ioPlace (place k)) (value k)) := by
  induction ks generalizing b past with
  | nil => simpa using h
  | cons k ks ih => simpa using ih (h.wrote (place k) (value k))

theorem Recalls.of_view (h : b.Recalls past) (same : c.view = b.view) : c.Recalls past := by
  obtain ⟨memory, io, -, registers⟩ := BoardView.mk.inj same
  exact h.congr (h.furnished.congr memory io) io registers

theorem Recalls.write (h : b.Recalls past) (width : Width) (address value : UInt32) :
    (b.write width address value).Recalls (BoardRequest.extend past (.write width address value)) := by
  have charged : (b.chargeAccess width address).Recalls past := h.of_view (view_chargeAccess width address)
  by_cases io : Region.ofAddress address = .io
  · rw [Board.write, updateAt, if_pos io, writeIo_eq_foldl, BoardRequest.extend, if_pos io]
    exact charged.foldl _ _ _
  · have furnished := h.furnished.write width address value
    rw [Board.write, updateAt, if_neg io] at furnished ⊢
    rw [BoardRequest.extend, if_neg io]
    exact charged.congr furnished rfl rfl

theorem Recalls.serve (h : b.Recalls past) (request : BoardRequest) :
    (b.serve request).Recalls (request.extend past) := by
  cases request with
  | read width address => exact h.of_view (view_chargeAccess width address)
  | write width address value => exact h.write width address value
  | fetch address => exact h.of_view (view_fetch address)
  | internalCycle pc => exact h.of_view (view_internalCycles pc 1)
  | internalCycles pc count => exact h.of_view (view_internalCycles pc count)
  | idle => exact h.of_view view_idle
  | changePower change => cases change <;> exact h.congr { h.furnished with } rfl rfl
  | request line => exact h.raised line
  | load kind image =>
    have furnished := h.furnished.serve (.load kind image)
    obtain same | ⟨memory, -, placed⟩ := serve_load b kind image
    · rw [same]
      exact h
    · rw [placed] at furnished ⊢
      exact h.congr furnished rfl rfl
  | reset => exact recalls_nil (h.furnished.serve .reset) rfl rfl
  | nonSequential | executingAt | branched | setRendering => exact h.of_view rfl

theorem Recalls.run (h : b.Recalls past) (requests : List BoardRequest) :
    (b.run requests).Recalls (requests.foldl BoardRequest.extend past) := by
  induction requests generalizing b past with
  | nil => exact h
  | cons request rest ih => exact ih (h.serve request)

theorem recalls_initial (log : Log) : (initial log).Recalls [] := recalls_nil (furnished_initial log) rfl rfl

/-- Below the memory-control register a place is an offset. -/
theorem ioOffset_of_place {offset : UInt32} (place : ioPlace address = offset.toNat)
    (below : offset.toNat < 0x800) : ioOffset address = offset := by
  have plain : isMemoryControl (ioOffset address) = false := by
    refine Bool.eq_false_iff.mpr fun control => ?_
    have := (isMemoryControl_place address).mp control
    omega
  rw [← UInt32.toNat_inj, ← ioPlace_plain plain, place]

/-- A bit of the request register, read at its place. -/
theorem testBit_readIoByte (b : Board) {k : Nat} (hk : k < 16) (place : ioPlace address = 0x202 + k / 8) :
    (b.readIoByte address).toNat.testBit (k % 8) = b.io.irq.requested.toNat.testBit k := by
  by_cases low : k < 8
  · have offset : ioOffset address = 0x202 :=
      ioOffset_of_place (place.trans (by rw [Nat.div_eq_of_lt low]; rfl)) (by decide)
    have read : b.readIoByte address = b.io.irq.requested.toUInt8 := by
      unfold readIoByte
      simp only [offset]
      rfl
    rw [read, UInt16.toNat_toUInt8, Nat.testBit_mod_two_pow, Nat.mod_eq_of_lt low, decide_eq_true low,
      Bool.true_and]
  · have lane : k / 8 = 1 ∧ k % 8 = k - 8 := by omega
    have offset : ioOffset address = 0x203 :=
      ioOffset_of_place (place.trans (by rw [lane.1]; rfl)) (by decide)
    have read : b.readIoByte address = (b.io.irq.requested >>> 8).toUInt8 := by
      unfold readIoByte
      simp only [offset]
      rfl
    have above : k - 8 < 8 ∧ 8 + (k - 8) = k := by omega
    rw [read, UInt16.toNat_toUInt8, Nat.testBit_mod_two_pow, lane.2, decide_eq_true above.1, Bool.true_and,
      UInt16.toNat_shiftRight, Nat.testBit_shiftRight]
    exact congrArg b.io.irq.requested.toNat.testBit above.2

/-- A byte of a read from the page is what its place reads. -/
theorem byteOf_read_io (b : Board) (width : Width) (io : Region.ofAddress address = .io) {k : Nat}
    (hk : k < width.bytes) :
    byteOf (b.read width address).1 k = b.readIoByte (width.align address + k.toUInt32) := by
  show byteOf ((b.chargeAccess width address).valueAt width address) k = _
  rw [valueAt, if_pos io, byteOf_readIo _ width _ hk, readIoByte_chargeAccess]

/-- A byte written to 0x301 changes the power state and is logged. -/
theorem writeIoByte_halt (b : Board) (place : ioPlace address = 0x301) (value : UInt8) :
    b.writeIoByte address value = b.changePower (if value &&& 0x80 = 0 then .halt else .stop) := by
  have offset : ioOffset address = 0x301 := ioOffset_of_place place (by decide)
  unfold writeIoByte
  simp only [offset]
  rfl

/-- What the I/O page promises of a board after the requests. -/
structure Recollects (requests : List BoardRequest) (b : Board) : Prop where
  /-- In a read of any width each byte depends on the writes to its own place alone. -/
  reads (width : Width) (address : UInt32) (k place : Nat) : Region.ofAddress address = .io →
    k < width.bytes → ioPlace (width.align address + k.toUInt32) = place → place ≠ 0x202 → place ≠ 0x203 →
    byteOf (b.read width address).1 k = recalled (ioHistory requests) place
  /-- A bit of the request register stands from a request of its line on, until a one is written to it. -/
  pending (width : Width) (address : UInt32) (k bit : Nat) : Region.ofAddress address = .io →
    k < width.bytes → bit < 16 → ioPlace (width.align address + k.toUInt32) = 0x202 + bit / 8 →
    ((byteOf (b.read width address).1 k).toNat.testBit (bit % 8) = true ↔
      Since (IoEvent.Raises bit) (IoEvent.Withdraws bit) (ioHistory requests))
  /-- Beyond its clocks a write does what writes of its bytes do, the lowest first. -/
  writes (width : Width) (address value : UInt32) : Region.ofAddress address = .io →
    b.write width address value = (List.range width.bytes).foldl
      (fun c k => c.writeIoByte (width.align address + k.toUInt32) (byteOf value k))
      (b.chargeAccess width address)
  /-- A byte written to 0x301 changes the power state and nothing else, but it is logged. -/
  halts (address : UInt32) (value : UInt8) : ioPlace address = 0x301 →
    ∃ log, b.writeIoByte address value =
      { b with
        timing := { b.timing with power := if value &&& 0x80 = 0 then .halted else .stopped }
        log }

/-- After any requests from power-on every byte of the I/O page is told by the history of its own place, and
no request for an interrupt is lost. -/
theorem io_recollected (log : Log) (requests : List BoardRequest) :
    Recollects requests ((initial log).run requests) := by
  have recalls : ((initial log).run requests).Recalls (ioHistory requests) :=
    (recalls_initial log).run requests
  generalize (initial log).run requests = b at recalls
  refine
    { reads := fun width address k place io inside here low high => ?_
      pending := fun width address k bit io inside few place => ?_
      writes := fun width address value io => ?_
      halts := fun address value place => ?_ }
  · subst here
    rw [byteOf_read_io b width io inside]
    exact recalls.reads _ low high
  · rw [byteOf_read_io b width io inside, testBit_readIoByte b few place]
    exact recalls.bits bit few
  · rw [Board.write, updateAt, if_pos io, writeIo_eq_foldl]
  · rw [writeIoByte_halt b place]
    split
    · exact ⟨_, rfl⟩
    · exact ⟨_, rfl⟩

/-- One write sets the enable register and withdraws requests. The request made afterwards stands, as the
withdrawal of another does not touch it, and the memory-control register is read in a mirror. -/
theorem io_recollected_mirror :
    let requests : List BoardRequest :=
      [.request .vBlank, .write .word 0x04000200 0xFFFFFFFF, .request .vBlank, .request .hBlank,
        .write .half 0x04000202 0x0002, .write .word 0x04010800 0x0F1234FF]
    let b := (initial .silent).run requests
    Region.ofAddress 0x04000200 = .io ∧ Region.ofAddress 0x04FF0803 = .io ∧
    byteOf (b.read .word 0x04000200).1 1 = 0x3F ∧
    (byteOf (b.read .word 0x04000200).1 2).toNat.testBit 0 = true ∧
    byteOf (b.read .half 0x04FF0803).1 0 = 0 ∧ byteOf (b.read .half 0x04FF0803).1 1 = 0x0F := by
  intro requests b
  have low : Region.ofAddress 0x04000200 = .io := by decide
  have high : Region.ofAddress 0x04FF0803 = .io := by decide
  have page := io_recollected .silent requests
  have enabled := page.reads .word 0x04000200 1 0x201 low (by decide) (by decide) (by decide) (by decide)
  have hidden := page.reads .half 0x04FF0803 0 0x802 high (by decide) (by decide) (by decide) (by decide)
  have shown := page.reads .half 0x04FF0803 1 0x803 high (by decide) (by decide) (by decide) (by decide)
  have stands : Since (IoEvent.Raises 0) (IoEvent.Withdraws 0) (ioHistory requests) := by
    refine ⟨(ioHistory requests).take 5, .raised .vBlank,
      [.raised .hBlank, .wrote 0x202 2, .wrote 0x203 0, .wrote 0x800 0xFF, .wrote 0x801 0x34,
        .wrote 0x802 0x12, .wrote 0x803 0x0F], rfl, rfl, ?_⟩
    simp [IoEvent.Withdraws]
  have pending := page.pending .word 0x04000200 2 0 low (by decide) (by decide) (by decide)
  exact ⟨low, high, enabled.trans (by decide +kernel), pending.mpr stands,
    hidden.trans (by decide +kernel), shown.trans (by decide +kernel)⟩

end Board

end GbaArm
