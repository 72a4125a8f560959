import GbaArm.Proofs.WaitRuns

/-!
The settings told from what is read back of the two configuration registers, and their wide accesses told
from those of single bytes. The bits that a register hides, or drops when it is written, decide nothing.
-/
namespace GbaArm.WaitStates

variable {w : WaitStates}

/-- What the wait-control register says of a cartridge window: three bits for each, from bit 2 on. -/
def windowControl (setting : UInt16) (window : Nat) : UInt8 :=
  (setting >>> (2 + 3 * window).toUInt16).toUInt8

/-- Clocks of a first access, by two bits of the wait-control register. -/
def firstClocks (bits : Nat) : Nat :=
  match bits with
  | 0 => 5
  | 1 => 4
  | 2 => 3
  | _ => 9

/-- Clocks of an access that follows, by one bit: two, or what the window takes. -/
def nextClocks (window bit : Nat) : Nat :=
  match bit, window with
  | 0, 0 => 3
  | 0, 1 => 5
  | 0, _ => 9
  | _, _ => 2

/-- The settings are those that the registers call for as they are read. -/
structure ReadBack (w : WaitStates) : Prop where
  sram : w.sramWait = firstClocks (w.readWait.toNat % 4)
  prefetch : w.prefetch = (w.readWait &&& (0x4000 : UInt16) != 0)
  /-- A window covers two values of the top byte, in each column. -/
  windows (window odd : Nat) : window < 3 → odd < 2 →
    let top := 8 + 2 * window + odd
    let control := (windowControl w.readWait window).toNat
    let first := firstClocks (control % 4)
    let second := nextClocks window (control / 4 % 2)
    w.halfCost top = second ∧ w.wordCost top = 2 * second ∧
      w.halfCost (top + 16) = first ∧ w.wordCost (top + 16) = first + second
  unused (index : Nat) : index % 16 < 8 ∨ 14 ≤ index % 16 → w.halfCost index = 0 ∧ w.wordCost index = 0
  ewram : w.ewramWait = 16 - ((w.readControlWord >>> 24) &&& 0xF).toNat

theorem toNat_readWait (w : WaitStates) : w.readWait.toNat = w.waitLow.toNat + 256 * w.waitHigh.toNat :=
  toNat_joinBytes w.waitLow w.waitHigh

theorem highByte_readWait (w : WaitStates) : (w.readWait >>> 8).toUInt8 = w.waitHigh := by
  have := w.waitLow.toNat_lt
  have := w.waitHigh.toNat_lt
  rw [← UInt8.toNat_inj, UInt16.toNat_toUInt8, UInt16.toNat_shiftRight, toNat_readWait,
    Nat.shiftRight_eq_div_pow]
  show (w.waitLow.toNat + 256 * w.waitHigh.toNat) / 256 % 256 = _
  omega

theorem toNat_and_seven (data : UInt8) : (data &&& (7 : UInt8)).toNat = data.toNat % 8 := by
  rw [UInt8.toNat_and]
  exact Nat.and_two_pow_sub_one_eq_mod data.toNat 3

/-- A field is decided by its three bits. -/
theorem and_seven_eq (data : UInt8) : data &&& (7 : UInt8) = UInt8.ofNat (data.toNat % 8) := by
  rw [← toNat_and_seven, UInt8.ofNat_toNat]

theorem firstAccess_eq (data : UInt8) : firstAccess data = firstClocks (data.toNat % 4) := by
  have table : ∀ field < 8, firstAccess (UInt8.ofNat field) = firstClocks (field % 4) := by decide
  have low := table (data.toNat % 8) (Nat.mod_lt _ (by decide))
  rw [← firstAccess_masked data 7 rfl, and_seven_eq, low]
  congr 1
  omega

theorem secondAccess_eq (data : UInt8) {window : Nat} (few : window < 3) :
    secondAccess window data = nextClocks window (data.toNat / 4 % 2) := by
  have table : ∀ window < 3, ∀ field < 8,
      secondAccess window (UInt8.ofNat field) = nextClocks window (field / 4 % 2) := by
    decide
  have high := table window few (data.toNat % 8) (Nat.mod_lt _ (by decide))
  rw [← secondAccess_masked window data 7 rfl, and_seven_eq, high]
  congr 1
  omega

/-- Three bits decide the clocks of a window. -/
theorem clocks_congr {a b : Nat} (same : a % 8 = b % 8) (window : Nat) :
    firstClocks (a % 4) = firstClocks (b % 4) ∧
      nextClocks window (a / 4 % 2) = nextClocks window (b / 4 % 2) := by
  have low : a % 4 = b % 4 := by omega
  have high : a / 4 % 2 = b / 4 % 2 := by omega
  rw [low, high]
  exact ⟨rfl, rfl⟩

/-- The fields of the first two windows lie in the low byte. -/
theorem windowControl_low (w : WaitStates) (window : Nat) (low : window < 2) :
    (windowControl w.readWait window).toNat % 8 =
      (w.waitLow >>> (2 + 3 * window).toUInt8).toNat % 8 := by
  have := w.waitLow.toNat_lt
  rw [windowControl, UInt16.toNat_toUInt8, UInt16.toNat_shiftRight, UInt8.toNat_shiftRight,
    Nat.shiftRight_eq_div_pow, Nat.shiftRight_eq_div_pow, toNat_readWait]
  obtain rfl | rfl : window = 0 ∨ window = 1 := by omega
  · show (w.waitLow.toNat + 256 * w.waitHigh.toNat) / 4 % 256 % 8 = w.waitLow.toNat / 4 % 8
    omega
  · show (w.waitLow.toNat + 256 * w.waitHigh.toNat) / 32 % 256 % 8 = w.waitLow.toNat / 32 % 8
    omega

theorem windowControl_two (w : WaitStates) : windowControl w.readWait 2 = w.waitHigh :=
  highByte_readWait w

theorem Configured.readBack (h : w.Configured) : w.ReadBack where
  sram := by
    rw [h.sram, firstAccess_eq, toNat_readWait]
    congr 1
    omega
  prefetch := by rw [h.prefetch, ← enable_highByte, highByte_readWait]
  windows window odd few one := by
    have even : (8 + 2 * window + odd) % 32 / 2 = 4 + window := by omega
    have marked : (8 + 2 * window + odd + 16) % 32 / 2 = 12 + window := by omega
    simp only [h.half, h.word, halfEntry, wordEntry, even, marked]
    obtain rfl | rfl | rfl : window = 0 ∨ window = 1 ∨ window = 2 := by omega
    · obtain ⟨first, second⟩ := clocks_congr (w.windowControl_low 0 (by decide)) 0
      simp [first, second, firstAccess_eq, secondAccess_eq]
    · obtain ⟨first, second⟩ := clocks_congr (w.windowControl_low 1 (by decide)) 1
      simp [first, second, firstAccess_eq, secondAccess_eq]
    · simp [windowControl_two, firstAccess_eq, secondAccess_eq]
  unused index outside := by
    rw [h.half, h.word]
    unfold halfEntry wordEntry
    split <;> first | exact ⟨rfl, rfl⟩ | omega
  ewram := by
    have top : byteOf w.memoryControl 3 = byteOf w.readControlWord 3 := by
      rw [readControlWord, byteOf_and]
      exact UInt8.and_neg_one.symm
    exact h.ewram.trans (ewramClocks_congr top)

/-- Writes of the bytes from an address on, in ascending order. -/
def writeControlBytes (w : WaitStates) (address : UInt32) : List UInt8 → WaitStates
  | [] => w
  | byte :: rest => (w.writeControlByte address byte).writeControlBytes (address + 1) rest

theorem writeControlByte_eq (w : WaitStates) {address : UInt32} {k : UInt32}
    (lane : address.toNat % 4 = k.toNat) (data : UInt8) :
    w.writeControlByte address data =
      { w with
        memoryControl := replaceByte w.memoryControl k data
        ewramWait := if k = 3 then ewramClocks (replaceByte w.memoryControl k data) else w.ewramWait } := by
  have place : address &&& 3 = k := UInt32.toNat_inj.mp ((toNat_and_three address).trans lane)
  unfold writeControlByte
  rw [place]
  split <;> rfl

theorem and_two_eq_zero_iff (address : UInt32) : address &&& 2 = 0 ↔ address.toNat % 4 < 2 := by
  have lane := toNat_and_three address
  have within : address &&& 2 = address &&& 3 &&& 2 := by
    rw [UInt32.and_assoc]
    rfl
  have lanes : ∀ n < 4, UInt32.ofNat n &&& 2 = 0 ↔ n < 2 := by decide
  rw [within, ← lanes (address.toNat % 4) (Nat.mod_lt _ (by decide)), ← lane, UInt32.ofNat_toNat]

theorem lowHalf_eq_replaceByte (control : UInt32) (data : UInt16) :
    control &&& (0xFFFF0000 : UInt32) ||| data.toUInt32 =
      replaceByte (replaceByte control 0 data.toUInt8) 1 (data >>> 8).toUInt8 := by
  obtain ⟨low, high⟩ := byteOf_half_low data
  refine eq_of_byteOf fun i hi => ?_
  rw [byteOf_replaceHalf _ _ hi, byteOf_replaceByte _ _ hi (by decide), byteOf_replaceByte _ _ hi (by decide)]
  obtain rfl | rfl | rfl | rfl : i = 0 ∨ i = 1 ∨ i = 2 ∨ i = 3 := by omega
  all_goals simp [low, high]

theorem highHalf_eq_replaceByte (control : UInt32) (data : UInt16) :
    data.toUInt32 <<< 16 ||| control &&& (0xFFFF : UInt32) =
      replaceByte (replaceByte control 2 data.toUInt8) 3 (data >>> 8).toUInt8 := by
  obtain ⟨low, high⟩ := byteOf_half_low data
  have below : (control &&& (0xFFFF : UInt32)).toNat < 65536 := by
    rw [toNat_and_low (k := 16) rfl]
    omega
  have kept : byteOf 0xFFFF 0 = -1 ∧ byteOf 0xFFFF 1 = -1 := by decide
  refine eq_of_byteOf fun i hi => ?_
  rw [UInt32.or_comm, byteOf_halves below (by simpa using data.toNat_lt) hi,
    byteOf_replaceByte _ _ hi (by decide), byteOf_replaceByte _ _ hi (by decide)]
  obtain rfl | rfl | rfl | rfl : i = 0 ∨ i = 1 ∨ i = 2 ∨ i = 3 := by omega
  all_goals simp [byteOf_and, kept, low, high]

theorem word_eq_replaceByte (control data : UInt32) :
    data = replaceByte (replaceByte (replaceByte (replaceByte control 0 (byteOf data 0)) 1 (byteOf data 1)) 2
      (byteOf data 2)) 3 (byteOf data 3) := by
  refine eq_of_byteOf fun i hi => ?_
  iterate 4 rw [byteOf_replaceByte _ _ hi (by decide)]
  obtain rfl | rfl | rfl | rfl : i = 0 ∨ i = 1 ∨ i = 2 ∨ i = 3 := by omega
  all_goals simp

theorem lane_succ (address : UInt32) : (address + 1).toNat % 4 = (address.toNat + 1) % 4 := by
  rw [UInt32.toNat_add]
  simp only [UInt32.reduceToNat, Nat.reducePow]
  omega

theorem writeControlHalf_eq (w : WaitStates) (address : UInt32) (data : UInt16) :
    w.writeControlHalf address data =
      w.writeControlBytes (alignHalf address) [data.toUInt8, (data >>> 8).toUInt8] := by
  have aligned := toNat_alignHalf address
  have next := lane_succ (alignHalf address)
  unfold writeControlHalf
  simp only [writeControlBytes]
  split
  · next low =>
    have low := (and_two_eq_zero_iff address).mp low
    have zero : (alignHalf address).toNat % 4 = 0 := by omega
    have one : (alignHalf address + 1).toNat % 4 = 1 := by omega
    rw [w.writeControlByte_eq (k := 0) zero, writeControlByte_eq _ (k := 1) one]
    simp [lowHalf_eq_replaceByte]
  · next high =>
    have high := mt (and_two_eq_zero_iff address).mpr high
    have two : (alignHalf address).toNat % 4 = 2 := by omega
    have three : (alignHalf address + 1).toNat % 4 = 3 := by omega
    rw [w.writeControlByte_eq (k := 2) two, writeControlByte_eq _ (k := 3) three]
    simp [highHalf_eq_replaceByte]

theorem writeControlWord_eq (w : WaitStates) (address data : UInt32) :
    w.writeControlWord data =
      w.writeControlBytes (alignWord address) [byteOf data 0, byteOf data 1, byteOf data 2, byteOf data 3] := by
  have aligned := toNat_alignWord address
  have zero : (alignWord address).toNat % 4 = 0 := by omega
  have one : (alignWord address + 1).toNat % 4 = 1 := by rw [lane_succ]; omega
  have two : (alignWord address + 1 + 1).toNat % 4 = 2 := by rw [lane_succ]; omega
  have three : (alignWord address + 1 + 1 + 1).toNat % 4 = 3 := by rw [lane_succ]; omega
  have control := word_eq_replaceByte w.memoryControl data
  simp only [writeControlBytes]
  rw [w.writeControlByte_eq (k := 0) zero, writeControlByte_eq _ (k := 1) one,
    writeControlByte_eq _ (k := 2) two, writeControlByte_eq _ (k := 3) three]
  simp [writeControlWord, ← control]

theorem readControlHalf_eq (w : WaitStates) (address : UInt32) :
    w.readControlHalf address =
      (w.readControlByte (alignHalf address)).toUInt16 |||
        (w.readControlByte (alignHalf address + 1)).toUInt16 <<< 8 := by
  have aligned := toNat_alignHalf address
  have next := lane_succ (alignHalf address)
  unfold readControlHalf
  rw [readControlByte_eq, readControlByte_eq]
  split
  · next low =>
    have low := (and_two_eq_zero_iff address).mp low
    have zero : (alignHalf address).toNat % 4 = 0 := by omega
    have one : (alignHalf address + 1).toNat % 4 = 1 := by omega
    rw [zero, one, toUInt16_eq_bytes, byteOf_and, byteOf_and]
    rfl
  · next high =>
    have high := mt (and_two_eq_zero_iff address).mpr high
    have two : (alignHalf address).toNat % 4 = 2 := by omega
    have three : (alignHalf address + 1).toNat % 4 = 3 := by omega
    rw [two, three, toUInt16_eq_bytes, byteOf_and, byteOf_and, byteOf_highHalf _ (by decide),
      byteOf_highHalf _ (by decide)]
    rfl

theorem readControlWord_eq (w : WaitStates) (address : UInt32) :
    w.readControlWord =
      (w.readControlByte (alignWord address)).toUInt32 |||
        (w.readControlByte (alignWord address + 1)).toUInt32 <<< 8 |||
        (w.readControlByte (alignWord address + 2)).toUInt32 <<< 16 |||
        (w.readControlByte (alignWord address + 3)).toUInt32 <<< 24 := by
  have aligned := toNat_alignWord address
  have lane : ∀ k < 4, (alignWord address + k.toUInt32).toNat % 4 = k := by
    intro k hk
    rw [UInt32.toNat_add]
    simp only [Nat.toUInt32, UInt32.toNat_ofNat', Nat.reducePow]
    omega
  have readable : ∀ i < 4, byteOf 0xFF00002F i = readableControl i := by decide
  have first : alignWord address + (0 : Nat).toUInt32 = alignWord address := UInt32.add_zero _
  refine eq_of_byteOf fun i hi => ?_
  have here : w.readControlByte (alignWord address + i.toUInt32) =
      byteOf w.memoryControl i &&& readableControl i := by
    rw [readControlByte_eq, lane i hi]
  have bytes := byteOf_compose (fun k => w.readControlByte (alignWord address + k.toUInt32)) hi
  rw [readControlWord, byteOf_and, readable i hi, ← here, ← bytes, first]
  rfl

/-- A wide access does what the accesses to its bytes do one after another, the lowest first. -/
structure Bytewise (w : WaitStates) : Prop where
  waitBoth (data : UInt16) : w.configure (.waitBoth data) =
    (w.configure (.waitLow data.toUInt8)).configure (.waitHigh (data >>> 8).toUInt8)
  controlHalf (address : UInt32) (data : UInt16) : w.configure (.controlHalf address data) =
    w.writeControlBytes (alignHalf address) [data.toUInt8, (data >>> 8).toUInt8]
  controlWord (address data : UInt32) : w.configure (.controlWord data) =
    w.writeControlBytes (alignWord address) [byteOf data 0, byteOf data 1, byteOf data 2, byteOf data 3]
  readWait : w.readWait = w.waitLow.toUInt16 ||| w.waitHigh.toUInt16 <<< 8
  readControlHalf (address : UInt32) : w.readControlHalf address =
    (w.readControlByte (alignHalf address)).toUInt16 |||
      (w.readControlByte (alignHalf address + 1)).toUInt16 <<< 8
  readControlWord (address : UInt32) : w.readControlWord =
    (w.readControlByte (alignWord address)).toUInt32 |||
      (w.readControlByte (alignWord address + 1)).toUInt32 <<< 8 |||
      (w.readControlByte (alignWord address + 2)).toUInt32 <<< 16 |||
      (w.readControlByte (alignWord address + 3)).toUInt32 <<< 24

theorem bytewise (w : WaitStates) : w.Bytewise where
  waitBoth data := by simp only [configure]
  controlHalf := w.writeControlHalf_eq
  controlWord := w.writeControlWord_eq
  readWait := rfl
  readControlHalf := w.readControlHalf_eq
  readControlWord := w.readControlWord_eq

theorem Configured.serve (h : w.Configured) {request : WaitRequest}
    (registered : ∀ window control, request ≠ .setWindow window control) :
    (w.serve request).2.Configured := by
  cases request with
  | configure write => exact h.configure write
  | setWindow window control => exact absurd rfl (registered window control)
  | setRendering video oam => exact { h with }
  | _ => exact h.congr (settings_serve w rfl)

theorem Configured.run (h : w.Configured) {requests : List WaitRequest}
    (registered : ∀ window control, .setWindow window control ∉ requests) :
    (w.run requests).Configured := by
  induction requests generalizing w with
  | nil => exact h
  | cons request rest ih =>
    have first : ∀ window control, request ≠ .setWindow window control := fun window control same =>
      registered window control (same ▸ List.mem_cons_self)
    exact ih (h.serve first) fun window control later =>
      registered window control (List.mem_cons_of_mem request later)

/-- As long as the tables are set through the registers alone, whatever is asked, the settings are those that
the registers call for as they are read back. Wide accesses are made of accesses to bytes in any state. -/
theorem settings_readBack (requests : List WaitRequest)
    (registered : ∀ window control, .setWindow window control ∉ requests) :
    (initial.run requests).ReadBack ∧ ∀ w : WaitStates, w.Bytewise :=
  ⟨(configured_initial.run registered).readBack, bytewise⟩

/-- A halfword written to the upper half of memory control is read back without its low byte, and its high byte
sets the wait. -/
theorem settings_readBack_half :
    let requests : List WaitRequest :=
      [.configure (.waitBoth 0x4317), .access .word 0x08000000 0x08000004,
        .configure (.controlHalf 0x802 0x0F34)]
    let w := initial.run requests
    (∀ window control, .setWindow window control ∉ requests) ∧
    w.readControlWord = 0x0F000020 ∧ w.ewramWait = 1 ∧
    w.readWait = 0x4317 ∧ w.sramWait = 9 ∧ w.prefetch = true ∧ w.wordCost 0x1C = 18 := by
  intro requests w
  have registered : ∀ window control, .setWindow window control ∉ requests := by simp [requests]
  obtain ⟨read, -⟩ := settings_readBack requests registered
  have control : w.readControlWord = 0x0F000020 := by decide +kernel
  have wait : w.readWait = 0x4317 := by decide +kernel
  have ewram := read.ewram
  have sram := read.sram
  have prefetch := read.prefetch
  have window := (read.windows 2 0 (by decide) (by decide)).2.2.2
  rw [control] at ewram
  rw [wait] at sram prefetch window
  exact ⟨registered, control, ewram, wait, sram, prefetch, window⟩

end GbaArm.WaitStates
