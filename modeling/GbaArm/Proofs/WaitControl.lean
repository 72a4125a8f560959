import GbaArm.Proofs.IoRegisters

/-!
The settings as functions of the two configuration registers. Waits and tables are kept beside the registers
and brought up to date by every write, so they always are what the registers call for.
-/
namespace GbaArm.WaitStates

/-- The entry of the halfword table that the wait-control register calls for. -/
def halfEntry (w : WaitStates) (index : Nat) : Nat :=
  match index % 32 / 2 with
  | 4 => secondAccess 0 (w.waitLow >>> 2)
  | 5 => secondAccess 1 (w.waitLow >>> 5)
  | 6 => secondAccess 2 w.waitHigh
  | 12 => firstAccess (w.waitLow >>> 2)
  | 13 => firstAccess (w.waitLow >>> 5)
  | 14 => firstAccess w.waitHigh
  | _ => 0

/-- The entry of the word table: a word is two halfwords, the second of them sequential. -/
def wordEntry (w : WaitStates) (index : Nat) : Nat :=
  match index % 32 / 2 with
  | 4 => 2 * secondAccess 0 (w.waitLow >>> 2)
  | 5 => 2 * secondAccess 1 (w.waitLow >>> 5)
  | 6 => 2 * secondAccess 2 w.waitHigh
  | 12 => firstAccess (w.waitLow >>> 2) + secondAccess 0 (w.waitLow >>> 2)
  | 13 => firstAccess (w.waitLow >>> 5) + secondAccess 1 (w.waitLow >>> 5)
  | 14 => firstAccess w.waitHigh + secondAccess 2 w.waitHigh
  | _ => 0

/-- The settings are those that the registers call for. -/
structure Configured (w : WaitStates) : Prop where
  ewram : w.ewramWait = ewramClocks w.memoryControl
  sram : w.sramWait = firstAccess w.waitLow
  prefetch : w.prefetch = (w.waitHigh &&& 0x40 != 0)
  half : ∀ index, w.halfCost index = w.halfEntry index
  word : ∀ index, w.wordCost index = w.wordEntry index

variable {w k : WaitStates}

theorem configured_initial : initial.Configured where
  ewram := by decide
  sram := by decide
  prefetch := by decide
  half index := by
    have low : index % 32 < 32 := Nat.mod_lt _ (by decide)
    have table : ∀ i : Fin 32, (initial.halfCosts.get i).toNat = initial.halfEntry i.val := by decide +kernel
    have entry := table ⟨index % 32, low⟩
    simp only [halfEntry, Nat.mod_mod] at entry ⊢
    exact entry
  word index := by
    have low : index % 32 < 32 := Nat.mod_lt _ (by decide)
    have table : ∀ i : Fin 32, (initial.wordCosts.get i).toNat = initial.wordEntry i.val := by decide +kernel
    have entry := table ⟨index % 32, low⟩
    simp only [wordEntry, Nat.mod_mod] at entry ⊢
    exact entry

/-- The registers and what follows from them are settings. -/
theorem Configured.congr (h : w.Configured) (same : k.settings = w.settings) : k.Configured := by
  have kept : w.settings.Configured := { h with }
  rw [← same] at kept
  exact { kept with }

/-- The four entries of a cartridge window: a halfword and a word, in sequence and out of it. -/
structure Window (w : WaitStates) (top first second : Nat) : Prop where
  first_bounds : 3 ≤ first ∧ first ≤ 9
  second_bounds : 2 ≤ second ∧ second ≤ 9
  half : w.halfCost top = second
  word : w.wordCost top = 2 * second
  firstHalf : w.halfCost (top ||| 0x10) = first
  firstWord : w.wordCost (top ||| 0x10) = first + second

theorem Window.half_pos {top first second : Nat} (h : w.Window top first second) : 0 < w.halfCost top :=
  h.half.symm ▸ Nat.lt_of_lt_of_le (by decide) h.second_bounds.1

theorem Configured.window (h : w.Configured) {top : Nat} (low : 8 ≤ top) (high : top < 14) :
    ∃ first second, w.Window top first second := by
  have following : top % 32 / 2 = top / 2 := by omega
  have marked : (top ||| 0x10) % 32 / 2 = top / 2 + 8 :=
    (by decide : ∀ top < 14, 8 ≤ top → (top ||| 0x10) % 32 / 2 = top / 2 + 8) top high low
  have half := h.half top
  have word := h.word top
  have firstHalf := h.half (top ||| 0x10)
  have firstWord := h.word (top ||| 0x10)
  obtain slot | slot | slot : top / 2 = 4 ∨ top / 2 = 5 ∨ top / 2 = 6 := by omega
  all_goals
    simp only [halfEntry, wordEntry, following, marked, slot] at half word firstHalf firstWord
    exact ⟨_, _, firstAccess_bounds _, secondAccess_bounds _ (by decide), half, word, firstHalf, firstWord⟩

theorem firstAccess_masked (data mask : UInt8) (keeps : mask &&& 3 = 3) :
    firstAccess (data &&& mask) = firstAccess data := by
  have low : data &&& mask &&& 3 = data &&& 3 := by rw [UInt8.and_assoc, keeps]
  simp only [firstAccess, low]

theorem secondAccess_masked (window : Nat) (data mask : UInt8) (keeps : mask &&& 4 = 4) :
    secondAccess window (data &&& mask) = secondAccess window data := by
  have bit : data &&& mask &&& 4 = data &&& 4 := by rw [UInt8.and_assoc, keeps]
  simp only [secondAccess, bit]

theorem writeWaitLow_eq (w : WaitStates) (data : UInt8) : w.writeWaitLow data =
    { w with
      halfCosts := ((w.setWindow 0 (data >>> 2)).setWindow 1 (data >>> 5)).halfCosts
      wordCosts := ((w.setWindow 0 (data >>> 2)).setWindow 1 (data >>> 5)).wordCosts
      sramWait := firstAccess data
      waitLow := data } := by
  simp only [writeWaitLow, setWindow]

theorem settings_writeWaitHigh (w : WaitStates) (data : UInt8) : (w.writeWaitHigh data).settings =
    { w with
      halfCosts := (w.setWindow 2 data).halfCosts
      wordCosts := (w.setWindow 2 data).wordCosts
      prefetch := data &&& 0x40 != 0
      waitHigh := data &&& 0x5F : WaitStates }.settings := by
  have windowed : (w.setWindow 2 data).settings =
      { w with
        halfCosts := (w.setWindow 2 data).halfCosts
        wordCosts := (w.setWindow 2 data).wordCosts : WaitStates }.settings := by
    simp only [setWindow, settings]
  have written : (w.writeWaitHigh data).settings =
      { (w.setWindow 2 data).settings with
        prefetch := data &&& 0x40 != 0
        waitHigh := data &&& 0x5F } := by
    unfold writeWaitHigh
    generalize w.setWindow 2 data = k
    simp only
    split <;> rfl
  rw [written, windowed]
  rfl

theorem Configured.writeWaitLow (h : w.Configured) (data : UInt8) :
    (w.writeWaitLow data).Configured := by
  have half : ∀ index, ((w.setWindow 0 (data >>> 2)).setWindow 1 (data >>> 5)).halfCost index =
      { w with waitLow := data : WaitStates }.halfEntry index := by
    intro index
    rw [halfCost_setWindow (by decide), halfCost_setWindow (by decide), h.half]
    unfold halfEntry
    generalize index % 32 / 2 = slot
    grind
  have word : ∀ index, ((w.setWindow 0 (data >>> 2)).setWindow 1 (data >>> 5)).wordCost index =
      { w with waitLow := data : WaitStates }.wordEntry index := by
    intro index
    rw [wordCost_setWindow (by decide), wordCost_setWindow (by decide), h.word]
    unfold wordEntry
    generalize index % 32 / 2 = slot
    grind
  rw [writeWaitLow_eq]
  generalize (w.setWindow 0 (data >>> 2)).setWindow 1 (data >>> 5) = k at half word
  exact { ewram := h.ewram, sram := rfl, prefetch := h.prefetch, half, word }

theorem Configured.writeWaitHigh (h : w.Configured) (data : UInt8) :
    (w.writeWaitHigh data).Configured := by
  have half : ∀ index, (w.setWindow 2 data).halfCost index =
      { w with waitHigh := data &&& 0x5F : WaitStates }.halfEntry index := by
    intro index
    rw [halfCost_setWindow (by decide), h.half]
    unfold halfEntry
    rw [firstAccess_masked data 0x5F rfl, secondAccess_masked 2 data 0x5F rfl]
    generalize index % 32 / 2 = slot
    grind
  have word : ∀ index, (w.setWindow 2 data).wordCost index =
      { w with waitHigh := data &&& 0x5F : WaitStates }.wordEntry index := by
    intro index
    rw [wordCost_setWindow (by decide), h.word]
    unfold wordEntry
    rw [firstAccess_masked data 0x5F rfl, secondAccess_masked 2 data 0x5F rfl]
    generalize index % 32 / 2 = slot
    grind
  have enabled : (data &&& 0x40 != 0) = (data &&& 0x5F &&& 0x40 != 0) := by
    rw [UInt8.and_assoc]
    rfl
  refine Configured.congr ?_ (settings_writeWaitHigh w data)
  generalize w.setWindow 2 data = k at half word
  exact { ewram := h.ewram, sram := h.sram, prefetch := enabled, half, word }

/-- The clocks of external work RAM stand in the top byte alone. -/
theorem ewramClocks_eq (control : UInt32) : ewramClocks control = 16 - (byteOf control 3).toNat % 16 := by
  have low : ((control >>> 24) &&& 0xF).toNat = (control >>> 24).toUInt8.toNat % 16 := by
    rw [toNat_and_low (k := 4) rfl, UInt32.toNat_toUInt8]
    omega
  rw [ewramClocks, low]
  rfl

theorem ewramClocks_congr {control other : UInt32} (top : byteOf control 3 = byteOf other 3) :
    ewramClocks control = ewramClocks other := by
  rw [ewramClocks_eq, ewramClocks_eq, top]

theorem Configured.writeControlByte (h : w.Configured) (address : UInt32) (data : UInt8) :
    (w.writeControlByte address data).Configured := by
  unfold WaitStates.writeControlByte
  simp only
  split
  · exact { h with ewram := rfl }
  · next below =>
    have lane := toNat_and_three address
    have under : ¬ 3 = (address &&& 3).toNat := fun same => below (UInt32.toNat_inj.mp same.symm)
    have kept : byteOf (replaceByte w.memoryControl (address &&& 3) data) 3 = byteOf w.memoryControl 3 :=
      (byteOf_replaceByte _ data (by decide) (by omega)).trans (if_neg under)
    exact { h with ewram := h.ewram.trans (ewramClocks_congr kept).symm }

/-- Replacing the lower half leaves the higher one. -/
theorem byteOf_replaceHalf (control : UInt32) (data : UInt16) {i : Nat} (hi : i < 4) :
    byteOf (control &&& 0xFFFF0000 ||| data.toUInt32) i =
      if i < 2 then byteOf data.toUInt32 i else byteOf control i := by
  have kept : ∀ i < 4, byteOf 0xFFFF0000 i = if i < 2 then 0 else -1 := by decide
  rw [byteOf_or, byteOf_and, kept i hi]
  split
  · rw [UInt8.and_zero, UInt8.zero_or]
  · next high => rw [byteOf_half data (Nat.not_lt.mp high) hi, UInt8.and_neg_one, UInt8.or_zero]

theorem Configured.writeControlHalf (h : w.Configured) (address : UInt32) (data : UInt16) :
    (w.writeControlHalf address data).Configured := by
  unfold WaitStates.writeControlHalf
  simp only
  split
  · have kept : ewramClocks (w.memoryControl &&& 0xFFFF0000 ||| data.toUInt32) =
        ewramClocks w.memoryControl := ewramClocks_congr (byteOf_replaceHalf _ data (by decide))
    exact { h with ewram := h.ewram.trans kept.symm }
  · exact { h with ewram := rfl }

theorem Configured.configure (h : w.Configured) (write : ConfigWrite) :
    (w.configure write).Configured := by
  cases write with
  | waitLow data => exact h.writeWaitLow data
  | waitHigh data => exact h.writeWaitHigh data
  | waitBoth data => exact (h.writeWaitLow _).writeWaitHigh _
  | controlByte address data => exact h.writeControlByte address data
  | controlHalf address data => exact h.writeControlHalf address data
  | controlWord data => exact { h with ewram := rfl }

/-- What every configuration write leaves: what video and object memory cost, and the mark. The buffer and
the bank stay or are emptied. -/
structure Reconfigured (w k : WaitStates) : Prop where
  video : k.videoWait = w.videoWait
  oam : k.oamWait = w.oamWait
  mark : k.nonSequential = w.nonSequential
  buffer : k.buffered = w.buffered ∧ k.pending = w.pending ∨ k.buffered = 0 ∧ k.pending = 0

theorem Reconfigured.trans {v : WaitStates} (first : v.Reconfigured w) (second : w.Reconfigured k) :
    v.Reconfigured k where
  video := second.video.trans first.video
  oam := second.oam.trans first.oam
  mark := second.mark.trans first.mark
  buffer := by
    obtain ⟨level, bank⟩ | emptied := second.buffer
    · rw [level, bank]
      exact first.buffer
    · exact .inr emptied

theorem reconfigured_setWindow (w : WaitStates) (window : Nat) (control : UInt8) :
    w.Reconfigured (w.setWindow window control) := by
  have buffer : (w.setWindow window control).buffered = w.buffered ∧
      (w.setWindow window control).pending = w.pending := by
    constructor <;> simp only [setWindow]
  constructor
  case buffer => exact .inl buffer
  all_goals simp only [setWindow]

theorem reconfigured_writeWaitLow (w : WaitStates) (data : UInt8) :
    w.Reconfigured (w.writeWaitLow data) := by
  rw [writeWaitLow_eq]
  exact ⟨rfl, rfl, rfl, .inl ⟨rfl, rfl⟩⟩

theorem reconfigured_writeWaitHigh (w : WaitStates) (data : UInt8) :
    w.Reconfigured (w.writeWaitHigh data) := by
  have windowed := w.reconfigured_setWindow 2 data
  unfold writeWaitHigh
  generalize w.setWindow 2 data = k at windowed ⊢
  simp only
  split
  · exact { windowed with }
  · exact { windowed with buffer := .inr ⟨rfl, rfl⟩ }

theorem reconfigured_configure (w : WaitStates) (write : ConfigWrite) :
    w.Reconfigured (w.configure write) := by
  cases write with
  | waitLow data => exact w.reconfigured_writeWaitLow data
  | waitHigh data => exact w.reconfigured_writeWaitHigh data
  | waitBoth data => exact (w.reconfigured_writeWaitLow _).trans (reconfigured_writeWaitHigh _ _)
  | controlByte address data =>
    unfold configure writeControlByte
    simp only
    split <;> exact ⟨rfl, rfl, rfl, .inl ⟨rfl, rfl⟩⟩
  | controlHalf address data =>
    unfold configure writeControlHalf
    simp only
    split <;> exact ⟨rfl, rfl, rfl, .inl ⟨rfl, rfl⟩⟩
  | controlWord data => exact ⟨rfl, rfl, rfl, .inl ⟨rfl, rfl⟩⟩

/-- A write of both bytes sets the three windows, one after another. -/
theorem costs_waitBoth (w : WaitStates) (setting : UInt16) (index : Nat) :
    (w.configure (.waitBoth setting)).halfCost index =
      (((w.setWindow 0 (setting.toUInt8 >>> 2)).setWindow 1 (setting.toUInt8 >>> 5)).setWindow 2
        (setting >>> 8).toUInt8).halfCost index ∧
    (w.configure (.waitBoth setting)).wordCost index =
      (((w.setWindow 0 (setting.toUInt8 >>> 2)).setWindow 1 (setting.toUInt8 >>> 5)).setWindow 2
        (setting >>> 8).toUInt8).wordCost index := by
  have half : ∀ (k : WaitStates) data,
      (k.writeWaitHigh data).settings.halfCost index = (k.setWindow 2 data).halfCost index := by
    intro k data
    rw [settings_writeWaitHigh]
    rfl
  have word : ∀ (k : WaitStates) data,
      (k.writeWaitHigh data).settings.wordCost index = (k.setWindow 2 data).wordCost index := by
    intro k data
    rw [settings_writeWaitHigh]
    rfl
  refine ⟨(half _ _).trans ?_, (word _ _).trans ?_⟩
  · rw [halfCost_setWindow (by decide), halfCost_setWindow (by decide), writeWaitLow_eq]
    rfl
  · rw [wordCost_setWindow (by decide), wordCost_setWindow (by decide), writeWaitLow_eq]
    rfl

/-- So it sets every entry of the cartridge, whatever was there. -/
theorem costs_waitBoth_eq (w k : WaitStates) (setting : UInt16) {index : Nat}
    (low : 4 ≤ index % 16 / 2) (high : index % 16 / 2 < 7) :
    (w.configure (.waitBoth setting)).halfCost index = (k.configure (.waitBoth setting)).halfCost index ∧
    (w.configure (.waitBoth setting)).wordCost index = (k.configure (.waitBoth setting)).wordCost index := by
  obtain ⟨half, word⟩ := costs_waitBoth w setting index
  obtain ⟨half', word'⟩ := costs_waitBoth k setting index
  have slots : index % 32 / 2 = 4 ∨ index % 32 / 2 = 5 ∨ index % 32 / 2 = 6 ∨
      index % 32 / 2 = 12 ∨ index % 32 / 2 = 13 ∨ index % 32 / 2 = 14 := by omega
  rw [half, half', word, word']
  iterate 6 rw [halfCost_setWindow (by decide)]
  iterate 6 rw [wordCost_setWindow (by decide)]
  obtain slot | slot | slot | slot | slot | slot := slots <;> simp [slot]

theorem window_waitBoth (w : WaitStates) (setting : UInt16) {top : Nat} (low : 8 ≤ top) (high : top < 14) :
    ∃ first second, (w.configure (.waitBoth setting)).Window top first second := by
  obtain ⟨first, second, window⟩ := (configured_initial.configure (.waitBoth setting)).window low high
  have marked : 4 ≤ (top ||| 0x10) % 16 / 2 ∧ (top ||| 0x10) % 16 / 2 < 7 :=
    (by decide : ∀ top < 14, 8 ≤ top → 4 ≤ (top ||| 0x10) % 16 / 2 ∧ (top ||| 0x10) % 16 / 2 < 7)
      top high low
  obtain ⟨half, word⟩ := costs_waitBoth_eq w initial setting (by omega : 4 ≤ top % 16 / 2) (by omega)
  obtain ⟨firstHalf, firstWord⟩ := costs_waitBoth_eq w initial setting marked.1 marked.2
  exact ⟨first, second, window.first_bounds, window.second_bounds, half.trans window.half,
    word.trans window.word, firstHalf.trans window.firstHalf, firstWord.trans window.firstWord⟩

/-- Bit 14 of the register is bit 6 of its high byte. -/
theorem enable_highByte (setting : UInt16) :
    ((setting >>> 8).toUInt8 &&& (0x40 : UInt8) != 0) = (setting &&& (0x4000 : UInt16) != 0) := by
  have shifted : (setting >>> 8).toUInt8 &&& (0x40 : UInt8) =
      ((setting &&& (0x4000 : UInt16)) >>> 8).toUInt8 := by
    rw [UInt16.shiftRight_and, UInt16.toUInt8_and]
    rfl
  have single : ∀ i < 16, (0x4000#16).getLsbD i = decide (i = 14) := by decide
  have alone : setting &&& (0x4000 : UInt16) = if setting.toBitVec.getLsbD 14 then 0x4000 else 0 := by
    apply UInt16.toBitVec_inj.mp
    apply BitVec.eq_of_getLsbD_eq
    intro i hi
    have bit : (setting &&& (0x4000 : UInt16)).toBitVec.getLsbD i =
        (setting.toBitVec.getLsbD i && decide (i = 14)) := by
      rw [← single i hi]
      exact BitVec.getLsbD_and
    by_cases h : i = 14
    · subst h
      rw [bit]
      cases setting.toBitVec.getLsbD 14 <;> rfl
    · rw [bit, decide_eq_false h, Bool.and_false]
      split
      · exact (decide_eq_false h).symm.trans (single i hi).symm
      · simp
  rw [shifted, alone]
  split <;> rfl

theorem prefetch_waitBoth (w : WaitStates) (setting : UInt16) :
    (w.configure (.waitBoth setting)).prefetch = (setting &&& (0x4000 : UInt16) != 0) := by
  have high : ∀ k : WaitStates, (k.writeWaitHigh (setting >>> 8).toUInt8).settings.prefetch =
      ((setting >>> 8).toUInt8 &&& (0x40 : UInt8) != 0) := by
    intro k
    rw [settings_writeWaitHigh]
    rfl
  exact (high (w.writeWaitLow setting.toUInt8)).trans (enable_highByte setting)

end GbaArm.WaitStates
