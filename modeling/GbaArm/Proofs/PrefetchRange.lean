import GbaArm.Proofs.Prefetcher
import GbaArm.Proofs.WaitRuns

/-!
The counters of the prefetcher stay in range. Below its limit the bank takes the clocks of one more access,
and a fetch served from the buffer banks another one, but such a fetch leaves room for two halfwords, and the
next to look at the buffer spends clocks on it.
-/
namespace GbaArm

/-- The requests that a bus makes: no more clocks at once than an access takes, and the cartridge bus for
code in the cartridge alone. -/
def WaitRequest.Ordinary : WaitRequest → Prop
  | .internalCycles _ clocks | .multiClock _ clocks => clocks ≤ WaitStates.accessLimit
  | .access _ pc address => Region.ofAddress address = .rom → inCartridge pc = true
  | .romHalf pc _ | .romWord pc _ => inCartridge pc = true
  | .romFetch address => inCartridge address = true
  | _ => True

namespace WaitStates

variable {w k : WaitStates} {pc address : UInt32} {clocks : Nat}

/-- No access outside the cartridge takes more than the limit, and no halfword of the cartridge is free. -/
structure Bounded (w : WaitStates) : Prop where
  ewram : w.ewramWait ≤ 16
  sram : w.sramWait ≤ 9
  video : w.videoWait ≤ 1
  oam : w.oamWait ≤ 1
  half : ∀ top, 8 ≤ top → top < 14 → 0 < w.halfCost top

theorem bounded_initial : initial.Bounded where
  ewram := by decide
  sram := by decide
  video := by decide
  oam := by decide
  half := by decide +kernel

theorem Bounded.congr (h : w.Bounded) (same : k.settings = w.settings) : k.Bounded := by
  have kept : w.settings.Bounded := { h with }
  rw [← same] at kept
  exact { kept with }

theorem Bounded.half_pos (h : w.Bounded) (inside : inCartridge pc = true) :
    0 < w.halfCost (pc >>> 24).toNat :=
  h.half _ (inCartridge_top inside).1 (inCartridge_top inside).2

/-- A following access costs 2 or an odd number, which no cut to a byte makes 0. -/
theorem secondAccess_pos (window : Nat) (control : UInt8) :
    0 < (UInt8.ofNat (secondAccess window control)).toNat := by
  rw [UInt8.toNat_ofNat']
  unfold secondAccess
  split
  · have even : ((2 : UInt32) <<< window.toUInt32).toNat % 2 = 0 := by
      rw [UInt32.toNat_shiftLeft, Nat.shiftLeft_eq]
      generalize 2 ^ (window.toUInt32.toNat % 32) = places
      simp only [UInt32.reduceToNat, Nat.reducePow]
      omega
    rw [UInt32.toNat_add]
    simp only [UInt32.reduceToNat, Nat.reducePow]
    omega
  · decide

/-- Setting the costs of a window, were there more than three of them, makes no halfword free. -/
theorem halfCost_setWindow_pos (window : Nat) (control : UInt8) {index : Nat} (h : 0 < w.halfCost index) :
    0 < (w.setWindow window control).halfCost index := by
  have first := (firstAccess_bounds control).1
  have most := (firstAccess_bounds control).2
  have firstPos : 0 < (UInt8.ofNat (firstAccess control)).toNat := by
    rw [UInt8.toNat_ofNat']
    omega
  have secondPos := secondAccess_pos window control
  unfold halfCost at h ⊢
  simp only [setWindow, get_setIfInBounds]
  split
  · exact secondPos
  · split
    · exact secondPos
    · split
      · exact firstPos
      · split
        · exact firstPos
        · exact h

theorem Bounded.setWindow (h : w.Bounded) (window : Nat) (control : UInt8) :
    (w.setWindow window control).Bounded := by
  have half : ∀ top, 8 ≤ top → top < 14 → 0 < (w.setWindow window control).halfCost top :=
    fun top low high => halfCost_setWindow_pos window control (h.half top low high)
  constructor
  case half => exact half
  all_goals simp only [WaitStates.setWindow]
  · exact h.ewram
  · exact h.sram
  · exact h.video
  · exact h.oam

theorem Bounded.writeWaitLow (h : w.Bounded) (data : UInt8) : (w.writeWaitLow data).Bounded := by
  have windows := (h.setWindow 0 (data >>> 2)).setWindow 1 (data >>> 5)
  unfold WaitStates.writeWaitLow
  generalize (w.setWindow 0 (data >>> 2)).setWindow 1 (data >>> 5) = k at windows ⊢
  exact { windows with sram := (firstAccess_bounds data).2 }

theorem Bounded.writeWaitHigh (h : w.Bounded) (data : UInt8) : (w.writeWaitHigh data).Bounded := by
  have window := h.setWindow 2 data
  unfold WaitStates.writeWaitHigh
  generalize w.setWindow 2 data = k at window ⊢
  simp only
  split <;> exact { window with }

theorem Bounded.configure (h : w.Bounded) (write : ConfigWrite) : (w.configure write).Bounded := by
  cases write with
  | waitLow data => exact h.writeWaitLow data
  | waitHigh data => exact h.writeWaitHigh data
  | waitBoth data => exact (h.writeWaitLow _).writeWaitHigh _
  | controlByte address data =>
    unfold WaitStates.configure WaitStates.writeControlByte
    simp only
    split
    · exact { h with ewram := (ewramClocks_bounds _).2 }
    · exact { h with }
  | controlHalf address data =>
    unfold WaitStates.configure WaitStates.writeControlHalf
    simp only
    split
    · exact { h with }
    · exact { h with ewram := (ewramClocks_bounds _).2 }
  | controlWord data => exact { h with ewram := (ewramClocks_bounds _).2 }

theorem Bounded.serve (h : w.Bounded) (request : WaitRequest) : (w.serve request).2.Bounded := by
  cases request with
  | configure write => exact h.configure write
  | setWindow window control => exact h.setWindow window control
  | setRendering video oam =>
    exact { h with video := Bool.toNat_le video, oam := Bool.toNat_le oam }
  | _ => exact h.congr (settings_serve w rfl)

/-- The buffer holds eight halfwords at most. The bank holds no more than 286 clocks, or one more while the
buffer has room for two halfwords. -/
structure InRange (w : WaitStates) : Prop where
  level : w.buffered ≤ 8
  owed : 0 ≤ w.pending
  bank : w.pending ≤ 287
  room : w.pending = 287 → w.buffered ≤ 6

theorem inRange_initial : initial.InRange where
  level := by decide
  owed := by decide
  bank := by decide
  room := by decide

theorem inRange_resetPrefetch (w : WaitStates) : w.resetPrefetch.InRange where
  level := Nat.zero_le 8
  owed := Int.le_refl 0
  bank := (by decide : (0 : Int) ≤ 287)
  room _ := Nat.zero_le 6

theorem InRange.multiClock (h : w.InRange) (few : clocks ≤ accessLimit) (pc : UInt32) :
    (w.multiClock pc clocks).2.InRange := by
  have owed := h.owed
  unfold accessLimit at few
  unfold WaitStates.multiClock
  simp only
  split
  · split
    · next room =>
      have banked := wrapBank_open owed room (by omega : clocks ≤ 1000)
      unfold pendingLimit at room
      exact
        { level := h.level
          owed := by simp only [banked]; omega
          bank := by simp only [banked]; omega
          room := by simp only [banked]; omega }
    · exact h
  · exact inRange_resetPrefetch w

theorem InRange.internalCycles (h : w.InRange) (few : clocks ≤ accessLimit) (pc : UInt32) :
    (w.internalCycles pc clocks).2.InRange := by
  unfold WaitStates.internalCycles
  split
  · exact h.multiClock few pc
  · simp only
    split <;> exact { h with }

theorem InRange.checkBoundary (h : w.InRange) (address : UInt32) : (w.checkBoundary address).InRange := by
  rw [checkBoundary_eq]
  exact { h with }

/-- What is bought costs clocks, so the bank is at its top only if there was no room to buy. -/
theorem InRange.drainOverdue (h : w.InRange) (positive : 0 < w.halfCost (pc >>> 24).toNat) :
    (w.drainOverdue pc).2.InRange := by
  obtain ⟨bank, banked⟩ := Int.eq_ofNat_of_zero_le h.owed
  obtain ⟨level, -, most, room⟩ := h
  rw [drainOverdue_eq banked positive]
  simp only [bufferDepth]
  generalize w.halfCost (pc >>> 24).toNat = cost at positive ⊢
  have spent : bank = 287 → 0 < cost * min (8 - w.buffered) ((bank + cost - 1) / cost) := by
    intro full
    have buys : 0 < (bank + cost - 1) / cost := Nat.div_pos (by omega) positive
    exact Nat.mul_pos positive (by omega)
  generalize (bank + cost - 1) / cost = paid at spent ⊢
  generalize cost * min (8 - w.buffered) paid = price at spent ⊢
  constructor <;> simp only <;> omega

theorem InRange.romHalf (h : w.InRange) (positive : 0 < w.halfCost (pc >>> 24).toNat) (address : UInt32) :
    (w.romHalf pc address).2.InRange := { (h.drainOverdue positive).checkBoundary address with }

theorem InRange.romWord (h : w.InRange) (positive : 0 < w.halfCost (pc >>> 24).toNat) (address : UInt32) :
    (w.romWord pc address).2.InRange := { (h.drainOverdue positive).checkBoundary address with }

/-- A fetch buys halfwords ahead of the clock that it may bank. -/
theorem InRange.fillsTo (h : w.InRange) (positive : 0 < w.halfCost (address >>> 24).toNat) :
    ∃ level rest, w.FillsTo address level rest ∧ level ≤ 8 ∧ rest ≤ 286 := by
  obtain ⟨bank, banked⟩ := Int.eq_ofNat_of_zero_le h.owed
  obtain ⟨level, -, most, room⟩ := h
  refine ⟨_, _, WaitStates.fillsTo banked positive, ?_⟩
  have small : w.halfCost (address >>> 24).toNat < 256 := UInt8.toNat_lt _
  simp only [bufferDepth]
  generalize w.halfCost (address >>> 24).toNat = cost at positive small ⊢
  have spent : bank = 287 → 0 < cost * min (8 - w.buffered) (bank / cost) := by
    intro full
    have buys : 0 < bank / cost := Nat.div_pos (by omega) positive
    exact Nat.mul_pos positive (by omega)
  generalize bank / cost = paid at spent ⊢
  generalize cost * min (8 - w.buffered) paid = price at spent ⊢
  omega

theorem InRange.romFetchBuffered (h : w.InRange) (positive : 0 < w.halfCost (address >>> 24).toNat) :
    (w.romFetchBuffered address).2.InRange := by
  obtain ⟨level, rest, fills, most, few⟩ := h.fillsTo positive
  match level with
  | 0 =>
    rw [romFetchBuffered_none fills (by omega)]
    constructor <;> simp only <;> omega
  | 1 =>
    rw [romFetchBuffered_single fills (by omega)]
    constructor <;> simp only <;> omega
  | more + 2 =>
    rw [romFetchBuffered_full fills (by omega)]
    constructor <;> simp only <;> omega

theorem InRange.romFetch (h : w.InRange) (positive : 0 < w.halfCost (address >>> 24).toNat) :
    (w.romFetch address).2.InRange := by
  have checked := h.checkBoundary address
  have costs : (w.checkBoundary address).halfCost = w.halfCost := (costs_checkBoundary w address).1
  unfold WaitStates.romFetch
  simp only
  generalize w.checkBoundary address = k at checked costs ⊢
  split
  · exact checked.romFetchBuffered (costs ▸ positive)
  · exact { checked with }

/-- Outside the cartridge an access charges the wait of its region. -/
theorem Bounded.access_banks (h : w.Bounded) (width : Width) (pc : UInt32)
    (plain : Region.ofAddress address ≠ .rom) :
    ∃ clocks ≤ accessLimit, w.access width pc address = w.multiClock pc clocks := by
  have ewram := h.ewram
  have sram := h.sram
  have video := h.video
  have oam := h.oam
  unfold accessLimit WaitStates.access
  cases hr : Region.ofAddress address with
  | rom => exact absurd hr plain
  | _ => cases width <;> exact ⟨_, by omega, rfl⟩

theorem InRange.access (h : w.InRange) (bounded : w.Bounded) (width : Width)
    (inside : Region.ofAddress address = .rom → inCartridge pc = true) :
    (w.access width pc address).2.InRange := by
  by_cases rom : Region.ofAddress address = .rom
  · have positive := bounded.half_pos (inside rom)
    unfold WaitStates.access
    rw [rom]
    cases width with
    | word => exact h.romWord positive address
    | half | byte => exact h.romHalf positive address
  · obtain ⟨clocks, few, banked⟩ := bounded.access_banks width pc rom
    exact banked ▸ h.multiClock few pc

theorem InRange.fetch (h : w.InRange) (bounded : w.Bounded) (address : UInt32) :
    (w.fetch address).2.InRange := by
  have clocked : (w.singleClock address).2.InRange := h.multiClock (by decide) address
  unfold WaitStates.fetch
  cases hr : Region.ofAddress address with
  | rom =>
    obtain ⟨low, high⟩ := region_eq_rom hr
    exact h.romFetch (bounded.half _ low high)
  | sram => exact inRange_resetPrefetch w
  | bios | iwram | io | unmapped => exact clocked
  | _ => exact h

theorem InRange.reconfigured (h : w.InRange) (written : w.Reconfigured k) : k.InRange := by
  obtain ⟨level, bank⟩ | ⟨level, bank⟩ := written.buffer
  · exact
      { level := level ▸ h.level
        owed := bank ▸ h.owed
        bank := bank ▸ h.bank
        room := level ▸ bank ▸ h.room }
  · constructor <;> omega

theorem InRange.serve (h : w.InRange) (bounded : w.Bounded) {request : WaitRequest}
    (ordinary : request.Ordinary) : (w.serve request).2.InRange := by
  cases request with
  | configure write => exact h.reconfigured (reconfigured_configure w write)
  | setWindow window control => exact h.reconfigured (reconfigured_setWindow w window control)
  | setRendering video oam => exact { h with }
  | breakSequence => exact { h with }
  | breakStream | resetPrefetch => exact { inRange_resetPrefetch w with }
  | internalCycle pc => exact h.internalCycles (by decide) pc
  | internalCycles pc clocks => exact h.internalCycles ordinary pc
  | singleClock pc => exact h.multiClock (by decide) pc
  | multiClock pc clocks => exact h.multiClock ordinary pc
  | access width pc address => exact h.access bounded width ordinary
  | fetch address => exact h.fetch bounded address
  | romHalf pc address => exact h.romHalf (bounded.half_pos ordinary) address
  | romWord pc address => exact h.romWord (bounded.half_pos ordinary) address
  | romFetch address => exact h.romFetch (bounded.half_pos ordinary)

theorem InRange.run (h : w.InRange) (bounded : w.Bounded) {requests : List WaitRequest}
    (ordinary : ∀ request ∈ requests, request.Ordinary) : (w.run requests).InRange := by
  induction requests generalizing w with
  | nil => exact h
  | cons request requests ih =>
    obtain ⟨first, others⟩ := List.forall_mem_cons.mp ordinary
    exact ih (h.serve bounded first) (bounded.serve request) others

theorem prefetch_setWindow (w : WaitStates) (window : Nat) (control : UInt8) :
    (w.setWindow window control).prefetch = w.prefetch := by
  simp only [WaitStates.setWindow]

theorem emptied_writeWaitHigh {data : UInt8} (switched : (w.writeWaitHigh data).prefetch ≠ w.prefetch) :
    (w.writeWaitHigh data).buffered = 0 ∧ (w.writeWaitHigh data).pending = 0 := by
  have kept := prefetch_setWindow w 2 data
  unfold WaitStates.writeWaitHigh at switched ⊢
  generalize w.setWindow 2 data = k at kept switched ⊢
  simp only at switched ⊢
  split
  · next both =>
    obtain ⟨enabled, on⟩ := (Bool.and_eq_true _ _).mp both
    exact absurd (enabled.trans (on.symm.trans kept)) switched
  · exact ⟨rfl, rfl⟩

/-- A write that switches the prefetcher empties the buffer and the bank. -/
theorem emptied_configure {write : ConfigWrite} (switched : (w.configure write).prefetch ≠ w.prefetch) :
    (w.configure write).buffered = 0 ∧ (w.configure write).pending = 0 := by
  have low : ∀ data, (w.writeWaitLow data).prefetch = w.prefetch := by
    intro data
    rw [writeWaitLow_eq]
  cases write with
  | waitLow data => exact absurd (low data) switched
  | waitHigh data => exact emptied_writeWaitHigh switched
  | waitBoth data =>
    exact emptied_writeWaitHigh fun same => switched (same.trans (low data.toUInt8))
  | controlByte address data =>
    unfold WaitStates.configure WaitStates.writeControlByte at switched
    simp only at switched
    split at switched <;> exact absurd rfl switched
  | controlHalf address data =>
    unfold WaitStates.configure WaitStates.writeControlHalf at switched
    simp only at switched
    split at switched <;> exact absurd rfl switched
  | controlWord data => exact absurd rfl switched

/-- After any requests that a bus makes the buffer holds from 0 to 8 halfwords and the bank from 0 to 287
clocks, and a write to the wait-control register that turns the prefetcher on or off leaves both empty. -/
theorem counters_bounded (requests : List WaitRequest)
    (ordinary : ∀ request ∈ requests, request.Ordinary) :
    let w := initial.run requests
    w.buffered ≤ 8 ∧ 0 ≤ w.pending ∧ w.pending ≤ 287 ∧
    ∀ write, (w.configure write).prefetch ≠ w.prefetch →
      (w.configure write).buffered = 0 ∧ (w.configure write).pending = 0 := by
  intro w
  have range : w.InRange := inRange_initial.run bounded_initial ordinary
  exact ⟨range.level, range.owed, range.bank, fun write => emptied_configure⟩

/-- A full buffer and the most clocks that the bank takes: the fetch after them leaves 287. -/
theorem counters_bounded_top :
    let banked := fun clocks => WaitRequest.internalCycles 0x08000000 clocks
    let requests := [.configure (.waitHigh 0x40), banked 24, .romHalf 0x08000000 0x08000100] ++
      List.replicate 7 (banked 32) ++ [banked 30, banked 32, .romFetch 0x08000004]
    let w := initial.run requests
    (∀ request ∈ requests, request.Ordinary) ∧ w.buffered = 6 ∧ w.pending = 287 ∧
    (w.configure (.waitHigh 0)).prefetch ≠ w.prefetch ∧ (w.configure (.waitHigh 0)).pending = 0 := by
  intro banked requests w
  have ordinary : ∀ request ∈ requests, request.Ordinary := by
    have code : inCartridge 0x08000000 = true ∧ inCartridge 0x08000004 = true := by decide
    simp [requests, banked, WaitRequest.Ordinary, accessLimit, code]
  have bounded := counters_bounded requests ordinary
  have switched : (w.configure (.waitHigh 0)).prefetch ≠ w.prefetch := by decide +kernel
  exact ⟨ordinary, by decide +kernel, by decide +kernel, switched, (bounded.2.2.2 _ switched).2⟩

end WaitStates

end GbaArm
