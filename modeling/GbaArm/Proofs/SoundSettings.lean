import GbaArm.Proofs.Charges

/-!
The range of every charge while the settings are sound. The bank and the buffer have bounds as well, so no
clock that is banked overflows.
-/
namespace GbaArm.WaitStates

variable {w k l : WaitStates} {window : Nat} {control : UInt8} {pc address : UInt32}

/-- The most clocks that the bank comes to hold. It is open below 255 and takes at most 1000 at once, and a
fetch may bank one more. -/
def bankLimit : Int := 1255

theorem bankLimit_nonneg : 0 ≤ bankLimit := by decide

theorem slack_of_empty (empty : w.pending = 0) : w.pending < bankLimit :=
  empty ▸ (by decide : (0 : Int) < bankLimit)

/-- Settings that the configuration registers can bring about, with no clocks owed, while the video
unit is not at work. -/
structure Sound (w : WaitStates) : Prop where
  ewram : 1 ≤ w.ewramWait ∧ w.ewramWait ≤ 16
  sram : 1 ≤ w.sramWait ∧ w.sramWait ≤ 9
  video : w.videoWait = 1
  oam : w.oamWait = 1
  half : ∀ index, w.halfCost index ≤ 9
  word : ∀ index, w.wordCost index ≤ 18
  cartridge : ∀ index, 4 ≤ index % 16 / 2 → index % 16 / 2 < 7 →
    1 ≤ w.halfCost index ∧ 1 ≤ w.wordCost index
  pending : 0 ≤ w.pending
  bank : w.pending ≤ bankLimit
  level : w.buffered ≤ bufferDepth

/-- A fetch cannot bring the bank past its limit: there is a clock to spare, or room for two halfwords. -/
def Roomy (w : WaitStates) : Prop := w.pending < bankLimit ∨ w.buffered + 2 ≤ bufferDepth

theorem sound_initial : initial.Sound where
  ewram := by decide
  sram := by decide
  video := rfl
  oam := rfl
  half index := (by decide +kernel : ∀ i : Fin 32, (initial.halfCosts.get i).toNat ≤ 9) _
  word index := (by decide +kernel : ∀ i : Fin 32, (initial.wordCosts.get i).toNat ≤ 18) _
  cartridge index lower upper := by
    have table : ∀ i : Fin 32, 4 ≤ i.val % 16 / 2 → i.val % 16 / 2 < 7 →
        1 ≤ (initial.halfCosts.get i).toNat ∧ 1 ≤ (initial.wordCosts.get i).toNat := by decide +kernel
    exact table ⟨index % 32, by omega⟩ (by simp only; omega) (by simp only; omega)
  pending := by decide
  bank := bankLimit_nonneg
  level := by decide

theorem Sound.setTables (h : w.Sound) {halves words : Vector UInt8 32}
    (half : ∀ index, halfCost { w with halfCosts := halves, wordCosts := words } index ≤ 9)
    (word : ∀ index, wordCost { w with halfCosts := halves, wordCosts := words } index ≤ 18)
    (cartridge : ∀ index, 4 ≤ index % 16 / 2 → index % 16 / 2 < 7 →
      1 ≤ halfCost { w with halfCosts := halves, wordCosts := words } index ∧
      1 ≤ wordCost { w with halfCosts := halves, wordCosts := words } index) :
    { w with halfCosts := halves, wordCosts := words : WaitStates }.Sound :=
  { h with half, word, cartridge }

theorem Sound.setWindow (h : w.Sound) (hw : window < 3) : (w.setWindow window control).Sound := by
  have first := firstAccess_bounds control
  have second := secondAccess_bounds control hw
  have half : ∀ index, (w.setWindow window control).halfCost index ≤ 9 := by
    intro index
    have := h.half index
    rw [halfCost_setWindow hw]
    split
    · omega
    · split <;> omega
  have word : ∀ index, (w.setWindow window control).wordCost index ≤ 18 := by
    intro index
    have := h.word index
    rw [wordCost_setWindow hw]
    split
    · omega
    · split <;> omega
  refine h.setTables half word fun index lower upper => ?_
  have := h.cartridge index lower upper
  show 1 ≤ (w.setWindow window control).halfCost index ∧ 1 ≤ (w.setWindow window control).wordCost index
  rw [halfCost_setWindow hw, wordCost_setWindow hw]
  split
  · omega
  · split <;> omega

theorem Sound.resetPrefetch (h : w.Sound) : w.resetPrefetch.Sound :=
  { h with pending := Int.le_refl 0, bank := bankLimit_nonneg, level := Nat.zero_le _ }

theorem Sound.breakSequence (h : w.Sound) : w.breakSequence.Sound := { h with }

theorem Sound.setLow (h : w.Sound) (data : UInt8) :
    { w with sramWait := firstAccess data, waitLow := data : WaitStates }.Sound := by
  have first := firstAccess_bounds data
  exact { h with sram := ⟨Nat.le_trans (by decide) first.1, first.2⟩ }

theorem Sound.setHigh (h : w.Sound) (prefetch : Bool) (data : UInt8) :
    { w with prefetch := prefetch, waitHigh := data : WaitStates }.Sound := { h with }

theorem Sound.writeWaitLow (h : w.Sound) (data : UInt8) : (w.writeWaitLow data).Sound :=
  ((h.setWindow (by decide)).setWindow (by decide)).setLow data

theorem Sound.writeWaitHigh (h : w.Sound) (data : UInt8) : (w.writeWaitHigh data).Sound := by
  have window : (w.setWindow 2 data).Sound := h.setWindow (by decide)
  unfold WaitStates.writeWaitHigh
  simp only
  split
  · exact window.setHigh _ _
  · exact window.resetPrefetch.setHigh _ _

theorem Sound.configure (h : w.Sound) (write : ConfigWrite) : (w.configure write).Sound := by
  cases write with
  | waitLow data => exact h.writeWaitLow data
  | waitHigh data => exact h.writeWaitHigh data
  | waitBoth data => exact (h.writeWaitLow _).writeWaitHigh _
  | controlByte address data =>
    unfold WaitStates.configure WaitStates.writeControlByte
    simp only
    split
    · exact { h with ewram := ewramClocks_bounds _ }
    · exact { h with }
  | controlHalf address data =>
    unfold WaitStates.configure WaitStates.writeControlHalf
    simp only
    split
    · exact { h with }
    · exact { h with ewram := ewramClocks_bounds _ }
  | controlWord data => exact { h with ewram := ewramClocks_bounds _ }

theorem Sound.checkBoundary (h : w.Sound) (address : UInt32) : (w.checkBoundary address).Sound := by
  unfold WaitStates.checkBoundary
  split
  · exact h.breakSequence
  · exact h

/-- From `w` to `k`, while code runs at `pc`, the bank ends below its limit, or nothing has come into it,
nor into the buffer if `pc` is in the cartridge. -/
def Settles (pc : UInt32) (w k : WaitStates) : Prop :=
  k.pending < bankLimit ∨ k.pending ≤ w.pending ∧ (inCartridge pc = true → k.buffered ≤ w.buffered)

theorem settles_of_eq (bank : k.pending = w.pending) (level : k.buffered = w.buffered) :
    Settles pc w k := .inr ⟨Int.le_of_eq bank, fun _ => Nat.le_of_eq level⟩

theorem settles_of_empty (empty : k.pending = 0) : Settles pc w k := .inl (slack_of_empty empty)

theorem Settles.trans (h : Settles pc w k) (h' : Settles pc k l) : Settles pc w l := by
  obtain below | ⟨bank', level'⟩ := h'
  · exact .inl below
  · obtain below | ⟨bank, level⟩ := h
    · exact .inl (Int.lt_of_le_of_lt bank' below)
    · exact .inr ⟨Int.le_trans bank' bank, fun inside => Nat.le_trans (level' inside) (level inside)⟩

theorem Settles.slack (h : Settles pc w k) (slack : w.pending < bankLimit) : k.pending < bankLimit := by
  obtain below | ⟨bank, -⟩ := h
  · exact below
  · exact Int.lt_of_le_of_lt bank slack

theorem Settles.roomy (h : Settles pc w k) (inside : inCartridge pc = true) (roomy : w.Roomy) :
    k.Roomy := by
  obtain below | ⟨bank, level⟩ := h
  · exact .inl below
  · have := level inside
    obtain slack | room := roomy
    · exact .inl (Int.lt_of_le_of_lt bank slack)
    · exact .inr (by omega)

theorem Settles.bank (h : Settles pc w k) (within : w.pending ≤ bankLimit) : k.pending ≤ bankLimit := by
  obtain below | ⟨bank, -⟩ := h
  · exact Int.le_of_lt below
  · exact Int.le_trans bank within

theorem Sound.multiClock (h : w.Sound) {clocks : Nat} (few : clocks ≤ 1000) (pc : UInt32) :
    (w.multiClock pc clocks).2.Sound := by
  have owed := h.pending
  unfold WaitStates.multiClock
  simp only
  split
  · split
    · next room =>
      have banked := wrapBank_open owed room few
      unfold pendingLimit at room
      exact
        { h with
          pending := by simp only [banked]; omega
          bank := by simp only [banked, bankLimit]; omega }
    · exact h
  · exact h.resetPrefetch

theorem Sound.settles_multiClock (h : w.Sound) {clocks : Nat} (few : clocks ≤ 1000) (pc place : UInt32) :
    Settles place w (w.multiClock pc clocks).2 := by
  unfold WaitStates.multiClock
  simp only
  split
  · split
    · next room =>
      have banked := wrapBank_open h.pending room few
      unfold pendingLimit at room
      exact .inl (by simp only [banked, bankLimit]; omega)
    · exact settles_of_eq rfl rfl
  · exact settles_of_empty rfl

theorem Sound.internalCycles (h : w.Sound) {clocks : Nat} (few : clocks ≤ 1000) (pc : UInt32) :
    (w.internalCycles pc clocks).1 = clocks ∧ (w.internalCycles pc clocks).2.Sound ∧
      Settles pc w (w.internalCycles pc clocks).2 := by
  unfold WaitStates.internalCycles
  split
  · exact ⟨rfl, h.multiClock few pc, h.settles_multiClock few pc pc⟩
  · refine ⟨rfl, ?_⟩
    simp only
    split
    · exact ⟨h.breakSequence, settles_of_eq rfl rfl⟩
    · exact ⟨h, settles_of_eq rfl rfl⟩

theorem settles_setWindow (w : WaitStates) (window : Nat) (control : UInt8) :
    Settles pc w (w.setWindow window control) := .inr ⟨Int.le_refl _, fun _ => Nat.le_refl _⟩

theorem settles_writeWaitLow (w : WaitStates) (data : UInt8) : Settles pc w (w.writeWaitLow data) := by
  have windows : Settles pc w ((w.setWindow 0 (data >>> 2)).setWindow 1 (data >>> 5)) :=
    (settles_setWindow w 0 _).trans (settles_setWindow _ 1 _)
  unfold writeWaitLow
  generalize (w.setWindow 0 (data >>> 2)).setWindow 1 (data >>> 5) = k at windows ⊢
  exact windows

theorem settles_writeWaitHigh (w : WaitStates) (data : UInt8) :
    Settles pc w (w.writeWaitHigh data) := by
  have window : Settles pc w (w.setWindow 2 data) := settles_setWindow w 2 data
  unfold writeWaitHigh
  simp only
  generalize w.setWindow 2 data = k at window ⊢
  split
  · exact window
  · exact settles_of_empty rfl

theorem settles_configure (w : WaitStates) (write : ConfigWrite) : Settles pc w (w.configure write) := by
  cases write with
  | waitLow data => exact settles_writeWaitLow w data
  | waitHigh data => exact settles_writeWaitHigh w data
  | waitBoth data => exact (settles_writeWaitLow w _).trans (settles_writeWaitHigh _ _)
  | controlWord data => exact settles_of_eq rfl rfl
  | controlByte address data =>
    unfold configure writeControlByte
    simp only
    split <;> exact settles_of_eq rfl rfl
  | controlHalf address data =>
    unfold configure writeControlHalf
    simp only
    split <;> exact settles_of_eq rfl rfl

theorem settles_checkBoundary (w : WaitStates) (address : UInt32) :
    Settles pc w (w.checkBoundary address) := by
  unfold checkBoundary
  split <;> exact settles_of_eq rfl rfl

/-- The drain takes clocks out of the bank for what it puts into the buffer. -/
theorem drainLoop_bounds (cost room : Nat) (w : WaitStates) :
    (drainLoop cost room w).pending ≤ w.pending ∧
      (drainLoop cost room w).buffered ≤ w.buffered + room := by
  induction room generalizing w with
  | zero => exact ⟨Int.le_refl _, Nat.le_refl _⟩
  | succ room ih =>
    have next := ih { w with pending := w.pending - cost, buffered := w.buffered + 1 }
    simp only at next
    rw [drainLoop]
    split <;> omega

theorem drainLoop_spends {cost : Nat} (positive : 0 < cost) (room : Nat) (owed : 0 < w.pending) :
    (drainLoop cost (room + 1) w).pending < w.pending := by
  have next := drainLoop_bounds cost room
    { w with pending := w.pending - cost, buffered := w.buffered + 1 }
  simp only at next
  rw [drainLoop, if_pos owed]
  omega

theorem Sound.settles_drainOverdue (h : w.Sound) (pc : UInt32) : Settles pc w (w.drainOverdue pc).2 := by
  have bounds := drainLoop_bounds (w.halfCost (pc >>> 24).toNat) (bufferDepth - w.buffered) w
  have spends : inCartridge pc = true → 0 < w.pending → w.buffered < bufferDepth →
      (drainLoop (w.halfCost (pc >>> 24).toNat) (bufferDepth - w.buffered) w).pending < w.pending := by
    intro inside owed room
    obtain ⟨low, high⟩ := inCartridge_top inside
    have positive := (h.cartridge (pc >>> 24).toNat (by omega) (by omega)).1
    obtain ⟨more, hm⟩ : ∃ more, bufferDepth - w.buffered = more + 1 :=
      ⟨bufferDepth - w.buffered - 1, by omega⟩
    rw [hm]
    exact drainLoop_spends positive more owed
  have within := h.bank
  have level := h.level
  unfold drainOverdue
  split
  · next owed =>
    simp only
    generalize drainLoop _ _ w = k at bounds spends ⊢
    split
    · exact settles_of_empty rfl
    · by_cases full : w.buffered < bufferDepth
      · by_cases inside : inCartridge pc = true
        · have spent := spends inside owed full
          exact .inl (Int.lt_of_lt_of_le spent within)
        -- Elsewhere a halfword may cost nothing, and the drain fills the buffer for free.
        · exact .inr ⟨bounds.1, fun h => absurd h inside⟩
      · exact .inr ⟨bounds.1, fun _ => by simp only; omega⟩
  · exact settles_of_eq rfl rfl

theorem Sound.drainOverdue (h : w.Sound) (pc : UInt32) : (w.drainOverdue pc).2.Sound := by
  have level : (w.drainOverdue pc).2.buffered ≤ bufferDepth := by
    have bounds := drainLoop_bounds (w.halfCost (pc >>> 24).toNat) (bufferDepth - w.buffered) w
    have := h.level
    unfold WaitStates.drainOverdue
    split
    · simp only
      split <;> simp only <;> omega
    · exact h.level
  have bank := (h.settles_drainOverdue pc).bank h.bank
  rw [drainOverdue_frame]
  exact { h with pending := pending_drainOverdue h.pending pc, bank, level }

theorem Sound.debt_le (h : w.Sound) (pc : UInt32) : w.debt pc ≤ 8 := by
  have cost := h.half (pc >>> 24).toNat
  have below : 0 < w.debt pc → w.debt pc < w.halfCost (pc >>> 24).toNat := debt_lt
  omega

/-- A charge within the limit that leaves the settings sound. -/
structure Fair (least : Nat) (charge : Nat × WaitStates) : Prop where
  least : least ≤ charge.1
  most : charge.1 ≤ accessLimit
  sound : charge.2.Sound

theorem Sound.romHalf (h : w.Sound) (pc address : UInt32) :
    Fair 0 (w.romHalf pc address) ∧ Settles pc w (w.romHalf pc address).2 := by
  have debt := h.debt_le pc
  have cost := h.half (w.romIndex address)
  refine ⟨⟨Nat.zero_le _, ?_, { (h.drainOverdue pc).checkBoundary address with }⟩, ?_⟩
  · rw [romHalf_charge]
    exact Nat.le_trans (Nat.add_le_add cost debt) (by decide)
  · exact (h.settles_drainOverdue pc).trans (settles_checkBoundary _ address)

theorem Sound.romWord (h : w.Sound) (pc address : UInt32) :
    Fair 0 (w.romWord pc address) ∧ Settles pc w (w.romWord pc address).2 := by
  have debt := h.debt_le pc
  have cost := h.word (w.romIndex address)
  refine ⟨⟨Nat.zero_le _, ?_, { (h.drainOverdue pc).checkBoundary address with }⟩, ?_⟩
  · rw [romWord_charge]
    exact Nat.le_trans (Nat.add_le_add cost debt) (by decide)
  · exact (h.settles_drainOverdue pc).trans (settles_checkBoundary _ address)

theorem Sound.access (h : w.Sound) (width : Width) (pc address : UInt32) :
    Fair 0 (w.access width pc address) ∧ Settles pc w (w.access width pc address).2 := by
  have banked : ∀ clocks ≤ 32,
      Fair 0 (w.multiClock pc clocks) ∧ Settles pc w (w.multiClock pc clocks).2 := fun clocks hc =>
    ⟨⟨Nat.zero_le _, hc, h.multiClock (by omega) pc⟩, h.settles_multiClock (by omega) pc pc⟩
  have ewram := h.ewram
  have sram := h.sram
  have video := h.video
  have oam := h.oam
  unfold WaitStates.access
  cases Region.ofAddress address with
  | rom =>
    cases width with
    | word => exact h.romWord pc address
    | half | byte => exact h.romHalf pc address
  | bios | iwram | io | unmapped => cases width <;> exact banked 1 (by decide)
  | sram => cases width <;> exact banked w.sramWait (by omega)
  | oam => cases width <;> exact banked w.oamWait (by omega)
  | ewram =>
    cases width with
    | word => exact banked (2 * w.ewramWait) (by omega)
    | half | byte => exact banked w.ewramWait (by omega)
  | palette | vram =>
    cases width with
    | word => exact banked (2 * w.videoWait) (by omega)
    | half | byte => exact banked w.videoWait (by omega)

theorem Sound.fillLoop (h : w.Sound) (cost room : Nat) (fits : w.buffered + room ≤ bufferDepth) :
    (WaitStates.fillLoop cost room w).Sound := by
  induction room generalizing w with
  | zero => exact h
  | succ room ih =>
    have bank := h.bank
    rw [WaitStates.fillLoop]
    split
    · next paid =>
      refine ih { h with
        pending := by simp only; omega
        bank := by simp only; omega
        level := by simp only; omega } ?_
      simp only
      omega
    · exact h

/-- What is bought costs clocks, so a fetch finds a clock to spare. -/
theorem fillLoop_slack {cost : Nat} (positive : 0 < cost) (cheap : cost ≤ 9) {room : Nat}
    (within : w.pending ≤ bankLimit) (spare : w.pending < bankLimit ∨ 0 < room) :
    (fillLoop cost room w).pending < bankLimit := by
  unfold bankLimit at *
  induction room generalizing w with
  | zero =>
    rw [WaitStates.fillLoop]
    omega
  | succ room ih =>
    rw [WaitStates.fillLoop]
    split
    · exact ih (by simp only; omega) (.inl (by simp only; omega))
    · omega

/-- What a fetch lacks is paid at once, and a fetch that lacks nothing takes one clock. -/
theorem Sound.settle (h : w.Sound) {clocks : Int} {level : Nat} {mark : Bool} (owed : -32 ≤ clocks)
    (within : clocks ≤ bankLimit) (depth : level ≤ bufferDepth)
    (room : clocks < bankLimit ∨ level + 2 ≤ bufferDepth) :
    let k : WaitStates := { w with pending := wrapBank clocks, buffered := level, nonSequential := mark }
    Fair 1 k.settle ∧ k.settle.2.Roomy := by
  have small : bankLimit < 2147483648 := by decide
  rw [wrapBank_of_fits (by omega) (by omega)]
  unfold WaitStates.settle
  simp only
  split
  · next short =>
    refine ⟨⟨?_, ?_, { h with pending := Int.le_refl 0, bank := bankLimit_nonneg, level := depth }⟩,
      .inl (slack_of_empty rfl)⟩
    · simp only
      omega
    · show clocks.natAbs ≤ 32
      omega
  · next paid =>
    exact ⟨⟨Nat.le_refl 1, (by decide : 1 ≤ 32),
      { h with pending := Int.not_lt.mp paid, bank := within, level := depth }⟩, room⟩

theorem Sound.romFetchBuffered (h : w.Sound) (roomy : w.Roomy)
    (positive : 0 < w.halfCost (address >>> 24).toNat) :
    Fair 1 (w.romFetchBuffered address) ∧ (w.romFetchBuffered address).2.Roomy := by
  have level := h.level
  have filled := h.fillLoop (w.halfCost (address >>> 24).toNat) (bufferDepth - w.buffered) (by omega)
  have slack : (WaitStates.fillLoop (w.halfCost (address >>> 24).toNat) (bufferDepth - w.buffered)
      w).pending < bankLimit := by
    refine fillLoop_slack positive (h.half _) h.bank ?_
    obtain spare | room := roomy
    · exact .inl spare
    · exact .inr (by omega)
  unfold WaitStates.romFetchBuffered
  simp only
  generalize WaitStates.fillLoop _ _ w = k at filled slack ⊢
  have owed := filled.pending
  have depth := filled.level
  have word := filled.word (k.costIndex address)
  have half := filled.half (k.costIndex address)
  split
  · exact filled.settle (by omega) (by omega) depth (.inl (by omega))
  · exact filled.settle (by omega) (by omega) (Nat.zero_le _) (.inl (by omega))
  · exact filled.settle (by omega) (by omega) (by omega) (.inr (by omega))

theorem Sound.romFetch (h : w.Sound) (roomy : w.Roomy) (rom : Region.ofAddress address = .rom) :
    Fair 1 (w.romFetch address) ∧ (w.romFetch address).2.Roomy := by
  have checked := h.checkBoundary address
  have ample : (w.checkBoundary address).Roomy := by
    unfold WaitStates.checkBoundary
    split <;> exact roomy
  have window : ∀ top < 14, 8 ≤ top → ∀ marked : Bool,
      4 ≤ (top ||| (if marked then 0x10 else 0)) % 16 / 2 ∧
      (top ||| (if marked then 0x10 else 0)) % 16 / 2 < 7 := by decide
  obtain ⟨low, high⟩ := region_eq_rom rom
  unfold WaitStates.romFetch
  simp only
  generalize w.checkBoundary address = k at checked ample ⊢
  split
  · exact checked.romFetchBuffered ample (checked.cartridge _ (by omega) (by omega)).1
  · obtain ⟨lower, upper⟩ := window _ high low k.nonSequential
    have least := (checked.cartridge _ lower upper).2
    have most := checked.word (k.costIndex address)
    exact ⟨⟨least, Nat.le_trans most (by decide), { checked with }⟩, ample⟩

/-- A fetch keeps the settings sound if it leaves the cartridge alone or the bank can take its clock. -/
theorem Sound.fetch (h : w.Sound) (address : UInt32)
    (roomy : Region.ofAddress address = .rom → w.Roomy) : Fair 1 (w.fetch address) := by
  have ewram := h.ewram
  have sram := h.sram
  have video := h.video
  have oam := h.oam
  have clocked : Fair 1 (w.singleClock address) :=
    ⟨Nat.le_refl 1, (by decide : 1 ≤ 32), h.multiClock (by decide) address⟩
  have charged : ∀ clocks, 1 ≤ clocks → clocks ≤ 32 → Fair 1 (clocks, w) :=
    fun clocks least most => ⟨least, most, h⟩
  unfold WaitStates.fetch
  cases hr : Region.ofAddress address with
  | rom => exact (h.romFetch (roomy hr) hr).1
  | bios | iwram | io | unmapped => exact clocked
  | sram => exact ⟨sram.1, Nat.le_trans sram.2 (by decide), h.resetPrefetch⟩
  | oam => exact charged w.oamWait (by omega) (by omega)
  | ewram => exact charged (2 * w.ewramWait) (by omega) (by omega)
  | palette | vram => exact charged (2 * w.videoWait) (by omega) (by omega)

theorem Sound.roomy_fetch (h : w.Sound) (roomy : w.Roomy) (rom : Region.ofAddress address = .rom) :
    (w.fetch address).2.Roomy := by
  unfold WaitStates.fetch
  rw [rom]
  exact (h.romFetch roomy rom).2

/-- Outside the cartridge a fetch adds nothing to the bank. -/
theorem Sound.slack_fetch (h : w.Sound) (slack : w.pending < bankLimit)
    (off : Region.ofAddress address ≠ .rom) : (w.fetch address).2.pending < bankLimit := by
  have clocked : (w.singleClock address).2.pending < bankLimit :=
    (h.settles_multiClock (by decide) address address).slack slack
  unfold WaitStates.fetch
  cases hr : Region.ofAddress address with
  | rom => exact absurd hr off
  | bios | iwram | io | unmapped => exact clocked
  | sram => exact slack_of_empty rfl
  | _ => exact slack

end GbaArm.WaitStates
