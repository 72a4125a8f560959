import GbaArm.Proofs.WaitControl

/-!
The prefetcher in closed form. Both loops that turn banked clocks into halfwords are divisions with a cap:
a fetch buys what the bank pays for in full, a data access rounds up and owes the rest.
-/
namespace GbaArm.WaitStates

variable {w : WaitStates} {address pc : UInt32}

/-- Halfwords that the bank pays for in full, as far as there is room. -/
def filled (cost room : Nat) (pending : Int) : Nat := min room (pending.toNat / cost)

theorem filled_succ {cost : Nat} (hc : 0 < cost) (room : Nat) {pending : Int} (paid : cost ≤ pending) :
    filled cost (room + 1) pending = filled cost room (pending - cost) + 1 := by
  have less : (pending - cost).toNat = pending.toNat - cost := by omega
  have step : pending.toNat / cost = (pending.toNat - cost) / cost + 1 :=
    Nat.div_eq_sub_div hc (by omega)
  rw [filled, filled, less, step]
  omega

theorem filled_of_lt {cost : Nat} (room : Nat) {pending : Int} (short : pending < cost)
    (hc : 0 < cost) : filled cost room pending = 0 := by
  rw [filled, Nat.div_eq_of_lt (by omega), Nat.min_zero]

theorem fillLoop_eq {cost : Nat} (hc : 0 < cost) (room : Nat) (w : WaitStates) :
    fillLoop cost room w =
      { w with
        pending := w.pending - (cost * filled cost room w.pending : Nat)
        buffered := w.buffered + filled cost room w.pending } := by
  induction room generalizing w with
  | zero => simp [fillLoop, filled]
  | succ room ih =>
    rw [fillLoop]
    split
    · next paid =>
      rw [ih, filled_succ hc room paid]
      simp only [WaitStates.mk.injEq, true_and, and_true, Nat.mul_succ]
      omega
    · next short => simp [filled_of_lt (room + 1) (Int.not_le.mp short) hc]

theorem filled_le (cost room pending : Nat) : cost * filled cost room pending ≤ pending :=
  calc cost * filled cost room pending
    _ ≤ cost * (pending / cost) := Nat.mul_le_mul_left _ (Nat.min_le_right _ _)
    _ ≤ pending := Nat.mul_div_le _ _

/-- An overdrawn bank is paid for and left empty. -/
theorem settle_eq (w : WaitStates) :
    w.settle =
      (if w.pending < 0 then w.pending.natAbs else 1, { w with pending := max 0 w.pending }) := by
  unfold settle
  split
  · next owed => rw [Int.max_eq_left (Int.le_of_lt owed)]
  · next paid => rw [Int.max_eq_right (Int.not_lt.mp paid)]

/-- A fetch that costs more than the bank holds pays the difference, any other takes one clock. -/
theorem settle_sub (w : WaitStates) {bank cost : Nat} (signed : bank < 2147483648) (small : cost < 256) :
    settle { w with pending := wrapBank ((bank : Int) - cost) } =
      (if bank < cost then cost - bank else 1,
        { w with pending := max 0 ((bank : Int) - cost) }) := by
  rw [wrapBank_of_fits (by omega) (by omega), settle_eq]
  by_cases owed : bank < cost
  · have deficit : ((bank : Int) - cost).natAbs = cost - bank := by omega
    rw [if_pos owed, if_pos (by simp only; omega), deficit]
  · rw [if_neg owed, if_neg (by simp only; omega)]

theorem checkBoundary_eq (w : WaitStates) (address : UInt32) :
    w.checkBoundary address =
      { w with nonSequential := w.nonSequential || address &&& (0x1FFFF : UInt32) == 0 } := by
  unfold checkBoundary
  split
  · next h => simp [breakSequence, h]
  · next h => rw [beq_false_of_ne h, Bool.or_false]

/-- The buffer once it is filled: its level, and the clocks that are left. -/
def FillsTo (w : WaitStates) (address : UInt32) (level rest : Nat) : Prop :=
  fillLoop (w.halfCost (address >>> 24).toNat) (bufferDepth - w.buffered) w =
    { w with pending := (rest : Int), buffered := level }

theorem fillsTo {bank : Nat} (banked : w.pending = bank) (hc : 0 < w.halfCost (address >>> 24).toNat) :
    w.FillsTo address
      (w.buffered + min (bufferDepth - w.buffered) (bank / w.halfCost (address >>> 24).toNat))
      (bank - w.halfCost (address >>> 24).toNat *
        min (bufferDepth - w.buffered) (bank / w.halfCost (address >>> 24).toNat)) := by
  have loop := fillLoop_eq hc (bufferDepth - w.buffered) w
  have within := filled_le (w.halfCost (address >>> 24).toNat) (bufferDepth - w.buffered) bank
  rw [banked] at loop
  rw [filled, Int.toNat_natCast] at loop within
  rw [FillsTo, loop, ← Int.ofNat_sub within]

variable {rest : Nat}

theorem romFetchBuffered_none (fills : w.FillsTo address 0 rest) (signed : rest < 2147483648) :
    w.romFetchBuffered address =
      (if rest < w.wordCost (w.costIndex address) then w.wordCost (w.costIndex address) - rest else 1,
        { w with
          pending := max 0 ((rest : Int) - w.wordCost (w.costIndex address))
          buffered := 0, nonSequential := false }) := by
  unfold romFetchBuffered
  rw [fills]
  exact settle_sub { w with buffered := 0, nonSequential := false } signed (UInt8.toNat_lt _)

theorem romFetchBuffered_empty (fills : w.FillsTo address 0 rest) (signed : rest < 2147483648)
    (poor : rest < w.wordCost (w.costIndex address)) :
    w.romFetchBuffered address =
      (w.wordCost (w.costIndex address) - rest,
        { w with pending := 0, buffered := 0, nonSequential := false }) := by
  have spent : max 0 ((rest : Int) - w.wordCost (w.costIndex address)) = 0 := by omega
  rw [romFetchBuffered_none fills signed, if_pos poor, spent]

theorem romFetchBuffered_single (fills : w.FillsTo address 1 rest) (signed : rest < 2147483648) :
    w.romFetchBuffered address =
      (if rest < w.halfCost (w.costIndex address) then w.halfCost (w.costIndex address) - rest else 1,
        { w with
          pending := max 0 ((rest : Int) - w.halfCost (w.costIndex address))
          buffered := 0, nonSequential := false }) := by
  unfold romFetchBuffered
  rw [fills]
  exact settle_sub { w with buffered := 0, nonSequential := false } signed (UInt8.toNat_lt _)

theorem romFetchBuffered_full {more : Nat} (fills : w.FillsTo address (more + 2) rest)
    (spare : rest + 1 < 2147483648) :
    w.romFetchBuffered address = (1, { w with pending := (rest : Int) + 1, buffered := more }) := by
  unfold romFetchBuffered
  rw [fills]
  show settle { w with pending := wrapBank ((rest : Int) + 1), buffered := more } = _
  rw [wrapBank_of_fits (by omega) (by omega)]
  unfold settle
  rw [if_neg (by simp only; omega)]

/-- At the top of the signed word the clock that the fetch banks overflows. The bank is then taken for
overdrawn, and the fetch pays it back in full. -/
theorem romFetchBuffered_overflow {more : Nat} (fills : w.FillsTo address (more + 2) rest)
    (top : rest + 1 = 2147483648) :
    w.romFetchBuffered address = (2147483648, { w with pending := 0, buffered := more }) := by
  have wrapped : wrapBank ((rest : Int) + 1) = -2147483648 := by
    have sum : (rest : Int) + 1 = 2147483648 := by omega
    rw [sum]
    decide
  unfold romFetchBuffered
  rw [fills]
  show settle { w with pending := wrapBank ((rest : Int) + 1), buffered := more } = _
  rw [wrapped]
  rfl

/-- A fetch takes no more clocks than the word does out of an empty buffer. -/
theorem romFetchBuffered_le {level : Nat} (fills : w.FillsTo address level rest)
    (spare : rest + 1 < 2147483648)
    (fits : w.halfCost (w.costIndex address) ≤ w.wordCost (w.costIndex address))
    (some : 0 < w.wordCost (w.costIndex address))
    (poor : level = 0 → rest < w.wordCost (w.costIndex address)) :
    (w.romFetchBuffered address).1 ≤ w.wordCost (w.costIndex address) := by
  have signed : rest < 2147483648 := by omega
  match level with
  | 0 =>
    rw [romFetchBuffered_empty fills signed (poor rfl)]
    exact Nat.sub_le _ _
  | 1 =>
    rw [romFetchBuffered_single fills signed]
    simp only
    split <;> omega
  | more + 2 =>
    rw [romFetchBuffered_full fills spare]
    exact some

/-- A buffer that is empty once it is filled had room, so the bank could not pay for one halfword. -/
theorem bank_lt_of_empty {buffered bank cost : Nat} (positive : 0 < cost)
    (none : buffered + min (bufferDepth - buffered) (bank / cost) = 0) : bank < cost := by
  have few : bank / cost = 0 := by
    unfold bufferDepth at none
    generalize bank / cost = bought at none ⊢
    omega
  exact Nat.lt_of_div_eq_zero positive few

/-- The drain buys what the bank pays for, rounded up, and what it lacks is paid at once. -/
theorem drainOverdue_eq {bank : Nat} (banked : w.pending = bank) (hc : 0 < w.halfCost (pc >>> 24).toNat) :
    let cost := w.halfCost (pc >>> 24).toNat
    let bought := min (bufferDepth - w.buffered) ((bank + cost - 1) / cost)
    w.drainOverdue pc =
      (cost * bought - bank,
        { w with
          pending := max 0 ((bank : Int) - (cost * bought : Nat))
          buffered := w.buffered + bought }) := by
  intro cost bought
  have loop := drainLoop_eq hc (bufferDepth - w.buffered) w
  rw [banked, drained, Int.toNat_natCast] at loop
  unfold drainOverdue
  split
  · rw [loop]
    simp only
    by_cases owed : bank < cost * bought
    · have lacks : (bank : Int) - (cost * bought : Nat) < 0 := by omega
      have deficit : ((bank : Int) - (cost * bought : Nat)).natAbs = cost * bought - bank := by omega
      have rest : max 0 ((bank : Int) - (cost * bought : Nat)) = 0 := by omega
      exact (if_pos lacks).trans (by rw [deficit, rest])
    · have pays : ¬ (bank : Int) - (cost * bought : Nat) < 0 := by omega
      have deficit : cost * bought - bank = 0 := by omega
      have rest : max 0 ((bank : Int) - (cost * bought : Nat)) = (bank : Int) - (cost * bought : Nat) := by
        omega
      exact (if_neg pays).trans (by rw [deficit, rest])
  · next spent =>
    have empty : bank = 0 := by omega
    have idle : bought = 0 := by
      have nothing : (0 + cost - 1) / cost = 0 := Nat.div_eq_of_lt (by omega)
      simp only [bought, empty, nothing, Nat.min_zero]
    have still : w = { w with pending := 0 } :=
      congrArg (fun p => { w with pending := p : WaitStates }) (banked.trans (by rw [empty]; rfl))
    rw [idle, empty]
    exact congrArg (Prod.mk 0) still

theorem romFetch_on (on : w.prefetch = true) (address : UInt32) :
    w.romFetch address =
      { w with
        nonSequential := w.nonSequential || address &&& (0x1FFFF : UInt32) == 0 }.romFetchBuffered address := by
  unfold romFetch
  rw [checkBoundary_eq]
  exact if_pos on

theorem romFetch_off (off : w.prefetch = false) (address : UInt32) :
    (w.romFetch address).1 = w.wordCost ((address >>> 24).toNat |||
      (if w.nonSequential || address &&& (0x1FFFF : UInt32) == 0 then 0x10 else 0)) := by
  have disabled : ¬ w.prefetch = true := Bool.eq_false_iff.mp off
  unfold romFetch
  rw [checkBoundary_eq]
  exact congrArg Prod.fst (if_neg disabled)

theorem romIndex_eq (w : WaitStates) (address : UInt32) :
    w.romIndex address = (address >>> 24).toNat |||
      (if w.nonSequential || address &&& (0x1FFFF : UInt32) == 0 then 0x10 else 0) := by
  simp [romIndex]

/-- A word costs more than the sequential halfword of its window, and no less than the halfword of its
column. -/
theorem Window.word_bounds {top first second : Nat} (h : w.Window top first second) (marked : Bool) :
    let column := top ||| (if marked then 0x10 else 0)
    w.halfCost top < w.wordCost column ∧ w.halfCost column ≤ w.wordCost column := by
  have := h.first_bounds
  have := h.second_bounds
  have := h.half
  cases marked with
  | true =>
    have half := h.firstHalf
    have word := h.firstWord
    simp only [if_true]
    omega
  | false =>
    have word := h.word
    simp only [Bool.false_eq_true, if_false, Nat.or_zero]
    omega

/-- Room in the buffer costs clocks, so only a bank at the top of the signed word with the buffer full has no
place for one more. -/
theorem spare_clock {buffered pending cost : Nat} (positive : 0 < cost) (small : cost < 256)
    (signed : pending < 2147483648) (spare : buffered < 8 ∨ pending < 2147483647) :
    pending - cost * min (8 - buffered) (pending / cost) + 1 < 2147483648 := by
  by_cases low : pending < 2147483647
  · exact Nat.lt_of_le_of_lt (Nat.add_le_add_right (Nat.sub_le _ _) 1) (by omega)
  · have bought : 0 < min (8 - buffered) (pending / cost) := by
      have paid : 0 < pending / cost := Nat.div_pos (by omega) positive
      omega
    have spent := Nat.mul_pos positive bought
    omega

/-- With the prefetcher on, a fetch fills the buffer with the halfwords that the bank pays for. Two of them are
an instruction and take one clock. One leaves the other halfword to fetch, none the whole word, and what
the bank cannot pay for is charged. So a fetch takes at least a clock, and no more than without the
prefetcher. A data access rounds up what it buys and is charged the deficit on top of its own clocks.

The bank is any signed word. At one point, a full buffer and the largest bank there is, the clock of the
fetch overflows, and the fetch pays the whole bank back. -/
theorem romFetch_prefetched (start : WaitStates) (setting : UInt16) (on : setting &&& (0x4000 : UInt16) ≠ 0)
    (buffered pending : Nat) (signed : pending < 2147483648) (mark : Bool) (address : UInt32)
    (rom : Region.ofAddress address = .rom) :
    let w : WaitStates :=
      { start.configure (.waitBoth setting) with buffered, pending := (pending : Int), nonSequential := mark }
    let top := (address >>> 24).toNat
    let cost := w.halfCost top
    let bought := min (8 - buffered) (pending / cost)
    let level := buffered + bought
    let rest := pending - cost * bought
    let broken := mark || address &&& (0x1FFFF : UInt32) == 0
    let column := top ||| (if broken then 0x10 else 0)
    let half := w.halfCost column
    let word := w.wordCost column
    let fetched := w.romFetch address
    let spare := buffered < 8 ∨ pending < 2147483647
    cost * bought ≤ pending ∧
    (2 ≤ level → spare → fetched =
      (1, { w with buffered := level - 2, pending := (rest : Int) + 1, nonSequential := broken })) ∧
    (¬ spare → fetched =
      (2147483648, { w with buffered := level - 2, pending := 0, nonSequential := broken })) ∧
    (level = 1 → fetched = (if rest < half then half - rest else 1,
      { w with buffered := 0, pending := max 0 ((rest : Int) - half), nonSequential := false })) ∧
    (level = 0 → rest < word ∧ fetched = (word - rest,
      { w with buffered := 0, pending := 0, nonSequential := false })) ∧
    1 ≤ fetched.1 ∧ (spare → fetched.1 ≤ ({ w with prefetch := false }.romFetch address).1) ∧
    ∀ pc data : UInt32, inCartridge pc = true →
      let cost := w.halfCost (pc >>> 24).toNat
      let bought := min (8 - buffered) ((pending + cost - 1) / cost)
      let column := (data >>> 24).toNat ||| (if mark || data &&& (0x1FFFF : UInt32) == 0 then 0x10 else 0)
      w.drainOverdue pc = (cost * bought - pending,
        { w with
          pending := max 0 ((pending : Int) - (cost * bought : Nat)), buffered := buffered + bought }) ∧
      (w.romHalf pc data).1 = w.halfCost column + (cost * bought - pending) ∧
      (w.romWord pc data).1 = w.wordCost column + (cost * bought - pending) := by
  intro w top cost bought level rest broken column half word fetched spare
  obtain ⟨low, high⟩ := region_eq_rom rom
  obtain ⟨first, second, window⟩ := window_waitBoth start setting low high
  obtain ⟨less, fits⟩ : cost < word ∧ half ≤ word := window.word_bounds broken
  have enabled : w.prefetch = true := (prefetch_waitBoth start setting).trans (bne_iff_ne.mpr on)
  have positive : 0 < cost := window.half_pos
  have buffers : fetched = { w with nonSequential := broken }.romFetchBuffered address :=
    romFetch_on enabled address
  have fills : FillsTo { w with nonSequential := broken } address level rest := fillsTo rfl positive
  have off : ({ w with prefetch := false }.romFetch address).1 = word := romFetch_off rfl address
  have within : cost * bought ≤ pending := filled_le cost (8 - buffered) pending
  have word31 : rest < 2147483648 := Nat.lt_of_le_of_lt (Nat.sub_le _ _) signed
  have room : spare → rest + 1 < 2147483648 := spare_clock positive (UInt8.toNat_lt _) signed
  have full : 2 ≤ level → spare → fetched =
      (1, { w with buffered := level - 2, pending := (rest : Int) + 1, nonSequential := broken }) := by
    intro two ample
    obtain ⟨more, hm⟩ : ∃ more, level = more + 2 := ⟨level - 2, by omega⟩
    rw [hm] at fills ⊢
    exact buffers.trans (romFetchBuffered_full fills (room ample))
  have overflow : ¬ spare → fetched =
      (2147483648, { w with buffered := level - 2, pending := 0, nonSequential := broken }) := by
    intro none
    obtain ⟨stuffed, topmost⟩ : 8 ≤ buffered ∧ pending = 2147483647 := by omega
    have idle : bought = 0 := by
      have nothing : 8 - buffered = 0 := by omega
      simp only [bought, nothing, Nat.zero_min]
    obtain ⟨more, hm⟩ : ∃ more, level = more + 2 := ⟨level - 2, by omega⟩
    have last : rest + 1 = 2147483648 := by simp only [rest, idle, topmost, Nat.mul_zero]
    rw [hm] at fills ⊢
    exact buffers.trans (romFetchBuffered_overflow fills last)
  have single : level = 1 → fetched = (if rest < half then half - rest else 1,
      { w with buffered := 0, pending := max 0 ((rest : Int) - half), nonSequential := false }) := by
    intro one
    rw [one] at fills
    exact buffers.trans (romFetchBuffered_single fills word31)
  have poor : level = 0 → rest < word := by
    intro none
    have short : pending < cost := bank_lt_of_empty positive none
    omega
  have empty : level = 0 → rest < word ∧ fetched = (word - rest,
      { w with buffered := 0, pending := 0, nonSequential := false }) := by
    intro none
    have short := poor none
    rw [none] at fills
    exact ⟨short, buffers.trans (romFetchBuffered_empty fills word31 short)⟩
  have least : 1 ≤ fetched.1 := buffers.symm ▸ romFetchBuffered_pos _ address
  have most : spare → fetched.1 ≤ word := fun ample =>
    buffers.symm ▸ romFetchBuffered_le fills (room ample) fits (Nat.zero_lt_of_lt less) poor
  refine ⟨within, full, overflow, single, empty, least, off.symm ▸ most, ?_⟩
  intro pc data inside cost bought column
  obtain ⟨low, high⟩ := inCartridge_top inside
  obtain ⟨first, second, window⟩ := window_waitBoth start setting low high
  have owed : w.debt pc = cost * bought - pending := rfl
  have index : w.romIndex data = column := w.romIndex_eq data
  refine ⟨drainOverdue_eq rfl window.half_pos, ?_, ?_⟩
  · rw [romHalf_charge, index, owed]
  · rw [romWord_charge, index, owed]

/-- A halfword in the buffer and four clocks in the bank buy one more, so the fetch takes one clock. With a
sequential halfword of three clocks, one clock is left over and the fetch banks another. -/
theorem romFetch_prefetched_pair :
    let w : WaitStates :=
      { initial.configure (.waitBoth 0x4000) with buffered := 1, pending := (4 : Nat), nonSequential := false }
    (0x4000 : UInt16) &&& (0x4000 : UInt16) ≠ 0 ∧ Region.ofAddress 0x08000004 = .rom ∧
    w.romFetch 0x08000004 = (1, { w with buffered := 0, pending := 2 }) := by
  have rom : Region.ofAddress 0x08000004 = .rom := by decide
  have fetched := romFetch_prefetched initial 0x4000 (by decide) 1 4 (by decide) false 0x08000004 rom
  exact ⟨by decide, rom, (fetched.2.1 (by decide +kernel) (by decide)).trans (by decide +kernel)⟩

end GbaArm.WaitStates
