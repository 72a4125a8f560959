import GbaArm.Board

/-! What the wait states charge: the cost tables, and the settling of banked clocks. -/
namespace GbaArm.WaitStates

variable {w : WaitStates} {window index : Nat} {control : UInt8}

/-- The most clocks that one access takes. -/
def accessLimit : Nat := 32

theorem firstAccess_bounds (control : UInt8) : 3 ≤ firstAccess control ∧ firstAccess control ≤ 9 := by
  have low : (control &&& 3).toNat ≤ 3 := by
    rw [UInt8.toNat_and]
    exact Nat.and_le_right
  unfold firstAccess
  split
  · decide
  · next h =>
    have : (control &&& 3).toNat ≠ 3 := fun h3 => h (UInt8.toNat_inj.mp h3)
    omega

theorem secondAccess_bounds (control : UInt8) (hw : window < 3) :
    2 ≤ secondAccess window control ∧ secondAccess window control ≤ 9 := by
  obtain rfl | rfl | rfl : window = 0 ∨ window = 1 ∨ window = 2 := by omega
  all_goals
    unfold secondAccess
    split <;> decide

theorem get_setIfInBounds (table : Vector UInt8 32) (slot : Nat) (cost : UInt8) (i : Fin 32) :
    (table.setIfInBounds slot cost).get i = if slot = i.val then cost else table.get i :=
  Vector.getElem_setIfInBounds i.isLt

/-- Both values of the top byte that a window covers get its cost. -/
theorem get_setPair (table : Vector UInt8 32) (slot : Nat) (cost : UInt8) (i : Fin 32) :
    ((table.setIfInBounds (2 * slot) cost).setIfInBounds (2 * slot + 1) cost).get i =
      if i.val / 2 = slot then cost else table.get i := by
  rw [get_setIfInBounds, get_setIfInBounds]
  by_cases h : i.val / 2 = slot
  · rw [if_pos h]
    split
    · rfl
    · rw [if_pos (by omega)]
  · rw [if_neg h, if_neg (by omega), if_neg (by omega)]

/-- The slots of a window in both halves of a table. -/
theorem slots (hw : window < 3) :
    0x18 ||| 2 * window = 2 * (12 + window) ∧ 0x18 ||| (2 * window + 1) = 2 * (12 + window) + 1 ∧
    0x08 ||| 2 * window = 2 * (4 + window) ∧ 0x08 ||| (2 * window + 1) = 2 * (4 + window) + 1 := by
  obtain rfl | rfl | rfl : window = 0 ∨ window = 1 ∨ window = 2 := by omega
  all_goals decide

theorem halfCost_setWindow (hw : window < 3) :
    (w.setWindow window control).halfCost index =
      if index % 32 / 2 = 4 + window then secondAccess window control
      else if index % 32 / 2 = 12 + window then firstAccess control
      else w.halfCost index := by
  obtain ⟨h1, h2, h3, h4⟩ := slots hw
  have first : firstAccess control < 256 := by
    have := firstAccess_bounds control
    omega
  have second : secondAccess window control < 256 := by
    have := secondAccess_bounds control hw
    omega
  simp only [halfCost, setWindow, h1, h2, h3, h4, get_setPair, apply_ite UInt8.toNat,
    UInt8.toNat_ofNat_of_lt' first, UInt8.toNat_ofNat_of_lt' second]

theorem wordCost_setWindow (hw : window < 3) :
    (w.setWindow window control).wordCost index =
      if index % 32 / 2 = 4 + window then 2 * secondAccess window control
      else if index % 32 / 2 = 12 + window then firstAccess control + secondAccess window control
      else w.wordCost index := by
  obtain ⟨h1, h2, h3, h4⟩ := slots hw
  have first := firstAccess_bounds control
  have second := secondAccess_bounds control hw
  have both : firstAccess control + secondAccess window control < 256 := by omega
  have twice : 2 * secondAccess window control < 256 := by omega
  simp only [wordCost, setWindow, h1, h2, h3, h4, get_setPair, apply_ite UInt8.toNat,
    UInt8.toNat_ofNat_of_lt' both, UInt8.toNat_ofNat_of_lt' twice]

theorem toNat_top (address : UInt32) : (address >>> 24).toNat = address.toNat / 0x1000000 := by
  rw [UInt32.toNat_shiftRight, Nat.shiftRight_eq_div_pow]
  rfl

theorem inCartridge_iff {pc : UInt32} :
    inCartridge pc = true ↔ 0x08000000 ≤ pc.toNat ∧ pc.toNat < 0x0E000000 := by
  simp only [inCartridge, Bool.and_eq_true, decide_eq_true_eq, UInt32.le_iff_toNat_le,
    UInt32.lt_iff_toNat_lt]
  rfl

theorem inCartridge_top {pc : UInt32} (inside : inCartridge pc = true) :
    8 ≤ (pc >>> 24).toNat ∧ (pc >>> 24).toNat < 14 := by
  have bounds := inCartridge_iff.mp inside
  rw [toNat_top]
  omega

theorem region_eq_rom {address : UInt32} (h : Region.ofAddress address = .rom) :
    8 ≤ (address >>> 24).toNat ∧ (address >>> 24).toNat < 14 := by
  unfold Region.ofAddress at h
  split at h <;> simp_all

theorem ewramClocks_bounds (control : UInt32) : 1 ≤ ewramClocks control ∧ ewramClocks control ≤ 16 := by
  have low : ((control >>> 24) &&& 0xF).toNat ≤ 15 := by
    rw [UInt32.toNat_and]
    exact Nat.and_le_right
  unfold ewramClocks
  omega

/-- A bank that fits a signed word does not wrap. -/
theorem wrapBank_of_fits {clocks : Int} (low : -2147483648 ≤ clocks) (high : clocks < 2147483648) :
    wrapBank clocks = clocks := by
  unfold wrapBank
  apply Int.bmod_eq_of_le <;> simp only [UInt32.size] <;> omega

/-- A bank that is open takes a few clocks without wrapping. -/
theorem wrapBank_open {pending : Int} (owed : 0 ≤ pending) (room : pending < pendingLimit)
    {clocks : Nat} (few : clocks ≤ 1000) : wrapBank (pending + clocks) = pending + clocks := by
  unfold pendingLimit at room
  exact wrapBank_of_fits (by omega) (by omega)

/-- Halfwords that the drain buys: enough to spend the banked clocks, as far as there is room. -/
def drained (cost room : Nat) (pending : Int) : Nat := min room ((pending.toNat + cost - 1) / cost)

theorem drained_succ {cost : Nat} (hc : 0 < cost) (room : Nat) {pending : Int} (hp : 0 < pending) :
    drained cost (room + 1) pending = drained cost room (pending - cost) + 1 := by
  have less : (pending - cost).toNat = pending.toNat - cost := by omega
  have step : (pending.toNat + cost - 1) / cost = (pending.toNat - 1) / cost + 1 := by
    rw [← Nat.add_div_right _ hc]
    congr 1
    omega
  have rest : (pending.toNat - cost + cost - 1) / cost = (pending.toNat - 1) / cost := by
    by_cases h : cost ≤ pending.toNat
    · congr 1
      omega
    · rw [Nat.div_eq_of_lt (by omega), Nat.div_eq_of_lt (by omega)]
  rw [drained, drained, less, step, rest]
  omega

theorem drained_of_nonpos {cost : Nat} (hc : 0 < cost) (room : Nat) {pending : Int}
    (hp : pending ≤ 0) : drained cost room pending = 0 := by
  have nothing : (pending.toNat + cost - 1) / cost = 0 := Nat.div_eq_of_lt (by omega)
  rw [drained, nothing, Nat.min_zero]

/-- The drain in closed form. A loop that costs nothing fills the buffer and spends no clock. -/
theorem drainLoop_eq {cost : Nat} (hc : 0 < cost) (room : Nat) (w : WaitStates) :
    drainLoop cost room w =
      { w with
        pending := w.pending - (cost * drained cost room w.pending : Nat)
        buffered := w.buffered + drained cost room w.pending } := by
  induction room generalizing w with
  | zero => simp [drainLoop, drained]
  | succ room ih =>
    rw [drainLoop]
    split
    · next h =>
      rw [ih, drained_succ hc room h]
      simp only [WaitStates.mk.injEq, true_and, and_true, Nat.mul_succ]
      omega
    · next h => simp [drained_of_nonpos hc (room + 1) (Int.not_lt.mp h)]

theorem drainLoop_free (room : Nat) (w : WaitStates) : (drainLoop 0 room w).pending = w.pending := by
  induction room generalizing w with
  | zero => rfl
  | succ room ih =>
    rw [drainLoop]
    split
    · rw [ih]
      simp
    · rfl

theorem drainLoop_frame (cost room : Nat) (w : WaitStates) :
    drainLoop cost room w =
      { w with
        pending := (drainLoop cost room w).pending
        buffered := (drainLoop cost room w).buffered } := by
  induction room generalizing w with
  | zero => rfl
  | succ room ih =>
    rw [drainLoop]
    split
    · exact ih _
    · rfl

/-- The clocks that a data access to the cartridge pays on top of its own, while executing at `pc`:
what the halfwords that the drain buys cost more than there was in the bank. -/
def debt (w : WaitStates) (pc : UInt32) : Nat :=
  let cost := w.halfCost (pc >>> 24).toNat
  cost * drained cost (bufferDepth - w.buffered) w.pending - w.pending.toNat

theorem drainOverdue_debt (w : WaitStates) (pc : UInt32) : (w.drainOverdue pc).1 = w.debt pc := by
  unfold drainOverdue debt
  obtain hc | hc : w.halfCost (pc >>> 24).toNat = 0 ∨ 0 < w.halfCost (pc >>> 24).toNat := by omega
  · have kept := drainLoop_free (bufferDepth - w.buffered) w
    simp only [hc, kept, Nat.zero_mul, Nat.zero_sub]
    split
    · rw [if_neg (by omega)]
    · rfl
  · simp only [drainLoop_eq hc]
    split
    · split <;> simp only <;> omega
    · next h => rw [drained_of_nonpos hc _ (Int.not_lt.mp h), Nat.mul_zero, Nat.zero_sub]

theorem debt_lt {pc : UInt32} (h : 0 < w.debt pc) : w.debt pc < w.halfCost (pc >>> 24).toNat := by
  unfold debt at h ⊢
  simp only at h ⊢
  have most : w.halfCost (pc >>> 24).toNat * drained (w.halfCost (pc >>> 24).toNat)
      (bufferDepth - w.buffered) w.pending ≤
      w.pending.toNat + w.halfCost (pc >>> 24).toNat - 1 :=
    Nat.le_trans (Nat.mul_le_mul_left _ (Nat.min_le_right _ _)) (Nat.mul_div_le _ _)
  omega

theorem drainOverdue_frame (w : WaitStates) (pc : UInt32) :
    (w.drainOverdue pc).2 =
      { w with
        pending := (w.drainOverdue pc).2.pending
        buffered := (w.drainOverdue pc).2.buffered } := by
  have looped := drainLoop_frame (w.halfCost (pc >>> 24).toNat) (bufferDepth - w.buffered) w
  unfold drainOverdue
  split
  · rw [looped]
    simp only
    split <;> rfl
  · rfl

theorem pending_drainOverdue (h : 0 ≤ w.pending) (pc : UInt32) :
    0 ≤ (w.drainOverdue pc).2.pending := by
  unfold drainOverdue
  split
  · simp only
    split
    · exact Int.le_refl 0
    · next positive => exact Int.not_lt.mp positive
  · exact h

/-- The entry of the cost tables that a data access to the cartridge is charged from. -/
def romIndex (w : WaitStates) (address : UInt32) : Nat :=
  (address >>> 24).toNat ||| (if w.nonSequential ∨ address &&& 0x1FFFF = 0 then 0x10 else 0)

theorem costIndex_checkBoundary (w : WaitStates) (address : UInt32) :
    (w.checkBoundary address).costIndex address = w.romIndex address := by
  unfold checkBoundary costIndex romIndex
  split
  · next h => simp [breakSequence, h]
  · next h => simp [h]

theorem costs_checkBoundary (w : WaitStates) (address : UInt32) :
    (w.checkBoundary address).halfCost = w.halfCost ∧
    (w.checkBoundary address).wordCost = w.wordCost := by
  unfold checkBoundary
  split <;> exact ⟨rfl, rfl⟩

theorem costs_drainOverdue (w : WaitStates) (pc address : UInt32) :
    (w.drainOverdue pc).2.halfCost = w.halfCost ∧ (w.drainOverdue pc).2.wordCost = w.wordCost ∧
    (w.drainOverdue pc).2.romIndex address = w.romIndex address := by
  rw [drainOverdue_frame]
  exact ⟨rfl, rfl, rfl⟩

theorem romHalf_charge (w : WaitStates) (pc address : UInt32) :
    (w.romHalf pc address).1 = w.halfCost (w.romIndex address) + w.debt pc := by
  obtain ⟨half, _, index⟩ := costs_drainOverdue w pc address
  rw [Nat.add_comm, ← drainOverdue_debt, ← half, ← index, ← costIndex_checkBoundary,
    ← (costs_checkBoundary _ address).1]
  rfl

theorem romWord_charge (w : WaitStates) (pc address : UInt32) :
    (w.romWord pc address).1 = w.wordCost (w.romIndex address) + w.debt pc := by
  obtain ⟨_, word, index⟩ := costs_drainOverdue w pc address
  rw [Nat.add_comm, ← drainOverdue_debt, ← word, ← index, ← costIndex_checkBoundary,
    ← (costs_checkBoundary _ address).2]
  rfl

theorem settle_pos (w : WaitStates) : 0 < w.settle.1 := by
  unfold settle
  split
  · simp only
    omega
  · exact Nat.one_pos

theorem romFetchBuffered_pos (w : WaitStates) (address : UInt32) : 0 < (w.romFetchBuffered address).1 := by
  unfold romFetchBuffered
  simp only
  split <;> exact settle_pos _

end GbaArm.WaitStates
