import GbaArm.Proofs.Charges

/-!
What a charge leaves alone. Accesses and clocks move the mark, the buffer and the bank; every other field
is a setting.
-/
namespace GbaArm.WaitStates

/-- The wait states without what a charge can move. -/
def settings (w : WaitStates) : WaitStates :=
  { w with nonSequential := false, buffered := 0, pending := 0 }

variable (w : WaitStates) (pc address : UInt32)

/-- A data access charges the wait of its region through the prefetcher, or goes over the cartridge bus. -/
theorem access_cases (width : Width) :
    (∃ clocks, w.access width pc address = w.multiClock pc clocks) ∨
      w.access width pc address = w.romHalf pc address ∨
      w.access width pc address = w.romWord pc address := by
  unfold access
  cases Region.ofAddress address with
  | rom =>
    cases width with
    | word => exact .inr (.inr rfl)
    | half | byte => exact .inr (.inl rfl)
  | _ => cases width <;> exact .inl ⟨_, rfl⟩

/-- Outside the cartridge a fetch charges the wait of its region and leaves the prefetcher alone, unless it
empties it or banks a clock. -/
theorem fetch_cases :
    (∃ clocks, w.fetch address = (clocks, w)) ∨ w.fetch address = w.singleClock address ∨
      w.fetch address = w.romFetch address ∨ w.fetch address = w.sramFetch := by
  unfold fetch
  cases Region.ofAddress address with
  | rom => exact .inr (.inr (.inl rfl))
  | sram => exact .inr (.inr (.inr rfl))
  | bios | iwram | io | unmapped => exact .inr (.inl rfl)
  | _ => exact .inl ⟨_, rfl⟩

theorem settings_multiClock (clocks : Nat) : (w.multiClock pc clocks).2.settings = w.settings := by
  unfold multiClock
  simp only
  split
  · split <;> rfl
  · rfl

theorem settings_internalCycles (clocks : Nat) :
    (w.internalCycles pc clocks).2.settings = w.settings := by
  unfold internalCycles
  split
  · exact settings_multiClock w pc clocks
  · simp only
    split <;> rfl

theorem settings_checkBoundary : (w.checkBoundary address).settings = w.settings := by
  unfold checkBoundary
  split <;> rfl

theorem settings_drainOverdue : (w.drainOverdue pc).2.settings = w.settings := by
  rw [drainOverdue_frame]
  rfl

theorem settings_romHalf : (w.romHalf pc address).2.settings = w.settings :=
  (settings_checkBoundary _ address).trans (settings_drainOverdue w pc)

theorem settings_romWord : (w.romWord pc address).2.settings = w.settings :=
  (settings_checkBoundary _ address).trans (settings_drainOverdue w pc)

theorem settings_access (width : Width) : (w.access width pc address).2.settings = w.settings := by
  obtain ⟨clocks, banked⟩ | half | word := w.access_cases pc address width
  · exact banked ▸ settings_multiClock w pc clocks
  · exact half ▸ settings_romHalf w pc address
  · exact word ▸ settings_romWord w pc address

theorem settings_fillLoop (cost room : Nat) : (fillLoop cost room w).settings = w.settings := by
  induction room generalizing w with
  | zero => rfl
  | succ room ih =>
    rw [fillLoop]
    split
    · exact ih _
    · rfl

theorem settings_settle : w.settle.2.settings = w.settings := by
  unfold settle
  split <;> rfl

theorem settings_romFetch : (w.romFetch address).2.settings = w.settings := by
  have checked := settings_checkBoundary w address
  unfold romFetch
  simp only
  generalize w.checkBoundary address = k at checked ⊢
  split
  · have filled := settings_fillLoop k (k.halfCost (address >>> 24).toNat) (bufferDepth - k.buffered)
    unfold romFetchBuffered
    simp only
    split <;> exact (settings_settle _).trans (filled.trans checked)
  · exact checked

theorem settings_fetch : (w.fetch address).2.settings = w.settings := by
  obtain ⟨clocks, idle⟩ | clocked | rom | sram := w.fetch_cases address
  · exact idle ▸ rfl
  · exact clocked ▸ settings_multiClock w address 1
  · exact rom ▸ settings_romFetch w address
  · exact sram ▸ rfl

end GbaArm.WaitStates
