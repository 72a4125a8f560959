import GbaArm.Proofs.StepCost

/-!
The bank stays within its limit while the processor works. A fetch from the cartridge may bank a clock
where nothing else would, and whatever comes before the next one spends clocks or leaves the buffer room.
-/
namespace GbaArm

theorem rom_of_inCartridge {address : UInt32} (inside : inCartridge address = true) :
    Region.ofAddress address = .rom := by
  have bounds := WaitStates.inCartridge_top inside
  have top : (address >>> 24).toNat = 8 ∨ (address >>> 24).toNat = 9 ∨ (address >>> 24).toNat = 10 ∨
      (address >>> 24).toNat = 11 ∨ (address >>> 24).toNat = 12 ∨ (address >>> 24).toNat = 13 := by omega
  unfold Region.ofAddress
  rcases top with h | h | h | h | h | h <;> rw [h] <;> rfl

theorem inCartridge_of_rom {address : UInt32} (rom : Region.ofAddress address = .rom) :
    inCartridge address = true := by
  have top := WaitStates.region_eq_rom rom
  rw [WaitStates.toNat_top] at top
  exact WaitStates.inCartridge_iff.mpr (by omega)

/-- Past its last word the cartridge is followed by save memory. -/
theorem next_of_inCartridge {pc : UInt32} (inside : inCartridge pc = true) :
    inCartridge (pc + 4) = true ∨ Region.ofAddress (pc + 4) = .sram := by
  obtain ⟨low, high⟩ := WaitStates.inCartridge_iff.mp inside
  have next : (pc + 4).toNat = pc.toNat + 4 := by
    rw [UInt32.toNat_add, show (4 : UInt32).toNat = 4 from rfl]
    omega
  by_cases last : pc.toNat + 4 < 0x0E000000
  · exact .inl (WaitStates.inCartridge_iff.mpr (by omega))
  · have top : ((pc + 4) >>> 24).toNat = 14 := by
      rw [WaitStates.toNat_top]
      omega
    right
    rw [Region.ofAddress, top]
    rfl

namespace Board

variable {b : Board} {pc : UInt32} {n : Nat}

/-- How an instruction finds the bank while R15 reads as `pc`, `n` words on from its fetch: a clock short
of its limit, with room for the next fetch from the cartridge, or past the end of the cartridge. The bus
may still take the code to run where it was fetched. -/
inductive Guarded (b : Board) (pc : UInt32) (n : Nat) : Prop
  | slack (below : b.wait.pending < WaitStates.bankLimit)
  | inside (next : inCartridge pc = true) (here : inCartridge b.pc = true) (roomy : b.wait.Roomy)
  | left (advanced : n = 1) (sram : Region.ofAddress pc = .sram)

theorem Guarded.still {pc' : UInt32} (h : b.Guarded pc n) (same : pc' = pc) : b.Guarded pc' n := same ▸ h

theorem Guarded.ready (h : b.Guarded pc n) : b.Ready pc := by
  cases h with
  | slack below => exact .inl below
  | inside next here roomy => exact .inr (.inr ⟨rom_of_inCartridge next, roomy⟩)
  | left advanced sram => exact .inr (.inl sram)

theorem Guarded.advance (h : b.Guarded pc 0) : b.Guarded (pc + 4) 1 := by
  cases h with
  | slack below => exact .slack below
  | inside next here roomy =>
    obtain inside | sram := next_of_inCartridge next
    · exact .inside inside here roomy
    · exact .left rfl sram
  | left advanced => exact absurd advanced (by decide)

theorem guarded_of_empty (empty : b.wait.pending = 0) : b.Guarded pc n :=
  .slack (WaitStates.slack_of_empty empty)

/-- A fetch that has room leaves room for the next one. -/
theorem Ready.guarded_fetch (h : b.Ready pc) (sound : b.wait.Sound) : (b.fetch pc).2.Guarded pc 0 := by
  have aligned : Region.ofAddress (alignWord pc) = Region.ofAddress pc := ofAddress_align .word pc
  cases hr : Region.ofAddress pc with
  | rom =>
    rw [hr] at aligned
    exact .inside (inCartridge_of_rom hr) (inCartridge_of_rom aligned)
      (sound.roomy_fetch (h.roomy hr) aligned)
  | sram =>
    rw [hr] at aligned
    refine guarded_of_empty ?_
    show (b.wait.fetch (alignWord pc)).2.pending = 0
    rw [WaitStates.fetch, aligned]
    rfl
  | _ =>
    obtain below | sram | ⟨rom, -⟩ := h
    · exact .slack (sound.slack_fetch below (by rw [aligned, hr]; decide))
    · rw [hr] at sram
      cases sram
    · rw [hr] at rom
      cases rom

/-- A clock with nothing executing takes no room from the next fetch. -/
theorem Ready.idle (h : b.Ready pc) (sound : b.wait.Sound) : b.idle.Ready pc := by
  have settled : WaitStates.Settles pc b.wait b.idle.wait :=
    sound.settles_multiClock (by decide) b.pc pc
  obtain below | sram | ⟨rom, roomy⟩ := h
  · exact .inl (settled.slack below)
  · exact .inr (.inl sram)
  · exact .inr (.inr ⟨rom, settled.roomy (inCartridge_of_rom rom) roomy⟩)

end Board

namespace Traced

variable {t t' : Traced Board} {pc : UInt32}

theorem settles_write {b : Board} (sound : b.wait.Sound) (width : Width) (address value : UInt32) :
    WaitStates.Settles b.pc b.wait (b.write width address value).wait :=
  Board.updateAt_keeps (P := WaitStates.Settles b.pc b.wait)
    (fun w write settled => settled.trans (WaitStates.settles_configure w write))
    (sound.access width b.pc (width.align address)).2 width address value

/-- Between two fetches the bank is settled where the bus takes the code to run, at `pc` or where it did. -/
theorem settles_of_touches (h : Bus.Touches pc t t') (sound : t.bus.wait.Sound)
    (few : t'.worst ≤ t.worst + 1000) :
    (t'.bus.pc = t.bus.pc ∨ t'.bus.pc = pc) ∧
      ∃ place, (place = t.bus.pc ∨ place = pc) ∧ WaitStates.Settles place t.bus.wait t'.bus.wait := by
  have idle : ∀ count ≤ 1000, WaitStates.Settles pc t.bus.wait (t.bus.internalCycles pc count).wait :=
    fun count few => (sound.internalCycles few pc).2.2
  cases h with
  | read32 address | read16 address | read8 address =>
    exact ⟨.inl rfl, _, .inl rfl, (sound.access _ _ _).2⟩
  | write32 address value | write16 address value | write8 address value =>
    exact ⟨.inl (Board.pc_updateAt _ _ _ _), _, .inl rfl, settles_write sound _ _ _⟩
  | internalCycle => exact ⟨.inr rfl, _, .inr rfl, idle 1 (by decide)⟩
  | internalCycles count =>
    exact ⟨.inr rfl, _, .inr rfl, idle count (Nat.le_of_add_le_add_left few)⟩
  | executingAt => exact ⟨.inr rfl, _, .inr rfl, WaitStates.settles_of_eq rfl rfl⟩
  | nonSequential | note => exact ⟨.inl rfl, _, .inr rfl, WaitStates.settles_of_eq rfl rfl⟩

theorem guarded_of_touches {n : Nat} (h : Bus.Touches pc t t') (sound : t.bus.wait.Sound)
    (few : t'.worst ≤ t.worst + 1000) (guarded : t.bus.Guarded pc n) : t'.bus.Guarded pc n := by
  obtain ⟨heard, place, known, settled⟩ := settles_of_touches h sound few
  cases guarded with
  | slack below => exact .slack (settled.slack below)
  | inside next here roomy =>
    have within : ∀ place : UInt32, place = t.bus.pc ∨ place = pc → inCartridge place = true := by
      rintro _ (rfl | rfl)
      · exact here
      · exact next
    exact .inside next (within _ heard) (settled.roomy (within _ known) roomy)
  | left advanced sram => exact .left advanced sram

end Traced

namespace Core

variable {m k : Core (Traced Board)} {n i : Nat}

theorem Moves.guarded (h : Moves n m k) (within : i + n ≤ 1) (sound : m.bus.bus.wait.Sound)
    (few : k.bus.worst ≤ m.bus.worst + 1000) (guarded : m.bus.bus.Guarded m.cpu.pc i) :
    k.bus.bus.Guarded k.cpu.pc (i + n) := by
  induction h generalizing i with
  | trans h h' ih ih' =>
    have grown := h.worst
    have grown' := h'.worst
    have first := ih (by omega) sound (by omega) guarded
    rw [← Nat.add_assoc]
    exact ih' (by omega) (h.pays sound (by omega)).2.sound (by omega) first
  | touch h => exact Traced.guarded_of_touches h sound few guarded
  | advance m =>
    obtain rfl : i = 0 := by omega
    exact guarded.advance.still RegisterFile.pc_setPc
  | jump => exact Board.guarded_of_empty rfl
  | write m h value => exact guarded.still (RegisterFile.pc_write h)
  | writeUser m h value => exact guarded.still (RegisterFile.pc_writeUser h)
  | save => exact guarded.still RegisterFile.pc_setSavedStatus
  | restore | control => exact guarded.still RegisterFile.pc_switchBank
  | _ => exact guarded

theorem enterException_empty (m : Core (Traced Board)) (mode : Mode) (vector : UInt32) :
    (m.enterException mode vector).bus.bus.wait.pending = 0 := rfl

theorem branchExchange_empty (m : Core (Traced Board)) (word : UInt32) :
    (m.branchExchange word).bus.bus.wait.pending = 0 := by
  rw [branchExchange]
  split <;> rfl

theorem execute_guarded (sound : m.bus.bus.wait.Sound) (guarded : m.bus.bus.Guarded m.cpu.pc 0)
    (word : UInt32) (op : Opcode) :
    (m.execute word op).bus.bus.Guarded (m.execute word op).cpu.pc 1 := by
  have few := worst_execute m word op
  cases op with
  | branchExchange => exact Board.guarded_of_empty (branchExchange_empty m word)
  | softwareInterrupt | undefined => exact Board.guarded_of_empty rfl
  | _ =>
    refine (execute_moves m word ?_ ?_ ?_).guarded (i := 0) (Nat.le_refl 1) sound (by omega) guarded
    all_goals nofun

/-- After every step the bank can take the clock of the fetch at the head of the next one. -/
theorem step_ready {m : Core Board} (sound : m.bus.wait.Sound) (ready : m.bus.Ready m.cpu.pc) :
    m.step.bus.Ready m.step.cpu.pc := by
  have same : m.step = m.traced.step.map Traced.forget := step_traced m
  have fetched : m.traced.fetch.bus.bus.wait.Sound := (Board.fetch_spends sound ready).sound
  have guarded : m.traced.fetch.bus.bus.Guarded m.traced.fetch.cpu.pc 0 := ready.guarded_fetch sound
  have next : (m.traced.fetch.onCpu Cpu.advancePc).bus.bus.Guarded
      (m.traced.fetch.onCpu Cpu.advancePc).cpu.pc 1 :=
    (Moves.advance _).guarded (i := 0) (Nat.le_refl 1) fetched (Nat.le_add_right _ _) guarded
  rw [same]
  obtain ⟨-, hs⟩ | ⟨-, -, hs⟩ | ⟨-, op, -, hs⟩ | ⟨-, hs⟩ := step_cases m.traced
  · exact hs ▸ next.ready
  · exact hs ▸ (Board.guarded_of_empty (n := 1) (enterException_empty m.traced .irq 0x18)).ready
  · exact hs ▸ (execute_guarded fetched guarded m.traced.cpu.pipe.execute op).ready
  · exact hs ▸ next.ready

end Core

end GbaArm
