import GbaArm.Proofs.Confinement
import GbaArm.Proofs.TransferForms

/-!
Moves to and from the status words: what a read finds after a write, and what a change of mode and back
leaves of the registers.
-/
namespace GbaArm

/-- MSR with a register, on the saved or the present status word, with its control field. -/
structure WritesStatus (saved : Bool) (word : UInt32) : Prop where
  form : word &&& 0x0FB000F0 = 0x01200000
  target : bit word 22 = saved
  control : bit word 16 = true

/-- MRS into a register other than R15. -/
structure ReadsStatus (saved : Bool) (word : UInt32) : Prop where
  form : word &&& 0x0FB000F0 = 0x01000000
  target : bit word 22 = saved
  inner : Field.rd word ≠ 15

instance (saved : Bool) (word : UInt32) : Decidable (WritesStatus saved word) :=
  decidable_of_iff (_ ∧ _ ∧ _) ⟨fun h => ⟨h.1, h.2.1, h.2.2⟩, fun h => ⟨h.form, h.target, h.control⟩⟩

instance (saved : Bool) (word : UInt32) : Decidable (ReadsStatus saved word) :=
  decidable_of_iff (_ ∧ _ ∧ _) ⟨fun h => ⟨h.1, h.2.1, h.2.2⟩, fun h => ⟨h.form, h.target, h.inner⟩⟩

variable {saved : Bool} {word : UInt32}

theorem WritesStatus.ofWord (writes : WritesStatus saved word) : Opcode.ofWord word = .writeStatus := by
  rw [Opcode.ofWord]
  obtain h | h := Opcode.classOf_of_masked writes.form <;> rw [h] <;> decide

theorem WritesStatus.register (writes : WritesStatus saved word) : bit word 25 = false := by
  have masked : (word &&& 0x0FB000F0).toBitVec.getLsbD 25 = false := by
    rw [writes.form]
    decide
  rw [UInt32.toBitVec_and, BitVec.getLsbD_and] at masked
  rw [bit_eq _ (by decide)]
  exact (Bool.and_true _).symm.trans masked

theorem ReadsStatus.inner_lt (reads : ReadsStatus saved word) : Field.rd word < 15 := by
  have : Field.rd word < 16 := Field.lt_sixteen _
  have := reads.inner
  omega

theorem ReadsStatus.ofWord (reads : ReadsStatus saved word) : Opcode.ofWord word = .readStatus := by
  rw [Opcode.ofWord]
  obtain h | h := Opcode.classOf_of_masked reads.form <;> rw [h] <;> decide

/-- The exception modes have a saved status word each. -/
theorem Mode.savedIndex_eq_iff {mode other : Mode} (user : mode ≠ .user) (system : mode ≠ .system) :
    other.savedIndex = mode.savedIndex ∧ mode.savedIndex ≠ none ↔ other = mode := by
  cases mode <;> first | contradiction | (cases other <;> decide)

namespace Core

variable {β : Type} [Bus β] {msr mrs back : UInt32} (m : Core β)

/-- The processor once the present status word is written, before the program counter moves on. -/
def statusWritten (c : Cpu) (w : UInt32) : Cpu :=
  if c.InUser then { c with flags := Flags.ofNzcv w }
  else { c with flags := Flags.ofNzcv w }.setControl (w.toUInt8 &&& 0xDF)

/-- The flags are always written, the control byte if its field bit is set and the mode lets it. -/
theorem writePresentStatus_cpu (word w : UInt32) : (m.writePresentStatus word w).cpu =
    if bit word 16 then statusWritten m.cpu w else { m.cpu with flags := Flags.ofNzcv w } := by
  unfold writePresentStatus
  extract_lets k
  cases bit word 16 with
  | false => rfl
  | true =>
    have gate : (true && k.cpu.control &&& 0x1F != 0x10) = true ↔ ¬ m.cpu.InUser := bne_iff_ne
    by_cases user : m.cpu.InUser
    · rw [if_neg fun h => gate.mp h user, if_pos rfl, statusWritten, if_pos user]
      rfl
    · rw [if_pos (gate.mpr user), if_pos rfl, statusWritten, if_neg user, setControl, onCpu,
        noteMode_cpu]
      rfl

theorem execute_writeStatus (writes : WritesStatus false msr) :
    (m.execute msr (Opcode.ofWord msr)).cpu =
      (statusWritten m.cpu (m.cpu.regs.read (Field.rm msr))).advancePc := by
  have written := writePresentStatus_cpu m msr (m.cpu.regs.read (Field.rm msr))
  rw [writes.control, if_pos rfl] at written
  rw [writes.ofWord, execute, writeStatus, writes.register, writes.target]
  exact congrArg Cpu.advancePc written

theorem control_statusWritten {c : Cpu} (privileged : ¬ c.InUser) (w : UInt32) :
    (statusWritten c w).control = w.toUInt8 &&& 0xDF := by
  rw [statusWritten, if_neg privileged]
  rfl

theorem status_statusWritten {c : Cpu} (privileged : ¬ c.InUser) (w : UInt32) :
    (statusWritten c w).status.raw = w &&& 0xF00000DF := by
  have control : (w.toUInt8 &&& 0xDF).toUInt32 = w &&& 0xDF := by
    rw [UInt8.toUInt32_and, toUInt32_toUInt8, UInt32.and_assoc]
    rfl
  rw [statusWritten, if_neg privileged]
  show (Flags.ofNzcv w).nzcv ||| (w.toUInt8 &&& 0xDF).toUInt32 = _
  rw [control, Flags.nzcv_ofNzcv, masked_or_masked]
  rfl

/-- A change of mode moves no register. -/
theorem cell_statusWritten (c : Cpu) (w : UInt32) (b : Bank) {n : Nat} (hn : n < 16) :
    (statusWritten c w).cell b n = c.cell b n := by
  unfold statusWritten
  split
  · rfl
  · exact RegisterFile.cell_switchBank hn

theorem cell_execute_writeStatus (writes : WritesStatus false msr) (b : Bank) {n : Nat}
    (hn : n < 15) : (m.execute msr (Opcode.ofWord msr)).cpu.cell b n = m.cpu.cell b n := by
  rw [execute_writeStatus m writes]
  exact (Cpu.cell_advancePc hn).trans (cell_statusWritten _ _ b (by omega))

theorem exists_savedStatus {c : Cpu} (user : c.mode ≠ .user) (system : c.mode ≠ .system) :
    ∃ old, c.savedStatus = some old := by
  rw [Cpu.savedStatus, RegisterFile.savedStatus]
  cases present : c.mode <;> first | exact ⟨_, rfl⟩ | contradiction

theorem execute_writeSaved (writes : WritesStatus true msr) {old : UInt32}
    (saved : m.cpu.savedStatus = some old) :
    m.execute msr (Opcode.ofWord msr) = m.onCpu fun c => Cpu.advancePc { c with
      regs := c.regs.setSavedStatus (c.regs.read (Field.rm msr) &&& 0xF00000FF) c.mode } := by
  have masked : ∀ w : UInt32, (w &&& 0xF0000000) ||| (w &&& 0xFF) = w &&& 0xF00000FF :=
    fun w => masked_or_masked w _ _
  rw [writes.ofWord, execute, writeStatus]
  simp only [writes.register, writes.target, writeSavedStatus, writes.control, saved, if_true, masked]
  rfl

/-- An exception mode writes its own saved status word. -/
theorem savedStatus_writeSaved (writes : WritesStatus true msr) (user : m.cpu.mode ≠ .user)
    (system : m.cpu.mode ≠ .system) (mode : Mode) :
    (m.execute msr (Opcode.ofWord msr)).cpu.regs.savedStatus mode =
      if mode = m.cpu.mode then some (m.cpu.regs.read (Field.rm msr) &&& 0xF00000FF)
      else m.cpu.regs.savedStatus mode := by
  obtain ⟨old, saved⟩ := exists_savedStatus user system
  have own : mode.savedIndex = m.cpu.mode.savedIndex ∧ m.cpu.mode.savedIndex ≠ none ↔
      mode = m.cpu.mode := Mode.savedIndex_eq_iff user system
  rw [execute_writeSaved m writes saved]
  refine RegisterFile.savedStatus_setSavedStatus.trans ?_
  exact ite_congr (propext own) (fun _ => rfl) fun _ => rfl

theorem execute_writeSaved_none (writes : WritesStatus true msr) (unsaved : m.cpu.savedStatus = none) :
    m.execute msr (Opcode.ofWord msr) = m.onCpu Cpu.advancePc := by
  rw [writes.ofWord, execute, writeStatus]
  simp only [writes.register, writes.target, writeSavedStatus, unsaved]

theorem execute_readStatus {saved : Bool} (reads : ReadsStatus saved mrs) :
    (m.execute mrs (Opcode.ofWord mrs)).cpu = m.cpu.advancePc.writeReg (Field.rd mrs)
      (if saved then m.cpu.savedStatus.getD m.cpu.status.raw else m.cpu.status.raw) := by
  rw [reads.ofWord, execute, readStatus, writeRegister, if_pos reads.inner_lt, reads.target]
  rfl

theorem read_readStatus {saved : Bool} (reads : ReadsStatus saved mrs) :
    (m.execute mrs (Opcode.ofWord mrs)).cpu.regs.read (Field.rd mrs) =
      if saved then m.cpu.savedStatus.getD m.cpu.status.raw else m.cpu.status.raw := by
  have low : Field.rd mrs < 16 := Field.lt_sixteen _
  rw [execute_readStatus m reads, Cpu.read_writeReg _ reads.inner_lt low, if_pos rfl]

/-- The present status word reads as it was written, less the Thumb bit; User mode writes the flags alone. -/
theorem read_written_present (writes : WritesStatus false msr) (reads : ReadsStatus false mrs) :
    let w := m.cpu.regs.read (Field.rm msr)
    let written := m.execute msr (Opcode.ofWord msr)
    let found := (written.execute mrs (Opcode.ofWord mrs)).cpu.regs.read (Field.rd mrs)
    (¬ m.cpu.InUser → found = w &&& 0xF00000DF) ∧
    (m.cpu.InUser → found = (w &&& 0xF0000000) ||| m.cpu.control.toUInt32 ∧
      written.cpu.flags = Flags.ofNzcv w ∧ written.cpu.control = m.cpu.control) := by
  intro w written found
  have after : written.cpu = _ := execute_writeStatus m writes
  have seen : found = written.cpu.status.raw := read_readStatus written reads
  refine ⟨fun privileged => ?_, fun user => ?_⟩
  · rw [seen, after]
    exact status_statusWritten privileged w
  · rw [statusWritten, if_pos user] at after
    refine ⟨?_, by rw [after]; rfl, by rw [after]; rfl⟩
    rw [seen, after]
    exact congrArg (· ||| m.cpu.control.toUInt32) (Flags.nzcv_ofNzcv w)

/-- An exception mode reads its saved status word as it was written, and no other mode's has changed. -/
theorem read_written_saved (writes : WritesStatus true msr) (reads : ReadsStatus true mrs)
    (user : m.cpu.mode ≠ .user) (system : m.cpu.mode ≠ .system) :
    let k := (m.execute msr (Opcode.ofWord msr)).execute mrs (Opcode.ofWord mrs)
    k.cpu.regs.read (Field.rd mrs) = m.cpu.regs.read (Field.rm msr) &&& 0xF00000FF ∧
    ∀ mode ≠ m.cpu.mode, k.cpu.regs.savedStatus mode = m.cpu.regs.savedStatus mode := by
  intro k
  let written := m.execute msr (Opcode.ofWord msr)
  have kept : ∀ mode, written.cpu.regs.savedStatus mode = _ :=
    savedStatus_writeSaved m writes user system
  have mode : written.cpu.mode = m.cpu.mode := by
    obtain ⟨old, saved⟩ := exists_savedStatus user system
    have after : written = _ := execute_writeSaved m writes saved
    rw [after]
    rfl
  have own : written.cpu.savedStatus = some (m.cpu.regs.read (Field.rm msr) &&& 0xF00000FF) := by
    rw [Cpu.savedStatus, mode, kept, if_pos rfl]
  refine ⟨?_, fun mode other => ?_⟩
  · refine (read_readStatus written reads).trans ?_
    rw [own]
    rfl
  · have still : k.cpu.regs.savedStatus mode = written.cpu.regs.savedStatus mode := by
      rw [execute_readStatus written reads]
      rfl
    rw [still, kept, if_neg other]

/-- A mode that has no saved status word writes none, and reads the present one instead. -/
theorem read_written_unsaved (writes : WritesStatus true msr) (reads : ReadsStatus true mrs)
    (unsaved : m.cpu.savedStatus = none) :
    let written := m.execute msr (Opcode.ofWord msr)
    written = m.onCpu Cpu.advancePc ∧
    (written.execute mrs (Opcode.ofWord mrs)).cpu.regs.read (Field.rd mrs) = m.cpu.status.raw := by
  intro written
  have after : written = _ := execute_writeSaved_none m writes unsaved
  have still : written.cpu.savedStatus = none := by
    rw [after]
    exact unsaved
  refine ⟨after, (read_readStatus written reads).trans ?_⟩
  rw [still, after]
  rfl

/-- A change of mode, and one back from any later state `l`, show the registers that were left alone. -/
theorem read_changed_back (writes : WritesStatus false msr) (returns : WritesStatus false back)
    {l : Core β} (privileged : ¬ l.cpu.InUser)
    (control : (l.cpu.regs.read (Field.rm back)).toUInt8 &&& 0xDF = m.cpu.control) :
    let written := m.execute msr (Opcode.ofWord msr)
    let k := l.execute back (Opcode.ofWord back)
    let own := Bank.ofMode m.cpu.mode
    k.cpu.control = m.cpu.control ∧
    ∀ n < 15, l.cpu.cell (own.owner n) n = written.cpu.cell (own.owner n) n →
      k.cpu.regs.read n = m.cpu.regs.read n := by
  intro written k own
  have after : k.cpu = _ := execute_writeStatus l returns
  have restored : k.cpu.control = m.cpu.control := by
    rw [after]
    exact (control_statusWritten privileged _).trans control
  refine ⟨restored, fun n hn kept => ?_⟩
  have mode : k.cpu.mode = m.cpu.mode := Cpu.mode_of_control restored
  rw [← Cpu.cell_owner, mode, ← Cpu.cell_owner, cell_execute_writeStatus l returns _ hn,
    kept, cell_execute_writeStatus m writes _ hn]

/-- Status transfers. What is written to a status word is read back, less the Thumb bit of the present
one; User mode writes the flags alone, and modes without a saved status word write nothing there. A
change of mode and back shows every register that was left alone in between. -/
theorem status_transfers (m : Core β) :
    (∀ msr mrs, WritesStatus false msr → ReadsStatus false mrs →
      let w := m.cpu.regs.read (Field.rm msr)
      let written := m.execute msr (Opcode.ofWord msr)
      let found := (written.execute mrs (Opcode.ofWord mrs)).cpu.regs.read (Field.rd mrs)
      (¬ m.cpu.InUser → found = w &&& 0xF00000DF) ∧
      (m.cpu.InUser → found = (w &&& 0xF0000000) ||| m.cpu.control.toUInt32 ∧
        written.cpu.flags = Flags.ofNzcv w ∧ written.cpu.control = m.cpu.control)) ∧
    (∀ msr mrs, WritesStatus true msr → ReadsStatus true mrs →
      let w := m.cpu.regs.read (Field.rm msr)
      let written := m.execute msr (Opcode.ofWord msr)
      let k := written.execute mrs (Opcode.ofWord mrs)
      (m.cpu.mode ≠ .user → m.cpu.mode ≠ .system →
        k.cpu.regs.read (Field.rd mrs) = w &&& 0xF00000FF ∧
        ∀ mode ≠ m.cpu.mode, k.cpu.regs.savedStatus mode = m.cpu.regs.savedStatus mode) ∧
      (m.cpu.mode = .user ∨ m.cpu.mode = .system →
        written = m.onCpu Cpu.advancePc ∧
        k.cpu.regs.read (Field.rd mrs) = m.cpu.status.raw)) ∧
    (∀ msr back, WritesStatus false msr → WritesStatus false back → ∀ l : Core β, ¬ l.cpu.InUser →
      (l.cpu.regs.read (Field.rm back)).toUInt8 &&& 0xDF = m.cpu.control →
      let written := m.execute msr (Opcode.ofWord msr)
      let k := l.execute back (Opcode.ofWord back)
      let own := Bank.ofMode m.cpu.mode
      k.cpu.control = m.cpu.control ∧
      ∀ n < 15, l.cpu.cell (own.owner n) n = written.cpu.cell (own.owner n) n →
        k.cpu.regs.read n = m.cpu.regs.read n) := by
  refine ⟨fun msr mrs writes reads => read_written_present m writes reads, ?_, ?_⟩
  · intro msr mrs writes reads w written k
    refine ⟨read_written_saved m writes reads, fun unsaved => read_written_unsaved m writes reads ?_⟩
    rw [Cpu.savedStatus]
    obtain h | h := unsaved <;> rw [h] <;> rfl
  · exact fun msr back writes returns l => read_changed_back m writes returns

/-- From Supervisor mode to FIQ mode and back, with a stack pointer written there. -/
theorem status_transfers_fiq :
    let cpu := ((Cpu.initial.writeReg 13 0x5555).writeReg 0 0xF0000031).writeReg 1 0xD3
    let m : Core Rom := ⟨cpu, ⟨fun _ => 0⟩⟩
    let written := m.execute 0xE129F000 (Opcode.ofWord 0xE129F000)
    let found := written.execute 0xE10F2000 (Opcode.ofWord 0xE10F2000)
    let l := written.onCpu fun c => c.writeReg 13 0x1111
    let k := l.execute 0xE129F001 (Opcode.ofWord 0xE129F001)
    WritesStatus false 0xE129F000 ∧ ReadsStatus false 0xE10F2000 ∧ WritesStatus false 0xE129F001 ∧
    WritesStatus true 0xE169F000 ∧ ReadsStatus true 0xE14F2000 ∧
    found.cpu.regs.read 2 = 0xF0000011 ∧ k.cpu.regs.read 13 = 0x5555 ∧
    ((m.execute 0xE169F000 (Opcode.ofWord 0xE169F000)).execute 0xE14F2000
      (Opcode.ofWord 0xE14F2000)).cpu.regs.read 2 = 0xF0000031 := by
  intro cpu m written found l k
  have writes : WritesStatus false 0xE129F000 := by decide +kernel
  have reads : ReadsStatus false 0xE10F2000 := by decide +kernel
  have back : WritesStatus false 0xE129F001 := by decide +kernel
  have saves : WritesStatus true 0xE169F000 := by decide +kernel
  have restores : ReadsStatus true 0xE14F2000 := by decide +kernel
  obtain ⟨present, saved, returns⟩ := status_transfers m
  have through := (present 0xE129F000 0xE10F2000 writes reads).1 (by decide +kernel)
  have kept := (saved 0xE169F000 0xE14F2000 saves restores).1 (by decide +kernel) (by decide +kernel)
  have again := (returns 0xE129F000 0xE129F001 writes back l (by decide +kernel) (by decide +kernel)).2
    13 (by decide)
  refine ⟨writes, reads, back, saves, restores, through.trans ?_, ?_, kept.1.trans ?_⟩
  · decide +kernel
  · exact (again (by decide +kernel)).trans (by decide +kernel)
  · decide +kernel

end Core

end GbaArm
