import GbaArm.Proofs.ControlByte
import GbaArm.Proofs.Jumps
import GbaArm.Proofs.StatusTransfers

/-!
Mode fields that name no mode. They stand for User mode everywhere but in the privilege test of a status
write, which compares the field itself.
-/
namespace GbaArm

/-- The mode field of a control byte is that of some mode. -/
def NamesMode (control : UInt8) : Prop :=
  (Mode.ofBits control.toUInt32).toBits = control.toUInt32 &&& 0x1F

instance (control : UInt8) : Decidable (NamesMode control) := inferInstanceAs (Decidable (_ = _))

/-- A word that moves a register to the control byte of the present status word. -/
def WritesControl (word : UInt32) : Prop :=
  Opcode.ofWord word = .writeStatus ∧ bit word 25 = false ∧ bit word 22 = false ∧ bit word 16 = true

instance (word : UInt32) : Decidable (WritesControl word) := inferInstanceAs (Decidable (_ ∧ _))

theorem Mode.toBits_ofBits {bits : UInt32} (privileged : Mode.ofBits bits ≠ .user) :
    (Mode.ofBits bits).toBits = bits &&& 0x1F := by
  revert privileged
  unfold Mode.ofBits
  split
  case h_7 => exact absurd rfl
  all_goals exact fun _ => (UInt32.toNat_inj.mp (by assumption)).symm

theorem mode_of_unnamed {c : Cpu} (unnamed : ¬ NamesMode c.control) : c.mode = .user := by
  by_contra privileged
  exact unnamed (Mode.toBits_ofBits privileged)

/-- The privilege test of a status write looks for the field of User mode. -/
theorem Cpu.inUser_iff (c : Cpu) : c.InUser ↔ c.mode = .user ∧ NamesMode c.control := by
  have field : (c.control &&& 0x1F).toUInt32 = c.control.toUInt32 &&& 0x1F := UInt8.toUInt32_and _ _
  constructor
  · intro user
    refine ⟨user.mode, ?_⟩
    rw [NamesMode, show Mode.ofBits c.control.toUInt32 = .user from user.mode, ← field, user]
    rfl
  · rintro ⟨user, named⟩
    rw [NamesMode, show Mode.ofBits c.control.toUInt32 = .user from user, ← field] at named
    exact UInt8.toUInt32_inj.mp named.symm

/-- The test agrees with the mode where the field names one. -/
theorem Cpu.inUser_agrees_iff (c : Cpu) : (c.InUser ↔ c.mode = .user) ↔ NamesMode c.control := by
  rw [Cpu.inUser_iff]
  constructor
  · intro agrees
    by_contra unnamed
    exact unnamed (agrees.mpr (mode_of_unnamed unnamed)).2
  · exact fun named => and_iff_left named

theorem namesMode_enterException (c : Cpu) (mode : Mode) :
    NamesMode (c.enterException mode).control := by
  show NamesMode ((c.control &&& 0x40) ||| 0x80 ||| mode.toBits.toUInt8)
  obtain h | h := masked_fiqDisable c.control <;> rw [h] <;> cases mode <;> decide

/-- The Thumb bit lies outside the mode field. -/
theorem namesMode_or_thumb (control : UInt8) : NamesMode (control ||| 0x20) ↔ NamesMode control := by
  have low : (control ||| 0x20) &&& 0x1F = control &&& 0x1F := by
    apply UInt8.toBitVec_inj.mp
    simp [BitVec.and_or_distrib_right]
  have field : (control ||| 0x20).toUInt32 &&& 0x1F = control.toUInt32 &&& 0x1F := by
    rw [show (0x1F : UInt32) = (0x1F : UInt8).toUInt32 from rfl, ← UInt8.toUInt32_and, low,
      UInt8.toUInt32_and]
  rw [NamesMode, NamesMode, Mode.ofBits, Mode.ofBits, field]

namespace Core

variable {β : Type} [Bus β] (m : Core β)

theorem control_writePresentStatus (word value : UInt32) :
    (m.writePresentStatus word value).cpu.control =
      if bit word 16 = true ∧ ¬ m.cpu.InUser then value.toUInt8 &&& 0xDF else m.cpu.control := by
  rw [writePresentStatus_cpu]
  cases bit word 16 with
  | false => rw [if_neg Bool.false_ne_true, if_neg fun h => Bool.false_ne_true h.1]
  | true =>
    rw [if_pos rfl]
    by_cases user : m.cpu.InUser
    · rw [statusWritten, if_pos user, if_neg fun h => h.2 user]
    · rw [control_statusWritten user, if_pos ⟨rfl, user⟩]

omit [Bus β] in
theorem control_writeSavedStatus (withControl : Bool) (value : UInt32) :
    (m.writeSavedStatus withControl value).cpu.control = m.cpu.control := by
  rw [writeSavedStatus]
  split <;> rfl

theorem control_writeStatus {word : UInt32} (form : Opcode.ofWord word = .writeStatus) :
    (m.writeStatus word).cpu.control =
      if WritesControl word ∧ ¬ m.cpu.InUser then
        (m.cpu.regs.read (Field.rm word)).toUInt8 &&& 0xDF
      else m.cpu.control := by
  rw [writeStatus]
  split
  · next register present =>
    have target : WritesControl word ↔ bit word 16 = true :=
      ⟨fun h => h.2.2.2, fun h => ⟨form, register, present, h⟩⟩
    simp only [target]
    exact control_writePresentStatus m word _
  · next saved =>
    rw [if_neg fun h => Bool.noConfusion (saved.symm.trans h.1.2.2.1)]
    exact control_writeSavedStatus m _ _
  · next immediate _ =>
    rw [if_neg fun h => Bool.noConfusion (immediate.symm.trans h.1.2.1)]
    rfl
  · next immediate _ =>
    rw [if_neg fun h => Bool.noConfusion (immediate.symm.trans h.1.2.1)]
    exact control_writeSavedStatus m _ _

/-- What a status write of User mode leaves in the control byte. -/
theorem control_writeStatus_user {word : UInt32} (form : Opcode.ofWord word = .writeStatus)
    (user : m.cpu.mode = .user) :
    let written := m.execute word .writeStatus
    let value := (m.cpu.regs.read (Field.rm word)).toUInt8 &&& 0xDF
    (NamesMode m.cpu.control ∨ ¬ WritesControl word → written.cpu.control = m.cpu.control) ∧
    (¬ NamesMode m.cpu.control → WritesControl word → written.cpu.control = value) := by
  intro k value
  have written : k.cpu.control = _ := control_writeStatus m form
  have test : m.cpu.InUser ↔ NamesMode m.cpu.control := by
    rw [Cpu.inUser_iff]
    exact and_iff_right user
  refine ⟨fun kept => ?_, fun unnamed writes => ?_⟩
  · rw [written, if_neg]
    rintro ⟨writes, privileged⟩
    exact kept.elim (fun named => privileged (test.mpr named)) fun spared => spared writes
  · rw [written, if_pos ⟨writes, fun inUser => unnamed (test.mp inUser)⟩]

/-- The next step writes a mode field that names no mode, from a register or from a saved status word. -/
def WritesUnnamed (m : Core β) : Prop :=
  ¬ NamesMode m.step.cpu.control ∧
  ((m.cpu.due = some .writeStatus ∧ WritesControl m.cpu.pipe.execute ∧ ¬ m.cpu.InUser ∧
      m.step.cpu.control = (m.cpu.regs.read (Field.rm m.cpu.pipe.execute)).toUInt8 &&& 0xDF) ∨
    ∃ saved, m.cpu.savedStatus = some saved ∧ m.step.cpu.control = saved.toUInt8)

theorem execute_namesMode {k : Core β} {word : UInt32} {op : Opcode} (form : Opcode.ofWord word = op)
    (named : NamesMode k.cpu.control) (unnamed : ¬ NamesMode (k.execute word op).cpu.control) :
    (op = .writeStatus ∧ WritesControl word ∧ ¬ k.cpu.InUser ∧
      (k.execute word op).cpu.control = (k.cpu.regs.read (Field.rm word)).toUInt8 &&& 0xDF) ∨
    ∃ saved, k.cpu.savedStatus = some saved ∧ (k.execute word op).cpu.control = saved.toUInt8 := by
  have entered : ∀ (j : Core β) mode vector, NamesMode (j.enterException mode vector).cpu.control :=
    fun j mode vector => (enterException_cpu j mode vector).2.1 ▸ namesMode_enterException j.cpu mode
  have kept : ∀ {l : Core β}, KeepsStatus k l → NamesMode l.cpu.control := fun h => h.1 ▸ named
  cases op with
  | dataProcessing op setFlags byRegister =>
    obtain h | returned := dataProcessing_control k word op setFlags byRegister
    · exact absurd (kept h) unnamed
    · exact Or.inr returned
  | blockTransfer =>
    obtain h | returned := blockTransfer_control k word
    · exact absurd (kept h) unnamed
    · exact Or.inr returned
  | writeStatus =>
    have written : (k.execute word .writeStatus).cpu.control = _ := control_writeStatus k form
    by_cases writes : WritesControl word ∧ ¬ k.cpu.InUser
    · rw [if_pos writes] at written
      exact Or.inl ⟨rfl, writes.1, writes.2, written⟩
    · rw [if_neg writes] at written
      exact absurd (written ▸ named) unnamed
  | readStatus => exact absurd (kept (writeRegister_keepsStatus (k.onCpu Cpu.advancePc) _ _)) unnamed
  | branchExchange =>
    refine absurd ?_ unnamed
    show NamesMode (k.branchExchange word).cpu.control
    unfold branchExchange
    extract_lets target noted marked
    split
    · exact (namesMode_or_thumb _).mpr named
    · exact named
  | multiply accumulate setFlags =>
    exact absurd (kept (multiply_keepsStatus k word accumulate setFlags)) unnamed
  | multiplyLong signed accumulate setFlags =>
    exact absurd (kept (multiplyLong_keepsStatus k word signed accumulate setFlags)) unnamed
  | halfTransfer kind indexing =>
    rw [halfTransfer_eq] at unnamed
    exact absurd (kept (transferRegister_keepsStatus k _ _ _ _ _)) unnamed
  | transfer load byte indexing scaled =>
    exact absurd (kept (transferRegister_keepsStatus k word _ indexing load _)) unnamed
  | swap byte => exact absurd (kept (swap_keepsStatus k word byte)) unnamed
  | branch link => exact absurd (kept (branchBy_keepsStatus k word link)) unnamed
  | softwareInterrupt => exact absurd (entered k _ _) unnamed
  | undefined => exact absurd (entered (k.note _) _ _) unnamed

theorem step_namesMode (named : NamesMode m.cpu.control) :
    NamesMode m.step.cpu.control ∨ m.WritesUnnamed := by
  by_cases stays : NamesMode m.step.cpu.control
  · exact Or.inl stays
  refine Or.inr ⟨stays, ?_⟩
  obtain ⟨-, hs⟩ | ⟨-, -, hs⟩ | ⟨-, op, due, hs⟩ | ⟨-, hs⟩ := step_cases m
  · rw [hs] at stays
    exact absurd named stays
  · rw [hs, irq, (enterException_cpu m _ _).2.1] at stays
    exact absurd (namesMode_enterException _ _) stays
  · have form : Opcode.ofWord m.cpu.pipe.execute = op := by
      rw [Cpu.due] at due
      split at due
      · exact Option.some.inj due
      · contradiction
    rw [hs] at stays ⊢
    obtain ⟨rfl, written⟩ | returned := execute_namesMode form (k := m.fetch) named stays
    · exact Or.inl ⟨due, written⟩
    · exact Or.inr returned
  · rw [hs] at stays
    exact absurd named stays

/-- The state after a number of steps out of reset. -/
def after (bus : β) (n : Nat) : Core β := (start bus).run (List.replicate n .step)

theorem after_succ (bus : β) (n : Nat) : after bus (n + 1) = (after bus n).step := by
  rw [after, List.replicate_succ', run, List.foldl_append]
  rfl

theorem unnamed_after (bus : β) {n : Nat} (unnamed : ¬ NamesMode (after bus n).cpu.control) :
    ∃ i < n, (after bus i).WritesUnnamed := by
  induction n with
  | zero => exact absurd (show NamesMode Cpu.initial.control by decide) unnamed
  | succ n ih =>
    by_cases named : NamesMode (after bus n).cpu.control
    · rw [after_succ] at unnamed
      exact ⟨n, Nat.lt_succ_self n, (step_namesMode _ named).resolve_left unnamed⟩
    · obtain ⟨i, hi, writes⟩ := ih named
      exact ⟨i, Nat.lt_succ_of_lt hi, writes⟩

/-- User mode and the privilege test. After any number of steps out of reset the test agrees with the mode
exactly if the mode field names one, and then no status write of User mode changes the control byte.
Where the field names none, a write with the control field set changes it to whatever the register holds.
Such a field has been put there by an earlier step. -/
theorem user_control_kept_iff (bus : β) (n : Nat) :
    let m := after bus n
    ((m.cpu.InUser ↔ m.cpu.mode = .user) ↔ NamesMode m.cpu.control) ∧
    (m.cpu.mode = .user → ∀ word, Opcode.ofWord word = .writeStatus →
      let written := m.execute word .writeStatus
      let value := (m.cpu.regs.read (Field.rm word)).toUInt8 &&& 0xDF
      (NamesMode m.cpu.control ∨ ¬ WritesControl word → written.cpu.control = m.cpu.control) ∧
      (¬ NamesMode m.cpu.control → WritesControl word → written.cpu.control = value)) ∧
    (¬ NamesMode m.cpu.control → m.cpu.mode = .user ∧ ∃ i < n, (after bus i).WritesUnnamed) := by
  intro m
  exact ⟨m.cpu.inUser_agrees_iff, fun user word form => control_writeStatus_user m form user,
    fun unnamed => ⟨mode_of_unnamed unnamed, unnamed_after bus unnamed⟩⟩

/-- MOVS PC, LR soon after reset restores a saved status word that is still zero, which names no mode. The
write that the test lets through would set Supervisor mode. -/
theorem user_control_kept_iff_restored :
    let rom : Rom := ⟨fun address => if address = 0 then 0xE3A0E008 else if address = 4 then 0xE1B0F00E
      else 0xE3A00013⟩
    (after rom 7).cpu.mode = .user ∧ ¬ NamesMode (after rom 7).cpu.control ∧
    ((after rom 7).execute 0xE129F000 .writeStatus).cpu.control = 0x13 ∧
    ((after rom 7).execute 0xE128F000 .writeStatus).cpu.control = (after rom 7).cpu.control ∧
    ∃ i < 7, (after rom i).WritesUnnamed := by
  intro rom
  have user : (after rom 7).cpu.mode = .user := by decide +kernel
  have unnamed : ¬ NamesMode (after rom 7).cpu.control := by decide +kernel
  have value : ((after rom 7).cpu.regs.read (Field.rm 0xE129F000)).toUInt8 &&& 0xDF = 0x13 := by
    decide +kernel
  have writes : WritesControl 0xE129F000 := by decide
  have flags : Opcode.ofWord 0xE128F000 = .writeStatus := by decide
  obtain ⟨-, law, earlier⟩ := user_control_kept_iff rom 7
  have written := (law user 0xE129F000 writes.1).2 unnamed writes
  have kept := (law user 0xE128F000 flags).1 (Or.inr (by decide))
  exact ⟨user, unnamed, written.trans value, kept, (earlier unnamed).2⟩

/-- Two status writes in a row: the first leaves Supervisor mode for a field that names no mode, the second
is made in what every other part of the processor takes for User mode, and comes back. -/
theorem user_control_rewritten :
    let rom : Rom := ⟨fun address => if address = 0 then 0xE3A00000 else if address = 4 then 0xE129F000 else
      if address = 8 then 0xE3A00013 else 0xE129F000⟩
    let m := after rom 5
    m.cpu.mode = .user ∧ ¬ m.cpu.InUser ∧ m.cpu.due = some .writeStatus ∧ m.cpu.control = 0 ∧
    m.step.cpu.control = 0x13 ∧ m.step.cpu.mode = .supervisor := by
  decide +kernel

end Core

end GbaArm
