import GbaArm.Proofs.AluResults
import GbaArm.Proofs.InstructionClass
import GbaArm.Proofs.UserTransfers

/-!
Data processing against its reference: operands as the architecture shows them, single shifts, exact
integers, and the registers and flags that change.
-/
namespace GbaArm

namespace Opcode
variable (word : UInt32) {op : AluOp} {s r : Bool}

theorem ofMultiply_ne (high : UInt32) : ofMultiply high ≠ .dataProcessing op s r := by
  intro h
  unfold ofMultiply at h
  repeat' split at h
  all_goals cases h

theorem ofHalfTransfer_ne (high low : UInt32) :
    ofHalfTransfer high low ≠ .dataProcessing op s r := by
  intro h
  unfold ofHalfTransfer at h
  repeat' split at h
  all_goals cases h

theorem ofStatusTransfer_ne (high low : UInt32) :
    ofStatusTransfer high low ≠ .dataProcessing op s r := by
  intro h
  unfold ofStatusTransfer at h
  repeat' split at h
  all_goals cases h

theorem ofClass_dataProcessing {index : UInt32} (h : ofClass index = .dataProcessing op s r) :
    op = AluOp.ofField (high index >>> 1) ∧ s = bit (high index) 0 ∧
    r = (!bit (high index) 5 && bit (index &&& 0xF) 0) := by
  unfold ofClass at h
  dsimp only at h
  split at h
  · next top =>
    have clear : bit (high index) 5 = false := by
      have zero : high index >>> 5 = 0 := UInt32.toNat_inj.mp top
      rw [bit, zero]
      rfl
    rw [clear]
    repeat' split at h
    · cases ofMultiply_ne _ h
    · cases ofHalfTransfer_ne _ _ h
    · cases ofStatusTransfer_ne _ _ h
    · cases h
      exact ⟨rfl, rfl, rfl⟩
  · next top =>
    have set : bit (high index) 5 = true := by
      have one : high index >>> 5 = 1 := UInt32.toNat_inj.mp top
      rw [bit, one]
      rfl
    rw [set]
    repeat' split at h
    · cases h
    · cases h
    · cases h
      exact ⟨rfl, rfl, rfl⟩
  all_goals
    repeat' split at h
    all_goals cases h

theorem operation_high :
    AluOp.ofField (high (classOf word) >>> 1) = AluOp.ofField (word >>> 21) := by
  have mask : ∀ i < 32, (UInt32.toBitVec 0xF).getLsbD i = decide (i < 4) := by decide
  have field :
      (high (classOf word) >>> 1) &&& (0xF : UInt32) = (word >>> 21) &&& (0xF : UInt32) := by
    refine masked_congr mask fun i inner => ?_
    rw [getLsbD_shiftRight _ _ (by decide), getLsbD_shiftRight _ _ (by decide)]
    exact getLsbD_high word (Nat.lt_of_lt_of_le (Nat.add_lt_add_right inner 1) (by decide))
  rw [AluOp.ofField, field, AluOp.ofField]

/-- The operation is bits 24 to 21, the S bit is bit 20, and a register gives the shift where bit 25
is clear and bit 4 set. -/
theorem ofWord_dataProcessing (h : ofWord word = .dataProcessing op s r) :
    op = AluOp.ofField (word >>> 21) ∧ s = bit word 20 ∧ r = (!bit word 25 && bit word 4) := by
  have bits : ∀ n k : UInt32, n.toNat < 8 → k.toNat = n.toNat + 20 →
      bit (high (classOf word)) n = bit word k := fun _ _ => bit_high word
  obtain ⟨operation, status, form⟩ := ofClass_dataProcessing h
  refine ⟨operation.trans (operation_high word), status.trans (bits 0 20 (by decide) rfl), ?_⟩
  rw [form, bits 5 25 (by decide) rfl, bit_low]

end Opcode

namespace Cpu

/-- The address of the instruction to execute, two words before the one being fetched. -/
def here (c : Cpu) : UInt32 := c.pc - 8

/-- A register as an operand. R15 reads two words past the instruction, or three where a register
gives the shift. -/
def operand (c : Cpu) (byRegister : Bool) (n : Nat) : UInt32 :=
  if n = 15 then c.here + (if byRegister then 12 else 8) else c.regs.read n

def firstOperand (c : Cpu) (word : UInt32) (byRegister : Bool) : UInt32 :=
  c.operand byRegister (Field.rn word)

/-- A register shifted by the low byte of another, an immediate, or a register shifted by an encoded
amount. -/
def secondOperand (c : Cpu) (word : UInt32) (byRegister : Bool) : Shifted :=
  let kind := ShiftKind.ofWord word
  if byRegister then
    kind.repeated (c.operand true (Field.rm word)) ((c.operand true (Field.rs word)).toNat % 256)
  else if bit word 25 then
    ShiftKind.ror.repeated (word &&& 0xFF) ((2 : UInt32) * ShiftKind.rotateField word).toNat
  else kind.encoded (c.operand false (Field.rm word)) ((word >>> 7) &&& 0x1F) c.flags.c

variable (c : Cpu) (word : UInt32) {n : Nat}

theorem operand_direct : c.operand false n = c.regs.read n := by
  rw [operand]
  split
  · next h =>
    have back : c.pc - 8 + 8 = c.pc := by grind
    rw [h]
    exact back
  · rfl

/-- Once the program counter has moved on, R15 reads a word further. -/
theorem operand_late (hn : n < 16) : c.operand true n = c.advancePc.regs.read n := by
  rw [operand]
  split
  · next h =>
    have ahead : c.pc - 8 + 12 = c.pc + 4 := by grind
    rw [h]
    exact ahead.trans c.pc_advancePc.symm
  · next h => exact (c.read_advancePc (by omega)).symm

theorem immediateOperand_eq : c.immediateOperand word = c.secondOperand word false := by
  have small : (word >>> 7) &&& 0x1F < 32 := by
    rw [UInt32.lt_iff_toNat_lt, UInt32.toNat_and]
    exact Nat.lt_of_le_of_lt Nat.and_le_right (by decide)
  rw [immediateOperand, secondOperand, if_neg Bool.false_ne_true, operand_direct]
  split
  · rw [ShiftKind.rotatedImmediate_eq, ShiftKind.register_eq_repeated]
  · exact ShiftKind.immediate_eq_encoded _ _ _ small

theorem registerOperand_eq :
    (ShiftKind.ofWord word).register (c.advancePc.regs.read (Field.rm word))
      (c.advancePc.regs.read (Field.rs word) &&& 0xFF) = c.secondOperand word true := by
  have value : Field.rm word < 16 := Field.lt_sixteen _
  have amount : Field.rs word < 16 := Field.lt_sixteen _
  rw [ShiftKind.register_eq_repeated, toNat_lowByte, secondOperand, if_pos rfl,
    operand_late c value, operand_late c amount]

/-- The program counter has moved on and the flags are set; no result is written yet. -/
def computed (flags : Flags) : Cpu := { c.advancePc with flags }

theorem cell_computed (flags : Flags) {bank : Bank} (hn : n < 15) :
    (c.computed flags).cell bank n = c.cell bank n := RegisterFile.cell_setPc hn

theorem pc_computed (flags : Flags) : (c.computed flags).pc = c.pc + 4 := c.pc_advancePc

end Cpu

/-- Result and flags of an operation, with or without its flags set. -/
def AluOp.outcome (op : AluOp) (setFlags : Bool) (f : Flags) (a : UInt32) (b : Shifted) :
    UInt32 × Flags :=
  let flags := if setFlags && op.isLogical then f.takeCarry b.carry else f
  if setFlags then op.valueFlags flags a b.value else (op.value flags a b.value, flags)

theorem AluOp.outcome_plain (op : AluOp) (f : Flags) (a : UInt32) (b : Shifted) :
    op.outcome false f a b = (op.result f.c a b.value, f) := by
  rw [← op.value_eq_result]
  rfl

theorem AluOp.outcome_sets (op : AluOp) (f : Flags) (a : UInt32) (b : Shifted) :
    (op.outcome true f a b).1 = op.result f.c a b.value ∧
    op.Sets f.c f.v a b.value b.carry (op.outcome true f a b).2 :=
  op.valueFlags_sets f a b.value b.carry

theorem AluOp.outcome_result (op : AluOp) (setFlags : Bool) (f : Flags) (a : UInt32) (b : Shifted) :
    (op.outcome setFlags f a b).1 = op.result f.c a b.value := by
  cases setFlags with
  | false => rw [op.outcome_plain]
  | true => exact (op.outcome_sets f a b).1

namespace Core

variable {β : Type} [Bus β] (m : Core β)

/-- The end of an operation: its result goes to the destination, if it keeps one. -/
def writeBack (m : Core β) (word : UInt32) (op : AluOp) (setFlags : Bool) (result : UInt32) :
    Core β :=
  if op.isCompare then m
  else if setFlags then m.writeRegisterRestoring (Field.rd word) result
  else m.writeRegister (Field.rd word) result

/-- Whatever the form of the operand, the flags are set and the program counter has moved on by the
time the result is written. -/
theorem dataProcessing_eq (word : UInt32) (op : AluOp) (setFlags byRegister : Bool) :
    let outcome := op.outcome setFlags m.cpu.flags (m.cpu.firstOperand word byRegister)
      (m.cpu.secondOperand word byRegister)
    ∃ bus : β, m.dataProcessing word op setFlags byRegister =
      (⟨m.cpu.computed outcome.2, bus⟩ : Core β).writeBack word op setFlags outcome.1 := by
  cases byRegister with
  | false =>
    rw [Cpu.firstOperand, Cpu.operand_direct, ← Cpu.immediateOperand_eq]
    exact ⟨m.bus, rfl⟩
  | true =>
    have inner : Field.rn word < 16 := Field.lt_sixteen _
    rw [Cpu.firstOperand, Cpu.operand_late _ inner, ← Cpu.registerOperand_eq]
    exact ⟨Bus.internalCycle m.cpu.advancePc.pc m.bus, rfl⟩

end Core

/-- Register `n` takes the result, unless the operation is one of the four that only compare. -/
def AluOp.Writes (op : AluOp) (word : UInt32) (n : Nat) : Prop :=
  op ∉ [.tst, .teq, .cmp, .cmn] ∧ Field.rd word = n

instance (op : AluOp) (word : UInt32) (n : Nat) : Decidable (op.Writes word n) :=
  inferInstanceAs (Decidable (_ ∧ _))

theorem AluOp.isCompare_iff (op : AluOp) : op.isCompare = true ↔ op ∈ [.tst, .teq, .cmp, .cmn] := by
  cases op <;> decide

theorem AluOp.Writes.unique {op : AluOp} {word : UInt32} {n k : Nat} (h : op.Writes word n)
    (h' : op.Writes word k) : n = k := h.2.symm.trans h'.2

/-- What a data-processing instruction on `a` and `b` makes of a processor `c`. The carry that goes
into the result is the one before the instruction. -/
structure DataProcessed (word : UInt32) (op : AluOp) (setFlags : Bool) (a : UInt32) (b : Shifted)
    (c k : Cpu) : Prop where
  kept : setFlags = false → k.flags = c.flags
  /-- An exception return takes its flags from elsewhere. -/
  set : setFlags = true → (op.Writes word 15 → c.savedStatus = none) →
    op.Sets c.flags.c c.flags.v a b.value b.carry k.flags
  /-- Of the registers of all banks only the destination changes. -/
  cell : ∀ bank, ∀ n < 15, k.cell bank n =
    if op.Writes word n ∧ bank = (Bank.ofMode c.mode).owner n then op.result c.flags.c a b.value
    else c.cell bank n
  saved : k.regs.saved = c.regs.saved
  next : ¬ op.Writes word 15 →
    k.pc = c.pc + 4 ∧ k.pipe.bubbles = c.pipe.bubbles ∧ k.control = c.control
  jump : op.Writes word 15 → (setFlags = true → c.savedStatus = none) →
    k.pc = alignWord (op.result c.flags.c a b.value) ∧ k.pipe.bubbles = 2 ∧ k.control = c.control
  /-- A return to Thumb state keeps the address of a halfword. -/
  restored : op.Writes word 15 → setFlags = true → ∀ status, c.savedStatus = some status →
    k.status.raw = status &&& 0xF00000FF ∧ k.pipe.bubbles = 2 ∧
    k.pc = if (StatusWord.mk status).t then alignHalf (op.result c.flags.c a b.value)
      else alignWord (op.result c.flags.c a b.value)

section
variable {word : UInt32} {op : AluOp} {setFlags : Bool} {a : UInt32} {b : Shifted} {c : Cpu}
  {flags : Flags} (plain : setFlags = false → flags = c.flags)
  (sets : setFlags = true → op.Sets c.flags.c c.flags.v a b.value b.carry flags)
include plain sets

theorem DataProcessed.ofCompare (compares : op.isCompare = true) :
    DataProcessed word op setFlags a b c (c.computed flags) := by
  have never : ∀ n, ¬ op.Writes word n := fun n h => h.1 (op.isCompare_iff.mp compares)
  exact {
    kept := plain
    set := fun s _ => sets s
    cell := fun bank n hn => by
      rw [if_neg fun h => never n h.1]
      exact c.cell_computed flags hn
    saved := rfl
    next := fun _ => ⟨c.pc_computed flags, rfl, rfl⟩
    jump := fun h => absurd h (never 15)
    restored := fun h => absurd h (never 15) }

theorem DataProcessed.ofWrite (keeps : op ∉ [.tst, .teq, .cmp, .cmn]) (inner : Field.rd word < 15) :
    DataProcessed word op setFlags a b c
      ((c.computed flags).writeReg (Field.rd word) (op.result c.flags.c a b.value)) := by
  have stays : ¬ op.Writes word 15 := fun h => Nat.ne_of_lt inner h.2
  have written : ∀ bank n, bank = (Bank.ofMode c.mode).owner n ∧ n = Field.rd word ↔
      op.Writes word n ∧ bank = (Bank.ofMode c.mode).owner n := fun bank n =>
    ⟨fun h => ⟨⟨keeps, h.2.symm⟩, h.1⟩, fun h => ⟨h.2, h.1.2.symm⟩⟩
  exact {
    kept := plain
    set := fun s _ => sets s
    cell := fun bank n hn => by
      refine (Cpu.cell_writeReg inner (by omega) _).trans ?_
      exact ite_congr (propext (written bank n)) (fun _ => rfl) fun _ => c.cell_computed flags hn
    saved := rfl
    next := fun _ => ⟨(RegisterFile.pc_write inner).trans (c.pc_computed flags), rfl, rfl⟩
    jump := fun h => absurd h stays
    restored := fun h => absurd h stays }

theorem DataProcessed.ofJump {k : Cpu} (writes : op.Writes word 15)
    (unsaved : setFlags = true → c.savedStatus = none) (pipe : k.pipe.bubbles = 2)
    (regs : k.regs = c.advancePc.regs.setPc (alignWord (op.result c.flags.c a b.value)))
    (same : k.flags = flags) (control : k.control = c.control) :
    DataProcessed word op setFlags a b c k where
  kept h := same.trans (plain h)
  set h _ := same ▸ sets h
  cell bank n hn := by
    have other : ¬ op.Writes word n := fun h => Nat.ne_of_gt hn (writes.unique h)
    rw [if_neg fun h => other h.1, Cpu.cell, Cpu.mode, control, regs, RegisterFile.cell_setPc hn]
    exact Cpu.cell_advancePc hn
  saved := by rw [regs]; rfl
  next h := absurd writes h
  jump _ _ := ⟨by rw [Cpu.pc, regs]; exact RegisterFile.pc_setPc, pipe, control⟩
  restored _ s status saved := by
    rw [unsaved s] at saved
    cases saved

end

namespace Core

variable {β : Type} [Bus β] {m : Core β} {word : UInt32} {op : AluOp} {setFlags byRegister : Bool}
  {a : UInt32} {b : Shifted} {c : Cpu} {flags : Flags}

/-- What a status word restores of itself. -/
theorem status_setStatus (c : Cpu) (value : UInt32) :
    (c.setStatus value).status.raw = value &&& 0xF00000FF := by
  show (Flags.ofNzcv value).nzcv ||| value.toUInt8.toUInt32 = _
  rw [Flags.nzcv_ofNzcv, toUInt32_toUInt8, masked_or_masked]
  rfl

theorem isThumb_setStatus (c : Cpu) (value : UInt32) :
    (c.setStatus value).isThumb = (StatusWord.mk value).t := by
  show (value.toUInt8 &&& 0x20 != 0) = _
  rw [Bool.eq_iff_iff]
  simpa [StatusWord.t, StatusWord.thumbBit] using not_congr (toUInt8_masked value 0x20)

/-- Where no status word is saved, a return is a plain jump. -/
theorem returnTo_unsaved {k : Core β} (unsaved : k.cpu.savedStatus = none)
    (arm : k.cpu.isThumb = false) (value : UInt32) :
    k.returnTo value = k.branch (alignWord value) := by
  simp [returnTo, restoreStatus, unsaved, arm]

theorem returnTo_processed {k : Core β} {status : UInt32} (writes : op.Writes word 15)
    (cpu : k.cpu = c.computed flags) (saved : c.savedStatus = some status) :
    DataProcessed word op true a b c (k.returnTo (op.result c.flags.c a b.value)).cpu := by
  have found : k.cpu.savedStatus = some status := by
    rw [cpu]
    exact saved
  have restored : k.restoreStatus.cpu = k.cpu.setStatus status := restoreStatus_cpu found
  have unset : ¬ c.savedStatus = none := by simp [saved]
  exact {
    kept := fun s => Bool.noConfusion s
    set := fun _ h => absurd (h writes) unset
    cell := fun bank n hn => by
      have other : ¬ op.Writes word n := fun h => Nat.ne_of_gt hn (writes.unique h)
      rw [if_neg fun h => other h.1, (returnTo_restores found _).2 bank n hn, cpu]
      exact c.cell_computed flags hn
    saved := by
      have kept : k.restoreStatus.cpu.regs.saved = k.cpu.regs.saved := by
        rw [restored]
        exact Cpu.saved_setStatus
      exact kept.trans (by rw [cpu]; rfl)
    next := fun h => absurd writes h
    jump := fun _ h => absurd (h rfl) unset
    -- The state restored, not the one before, says how far the target is aligned.
    restored := fun _ _ other same => by
      obtain rfl : status = other := Option.some.inj (saved.symm.trans same)
      refine ⟨?_, rfl, ?_⟩
      · refine Eq.trans ?_ (status_setStatus k.cpu status)
        rw [← restored]
        rfl
      · rw [← isThumb_setStatus k.cpu, ← restored]
        exact RegisterFile.pc_setPc }

theorem writeBack_processed {k : Core β} (arm : c.isThumb = false)
    (plain : setFlags = false → flags = c.flags)
    (sets : setFlags = true → op.Sets c.flags.c c.flags.v a b.value b.carry flags)
    (cpu : k.cpu = c.computed flags) :
    DataProcessed word op setFlags a b c
      (k.writeBack word op setFlags (op.result c.flags.c a b.value)).cpu := by
  by_cases compares : op.isCompare = true
  · rw [writeBack, if_pos compares, cpu]
    exact .ofCompare plain sets compares
  have keeps : op ∉ [.tst, .teq, .cmp, .cmn] := fun listed => compares (op.isCompare_iff.mpr listed)
  rw [writeBack, if_neg compares]
  by_cases inner : Field.rd word < 15
  · rw [writeRegisterRestoring, writeRegister, if_pos inner, if_pos inner, ite_self, onCpu, cpu]
    exact .ofWrite plain sets keeps inner
  have low : Field.rd word < 16 := Field.lt_sixteen _
  have writes : op.Writes word 15 := ⟨keeps, by omega⟩
  have jumped : (setFlags = true → c.savedStatus = none) → DataProcessed word op setFlags a b c
      (k.branch (alignWord (op.result c.flags.c a b.value))).cpu := fun unsaved => by
    rw [branch, cpu]
    exact .ofJump plain sets writes unsaved rfl rfl rfl rfl
  rw [writeRegisterRestoring, writeRegister, if_neg inner, if_neg inner]
  cases setFlags with
  | false => exact jumped fun h => Bool.noConfusion h
  | true =>
    rw [if_pos rfl]
    cases saved : c.savedStatus with
    | none =>
      have unsaved : k.cpu.savedStatus = none := by
        rw [cpu]
        exact saved
      have state : k.cpu.isThumb = false := by
        rw [cpu]
        exact arm
      rw [returnTo_unsaved unsaved state]
      exact jumped fun _ => saved
    | some status => exact returnTo_processed writes cpu saved

end Core

end GbaArm
