import GbaArm.Proofs.Bits
import GbaArm.Proofs.Pipeline

/-! An exception and the return from it leave the interrupted program as it was. -/
namespace GbaArm

inductive Exception
  | irq | softwareInterrupt | undefined
  deriving DecidableEq, Repr

namespace Exception

def mode : Exception → Mode
  | irq => .irq
  | softwareInterrupt => .supervisor
  | undefined => .undefined

def vector : Exception → UInt32
  | irq => 0x18
  | softwareInterrupt => 0x08
  | undefined => 0x04

/-- The last instruction of a handler: SUBS PC, R14, #4 after an interrupt, else MOVS PC, R14. -/
def returnWord : Exception → UInt32
  | irq => 0xE25EF004
  | softwareInterrupt | undefined => 0xE1B0F00E

/-- What that instruction takes off R14. -/
def linkOffset : Exception → UInt32
  | irq => 4
  | softwareInterrupt | undefined => 0

/-- Where the interrupted program goes on: at the instruction that the interrupt came before, or
after the one that trapped. -/
def resume (c : Cpu) : Exception → UInt32
  | irq => c.pc - 8
  | softwareInterrupt | undefined => c.pc - 4

/-- The next step takes the exception. -/
def Due (c : Cpu) : Exception → Prop
  | irq => c.isRefilling = false ∧ c.irqPending = true
  | softwareInterrupt => c.due = some .softwareInterrupt
  | undefined => c.due = some .undefined

instance (c : Cpu) : (e : Exception) → Decidable (e.Due c)
  | irq => inferInstanceAs (Decidable (_ ∧ _))
  | softwareInterrupt | undefined => inferInstanceAs (Decidable (_ = _))

/-- The registers of an exception mode are its own. -/
theorem mode_of_bank {e : Exception} {mode : Mode} (h : Bank.ofMode mode = Bank.ofMode e.mode) :
    mode = e.mode := by
  cases e <;> cases mode <;> first | rfl | cases h

end Exception

theorem masked_fiqDisable (control : UInt8) : control &&& 0x40 = 0 ∨ control &&& 0x40 = 0x40 := by
  have bits : ∀ b : BitVec 8, b &&& 0x40#8 = 0 ∨ b &&& 0x40#8 = 0x40#8 := by decide +kernel
  simpa [← UInt8.toBitVec_inj] using bits control.toBitVec

namespace Cpu

variable {c : Cpu} {b : Bank} {n : Nat} {mode : Mode} {value : UInt32}

theorem mode_enterException : (c.enterException mode).mode = mode := by
  show Mode.ofBits ((c.control &&& 0x40) ||| 0x80 ||| mode.toBits.toUInt8).toUInt32 = mode
  obtain h | h := masked_fiqDisable c.control <;> rw [h] <;> cases mode <;> decide

theorem irqPending_enterException : (c.enterException mode).irqPending = false := by
  have masked : ((c.control &&& 0x40) ||| 0x80 ||| mode.toBits.toUInt8) &&& 0x80 ≠ 0 := by
    obtain h | h := masked_fiqDisable c.control <;> rw [h] <;> cases mode <;> decide
  simpa [enterException, switchBank, refreshIrq, irqDisabled] using fun _ => masked

theorem isThumb_enterException : (c.enterException mode).isThumb = false := by
  show (((c.control &&& 0x40) ||| 0x80 ||| mode.toBits.toUInt8) &&& 0x20 != 0) = false
  obtain h | h := masked_fiqDisable c.control <;> rw [h] <;> cases mode <;> decide

/-- Register `n` of bank `b`, wherever it is kept at present. -/
def cell (c : Cpu) (b : Bank) (n : Nat) : UInt32 := c.regs.cell (Bank.ofMode c.mode) b n

theorem cell_owner : c.cell ((Bank.ofMode c.mode).owner n) n = c.regs.read n :=
  RegisterFile.cell_owner

theorem cell_enterException (hn : n < 16) : (c.enterException mode).cell b n =
    if b = Bank.ofMode mode ∧ n = 14 then c.pc - 4 else c.cell b n := by
  have linked : (c.enterException mode).regs =
      ((c.regs.switchBank c.mode mode).setSavedStatus c.status.raw mode).write 14 (c.pc - 4) := by
    have same : (c.regs.switchBank c.mode mode).pc = c.regs.pc := RegisterFile.pc_switchBank
    rw [pc, ← same]
    rfl
  rw [cell, mode_enterException, linked, RegisterFile.cell_write hn,
    RegisterFile.cell_setSavedStatus, RegisterFile.cell_switchBank hn]
  grind [cell, Bank.owner_stack]

theorem savedStatus_enterException {other : Mode} :
    (c.enterException mode).regs.savedStatus other =
      if other.savedIndex = mode.savedIndex ∧ mode.savedIndex ≠ none then some c.status.raw
      else c.regs.savedStatus other := by
  have saved : (c.enterException mode).regs.saved =
      ((c.regs.switchBank c.mode mode).setSavedStatus c.status.raw mode).saved := rfl
  have kept : c.regs.savedStatus other = (c.regs.switchBank c.mode mode).savedStatus other := by
    rw [RegisterFile.savedStatus, RegisterFile.savedStatus, RegisterFile.saved_switchBank]
  rw [kept, ← RegisterFile.savedStatus_setSavedStatus, RegisterFile.savedStatus, saved]
  rfl

/-- A return from `c` to `target` under the status word `status`. -/
structure Returned (c c' : Cpu) (status target : UInt32) : Prop where
  flags : c'.flags = Flags.ofNzcv status
  control : c'.control = status.toUInt8
  cell : ∀ b, ∀ n < 15, c'.cell b n = c.cell b n
  saved : c'.regs.saved = c.regs.saved
  pc : c'.pc = target
  refill : c'.pipe.bubbles = 2

theorem cell_setStatus (hn : n < 16) : (c.setStatus value).cell b n = c.cell b n :=
  RegisterFile.cell_switchBank hn

theorem saved_setStatus : (c.setStatus value).regs.saved = c.regs.saved :=
  RegisterFile.saved_switchBank

end Cpu

namespace Core

variable {β : Type} [Bus β] {m k : Core β} {e : Exception}

theorem enterException_cpu (m : Core β) (mode : Mode) (vector : UInt32) :
    (m.enterException mode vector).cpu.regs = (m.cpu.enterException mode).regs.setPc vector ∧
    (m.enterException mode vector).cpu.control = (m.cpu.enterException mode).control ∧
    (m.enterException mode vector).cpu.pipe.bubbles = 2 ∧
    (m.enterException mode vector).cpu.irqPending = false := by
  simp [enterException, note, onBus, branch, onCpu, noteMode_cpu, Cpu.irqPending_enterException]

theorem step_of_exception (h : e.Due m.cpu) :
    m.step.cpu.regs = (m.cpu.enterException e.mode).regs.setPc e.vector ∧
    m.step.cpu.control = (m.cpu.enterException e.mode).control ∧
    m.step.cpu.pipe.bubbles = 2 ∧ m.step.cpu.irqPending = false := by
  cases e with
  | irq => exact step_of_pending h.1 h.2 ▸ enterException_cpu m _ _
  | softwareInterrupt => exact step_of_due h ▸ enterException_cpu m.fetch _ _
  | undefined => exact step_of_due h ▸ enterException_cpu (m.fetch.note _) _ _

theorem mode_step_exception (h : e.Due m.cpu) : m.step.cpu.mode = e.mode := by
  rw [Cpu.mode, (step_of_exception h).2.1]
  exact Cpu.mode_enterException

theorem cell_step_exception (h : e.Due m.cpu) {b : Bank} {n : Nat} (hn : n < 15) :
    m.step.cpu.cell b n =
      if b = Bank.ofMode e.mode ∧ n = 14 then m.cpu.pc - 4 else m.cpu.cell b n := by
  rw [← Cpu.cell_enterException (by omega), Cpu.cell, mode_step_exception h,
    (step_of_exception h).1, RegisterFile.cell_setPc hn, Cpu.cell, Cpu.mode_enterException]

theorem savedStatus_step_exception (h : e.Due m.cpu) (mode : Mode) :
    m.step.cpu.regs.savedStatus mode =
      if mode = e.mode then some m.cpu.status.raw else m.cpu.regs.savedStatus mode := by
  have own : mode.savedIndex = e.mode.savedIndex ∧ e.mode.savedIndex ≠ none ↔ mode = e.mode := by
    cases e <;> cases mode <;> decide
  simp only [← own]
  rw [(step_of_exception h).1]
  exact Cpu.savedStatus_enterException

theorem restoreStatus_cpu {status : UInt32} (h : m.cpu.savedStatus = some status) :
    m.restoreStatus.cpu = m.cpu.setStatus status := by
  rw [restoreStatus, h]
  exact congrArg (Cpu.setStatus · status) (noteMode_cpu m _)

theorem returnTo_returned {status : UInt32} (h : m.cpu.savedStatus = some status)
    (arm : status.toUInt8 &&& 0x20 = 0) (value : UInt32) :
    m.cpu.Returned (m.returnTo value).cpu status (alignWord value) := by
  have restored : m.restoreStatus.cpu = m.cpu.setStatus status := restoreStatus_cpu h
  have target : (if m.restoreStatus.cpu.isThumb then alignHalf value else alignWord value) =
      alignWord value := by
    rw [restored]
    exact if_neg (by simp [Cpu.isThumb, Cpu.setStatus, Cpu.setControl, Cpu.refreshIrq, arm])
  rw [returnTo]
  simp only [target]
  rw [branch]
  simp only [restored]
  exact {
    flags := rfl
    control := rfl
    cell := fun b n hn => (RegisterFile.cell_setPc hn).trans (Cpu.cell_setStatus (by omega))
    saved := Cpu.saved_setStatus
    pc := RegisterFile.pc_setPc
    refill := rfl }

/-- An operation that sets the flags and writes R15 returns from an exception. -/
theorem dataProcessing_return (m : Core β) {word : UInt32} {op : AluOp}
    (hc : op.isCompare = false) (hd : Field.rd word = 15) :
    let operand := m.cpu.immediateOperand word
    let flags := if op.isLogical then m.cpu.flags.takeCarry operand.carry else m.cpu.flags
    let result := op.valueFlags flags (m.cpu.regs.read (Field.rn word)) operand.value
    m.dataProcessing word op true false =
      ((m.onCpu fun c => { c with flags := result.2 }).onCpu Cpu.advancePc).returnTo result.1 := by
  simp [dataProcessing, writeRegisterRestoring, hc, hd]

theorem execute_movs (m : Core β) : ∃ flags, m.execute 0xE1B0F00E (Opcode.ofWord 0xE1B0F00E) =
    ((m.onCpu fun c => { c with flags }).onCpu Cpu.advancePc).returnTo (m.cpu.regs.read 14) := by
  have decoded : Opcode.ofWord 0xE1B0F00E = .dataProcessing .mov true false := by decide
  have moved : (m.cpu.immediateOperand 0xE1B0F00E).value = m.cpu.regs.read 14 := by rfl
  rw [decoded, execute, dataProcessing_return m rfl (by decide), ← moved]
  exact ⟨_, rfl⟩

theorem execute_subs (m : Core β) : ∃ flags, m.execute 0xE25EF004 (Opcode.ofWord 0xE25EF004) =
    ((m.onCpu fun c => { c with flags }).onCpu Cpu.advancePc).returnTo (m.cpu.regs.read 14 - 4) := by
  have decoded : Opcode.ofWord 0xE25EF004 = .dataProcessing .sub true false := by decide
  have link : Field.rn 0xE25EF004 = 14 := by decide
  have four : (m.cpu.immediateOperand 0xE25EF004).value = 4 := by rfl
  rw [decoded, execute, dataProcessing_return m rfl (by decide), link, four,
    ← UInt32.sub_zero (_ - 4)]
  exact ⟨_, rfl⟩

theorem execute_returnWord (m : Core β) (e : Exception) :
    ∃ flags, m.execute e.returnWord (Opcode.ofWord e.returnWord) =
      ((m.onCpu fun c => { c with flags }).onCpu Cpu.advancePc).returnTo
        (m.cpu.regs.read 14 - e.linkOffset) := by
  cases e with
  | irq => exact execute_subs m
  | softwareInterrupt | undefined =>
    rw [Exception.linkOffset, UInt32.sub_zero]
    exact execute_movs m

/-- The step of a return that runs in ARM state under the saved status word of the present mode. -/
theorem step_returned {status : UInt32} (hb : m.cpu.pipe.bubbles = 0)
    (hp : m.cpu.irqPending = false) (hw : m.cpu.pipe.execute = e.returnWord)
    (h : m.cpu.savedStatus = some status) (arm : status.toUInt8 &&& 0x20 = 0) :
    m.cpu.Returned m.step.cpu status (alignWord (m.cpu.regs.read 14 - e.linkOffset)) := by
  have due : m.cpu.due = some (Opcode.ofWord e.returnWord) := by
    have always : ∀ f, (Condition.ofWord e.returnWord).holds f = true := fun f => by
      cases e <;> rfl
    simp [Cpu.due, Cpu.isRefilling, hb, hp, hw, always]
  obtain ⟨flags, executed⟩ := execute_returnWord m.fetch e
  have saved : ((m.fetch.onCpu fun c => { c with flags }).onCpu Cpu.advancePc).cpu.savedStatus =
      some status := h
  have returned := returnTo_returned saved arm (m.cpu.regs.read 14 - e.linkOffset)
  rw [step_of_due due, hw, executed]
  exact {
    flags := returned.flags
    control := returned.control
    cell := fun b n hn => (returned.cell b n hn).trans (RegisterFile.cell_setPc hn)
    saved := returned.saved
    pc := returned.pc
    refill := returned.refill }

/-- A handler `k` about to return to `m`. It may have changed the flags, and its own stack pointer
unless the interrupted program shares that. -/
structure Leaves (e : Exception) (m k : Core β) : Prop where
  settled : k.cpu.pipe.bubbles = 0
  masked : k.cpu.irqPending = false
  word : k.cpu.pipe.execute = e.returnWord
  control : k.cpu.control = m.step.cpu.control
  saved : k.cpu.regs.saved = m.step.cpu.regs.saved
  cell : ∀ b, ∀ n < 15, (b = Bank.ofMode e.mode → n = 13 → m.cpu.mode = e.mode) →
    k.cpu.cell b n = m.step.cpu.cell b n

theorem Leaves.mode (leaves : Leaves e m k) (due : e.Due m.cpu) : k.cpu.mode = e.mode := by
  rw [Cpu.mode, leaves.control]
  exact mode_step_exception due

theorem Leaves.savedStatus (leaves : Leaves e m k) (due : e.Due m.cpu) (mode : Mode) :
    k.cpu.regs.savedStatus mode =
      if mode = e.mode then some m.cpu.status.raw else m.cpu.regs.savedStatus mode := by
  rw [RegisterFile.savedStatus, leaves.saved]
  exact savedStatus_step_exception due mode

theorem Leaves.link (leaves : Leaves e m k) (due : e.Due m.cpu) :
    k.cpu.regs.read 14 = m.cpu.pc - 4 := by
  rw [← Cpu.cell_owner, leaves.cell _ 14 (by decide) (by simp), cell_step_exception due (by decide),
    leaves.mode due, Bank.owner_stack _ (Or.inr rfl), if_pos ⟨rfl, rfl⟩]

theorem Leaves.returned (leaves : Leaves e m k) (due : e.Due m.cpu) (arm : m.cpu.isThumb = false)
    (aligned : alignWord m.cpu.pc = m.cpu.pc) :
    k.cpu.Returned k.step.cpu m.cpu.status.raw (e.resume m.cpu) := by
  have saved : k.cpu.savedStatus = some m.cpu.status.raw := by
    rw [Cpu.savedStatus, leaves.mode due, leaves.savedStatus due, if_pos rfl]
  have byte : m.cpu.status.raw.toUInt8 = m.cpu.control := toUInt8_or_toUInt32 _ _
  have target : alignWord (m.cpu.pc - 4 - e.linkOffset) = e.resume m.cpu := by
    have eight : m.cpu.pc - 4 - 4 = m.cpu.pc - 8 := by grind
    cases e with
    | irq =>
      rw [Exception.linkOffset, eight]
      exact alignWord_sub aligned rfl
    | _ =>
      rw [Exception.linkOffset, UInt32.sub_zero]
      exact alignWord_sub aligned rfl
  have returned := step_returned leaves.settled leaves.masked leaves.word saved
    (by simpa [byte, Cpu.isThumb] using arm)
  rwa [leaves.link due, target] at returned

/-- Taking an exception and returning from it gives the interrupted program its status word, every
register it sees and every bank back, whatever mode it runs in. Only R14 and the saved status word
of the mode entered are spent, and the stack pointer of that mode is as the handler left it. The
program goes on where it was. -/
theorem exception_transparent (m k : Core β) (e : Exception) (arm : m.cpu.isThumb = false)
    (aligned : alignWord m.cpu.pc = m.cpu.pc) (due : e.Due m.cpu) (leaves : Leaves e m k) :
    k.step.cpu.status = m.cpu.status ∧
    (∀ n < 15, (n = 14 → m.cpu.mode ≠ e.mode) → k.step.cpu.regs.read n = m.cpu.regs.read n) ∧
    (∀ b, ∀ n < 15, b ≠ Bank.ofMode e.mode ∨ n ≠ 14 → k.step.cpu.cell b n =
      if b = Bank.ofMode e.mode ∧ n = 13 then k.cpu.cell b n else m.cpu.cell b n) ∧
    (∀ mode ≠ e.mode, k.step.cpu.regs.savedStatus mode = m.cpu.regs.savedStatus mode) ∧
    k.step.cpu.pipe.bubbles = 2 ∧ k.step.cpu.pc = e.resume m.cpu := by
  have returned := leaves.returned due arm aligned
  have control : k.step.cpu.control = m.cpu.control :=
    returned.control.trans (toUInt8_or_toUInt32 _ _)
  have kept : ∀ b, ∀ n < 15, b ≠ Bank.ofMode e.mode ∨ n ≠ 14 →
      (b = Bank.ofMode e.mode → n = 13 → m.cpu.mode = e.mode) →
      k.step.cpu.cell b n = m.cpu.cell b n := by
    intro b n hn hl hs
    have unspent : ¬ (b = Bank.ofMode e.mode ∧ n = 14) := by
      rintro ⟨hb, h14⟩
      exact hl.elim (· hb) (· h14)
    rw [returned.cell b n hn, leaves.cell b n hn hs, cell_step_exception due hn, if_neg unspent]
  refine ⟨?_, ?_, ?_, ?_, returned.refill, returned.pc⟩
  · rw [Cpu.status, returned.flags, control]
    exact congrArg StatusWord.mk (status_repacked _ _)
  · intro n hn hl
    have mode : k.step.cpu.mode = m.cpu.mode :=
      congrArg (fun c : UInt8 => Mode.ofBits c.toUInt32) control
    rw [← Cpu.cell_owner, mode, ← Cpu.cell_owner (c := m.cpu)]
    have own : ∀ n, n = 13 ∨ n = 14 →
        (Bank.ofMode m.cpu.mode).owner n = Bank.ofMode e.mode → m.cpu.mode = e.mode :=
      fun n hs ho => Exception.mode_of_bank ((Bank.owner_stack _ hs).symm.trans ho)
    have apart : (Bank.ofMode m.cpu.mode).owner n ≠ Bank.ofMode e.mode ∨ n ≠ 14 := by
      by_cases h14 : n = 14
      · exact Or.inl fun ho => hl h14 (own n (Or.inr h14) ho)
      · exact Or.inr h14
    exact kept _ n hn apart fun ho h13 => own n (Or.inl h13) ho
  · intro b n hn hl
    rw [returned.cell b n hn]
    split
    · rfl
    · next h =>
      have shared := kept b n hn hl fun hb h13 => absurd ⟨hb, h13⟩ h
      exact (returned.cell b n hn).symm.trans shared
  · intro mode hm
    rw [RegisterFile.savedStatus, returned.saved]
    exact (leaves.savedStatus due mode).trans (if_neg hm)

/-- Supervisor code under an interrupt whose handler counts in its own R13 and sets the flags. -/
theorem exception_transparent_counted :
    let rom : Rom := ⟨fun address => if address = 0x18 then 0xE29DD001 else
      if address = 0x1C then 0xE25EF004 else 0xE1A00000⟩
    let m := (start rom).run
      [.setStatus 0xA0000013, .branch 0x08000000, .step, .step, .step, .interruptLine 1]
    let k := m.run [.step, .step, .step, .step]
    Exception.irq.Due m.cpu ∧ Leaves .irq m k ∧ k.cpu.cell .irq 13 = 1 ∧
    k.step.cpu.status = ⟨0xA0000013⟩ ∧ k.step.cpu.pc = 0x08000004 := by
  intro rom m k
  have due : Exception.irq.Due m.cpu := by decide +kernel
  have leaves : Leaves .irq m k := {
    settled := by decide +kernel
    masked := by decide +kernel
    word := by decide +kernel
    control := by decide +kernel
    saved := by decide +kernel
    cell := fun b => by cases b <;> decide +kernel }
  have transparent :=
    exception_transparent m k .irq (by decide +kernel) (by decide +kernel) due leaves
  exact ⟨due, leaves, by decide +kernel, transparent.1.trans (by decide +kernel),
    transparent.2.2.2.2.2.trans (by decide +kernel)⟩

end Core
end GbaArm
