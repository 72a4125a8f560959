import GbaArm.Proofs.ConsoleRuns

/-!
The interrupt line of the whole machine: what the processor takes for pending is what the controller
lets through and the status word does not mask, and it is answered once the pipeline is full.
-/
namespace GbaArm

/-- A request withdraws none of the others. -/
theorem InterruptController.line_request {c : InterruptController} (h : c.line ≠ 0) (line : IrqLine) :
    (c.request line).line ≠ 0 := by
  have grown : c.matching &&& (c.request line).matching = c.matching := by
    apply UInt16.toBitVec_inj.mp
    apply BitVec.eq_of_getLsbD_eq
    intro i hi
    simp only [matching, request, UInt16.toBitVec_and, UInt16.toBitVec_or, BitVec.getLsbD_and,
      BitVec.getLsbD_or]
    cases c.enabled.toBitVec.getLsbD i <;> cases c.requested.toBitVec.getLsbD i <;> rfl
  unfold InterruptController.line at h ⊢
  split at h
  · next enabled =>
    rw [if_pos (show (c.request line).masterEnable = true from enabled)]
    intro quiet
    rw [quiet, UInt16.and_zero] at grown
    exact h grown.symm
  · exact absurd rfl h

namespace Cpu

variable {c : Cpu} {requests : UInt16}

/-- To hear again what is known changes nothing. -/
theorem setIrqLine_known (line : c.irqLine = (requests != 0))
    (pending : c.irqPending = (c.irqLine && !c.irqDisabled)) : c.setIrqLine requests = c := by
  have heard : { c with irqLine := requests != 0 } = c := by rw [← line]
  rw [setIrqLine, heard, refreshIrq, ← pending]

end Cpu

namespace Console

variable {s : Console} {lines : Nat → List IrqLine}

theorem Consistent.irqPending_iff (h : s.Consistent) :
    s.cpu.irqPending = true ↔ s.board.io.irq.line ≠ 0 ∧ s.cpu.status.i = false := by
  rw [h.pending, h.line, Cpu.status_i]
  simp

def requestAll (s : Console) (lines : List IrqLine) : Console := lines.foldl request s

/-- The console about to make step `n`, with the requests `lines i` raised ahead of each step `i`. -/
def before (s : Console) (lines : Nat → List IrqLine) : Nat → Console
  | 0 => s.requestAll (lines 0)
  | n + 1 => (s.before lines n).step.2.requestAll (lines (n + 1))

/-- The processor on its bus as waking leaves it. -/
def atWork (s : Console) (log : Log) : Core Board :=
  ⟨s.cpu, { s.board with timing := { s.board.timing with power := .running }, log }⟩

/-- Awake in ARM state, the processor steps on the bus as it is once woken, and then hears of the line
again. -/
theorem step_atWork (awake : s.dozes = false) (arm : s.cpu.isThumb = false) : ∃ log,
    s.step = (.ok ((s.atWork log).step.bus.timing.cycles - s.cycles),
      { s with core := (s.atWork log).step }.refreshIrq) := by
  obtain ⟨log, board⟩ := woken_board s
  have core : s.woken.core = s.atWork log := congrArg (Core.mk s.cpu) board
  have cycles : s.woken.cycles = s.cycles := congrArg (·.timing.cycles) board
  have stepped := stepCore_arm (s := s.woken) arm
  rw [core, cycles] at stepped
  exact ⟨log, (step_of_awake awake).trans stepped⟩

/-- An interrupt is pending in ARM state. -/
structure Awaits (s : Console) : Prop where
  consistent : s.Consistent
  pending : s.cpu.irqPending = true
  arm : s.cpu.isThumb = false

namespace Awaits

theorem line (h : s.Awaits) : s.board.io.irq.line ≠ 0 := (h.consistent.irqPending_iff.mp h.pending).1

theorem raised (h : s.Awaits) : s.cpu.irqLine = true := by
  rw [h.consistent.line]
  simpa using h.line

theorem due (h : s.Awaits) : s.cpu.due = none := by simp [Cpu.due, h.pending]

theorem awake (h : s.Awaits) : s.dozes = false := by
  cases dozes : s.dozes with
  | true => exact absurd (InterruptController.line_of_unmatched (dozes_iff.mp dozes).2) h.line
  | false => rfl

theorem request_cpu (h : s.Awaits) (line : IrqLine) : (s.request line).cpu = s.cpu := by
  have louder := InterruptController.line_request h.line line
  exact Cpu.setIrqLine_known (h.raised.trans (bne_iff_ne.mpr louder).symm) h.consistent.pending

theorem request (h : s.Awaits) (line : IrqLine) : (s.request line).Awaits :=
  ⟨h.consistent.request line, h.request_cpu line ▸ h.pending, h.request_cpu line ▸ h.arm⟩

theorem requestAll (h : s.Awaits) (lines : List IrqLine) :
    (s.requestAll lines).Awaits ∧ (s.requestAll lines).cpu = s.cpu := by
  induction lines generalizing s with
  | nil => exact ⟨h, rfl⟩
  | cons line rest ih =>
    obtain ⟨awaits, cpu⟩ := ih (h.request line)
    exact ⟨awaits, cpu.trans (h.request_cpu line)⟩

theorem step_eq (h : s.Awaits) : ∃ clocks log,
    s.step = (.ok clocks, { s with core := (s.atWork log).step }.refreshIrq) := by
  obtain ⟨log, stepped⟩ := step_atWork h.awake h.arm
  exact ⟨_, log, stepped⟩

theorem step_bubble (h : s.Awaits) (refilling : s.cpu.isRefilling = true) :
    s.step.2.Awaits ∧ s.step.2.cpu = s.core.stepBubble.cpu ∧
    s.step.2.board.timing.power = .running := by
  obtain ⟨clocks, log, stepped⟩ := h.step_eq
  rw [Core.step_of_refilling (m := s.atWork log) refilling] at stepped
  have cpu : s.step.2.cpu = s.core.stepBubble.cpu := by
    rw [stepped]
    exact Cpu.setIrqLine_known h.consistent.line h.consistent.pending
  refine ⟨⟨h.consistent.step, ?_, ?_⟩, cpu, ?_⟩
  · exact cpu ▸ h.pending
  · exact cpu ▸ h.arm
  · rw [stepped]
    rfl

theorem step_irq (h : s.Awaits) (full : s.cpu.isRefilling = false) :
    s.step.2.cpu = s.core.irq.cpu ∧ s.step.2.board.timing.power = .running := by
  obtain ⟨clocks, log, stepped⟩ := h.step_eq
  obtain ⟨_, asleep⟩ := Core.irq_eq s.core
  obtain ⟨_, entered⟩ := Core.irq_eq (s.atWork log)
  rw [stepped, Core.step_of_pending (m := s.atWork log) full h.pending, entered, asleep]
  exact ⟨Cpu.setIrqLine_known h.consistent.line rfl, rfl⟩

theorem step_free (h : s.Awaits) (full : s.cpu.isRefilling = false) : s.step.1 = .ok 0 := by
  have taken : s.cpu.takesIrq = true := by simp [Cpu.takesIrq, full, h.pending]
  have ticks := h.consistent.ticks
  generalize s.step = result at ticks
  cases ticks with
  | works untaken => simp [taken] at untaken
  | enters => rfl
  | refuses thumb => simp [h.arm] at thumb

/-- The interrupt stays pending while the pipeline refills, whatever else is requested. -/
theorem before (h : s.Awaits) (lines : Nat → List IrqLine) {i : Nat}
    (hi : i ≤ s.cpu.pipe.bubbles) :
    (s.before lines i).Awaits ∧
    (s.before lines i).cpu.pipe.bubbles = s.cpu.pipe.bubbles - i := by
  induction i with
  | zero =>
    obtain ⟨awaits, cpu⟩ := h.requestAll (lines 0)
    exact ⟨awaits, congrArg (·.pipe.bubbles) cpu⟩
  | succ i ih =>
    obtain ⟨awaits, bubbles⟩ := ih (Nat.le_of_succ_le hi)
    have refilling : (s.before lines i).cpu.isRefilling = true := by
      simp [Cpu.isRefilling, bubbles]
      omega
    obtain ⟨stepped, cpu, -⟩ := awaits.step_bubble refilling
    obtain ⟨awaits', cpu'⟩ := stepped.requestAll (lines (i + 1))
    have one : (s.before lines (i + 1)).cpu.pipe.bubbles = (s.before lines i).cpu.pipe.bubbles - 1 :=
      congrArg (·.pipe.bubbles) (cpu'.trans cpu)
    exact ⟨awaits', by omega⟩

end Awaits

/-- Whatever a host has asked since power-on, the processor takes an interrupt for pending exactly
if the controller lets a request through and the status word does not mask it. If one is pending in
ARM state, at most two steps refill the pipeline and the one after them enters the interrupt, awake,
with nothing executed on the way. Requests that come in between make no difference. -/
theorem irq_answered (log : Log) (commands : List Command) :
    let s := (initial log).obeyAll commands
    (s.cpu.irqPending = true ↔ s.board.io.irq.line ≠ 0 ∧ s.cpu.status.i = false) ∧
    (s.cpu.irqPending = true → s.cpu.isThumb = false → ∀ lines : Nat → List IrqLine,
      let n := s.cpu.pipe.bubbles
      n ≤ 2 ∧
      (∀ i < n, let k := s.before lines i
        k.cpu.isRefilling = true ∧ k.cpu.due = none ∧ (∃ clocks, k.step.1 = .ok clocks) ∧
        k.step.2.cpu = k.core.stepBubble.cpu ∧ k.step.2.board.timing.power = .running) ∧
      let k := s.before lines n
      k.cpu.isRefilling = false ∧ k.cpu.due = none ∧ k.step.1 = .ok 0 ∧
      k.step.2.cpu = k.core.irq.cpu ∧ k.step.2.cpu.mode = .irq ∧ k.step.2.cpu.pc = 0x18 ∧
      k.step.2.board.timing.power = .running) := by
  intro s
  have consistent : s.Consistent := (consistent_initial log).obeyAll commands
  refine ⟨consistent.irqPending_iff, fun pending arm lines => ?_⟩
  have awaits : s.Awaits := ⟨consistent, pending, arm⟩
  refine ⟨consistent.bubbles, fun i hi => ?_, ?_⟩
  · obtain ⟨waiting, bubbles⟩ := awaits.before lines (Nat.le_of_lt hi)
    have refilling : (s.before lines i).cpu.isRefilling = true := by
      simp [Cpu.isRefilling, bubbles]
      omega
    obtain ⟨-, cpu, running⟩ := waiting.step_bubble refilling
    obtain ⟨clocks, _, stepped⟩ := waiting.step_eq
    exact ⟨refilling, waiting.due, ⟨clocks, congrArg Prod.fst stepped⟩, cpu, running⟩
  · obtain ⟨waiting, bubbles⟩ := awaits.before lines (Nat.le_refl _)
    have full : (s.before lines s.cpu.pipe.bubbles).cpu.isRefilling = false := by
      simp [Cpu.isRefilling, bubbles]
    obtain ⟨cpu, running⟩ := waiting.step_irq full
    obtain ⟨_, entered⟩ := Core.irq_eq (s.before lines s.cpu.pipe.bubbles).core
    refine ⟨full, waiting.due, waiting.step_free full, cpu, ?_, ?_, running⟩
    · rw [cpu, entered]
      exact Cpu.mode_enterException
    · rw [cpu, entered]
      exact RegisterFile.pc_setPc

/-- The vertical blank wakes the halted console, which enters the interrupt at once. -/
theorem irq_answered_halted :
    let s := (initial .silent).obeyAll haltCommands
    s.cpu.irqPending = true ∧ s.cpu.isThumb = false ∧ s.board.timing.power = .halted ∧
    s.step.1 = .ok 0 ∧ s.step.2.cpu.mode = .irq ∧ s.step.2.cpu.pc = 0x18 ∧
    s.step.2.board.timing.power = .running := by
  have answered := (irq_answered .silent haltCommands).2
  have pending : ((initial .silent).obeyAll haltCommands).cpu.irqPending = true := by decide +kernel
  have arm : ((initial .silent).obeyAll haltCommands).cpu.isThumb = false := by decide +kernel
  have full : ((initial .silent).obeyAll haltCommands).cpu.pipe.bubbles = 0 := by decide +kernel
  have halted : ((initial .silent).obeyAll haltCommands).board.timing.power = .halted := by
    decide +kernel
  generalize (initial .silent).obeyAll haltCommands = s at *
  have ready : s.before (fun _ => []) s.cpu.pipe.bubbles = s := by
    rw [full]
    rfl
  have now := (answered pending arm fun _ => []).2.2
  rw [ready] at now
  obtain ⟨-, -, free, -, entered⟩ := now
  exact ⟨pending, arm, halted, free, entered⟩

end Console

end GbaArm
