import GbaArm.Proofs.InterruptLine

/-!
A halted machine. While no request is enabled, steps and runs let time pass and do nothing else. The
request that ends this resumes the pipeline where it stood.
-/
namespace GbaArm

/-- Internal clocks touch the counters of the prefetcher alone. -/
theorem WaitStates.multiClock_counters (w : WaitStates) (pc : UInt32) (clocks : Nat) :
    ∃ buffered pending, (w.multiClock pc clocks).2 = { w with buffered, pending } := by
  unfold multiClock
  simp only
  split
  · split
    · exact ⟨w.buffered, _, rfl⟩
    · exact ⟨w.buffered, w.pending, rfl⟩
  · exact ⟨0, 0, rfl⟩

namespace Console

/-- After `n` cycles with nothing executing: only the clock and the counters of the prefetcher have
moved. -/
def Passed (s : Console) (n : Nat) (t : Console) : Prop := ∃ buffered pending,
  t = s.onBoard fun b =>
    { b with timing := b.timing.advance n, wait := { b.wait with buffered, pending } }

/-- After some time with nothing executing and some requests: in addition to what passing time
changes, requests are recorded and the processor has heard of them. -/
structure Dormant (s t : Console) : Prop where
  board : ∃ n buffered pending requested, t.board =
    { s.board with
      timing := s.board.timing.advance n
      wait := { s.board.wait with buffered, pending }
      io := { s.board.io with irq := { s.board.io.irq with requested } } }
  cpu : t.cpu = s.cpu.setIrqLine t.board.io.irq.line
  images : t.biosLoaded = s.biosLoaded ∧ t.romLoaded = s.romLoaded

/-- Dozes now, after each of the commands, and at the end. -/
def dozesThrough (s : Console) : List Command → Bool
  | [] => s.dozes
  | command :: rest => s.dozes && (s.obey command).dozesThrough rest

variable {s t u : Console} {n k : Nat}

theorem Passed.refl (s : Console) : s.Passed 0 s := ⟨s.board.wait.buffered, s.board.wait.pending, rfl⟩

theorem Passed.trans (h : s.Passed n t) (h' : t.Passed k u) : s.Passed (n + k) u := by
  obtain ⟨buffered, pending, rfl⟩ := h
  obtain ⟨buffered', pending', rfl⟩ := h'
  refine ⟨buffered', pending', ?_⟩
  simp only [onBoard, Core.onBus, Timing.advance, Nat.add_assoc]

theorem Passed.dozes (h : s.Passed n t) : t.dozes = s.dozes := by
  obtain ⟨buffered, pending, rfl⟩ := h
  rfl

theorem passed_step (h : s.dozes = true) : s.Passed 1 s.step.2 := by
  obtain ⟨buffered, pending, counters⟩ := s.board.wait.multiClock_counters s.board.pc 1
  rw [step_of_dozes h]
  exact ⟨buffered, pending, congrArg (fun wait => s.onBoard fun b =>
    { b with timing := b.timing.advance 1, wait }) counters⟩

theorem passed_steps (h : s.dozes = true) (n : Nat) :
    s.Passed n (s.obeyAll (List.replicate n .step)) := by
  induction n generalizing s with
  | zero => exact .refl s
  | succ n ih =>
    have first := passed_step h
    have rest := first.trans (ih (first.dozes.trans h))
    rwa [Nat.add_comm] at rest

/-- Each turn of the loop is one idle cycle, until the budget is met. -/
theorem runLoop_of_dozes {left fuel : Nat} (h : s.dozes = true) (enough : left ≤ fuel) (spent : Nat) :
    runLoop (spent + left) fuel spent s =
      (.ok (spent + left), s.obeyAll (List.replicate left .step)) := by
  induction left generalizing fuel spent s with
  | zero =>
    cases fuel with
    | zero => rfl
    | succ fuel => exact if_neg (Nat.lt_irrefl spent)
  | succ left ih =>
    obtain ⟨fuel, rfl⟩ : ∃ rest, fuel = rest + 1 := ⟨fuel - 1, by omega⟩
    have stepped : s.step = (.ok 1, s.step.2) := by rw [step_of_dozes h]
    have rest := ih ((passed_step h).dozes.trans h) (Nat.le_of_succ_le_succ enough) (spent + 1)
    rw [Nat.add_right_comm, Nat.add_assoc] at rest
    rw [runLoop, if_pos (by omega), stepped]
    exact rest

theorem run_of_dozes (h : s.dozes = true) (n : Nat) :
    s.run n = (.ok n, s.obeyAll (List.replicate n .step)) := by
  have enough : n ≤ stepsPerCycle * n := Nat.le_mul_of_pos_left n (by decide)
  have looped := runLoop_of_dozes h enough 0
  rwa [Nat.zero_add] at looped

/-- What the processor heard before is forgotten when it hears again. -/
theorem Dormant.trans (h : s.Dormant t) (h' : t.Dormant u) : s.Dormant u := by
  obtain ⟨n, buffered, pending, requested, board⟩ := h.board
  obtain ⟨n', buffered', pending', requested', board'⟩ := h'.board
  refine ⟨⟨n + n', buffered', pending', requested', ?_⟩, ?_, ?_⟩
  · rw [board', board]
    simp only [Timing.advance, Nat.add_assoc]
  · rw [h'.cpu, h.cpu]
    rfl
  · rw [h'.images.1, h'.images.2]
    exact h.images

theorem Passed.dormant (h : s.Passed n t) (consistent : s.Consistent) : s.Dormant t := by
  obtain ⟨buffered, pending, rfl⟩ := h
  have known : s.cpu.setIrqLine s.board.io.irq.line = s.cpu :=
    Cpu.setIrqLine_known consistent.line consistent.pending
  exact ⟨⟨n, buffered, pending, s.board.io.irq.requested, rfl⟩, known.symm, rfl, rfl⟩

theorem dormant_request (s : Console) (line : IrqLine) : s.Dormant (s.request line) :=
  ⟨⟨0, s.board.wait.buffered, s.board.wait.pending, _, rfl⟩, rfl, rfl, rfl⟩

theorem dozes_reset (s : Console) : s.reset.dozes = false := by
  have running : s.reset.board.timing.power = .running := (booting_reset s).running
  simp [dozes, Timing.isIdle, running]

/-- A command that leaves a dozing console dozing is a pause, a request, or a load that failed. -/
theorem dormant_obey (consistent : s.Consistent) (dozes : s.dozes = true) {command : Command}
    (still : (s.obey command).dozes = true) : s.Dormant (s.obey command) := by
  have restarted : ∀ s' : Console, s'.reset.dozes = true → s.Dormant s'.reset := fun s' on => by
    rw [dozes_reset] at on
    cases on
  have loaded : ∀ kind image, ((s.load kind image).toOption.getD s).dozes = true →
      s.Dormant ((s.load kind image).toOption.getD s) := by
    intro kind image on
    cases hl : s.load kind image with
    | error fault => exact (Passed.refl s).dormant consistent
    | ok t =>
      obtain ⟨s', rfl⟩ := load_reset hl
      rw [hl] at on
      exact restarted s' on
  cases command with
  | load kind image => exact loaded kind image still
  | loadFile kind file =>
    cases file with
    | ok image => exact loaded kind image still
    | error e => exact (Passed.refl s).dormant consistent
  | reset => exact restarted s still
  | request line => exact dormant_request s line
  | step => exact (passed_step dozes).dormant consistent
  | run budget =>
    rw [obey, run_of_dozes dozes]
    exact (passed_steps dozes budget).dormant consistent

theorem dormant_obeyAll (consistent : s.Consistent) {naps : List Command}
    (h : s.dozesThrough naps = true) : s.Dormant (s.obeyAll naps) := by
  induction naps generalizing s with
  | nil => exact (Passed.refl s).dormant consistent
  | cons command rest ih =>
    obtain ⟨dozes, others⟩ := Bool.and_eq_true_iff.mp h
    have still : (s.obey command).dozes = true := by
      cases rest with
      | nil => exact others
      | cons => exact (Bool.and_eq_true_iff.mp others).1
    have next : (s.obey command).Consistent := consistent.obeyAll [command]
    exact (dormant_obey consistent dozes still).trans (ih next others)

theorem Dormant.requestAll (h : s.Dormant t) (lines : List IrqLine) :
    s.Dormant (t.requestAll lines) := by
  induction lines generalizing t with
  | nil => exact h
  | cons line rest ih => exact ih (h.trans (dormant_request t line))

theorem Dormant.isRefilling (h : s.Dormant t) : t.cpu.isRefilling = s.cpu.isRefilling := by
  rw [h.cpu]
  rfl

theorem Dormant.isThumb (h : s.Dormant t) : t.cpu.isThumb = s.cpu.isThumb := by
  rw [h.cpu]
  rfl

/-- With a match, the interrupt is pending unless one of the two masks stood in its way already. -/
theorem Dormant.irqPending_iff (h : s.Dormant t) (matched : t.board.io.irq.matching ≠ 0) :
    t.cpu.irqPending = true ↔ s.board.io.irq.masterEnable = true ∧ s.cpu.status.i = false := by
  obtain ⟨n, buffered, pending, requested, board⟩ := h.board
  have master : t.board.io.irq.masterEnable = s.board.io.irq.masterEnable := by rw [board]
  have heard : t.cpu.irqPending = (t.board.io.irq.line != 0 && !s.cpu.irqDisabled) := by
    conv => lhs; rw [h.cpu]
    rfl
  rw [heard, Cpu.status_i, InterruptController.line, master]
  cases s.board.io.irq.masterEnable <;> simp [matched]

/-- A machine that is not running and finds no request enabled lets time pass: each of `n` steps gives
one cycle, a run of `n` cycles is those steps, and only the clock and the counters of the prefetcher
have moved. Say a host has brought it there since power-on, in ARM state, and leaves it there for a
while; then nothing but those and the requests has changed. On the first step with a request enabled it
is awake and makes the step of the pipeline that was due all along: a bubble, the entry into the
interrupt if that was let through and not masked, or an instruction. -/
theorem halt_transparent (s : Console) (halted : s.board.timing.power ≠ .running)
    (unmatched : s.board.io.irq.matching = 0) :
    (∀ n, let t := s.obeyAll (List.replicate n .step)
      (∀ i < n, (s.obeyAll (List.replicate i .step)).step.1 = .ok 1) ∧
      s.run n = (.ok n, t) ∧ s.Passed n t) ∧
    ∀ log commands, s = (initial log).obeyAll commands → s.cpu.isThumb = false →
      ∀ naps, s.dozesThrough naps = true → ∀ lines,
        let u := (s.obeyAll naps).requestAll lines
        u.board.io.irq.matching ≠ 0 → s.Dormant u ∧
        ∃ log', let k := u.atWork log'
          let next :=
            if s.cpu.isRefilling then k.stepBubble
            else if s.board.io.irq.masterEnable = true ∧ s.cpu.status.i = false then k.irq
            else k.stepInstruction
          u.step = (.ok (next.bus.timing.cycles - u.cycles), { u with core := next }.refreshIrq) := by
  have dozes : s.dozes = true := dozes_iff.mpr ⟨by simpa [Timing.isIdle] using halted, unmatched⟩
  refine ⟨fun n => ⟨fun i _ => ?_, run_of_dozes dozes n, passed_steps dozes n⟩, ?_⟩
  · rw [step_of_dozes ((passed_steps dozes i).dozes.trans dozes)]
  · intro log commands reached arm naps through lines u matched
    have consistent : s.Consistent := reached ▸ (consistent_initial log).obeyAll commands
    have dormant : s.Dormant u := (dormant_obeyAll consistent through).requestAll lines
    have awake : u.dozes = false := by simp [Console.dozes, matched]
    obtain ⟨log', stepped⟩ := step_atWork awake (dormant.isThumb.trans arm)
    refine ⟨dormant, log', ?_⟩
    have due : (u.atWork log').step = if s.cpu.isRefilling then (u.atWork log').stepBubble
        else if s.board.io.irq.masterEnable = true ∧ s.cpu.status.i = false then (u.atWork log').irq
        else (u.atWork log').stepInstruction := by
      simp only [← dormant.isRefilling, ← dormant.irqPending_iff matched]
      rfl
    rw [due] at stepped
    exact stepped

/-- The halted console sleeps through a request that is not enabled, and enters the interrupt of the
vertical blank with the step that wakes it. -/
theorem halt_transparent_vBlank :
    let s := (initial .silent).obeyAll (haltCommands.take 9)
    let naps := [.step, .request .hBlank, .step]
    let u := (s.obeyAll naps).requestAll [.vBlank]
    s.board.timing.power ≠ .running ∧ s.board.io.irq.matching = 0 ∧
    s.run 1000 = (.ok 1000, s.obeyAll (List.replicate 1000 .step)) ∧
    s.cpu.isThumb = false ∧ s.dozesThrough naps = true ∧ u.board.io.irq.matching ≠ 0 ∧
    s.Dormant u ∧
    ∃ clocks log', u.step = (.ok clocks, { u with core := (u.atWork log').irq }.refreshIrq) := by
  have halted : ((initial .silent).obeyAll (haltCommands.take 9)).board.timing.power ≠ .running := by
    decide +kernel
  have unmatched : ((initial .silent).obeyAll (haltCommands.take 9)).board.io.irq.matching = 0 := by
    decide +kernel
  have arm : ((initial .silent).obeyAll (haltCommands.take 9)).cpu.isThumb = false := by
    decide +kernel
  have full : ((initial .silent).obeyAll (haltCommands.take 9)).cpu.isRefilling = false := by
    decide +kernel
  have unmasked : ((initial .silent).obeyAll (haltCommands.take 9)).board.io.irq.masterEnable = true ∧
      ((initial .silent).obeyAll (haltCommands.take 9)).cpu.status.i = false := by decide +kernel
  have through : ((initial .silent).obeyAll (haltCommands.take 9)).dozesThrough
      [.step, .request .hBlank, .step] = true := by decide +kernel
  have matched : ((((initial .silent).obeyAll (haltCommands.take 9)).obeyAll
      [.step, .request .hBlank, .step]).requestAll [.vBlank]).board.io.irq.matching ≠ 0 := by
    decide +kernel
  have law := halt_transparent _ halted unmatched
  have reached := law.2 .silent (haltCommands.take 9) rfl arm _ through [.vBlank] matched
  generalize (initial .silent).obeyAll (haltCommands.take 9) = s at *
  obtain ⟨dormant, log', stepped⟩ := reached
  simp only [full, unmasked] at stepped
  exact ⟨halted, unmatched, (law.1 1000).2.1, arm, through, matched, dormant, _, log', stepped⟩

end Console

end GbaArm
