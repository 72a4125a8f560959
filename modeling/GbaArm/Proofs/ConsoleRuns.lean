import GbaArm.Console
import GbaArm.Proofs.BankLimit
import GbaArm.Proofs.Exceptions

/-!
Runs of the whole machine: what a host may ask of it, what holds whatever was asked, and what one
step comes to.
-/
namespace GbaArm

/-- What a host may ask of a console. -/
inductive Command
  | load (kind : ImageKind) (image : ByteArray)
  | loadFile (kind : ImageKind) (file : Except FileError ByteArray)
  | reset
  | request (line : IrqLine)
  | step
  | run (budget : Nat)

/-- Lets nothing execute. -/
def Command.isPause : Command → Bool
  | step | run _ => false
  | _ => true

namespace Console

/-- A load that fails leaves the console as it was. -/
def obey (s : Console) : Command → Console
  | .load kind image => (s.load kind image).toOption.getD s
  | .loadFile kind file => (s.loadFile kind file).toOption.getD s
  | .reset => s.reset
  | .request line => s.request line
  | .step => s.step.2
  | .run budget => (s.run budget).2

def obeyAll (s : Console) (commands : List Command) : Console := commands.foldl obey s

/-- Loads a cartridge that lets the vertical blank through and halts, runs it that far, and raises
the vertical blank. -/
def haltCommands : List Command :=
  .load .rom ⟨#[0x01, 0x13, 0xA0, 0xE3, 0x02, 0x1C, 0x81, 0xE2, 0x01, 0x00, 0xA0, 0xE3,
    0xB0, 0x00, 0xC1, 0xE1, 0xB8, 0x00, 0xC1, 0xE1, 0x01, 0x01, 0xC1, 0xE5, 0xFE, 0xFF, 0xFF, 0xEA]⟩ ::
  List.replicate 8 .step ++ [.request .vBlank]

/-- The console as it goes to work: a halted one is woken. -/
def woken (s : Console) : Console :=
  s.onBoard fun b => if b.timing.isIdle then b.changePower .wake else b

/-- Halted, and nothing requested that could end it. -/
def dozes (s : Console) : Bool := s.board.timing.isIdle && s.board.io.irq.matching == 0

/-- Between commands the settings are sound, the bank can take the clock of the next fetch, no more than a
refill is due, and the processor knows which requests reach it and whether they are masked. -/
structure Consistent (s : Console) : Prop where
  sound : s.board.wait.Sound
  ready : s.board.Ready s.cpu.pc
  bubbles : s.cpu.pipe.bubbles ≤ 2
  line : s.cpu.irqLine = (s.board.io.irq.line != 0)
  pending : s.cpu.irqPending = (s.cpu.irqLine && !s.cpu.irqDisabled)

/-- About to refill the pipeline. -/
structure Poised (s : Console) : Prop where
  refilling : s.cpu.isRefilling = true
  arm : s.cpu.isThumb = false
  running : s.board.timing.power = .running

end Console

theorem InterruptController.line_of_unmatched {c : InterruptController} (h : c.matching = 0) :
    c.line = 0 := by
  rw [line, h, ite_self]

namespace Core

theorem noteMode_bus (m : Core Board) (mode : Mode) :
    ∃ log, (m.noteMode mode).bus = { m.bus with log } := by
  rw [noteMode]
  split
  · exact ⟨m.bus.log, rfl⟩
  · exact ⟨_, rfl⟩

/-- Of the bus, entering an interrupt touches the log and the fetch stream alone. -/
theorem irq_eq (m : Core Board) : ∃ log,
    m.irq = (⟨m.cpu.enterException .irq, { m.bus with log }⟩ : Core Board).branch 0x18 := by
  obtain ⟨log, bus⟩ := noteMode_bus m .irq
  have noted : m.noteMode .irq = ⟨m.cpu, { m.bus with log }⟩ := by
    rw [← bus, ← noteMode_cpu m .irq]
  let k : Core Board := (⟨m.cpu.enterException .irq, { m.bus with log }⟩ : Core Board).branch 0x18
  rw [irq, enterException, noted]
  exact ⟨log.note (.exceptionEntered .irq 0x18 (k.cpu.regs.read 14)), rfl⟩

/-- A machine that a reset is bringing up. -/
structure Booting (m : Core Board) : Prop where
  sound : m.bus.wait.Sound
  empty : m.bus.wait.pending = 0
  quiet : m.bus.io.irq.line = 0
  running : m.bus.timing.power = .running
  bubbles : m.cpu.pipe.bubbles = 2
  line : m.cpu.irqLine = false
  pending : m.cpu.irqPending = false
  arm : m.cpu.isThumb = false

variable {m : Core Board}

theorem booting_initial {b : Board} (sound : b.wait.Sound) (empty : b.wait.pending = 0)
    (quiet : b.io.irq.line = 0) (running : b.timing.power = .running) : Booting ⟨Cpu.initial, b⟩ :=
  ⟨sound, empty, quiet, running, rfl, rfl, rfl, (by decide : Cpu.initial.isThumb = false)⟩

theorem Booting.branch (h : Booting m) (target : UInt32) : Booting (m.branch target) :=
  { h with sound := { h.sound.breakSequence.resetPrefetch with }, empty := rfl, bubbles := rfl }

theorem Booting.writeReg (h : Booting m) (n : Nat) (value : UInt32) :
    Booting (m.onCpu fun c => c.writeReg n value) := { h with }

theorem Booting.setStatus (h : Booting m) (value : UInt32) (arm : value.toUInt8 &&& 0x20 = 0) :
    Booting (m.setStatus value) := by
  obtain ⟨log, noted⟩ := noteMode_bus m (Mode.ofBits value)
  have bus : (m.setStatus value).bus = { m.bus with log } := noted
  have cpu : (m.setStatus value).cpu = m.cpu.setStatus value :=
    congrArg (Cpu.setStatus · value) (noteMode_cpu m _)
  have pending : (m.cpu.setStatus value).irqPending = false := by
    show (m.cpu.irqLine && _) = false
    rw [h.line, Bool.false_and]
  exact
    { sound := bus ▸ h.sound
      empty := bus ▸ h.empty
      quiet := bus ▸ h.quiet
      running := bus ▸ h.running
      bubbles := cpu ▸ h.bubbles
      line := cpu ▸ h.line
      pending := cpu ▸ pending
      arm := by simp [cpu, Cpu.isThumb, Cpu.setStatus, Cpu.setControl, Cpu.refreshIrq, arm] }

theorem Booting.skipBoot (h : Booting m) (entry : UInt32) : Booting (m.skipBoot entry) := by
  have supervisor := (h.setStatus 0x13 (by decide)).writeReg 13 0x03007FE0
  have irq := (supervisor.setStatus 0x12 (by decide)).writeReg 13 0x03007FA0
  have system := (irq.setStatus 0x1F (by decide)).writeReg 13 0x03007F00
  exact system.branch entry

theorem bubbles_step {β : Type} [Bus β] {m : Core β} (h : m.cpu.pipe.bubbles ≤ 2) :
    m.step.cpu.pipe.bubbles ≤ 2 := by
  have cpu : m.step.cpu = m.traced.step.cpu := congrArg Core.cpu (step_traced m)
  have landed : ∀ {k k' : Core (Traced β)}, k.cpu.pipe.bubbles ≤ 2 → Lands k k' →
      k'.cpu.pipe.bubbles ≤ 2 := fun few lands => by
    obtain refill | ⟨same, -⟩ := lands.pc
    · exact Nat.le_of_eq refill
    · exact same ▸ few
  rw [cpu]
  obtain ⟨-, hs⟩ | ⟨-, -, hs⟩ | ⟨-, op, -, hs⟩ | ⟨-, hs⟩ := step_cases m.traced
  · exact hs ▸ Nat.le_trans (Nat.sub_le _ _) h
  · exact hs ▸ Nat.le_refl 2
  · have executed := landed (k := m.traced.fetch) h (execute_lands _ m.traced.cpu.pipe.execute op)
    exact hs ▸ executed
  · exact hs ▸ h

end Core

namespace Console

variable {s t : Console}

theorem booting_reset (s : Console) : Core.Booting s.reset.core := by
  have fresh : Core.Booting ⟨Cpu.initial, s.core.bus.reset⟩ :=
    Core.booting_initial WaitStates.sound_initial rfl rfl rfl
  unfold reset
  simp only
  split
  · exact fresh.branch 0
  · split
    · exact fresh.skipBoot romStart
    · exact fresh

theorem consistent_of_booting (h : Core.Booting s.core) : s.Consistent where
  sound := h.sound
  ready := Board.ready_of_empty h.empty
  bubbles := Nat.le_of_eq h.bubbles
  line := by rw [cpu, h.line, board, h.quiet]; rfl
  pending := by rw [cpu, h.line, h.pending, Bool.false_and]

theorem poised_of_booting (h : Core.Booting s.core) : s.Poised where
  refilling := by simp [cpu, Cpu.isRefilling, h.bubbles]
  arm := h.arm
  running := h.running

theorem consistent_initial (log : Log) : (initial log).Consistent :=
  consistent_of_booting (Core.booting_initial (b := .initial log) WaitStates.sound_initial rfl rfl rfl)

theorem consistent_reset (s : Console) : s.reset.Consistent := consistent_of_booting (booting_reset s)

theorem poised_reset (s : Console) : s.reset.Poised := poised_of_booting (booting_reset s)

theorem load_reset {kind : ImageKind} {image : ByteArray} (h : s.load kind image = .ok t) :
    ∃ s' : Console, t = s'.reset := by
  unfold load at h
  cases loaded : s.board.load kind image with
  | error fault => rw [loaded] at h; cases h
  | ok board =>
    rw [loaded] at h
    cases kind <;> exact ⟨_, (Except.ok.inj h).symm⟩

/-- A command that executes nothing keeps what a reset establishes and a request keeps. -/
theorem obey_pause {P : Console → Prop} (reset : ∀ s : Console, P s.reset)
    (request : ∀ s line, P s → P (s.request line)) (h : P s) {command : Command}
    (pause : command.isPause = true) : P (s.obey command) := by
  have loaded : ∀ kind image, P ((s.load kind image).toOption.getD s) := by
    intro kind image
    cases hl : s.load kind image with
    | error fault => exact h
    | ok t =>
      obtain ⟨s', rfl⟩ := load_reset hl
      exact reset s'
  cases command with
  | load kind image => exact loaded kind image
  | loadFile kind file =>
    cases file with
    | ok image => exact loaded kind image
    | error e => exact h
  | reset => exact reset s
  | request line => exact request s line h
  | step | run => cases pause

theorem runLoop_keeps {P : Console → Prop} (step : ∀ s : Console, P s → P s.step.2)
    (budget fuel spent : Nat) (h : P s) : P (runLoop budget fuel spent s).2 := by
  induction fuel generalizing spent s with
  | zero => exact h
  | succ fuel ih =>
    have next := step s h
    unfold runLoop
    split
    · split
      · next stepped => exact ih _ (by simpa [stepped] using next)
      · next stepped => simpa [stepped] using next
    · exact h

theorem obey_keeps {P : Console → Prop} (reset : ∀ s : Console, P s.reset)
    (request : ∀ s line, P s → P (s.request line)) (step : ∀ s : Console, P s → P s.step.2)
    (h : P s) (command : Command) : P (s.obey command) := by
  cases hp : command.isPause with
  | true => exact obey_pause reset request h hp
  | false =>
    -- The two commands that execute.
    cases command with
    | step => exact step s h
    | run budget => exact runLoop_keeps step budget _ 0 h
    | load | loadFile | reset | request => cases hp

theorem dozes_iff :
    s.dozes = true ↔ s.board.timing.isIdle = true ∧ s.board.io.irq.matching = 0 := by
  simp [dozes]

theorem step_of_dozes (h : s.dozes = true) : s.step = (.ok 1, s.onBoard Board.idle) := by
  obtain ⟨idle, unmatched⟩ := dozes_iff.mp h
  have clock : (s.onBoard Board.idle).cycles - s.cycles = 1 := Nat.add_sub_cancel_left _ _
  rw [step, if_pos idle, if_pos unmatched, ← clock]

theorem step_of_awake (h : s.dozes = false) : s.step = s.woken.stepCore := by
  cases idle : s.board.timing.isIdle with
  | true =>
    have matched : s.board.io.irq.matching ≠ 0 := by simpa [dozes, idle] using h
    have woken : s.woken = s.onBoard fun b => b.changePower .wake :=
      congrArg (fun board => s.onBoard fun _ => board) (if_pos idle)
    rw [step, if_pos idle, if_neg matched, woken]
  | false =>
    have woken : s.woken = s :=
      congrArg (fun board => s.onBoard fun _ => board) (if_neg (Bool.eq_false_iff.mp idle))
    rw [step, if_neg (Bool.eq_false_iff.mp idle), woken]

theorem woken_board (s : Console) : ∃ log, s.woken.board =
    { s.board with timing := { s.board.timing with power := .running }, log } := by
  cases idle : s.board.timing.isIdle with
  | true => exact ⟨_, if_pos idle⟩
  | false =>
    have running : s.board.timing.power = .running := by simpa [Timing.isIdle] using idle
    refine ⟨s.board.log, (if_neg (Bool.eq_false_iff.mp idle)).trans ?_⟩
    rw [← running]
    rfl

theorem stepCore_thumb (thumb : s.cpu.isThumb = true) :
    s.stepCore = (.error (.thumbUnsupported s.cpu.pc), s) := if_pos thumb

theorem stepCore_arm (arm : s.cpu.isThumb = false) :
    s.stepCore = (.ok (s.core.step.bus.timing.cycles - s.cycles),
      { s with core := s.core.step }.refreshIrq) := if_neg (Bool.eq_false_iff.mp arm)

theorem consistent_refreshIrq (sound : s.board.wait.Sound) (ready : s.board.Ready s.cpu.pc)
    (bubbles : s.cpu.pipe.bubbles ≤ 2) : s.refreshIrq.Consistent := ⟨sound, ready, bubbles, rfl, rfl⟩

theorem Consistent.request (h : s.Consistent) (line : IrqLine) : (s.request line).Consistent :=
  consistent_refreshIrq (s := s.onBoard fun b => b.request line) h.sound h.ready h.bubbles

theorem Consistent.woken (h : s.Consistent) : s.woken.Consistent := by
  obtain ⟨log, board⟩ := woken_board s
  exact ⟨board ▸ h.sound, board ▸ h.ready, h.bubbles, board ▸ h.line, h.pending⟩

theorem Consistent.stepCore (h : s.Consistent) : s.stepCore.2.Consistent := by
  cases thumb : s.cpu.isThumb with
  | true => exact stepCore_thumb thumb ▸ h
  | false =>
    exact stepCore_arm thumb ▸
      consistent_refreshIrq (Core.step_sound h.sound h.ready) (Core.step_ready h.sound h.ready)
        (Core.bubbles_step h.bubbles)

theorem Consistent.step (h : s.Consistent) : s.step.2.Consistent := by
  cases dozes : s.dozes with
  | true =>
    rw [step_of_dozes dozes]
    exact ⟨h.sound.multiClock (by decide) _, h.ready.idle h.sound, h.bubbles, h.line, h.pending⟩
  | false => exact step_of_awake dozes ▸ h.woken.stepCore

theorem Consistent.obeyAll (h : s.Consistent) (commands : List Command) :
    (s.obeyAll commands).Consistent := by
  induction commands generalizing s with
  | nil => exact h
  | cons command rest ih =>
    exact ih (obey_keeps consistent_reset (fun _ line h => h.request line) (fun _ h => h.step) h
      command)

/-- A step works for at least one clock, enters an interrupt in no time, or refuses Thumb code. -/
inductive Ticks (s : Console) : Except Fault Nat × Console → Prop
  | works {clocks : Nat} {t : Console} (untaken : s.cpu.takesIrq = false) (least : 1 ≤ clocks)
      (most : clocks ≤ 545) (clock : t.cycles = s.cycles + clocks) : Ticks s (.ok clocks, t)
  | enters {t : Console} (taken : s.cpu.takesIrq = true) (clock : t.cycles = s.cycles)
      (poised : t.Poised) : Ticks s (.ok 0, t)
  | refuses {t : Console} (thumb : s.cpu.isThumb = true) :
      Ticks s (.error (.thumbUnsupported s.cpu.pc), t)

theorem Consistent.not_takesIrq (h : s.Consistent) (dozes : s.dozes = true) :
    s.cpu.takesIrq = false := by
  have quiet := InterruptController.line_of_unmatched (dozes_iff.mp dozes).2
  simp [Cpu.takesIrq, h.pending, h.line, quiet]

theorem poised_irq {m : Core Board} (running : m.bus.timing.power = .running) :
    Poised ({ s with core := m.irq }.refreshIrq) := by
  obtain ⟨log, entered⟩ := Core.irq_eq m
  have arm : (m.cpu.enterException .irq).isThumb = false := Cpu.isThumb_enterException
  rw [entered]
  exact ⟨rfl, arm, running⟩

theorem Consistent.ticks_stepCore (h : s.Consistent) (running : s.board.timing.power = .running) :
    s.Ticks s.stepCore := by
  cases thumb : s.cpu.isThumb with
  | true => exact stepCore_thumb thumb ▸ .refuses thumb
  | false =>
    have spent : if s.cpu.takesIrq then Board.Spends 0 0 s.board s.core.step.bus
        else Board.Spends 1 545 s.board s.core.step.bus := Core.step_spends h.sound h.ready
    rw [stepCore_arm thumb]
    split at spent
    · next taken =>
      have free : s.core.step.bus.timing.cycles = s.cycles := Nat.le_antisymm spent.most spent.least
      have entered : s.core.step = s.core.irq := Core.step_of_takesIrq taken
      have poised : Poised ({ s with core := s.core.step }.refreshIrq) :=
        entered ▸ poised_irq running
      rw [free, Nat.sub_self]
      exact .enters taken free poised
    · next untaken =>
      have least : s.cycles + 1 ≤ s.core.step.bus.timing.cycles := spent.least
      have most : s.core.step.bus.timing.cycles ≤ s.cycles + 545 := spent.most
      have clock : s.core.step.bus.timing.cycles =
          s.cycles + (s.core.step.bus.timing.cycles - s.cycles) := by omega
      exact .works (Bool.eq_false_iff.mpr untaken) (by omega) (by omega) clock

theorem Consistent.ticks (h : s.Consistent) : s.Ticks s.step := by
  cases dozes : s.dozes with
  | true =>
    -- No interrupt can be pending here: without a match the line is down.
    rw [step_of_dozes dozes]
    exact .works (h.not_takesIrq dozes) (Nat.le_refl 1) (by decide) rfl
  | false =>
    obtain ⟨log, board⟩ := woken_board s
    have cycles : s.woken.cycles = s.cycles := congrArg (·.timing.cycles) board
    have woken := h.woken.ticks_stepCore (congrArg (·.timing.power) board)
    rw [step_of_awake dozes]
    generalize s.woken.stepCore = result at woken
    cases woken with
    | works untaken least most clock => exact .works untaken least most (cycles ▸ clock)
    | enters taken clock poised => exact .enters taken (cycles ▸ clock) poised
    | refuses thumb => exact .refuses thumb

theorem Poised.request (h : s.Poised) (line : IrqLine) : (s.request line).Poised :=
  ⟨h.refilling, h.arm, h.running⟩

theorem Poised.pause (h : s.Poised) {pauses : List Command} (all : ∀ c ∈ pauses, c.isPause = true) :
    (s.obeyAll pauses).Poised := by
  induction pauses generalizing s with
  | nil => exact h
  | cons command rest ih =>
    obtain ⟨first, others⟩ := List.forall_mem_cons.mp all
    exact ih (obey_pause poised_reset (fun _ line h => h.request line) h first) others

theorem Poised.works (h : s.Poised) (consistent : s.Consistent) :
    ∃ clocks, s.step.1 = .ok clocks ∧ 1 ≤ clocks ∧ clocks ≤ 545 := by
  have ticks := consistent.ticks
  generalize s.step = result at ticks
  cases ticks with
  | works _ least most _ => exact ⟨_, rfl, least, most⟩
  | enters taken => simp [Cpu.takesIrq, h.refilling] at taken
  | refuses thumb => simp [h.arm] at thumb

end Console

end GbaArm
