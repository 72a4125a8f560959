import GbaArm.Proofs.BoardView
import GbaArm.Proofs.ConsoleRuns

/-!
No program sees the clock: two consoles that differ only in what things cost and have cost stay alike,
whatever they are told step by step.
-/
namespace GbaArm

/-- Ends by the clock. -/
def Command.isRun : Command → Bool
  | .run _ => true
  | _ => false

/-- What a console holds for a program to find. -/
structure ConsoleView where
  core : Core BoardView
  biosLoaded : Bool
  romLoaded : Bool

namespace Console

def view (s : Console) : ConsoleView := ⟨s.core.map Board.viewHom, s.biosLoaded, s.romLoaded⟩

variable {s t : Console}

theorem cpu_view (same : s.view = t.view) : s.cpu = t.cpu := congrArg (·.core.cpu) same

theorem board_view (same : s.view = t.view) : s.board.view = t.board.view :=
  congrArg (·.core.bus) same

theorem view_onBoard {f : Board → Board} (kept : ∀ {b b' : Board}, b.view = b'.view →
    (f b).view = (f b').view) (same : s.view = t.view) :
    (s.onBoard f).view = (t.onBoard f).view := by
  obtain ⟨core, bios, rom⟩ := ConsoleView.mk.inj same
  have bus : (f s.board).view = (f t.board).view := kept (board_view same)
  show ConsoleView.mk ⟨s.cpu, (f s.board).view⟩ s.biosLoaded s.romLoaded = _
  rw [cpu_view same, bus, bios, rom]
  rfl

theorem view_reset (same : s.view = t.view) : s.reset.view = t.reset.view := by
  obtain ⟨core, bios, rom⟩ := ConsoleView.mk.inj same
  have memory : s.board.memory = t.board.memory := congrArg BoardView.memory (board_view same)
  have fresh : (⟨Cpu.initial, s.core.bus.reset⟩ : Core Board).map Board.viewHom =
      (⟨Cpu.initial, t.core.bus.reset⟩ : Core Board).map Board.viewHom :=
    congrArg (fun memory => (⟨Cpu.initial,
      ⟨memory, IoPage.blank, .running, WaitStates.initial.registers⟩⟩ : Core BoardView)) memory
  unfold reset
  simp only [view, bios, rom]
  split
  · rw [← Core.map_branch, fresh, Core.map_branch]
  · split
    · rw [← Core.map_skipBoot, fresh, Core.map_skipBoot]
    · rw [fresh]

theorem view_load (same : s.view = t.view) (kind : ImageKind) (image : ByteArray) :
    ((s.load kind image).toOption.getD s).view = ((t.load kind image).toOption.getD t).view := by
  have memory : s.board.memory = t.board.memory := congrArg BoardView.memory (board_view same)
  unfold load Board.load
  rw [memory]
  cases t.board.memory.load kind image with
  | error fault => exact same
  | ok loaded =>
    cases kind with
    | bios =>
      exact view_reset (congrArg (fun v : ConsoleView =>
        ConsoleView.mk ⟨v.core.cpu, { v.core.bus with memory := loaded }⟩ true v.romLoaded) same)
    | rom =>
      exact view_reset (congrArg (fun v : ConsoleView =>
        ConsoleView.mk ⟨v.core.cpu, { v.core.bus with memory := loaded }⟩ v.biosLoaded true) same)

theorem view_refreshIrq (same : s.view = t.view) : s.refreshIrq.view = t.refreshIrq.view :=
  congrArg (fun v : ConsoleView =>
    { v with core := v.core.onCpu fun c => c.setIrqLine v.core.bus.io.irq.line }) same

theorem view_request (same : s.view = t.view) (line : IrqLine) :
    (s.request line).view = (t.request line).view := by
  have requested : ∀ {b b' : Board}, b.view = b'.view → (b.request line).view = (b'.request line).view :=
    congrArg fun v : BoardView => { v with io := { v.io with irq := v.io.irq.request line } }
  exact view_refreshIrq (view_onBoard requested same)

theorem dozes_congr (same : s.view = t.view) : s.dozes = t.dozes :=
  congrArg (fun v : ConsoleView =>
    v.core.bus.power != .running && v.core.bus.io.irq.matching == 0) same

theorem view_idle (s : Console) : (s.onBoard Board.idle).view = s.view :=
  congrArg (fun bus => ConsoleView.mk ⟨s.cpu, bus⟩ s.biosLoaded s.romLoaded) Board.view_idle

theorem view_woken (s : Console) : s.woken.view =
    ⟨⟨s.cpu, { s.board.view with power := .running }⟩, s.biosLoaded, s.romLoaded⟩ := by
  obtain ⟨log, board⟩ := woken_board s
  exact congrArg (fun b => ConsoleView.mk ⟨s.cpu, Board.view b⟩ s.biosLoaded s.romLoaded) board

/-- The same console later, with another past on its bus. -/
def delayed (s : Console) : Console :=
  s.onBoard fun b =>
    { b with
      timing := b.timing.advance 1000
      wait := { b.wait with nonSequential := !b.wait.nonSequential, pending := 9, videoWait := 3 }
      pc := b.pc + 4 }

theorem view_delayed (s : Console) : s.delayed.view = s.view := rfl

/-- Two steps that came to the same, each in its own time. -/
inductive Alike : Except Fault Nat × Console → Except Fault Nat × Console → Prop
  | ok {clocks clocks' : Nat} {s t : Console} (same : s.view = t.view) :
      Alike (.ok clocks, s) (.ok clocks', t)
  | refused {s t : Console} (same : s.view = t.view) :
      Alike (.error (.thumbUnsupported s.cpu.pc), s) (.error (.thumbUnsupported s.cpu.pc), t)

theorem Alike.view {p q : Except Fault Nat × Console} (h : Alike p q) : p.2.view = q.2.view := by
  cases h <;> assumption

theorem alike_stepCore (same : s.view = t.view) : Alike s.stepCore t.stepCore := by
  obtain ⟨core, bios, rom⟩ := ConsoleView.mk.inj same
  have cpu : s.cpu = t.cpu := cpu_view same
  cases thumb : s.cpu.isThumb with
  | true =>
    rw [stepCore_thumb thumb, stepCore_thumb (cpu ▸ thumb), ← cpu]
    exact .refused same
  | false =>
    have stepped : s.core.step.map Board.viewHom = t.core.step.map Board.viewHom := by
      rw [← Core.map_step, ← Core.map_step, core]
    rw [stepCore_arm thumb, stepCore_arm (cpu ▸ thumb)]
    refine .ok (view_refreshIrq ?_)
    simp only [Console.view, stepped, bios, rom]

theorem alike_step (same : s.view = t.view) : Alike s.step t.step := by
  cases dozes : s.dozes with
  | true =>
    rw [step_of_dozes dozes, step_of_dozes (dozes_congr same ▸ dozes)]
    exact .ok ((view_idle s).trans (same.trans (view_idle t).symm))
  | false =>
    have woken : s.woken.view = t.woken.view := by
      obtain ⟨core, bios, rom⟩ := ConsoleView.mk.inj same
      rw [view_woken, view_woken, cpu_view same, board_view same, bios, rom]
    rw [step_of_awake dozes, step_of_awake (dozes_congr same ▸ dozes)]
    exact alike_stepCore woken

/-- A host's own step loop ends by the clock, a single command does not. -/
theorem view_obey (same : s.view = t.view) {command : Command} (timeless : command.isRun = false) :
    (s.obey command).view = (t.obey command).view := by
  cases command with
  | load kind image => exact view_load same kind image
  | loadFile kind file =>
    cases file with
    | ok image => exact view_load same kind image
    | error e => exact same
  | reset => exact view_reset same
  | request line => exact view_request same line
  | step => exact (alike_step same).view
  | run budget => cases timeless

theorem view_obeyAll (same : s.view = t.view) {commands : List Command}
    (timeless : ∀ c ∈ commands, c.isRun = false) :
    (s.obeyAll commands).view = (t.obeyAll commands).view := by
  induction commands generalizing s t with
  | nil => exact same
  | cons command rest ih =>
    obtain ⟨first, others⟩ := List.forall_mem_cons.mp timeless
    exact ih (view_obey same first) others

/-- Consoles that differ in time alone obey alike: whatever single steps, requests, resets and loads
they share, they then show the same, and the next step comes to the same in both. -/
theorem timing_unseen (same : s.view = t.view) {commands : List Command}
    (timeless : ∀ c ∈ commands, c.isRun = false) :
    (s.obeyAll commands).view = (t.obeyAll commands).view ∧
      Alike (s.obeyAll commands).step (t.obeyAll commands).step :=
  have shown := view_obeyAll same timeless
  ⟨shown, alike_step shown⟩

theorem timing_unseen_delayed :
    let s := (initial .silent).obeyAll (haltCommands.take 4)
    let commands := haltCommands.drop 4
    s.view = s.delayed.view ∧ (∀ c ∈ commands, c.isRun = false) ∧
    (s.obeyAll commands).view = (s.delayed.obeyAll commands).view ∧
    Alike (s.obeyAll commands).step (s.delayed.obeyAll commands).step ∧
    (s.delayed.obeyAll commands).cycles = (s.obeyAll commands).cycles + 1002 := by
  have timeless : ∀ c ∈ haltCommands.drop 4, c.isRun = false := by simp [haltCommands, Command.isRun]
  have clocks : (((initial .silent).obeyAll (haltCommands.take 4)).delayed.obeyAll
      (haltCommands.drop 4)).cycles =
      (((initial .silent).obeyAll (haltCommands.take 4)).obeyAll (haltCommands.drop 4)).cycles + 1002 := by
    decide +kernel
  generalize (initial .silent).obeyAll (haltCommands.take 4) = s at clocks ⊢
  have unseen := timing_unseen (view_delayed s).symm timeless
  exact ⟨(view_delayed s).symm, timeless, unseen.1, unseen.2, clocks⟩

end Console

end GbaArm
