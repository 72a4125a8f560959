import GbaArm.Proofs.ConsoleRuns

/-!
The edge of what is interpreted: while the processor is in Thumb state nothing executes, and once a step
has said so nothing but a reset or a load moves the machine on.
-/
namespace GbaArm.Console

/-- A reset, or a load that succeeds. -/
def restarts (s : Console) : Command → Bool
  | .reset => true
  | .load kind image => (s.load kind image).isOk
  | .loadFile kind file => (s.loadFile kind file).isOk
  | .request _ | .step | .run _ => false

def restartsWithin (s : Console) : List Command → Bool
  | [] => false
  | command :: rest => s.restarts command || (s.obey command).restartsWithin rest

/-- Unchanged but for the interrupts requested and what the processor has heard of them. -/
def AlikeButIrq (s t : Console) : Prop := ∃ irq irqLine irqPending,
  t = { s with core := ⟨{ s.cpu with irqLine, irqPending }, { s.board with io := { s.board.io with irq } }⟩ }

/-- In Thumb state and awake. -/
structure Stranded (s : Console) : Prop where
  thumb : s.cpu.isThumb = true
  running : s.board.timing.power = .running

/-- Runs a processor into Thumb state, by `ADD R0, R15, #1` and `BX R0`. -/
def exchangeCommands : List Command :=
  .load .rom ⟨#[0x01, 0x00, 0x8F, 0xE2, 0x10, 0xFF, 0x2F, 0xE1]⟩ :: List.replicate 4 .step

variable {s t u : Console}

theorem AlikeButIrq.refl (s : Console) : s.AlikeButIrq s := ⟨_, _, _, rfl⟩

theorem AlikeButIrq.of_eq (same : t = s) : s.AlikeButIrq t := by
  rw [same]
  exact .refl s

theorem AlikeButIrq.trans (h : s.AlikeButIrq t) (h' : t.AlikeButIrq u) : s.AlikeButIrq u := by
  obtain ⟨irq, line, pending, rfl⟩ := h
  obtain ⟨irq', line', pending', rfl⟩ := h'
  exact ⟨irq', line', pending', rfl⟩

theorem alike_request (s : Console) (line : IrqLine) : s.AlikeButIrq (s.request line) := ⟨_, _, _, rfl⟩

theorem Stranded.alike (h : s.Stranded) (alike : s.AlikeButIrq t) : t.Stranded := by
  obtain ⟨irq, line, pending, rfl⟩ := alike
  exact ⟨h.thumb, h.running⟩

theorem AlikeButIrq.pc (alike : s.AlikeButIrq t) : t.cpu.pc = s.cpu.pc := by
  obtain ⟨irq, line, pending, rfl⟩ := alike
  rfl

theorem Stranded.step (h : s.Stranded) : s.step = (.error (.thumbUnsupported s.cpu.pc), s) := by
  have awake : s.board.timing.isIdle = false := by simp [Timing.isIdle, h.running]
  rw [Console.step, if_neg (Bool.eq_false_iff.mp awake), stepCore_thumb h.thumb]

theorem Stranded.run (h : s.Stranded) {budget : Nat} (some : 0 < budget) :
    s.run budget = (.error (.thumbUnsupported s.cpu.pc), s) := by
  obtain ⟨fuel, granted⟩ := Nat.exists_eq_succ_of_ne_zero
    (Nat.mul_ne_zero (by decide : stepsPerCycle ≠ 0) (Nat.ne_of_gt some))
  rw [Console.run, granted, runLoop, if_pos some, h.step]

/-- Nothing that is not a restart moves a stranded console. -/
theorem Stranded.obey (h : s.Stranded) {command : Command} (kept : s.restarts command = false) :
    s.AlikeButIrq (s.obey command) := by
  have refused : ∀ {load : Except Fault Console}, load.isOk = false → load.toOption.getD s = s := by
    intro load failed
    cases load with
    | error fault => rfl
    | ok t => cases failed
  cases command with
  | load kind image => exact .of_eq (refused kept)
  | loadFile kind file => exact .of_eq (refused kept)
  | reset => cases kept
  | request line => exact alike_request s line
  | step => exact .of_eq (congrArg Prod.snd h.step)
  | run budget =>
    cases budget with
    | zero => exact .refl s
    | succ budget => exact .of_eq (by rw [Console.obey, h.run (Nat.succ_pos budget)])

theorem Stranded.obeyAll (h : s.Stranded) {commands : List Command}
    (kept : s.restartsWithin commands = false) : s.AlikeButIrq (s.obeyAll commands) := by
  induction commands generalizing s with
  | nil => exact .refl s
  | cons command rest ih =>
    obtain ⟨first, others⟩ := Bool.or_eq_false_iff.mp kept
    have alike := h.obey first
    exact alike.trans (ih (h.alike alike) others)

/-- A step fails in Thumb state only. -/
theorem stranded_of_error {fault : Fault} (failed : s.step = (.error fault, t)) :
    t.Stranded ∧ fault = .thumbUnsupported t.cpu.pc := by
  cases dozes : s.dozes with
  | true => rw [step_of_dozes dozes] at failed; cases failed
  | false =>
    rw [step_of_awake dozes] at failed
    cases thumb : s.woken.cpu.isThumb with
    | false => rw [stepCore_arm thumb] at failed; cases failed
    | true =>
      obtain ⟨log, board⟩ := woken_board s
      rw [stepCore_thumb thumb] at failed
      cases failed
      exact ⟨⟨thumb, congrArg (·.timing.power) board⟩, rfl⟩

/-- A run that fails fails by a step. -/
theorem step_of_runLoop_error {budget fuel spent : Nat} {fault : Fault}
    (failed : runLoop budget fuel spent s = (.error fault, t)) :
    ∃ s' : Console, s'.step = (.error fault, t) := by
  induction fuel generalizing s spent with
  | zero => cases failed
  | succ fuel ih =>
    unfold runLoop at failed
    split at failed
    · split at failed
      · exact ih failed
      · next stepped =>
        cases failed
        exact ⟨s, stepped⟩
    · cases failed

theorem step_of_thumb (thumb : s.cpu.status.t = true) :
    s.step = if s.dozes then (.ok 1, s.onBoard Board.idle)
      else (.error (.thumbUnsupported s.cpu.pc), s.woken) := by
  rw [Cpu.status_t] at thumb
  split
  · next dozes => exact step_of_dozes dozes
  · next awake =>
    have woken : s.woken.cpu.isThumb = true := thumb
    exact (step_of_awake (Bool.eq_false_iff.mpr awake)).trans (stepCore_thumb woken)

/-- In Thumb state a step executes nothing: it idles while the console dozes and is refused otherwise.
Once a step, or a step of a run, is refused, every step and every run of at least one cycle is refused
alike and changes nothing, until a reset or a load that succeeds; in between only requests for
interrupts are recorded. -/
theorem thumb_refused (s : Console) :
    (s.cpu.status.t = true →
      s.step = if s.dozes then (.ok 1, s.onBoard Board.idle)
        else (.error (.thumbUnsupported s.cpu.pc), s.woken)) ∧
    ∀ fault t, s.step = (.error fault, t) ∨ (∃ budget, s.run budget = (.error fault, t)) →
      fault = .thumbUnsupported t.cpu.pc ∧
      ∀ later, t.restartsWithin later = false →
        let u := t.obeyAll later
        t.AlikeButIrq u ∧ u.step = (.error fault, u) ∧
          ∀ budget, 0 < budget → u.run budget = (.error fault, u) := by
  refine ⟨step_of_thumb, fun fault t failed => ?_⟩
  obtain ⟨s', failed⟩ : ∃ s' : Console, s'.step = (.error fault, t) := by
    obtain step | ⟨budget, run⟩ := failed
    · exact ⟨s, step⟩
    · exact step_of_runLoop_error run
  obtain ⟨stranded, rfl⟩ := stranded_of_error failed
  refine ⟨rfl, fun later kept => ?_⟩
  have alike := stranded.obeyAll kept
  have still := stranded.alike alike
  refine ⟨alike, ?_, fun budget some => ?_⟩
  · rw [still.step, alike.pc]
  · rw [still.run some, alike.pc]

theorem thumb_refused_exchange :
    let s := (initial .silent).obeyAll exchangeCommands
    let later := [.request .vBlank, .load .rom ⟨#[]⟩, .step, .run 5]
    s.cpu.status.t = true ∧ ∃ t, s.step = (.error (.thumbUnsupported 0x08000008), t) ∧
      t.restartsWithin later = false ∧ t.AlikeButIrq (t.obeyAll later) ∧
      (t.obeyAll later).run 5 = (.error (.thumbUnsupported 0x08000008), t.obeyAll later) := by
  have thumb : ((initial .silent).obeyAll exchangeCommands).cpu.status.t = true := by decide +kernel
  have pc : ((initial .silent).obeyAll exchangeCommands).cpu.pc = 0x08000008 := by decide +kernel
  have failed : ((initial .silent).obeyAll exchangeCommands).step.1.isOk = false := by decide +kernel
  generalize (initial .silent).obeyAll exchangeCommands = s at thumb pc failed ⊢
  have refused : s.step = (.error (.thumbUnsupported 0x08000008), s.woken) := by
    have stepped := (thumb_refused s).1 thumb
    split at stepped
    · rw [stepped] at failed
      cases failed
    · rw [stepped, pc]
  have kept : s.woken.restartsWithin [.request .vBlank, .load .rom ⟨#[]⟩, .step, .run 5] = false := rfl
  obtain ⟨alike, -, run⟩ := ((thumb_refused s).2 _ _ (.inl refused)).2 _ kept
  exact ⟨thumb, s.woken, refused, kept, alike, run 5 (by decide)⟩

end GbaArm.Console
