import GbaArm.Proofs.ConsoleRuns

/-!
The run loop with no bound on its steps. It always ends, within one step of its budget, and two runs
in a row are one run.
-/
namespace GbaArm.Console

/-- `Runs budget spent s result`: with `spent` cycles behind it, the loop leads from `s` to
`result`. -/
inductive Runs (budget : Nat) : Nat → Console → Except Fault Nat × Console → Prop
  | done {spent : Nat} {s : Console} (met : budget ≤ spent) : Runs budget spent s (.ok spent, s)
  | more {spent clocks : Nat} {s t : Console} {result : Except Fault Nat × Console}
      (left : spent < budget) (stepped : s.step = (.ok clocks, t))
      (rest : Runs budget (spent + clocks) t result) : Runs budget spent s result
  | fails {spent : Nat} {s t : Console} {fault : Fault} (left : spent < budget)
      (stepped : s.step = (.error fault, t)) : Runs budget spent s (.error fault, t)

variable {s t : Console} {result : Except Fault Nat × Console} {budget spent total : Nat}

/-- A step that costs nothing is followed by one that does, so two steps are enough for each cycle
of the budget that is left, and one more at the start. -/
theorem runs_runLoop {fuel : Nat} (h : s.Consistent)
    (enough : spent < budget → 2 * (budget - spent) + s.cpu.takesIrq.toNat ≤ fuel) :
    Runs budget spent s (runLoop budget fuel spent s) := by
  induction fuel generalizing spent s with
  | zero => exact .done (by omega)
  | succ fuel ih =>
    have next := h.step
    have ticks := h.ticks
    unfold runLoop
    split
    · next left =>
      have enough := enough left
      split
      · next clocks t stepped =>
        rw [stepped] at next ticks
        refine .more left stepped (ih next fun _ => ?_)
        cases ticks with
        | works untaken least =>
          have := t.cpu.takesIrq.toNat_le
          omega
        | enters taken _ poised =>
          -- No cycle has passed, but what is left to do no longer has an interrupt ahead of it.
          have untaken : t.cpu.takesIrq = false := by simp [Cpu.takesIrq, poised.refilling]
          rw [taken] at enough
          rw [untaken]
          simp only [Bool.toNat_true, Bool.toNat_false] at *
          omega
      · next stepped => exact .fails left stepped
    · next met => exact .done (Nat.not_lt.mp met)

theorem runs_run (h : s.Consistent) (budget : Nat) : Runs budget 0 s (s.run budget) := by
  refine runs_runLoop h fun left => ?_
  have := s.cpu.takesIrq.toNat_le
  unfold stepsPerCycle
  omega

theorem Runs.unique {result' : Except Fault Nat × Console} (h : Runs budget spent s result)
    (h' : Runs budget spent s result') : result = result' := by
  induction h with
  | done met =>
    cases h' with
    | done => rfl
    | more left | fails left => omega
  | more left stepped _ ih =>
    cases h' with
    | done => omega
    | more _ stepped' rest' =>
      rw [stepped] at stepped'
      cases stepped'
      exact ih rest'
    | fails _ stepped' =>
      rw [stepped] at stepped'
      cases stepped'
  | fails left stepped =>
    cases h' with
    | done => omega
    | more _ stepped' =>
      rw [stepped] at stepped'
      cases stepped'
    | fails _ stepped' =>
      rw [stepped] at stepped'
      cases stepped'
      rfl

/-- The run is the only way through the loop. -/
theorem Runs.run_eq (h : Runs budget 0 s result) (consistent : s.Consistent) :
    s.run budget = result := (runs_run consistent budget).unique h

/-- Thumb code is refused, or the budget is met by less than one step too much and the clock shows
what has been spent. -/
def Meets (s : Console) (budget spent : Nat) : Except Fault Nat × Console → Prop
  | (.error fault, _) => ∃ pc, fault = .thumbUnsupported pc
  | (.ok total, t) => budget ≤ total ∧ t.cycles + spent = s.cycles + total ∧
      if budget ≤ spent then total = spent else total < budget + 545

theorem Runs.meets (h : Runs budget spent s result) (consistent : s.Consistent) :
    s.Meets budget spent result := by
  induction h with
  | done met => exact ⟨met, rfl, by rw [if_pos met]⟩
  | @more spent clocks s t result left stepped rest ih =>
    have next := stepped ▸ consistent.step
    have ticks := stepped ▸ consistent.ticks
    have met := ih next
    obtain ⟨outcome, u⟩ := result
    cases outcome with
    | error fault => exact met
    | ok total =>
      obtain ⟨met, clock, bound⟩ := met
      refine ⟨met, ?_, ?_⟩
      · cases ticks <;> omega
      · rw [if_neg (Nat.not_le.mpr left)]
        cases ticks <;> split at bound <;> omega
  | fails left stepped =>
    have ticks := stepped ▸ consistent.ticks
    cases ticks
    exact ⟨_, rfl⟩

theorem Runs.extend {wider : Nat} (h : Runs budget spent s (.ok total, t)) (hw : budget ≤ wider)
    (h' : Runs wider total t result) : Runs wider spent s result := by
  generalize hr : (Except.ok total, t) = ended at h
  induction h with
  | done =>
    cases hr
    exact h'
  | more left stepped _ ih => exact .more (Nat.lt_of_lt_of_le left hw) stepped (ih hr)
  | fails => cases hr

/-- Cycles spent before a run count on top of it. -/
theorem Runs.shift (h : Runs budget spent s result) (before : Nat) :
    Runs (before + budget) (before + spent) s (result.1.map (before + ·), result.2) := by
  induction h with
  | done met => exact .done (Nat.add_le_add_left met before)
  | more left stepped _ ih =>
    exact .more (Nat.add_lt_add_left left before) stepped (Nat.add_assoc .. ▸ ih)
  | fails left stepped => exact .fails (Nat.add_lt_add_left left before) stepped

theorem Consistent.run (h : s.Consistent) (budget : Nat) : (s.run budget).2.Consistent :=
  runLoop_keeps (fun _ h => h.step) budget _ 0 h

theorem run_run (h : s.Consistent) (ran : s.run budget = (.ok total, t)) (more : Nat) :
    s.run (total + more) = ((t.run more).1.map (total + ·), (t.run more).2) := by
  have first : Runs budget 0 s (.ok total, t) := ran ▸ runs_run h budget
  have consistent : t.Consistent := by
    have kept := h.run budget
    rwa [ran] at kept
  have second := (runs_run consistent more).shift total
  have met : budget ≤ total := (first.meets h).1
  exact (first.extend (Nat.le_trans met (Nat.le_add_right _ _)) second).run_eq h

/-- Whatever a host has asked since power-on, a step that succeeds takes from 1 to 545 cycles, except
that entering an interrupt takes none; and then the next step succeeds and takes some, whatever the
host asks in between. So the loop of a run ends, with a refusal of Thumb code or with its budget
met by less than one step too much. The clock has moved on by what the run says, and runs in a row
come to what one run does. -/
theorem run_meets_budget (log : Log) (commands : List Command) :
    let s := (initial log).obeyAll commands
    (match s.step with
      | (.error fault, _) => fault = .thumbUnsupported s.cpu.pc
      | (.ok clocks, t) => t.cycles = s.cycles + clocks ∧
          if s.cpu.takesIrq then
            clocks = 0 ∧ ∀ pauses : List Command, (∀ c ∈ pauses, c.isPause = true) →
              ∃ next, (t.obeyAll pauses).step.1 = .ok next ∧ 1 ≤ next ∧ next ≤ 545
          else 1 ≤ clocks ∧ clocks ≤ 545) ∧
    ∀ budget, Runs budget 0 s (s.run budget) ∧
      match s.run budget with
      | (.error fault, _) => ∃ pc, fault = .thumbUnsupported pc
      | (.ok spent, t) => budget ≤ spent ∧ t.cycles = s.cycles + spent ∧
          (if budget = 0 then spent = 0 else spent < budget + 545) ∧
          ∀ more, s.run (spent + more) = ((t.run more).1.map (spent + ·), (t.run more).2) := by
  intro s
  have consistent : s.Consistent := (consistent_initial log).obeyAll commands
  refine ⟨?_, fun budget => ⟨runs_run consistent budget, ?_⟩⟩
  · have next := consistent.step
    have ticks := consistent.ticks
    generalize s.step = result at next ticks ⊢
    cases ticks with
    | works untaken least most clock =>
      refine ⟨clock, ?_⟩
      rw [if_neg (Bool.eq_false_iff.mp untaken)]
      exact ⟨least, most⟩
    | enters taken clock poised =>
      refine ⟨clock, ?_⟩
      rw [if_pos taken]
      exact ⟨rfl, fun pauses all => (poised.pause all).works (next.obeyAll pauses)⟩
    | refuses => rfl
  · have meets := (runs_run consistent budget).meets consistent
    cases ran : s.run budget with
    | mk outcome t =>
      rw [ran] at meets
      cases outcome with
      | error fault => exact meets
      | ok spent =>
        obtain ⟨met, clock, bound⟩ := meets
        refine ⟨met, clock, ?_, run_run consistent ran⟩
        simpa only [Nat.le_zero, Nat.zero_add] using bound

/-- The halted console enters the interrupt of the vertical blank in no time, and its next step,
which a further request does not put off, takes some. -/
theorem run_meets_budget_halted :
    let s := (initial .silent).obeyAll haltCommands
    (∀ c ∈ [Command.request .hBlank], c.isPause = true) ∧ s.cpu.takesIrq = true ∧
    ∃ t, s.step = (.ok 0, t) ∧
      ∃ next, (t.obeyAll [.request .hBlank]).step.1 = .ok next ∧ 1 ≤ next ∧ next ≤ 545 := by
  have paused : ∀ c ∈ [Command.request .hBlank], c.isPause = true := by simp [Command.isPause]
  have steps := (run_meets_budget .silent haltCommands).1
  have taken : ((initial .silent).obeyAll haltCommands).cpu.takesIrq = true := by decide +kernel
  have stepped : ((initial .silent).obeyAll haltCommands).step.1.isOk = true := by decide +kernel
  generalize (initial .silent).obeyAll haltCommands = s at *
  refine ⟨paused, taken, ?_⟩
  generalize s.step = result at steps stepped ⊢
  obtain ⟨outcome, t⟩ := result
  cases outcome with
  | error => cases stepped
  | ok clocks =>
    obtain ⟨-, free⟩ := steps
    rw [if_pos taken] at free
    obtain ⟨rfl, followed⟩ := free
    exact ⟨t, rfl, followed _ paused⟩

end GbaArm.Console
