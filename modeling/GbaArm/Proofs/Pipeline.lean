import GbaArm.Proofs.Trace

/-!
The latches and the program counter stay in step: whatever ran before, the word about to execute was
fetched two words below R15.
-/
namespace GbaArm

/-- What a host may ask of a processor. -/
inductive Request
  | step
  | interruptLine (requests : UInt16)
  | setStatus (value : UInt32)
  | branch (target : UInt32)

namespace Core

variable {β : Type} [Bus β]

def serve (m : Core β) : Request → Core β
  | .step => m.step
  | .interruptLine requests => m.onCpu fun c => c.setIrqLine requests
  | .setStatus value => m.setStatus value
  | .branch target => m.branch target

def run (m : Core β) (requests : List Request) : Core β := requests.foldl serve m

/-- A processor out of reset. -/
def start (bus : β) : Core β := ⟨Cpu.initial, bus⟩

variable {γ : Type} [Bus γ] {m k : Core (Traced β)}

theorem map_serve (h : BusHom β γ) (m : Core β) (r : Request) :
    (m.map h).serve r = (m.serve r).map h := by
  cases r with
  | step => exact map_step h m
  | interruptLine | setStatus | branch => simp [serve]

theorem map_run (h : BusHom β γ) (m : Core β) (requests : List Request) :
    (m.map h).run requests = (m.run requests).map h := by
  induction requests generalizing m with
  | nil => rfl
  | cons r rest ih => exact (congrArg (run · rest) (map_serve h m r)).trans (ih (m.serve r))

/-- As far as the refill has come, the latches hold the latest words fetched, and R15 is past them. -/
def Coherent (m : Core (Traced β)) : Prop :=
  match m.cpu.pipe.bubbles with
  | 0 => m.bus.fetches.take 2 =
      [(m.cpu.pc - 4, m.cpu.pipe.decode), (m.cpu.pc - 8, m.cpu.pipe.execute)]
  | 1 => m.bus.fetches.take 1 = [(m.cpu.pc - 4, m.cpu.pipe.decode)]
  | _ => True

/-- What an instruction leaves of the pipeline: no fetch, no change of a latch, and a jump or one
word of progress. -/
structure Lands (m m' : Core (Traced β)) : Prop where
  fetches : m'.bus.fetches = m.bus.fetches
  latches : m'.cpu.pipe = { m.cpu.pipe with bubbles := m'.cpu.pipe.bubbles }
  pc : m'.cpu.pipe.bubbles = 2 ∨
    m'.cpu.pipe.bubbles = m.cpu.pipe.bubbles ∧ m'.cpu.pc = m.cpu.pc + 4

theorem Moves.fetches {n : Nat} (h : Moves n m k) : k.bus.fetches = m.bus.fetches := by
  induction h with
  | trans _ _ ih ih' => exact ih'.trans ih
  | touch h => exact Traced.fetches_of_touches h
  | _ => rfl

theorem Moves.lands (h : Moves 1 m k) : Lands m k := ⟨h.fetches, h.latches, h.pc⟩

theorem lands_branch (hb : k.bus.fetches = m.bus.fetches) (hp : k.cpu.pipe = m.cpu.pipe)
    (target : UInt32) : Lands m (k.branch target) where
  fetches := hb
  latches := by rw [← hp]; rfl
  pc := Or.inl rfl

theorem enterException_lands (m : Core (Traced β)) (mode : Mode) (vector : UInt32) :
    Lands m (m.enterException mode vector) := by
  have noted := noteMode_moves m mode
  have entered := lands_branch (k := (m.noteMode mode).onCpu fun c => c.enterException mode)
    noted.fetches (by rw [onCpu, noteMode_cpu]; rfl) vector
  exact ⟨entered.fetches, entered.latches, Or.inl rfl⟩

theorem branchExchange_lands (m : Core (Traced β)) (word : UInt32) :
    Lands m (m.branchExchange word) := by
  unfold branchExchange
  extract_lets target noted thumb
  split
  · exact lands_branch (m := m) (k := thumb) rfl rfl _
  · exact lands_branch (m := m) (k := m) rfl rfl _

theorem execute_lands (m : Core (Traced β)) (word : UInt32) (op : Opcode) :
    Lands m (m.execute word op) := by
  cases op with
  | branchExchange => exact branchExchange_lands m word
  | softwareInterrupt => exact enterException_lands m .supervisor 0x08
  | undefined =>
    have entered := enterException_lands
      (m.note (.undefinedInstruction m.cpu.pipe.execute (m.cpu.pc - 8))) .undefined 0x04
    exact ⟨entered.fetches, entered.latches, entered.pc⟩
  | _ => refine (execute_moves m word ?_ ?_ ?_).lands <;> nofun

omit [Bus β] in
theorem coherent_start (bus : β) : Coherent (start (Traced.start bus)) := trivial

/-- The fetch that heads a step becomes the latest, and the word decoded before it the one after. -/
theorem take_fetches {pc value decode : UInt32} {fetches : List (UInt32 × UInt32)}
    (h : fetches.take 1 = [(pc - 4, decode)]) :
    ((pc, value) :: fetches).take 2 = [(pc + 4 - 4, value), (pc + 4 - 8, decode)] := by
  have h4 : pc + 4 - 4 = pc := by grind
  have h8 : pc + 4 - 8 = pc - 4 := by grind
  rw [List.take_succ_cons, h, h4, h8]

theorem coherent_stepBubble (h : Coherent m) (hr : m.cpu.isRefilling = true) :
    Coherent m.stepBubble := by
  have hp : m.stepBubble.cpu.pc = m.cpu.pc + 4 := RegisterFile.pc_setPc
  have hb : m.stepBubble.cpu.pipe.bubbles = m.cpu.pipe.bubbles - 1 := rfl
  unfold Coherent at h ⊢
  rw [hb, hp]
  match hn : m.cpu.pipe.bubbles with
  | 0 => simp [Cpu.isRefilling, hn] at hr
  | 1 =>
    simp only [hn] at h
    exact take_fetches h
  | 2 =>
    have h4 : m.cpu.pc + 4 - 4 = m.cpu.pc := by grind
    simp only [h4]
    rfl
  | _ + 3 => trivial

/-- The step of an instruction that lands, after the fetch at its head. -/
theorem coherent_instruction (h : Coherent m) (hr : m.cpu.isRefilling = false)
    (hk : Lands m.fetch k) : Coherent k.advancePipe := by
  have hn : m.cpu.pipe.bubbles = 0 := by simpa [Cpu.isRefilling] using hr
  have hb : k.advancePipe.cpu.pipe.bubbles = k.cpu.pipe.bubbles := rfl
  have hd : k.advancePipe.cpu.pipe.decode = k.cpu.pipe.fetch := rfl
  have hx : k.advancePipe.cpu.pipe.execute = k.cpu.pipe.decode := rfl
  have hp : k.advancePipe.cpu.pc = k.cpu.pc := rfl
  have hf : k.advancePipe.bus.fetches = k.bus.fetches := rfl
  unfold Coherent at h ⊢
  rw [hb, hd, hx, hp, hf]
  obtain hk2 | ⟨hk0, hpc⟩ := hk.pc
  · rw [hk2]
    trivial
  · rw [hk0, hpc, hk.fetches, hk.latches]
    simp only [hn] at h
    have h1 : m.bus.fetches.take 1 = [(m.cpu.pc - 4, m.cpu.pipe.decode)] := by
      simpa [List.take_take] using congrArg (List.take 1) h
    have h0 : m.fetch.cpu.pipe.bubbles = 0 := hn
    rw [h0]
    exact take_fetches h1

theorem coherent_step (h : Coherent m) : Coherent m.step := by
  obtain ⟨hr, hs⟩ | ⟨_, _, hs⟩ | ⟨hr, op, _, hs⟩ | ⟨hr, hs⟩ := step_cases m
  · exact hs ▸ coherent_stepBubble h hr
  · rw [hs]
    trivial
  · exact hs ▸ coherent_instruction h hr (execute_lands _ _ op)
  · exact hs ▸ coherent_instruction h hr (Moves.advance _).lands

theorem coherent_serve (h : Coherent m) (r : Request) : Coherent (m.serve r) := by
  cases r with
  | step => exact coherent_step h
  | interruptLine => exact h
  | setStatus value =>
    have hc : (m.setStatus value).cpu = m.cpu.setStatus value :=
      congrArg (Cpu.setStatus · value) (noteMode_cpu m _)
    have hf : (m.setStatus value).bus.fetches = m.bus.fetches := (noteMode_moves m _).fetches
    have hp : (m.setStatus value).cpu.pc = m.cpu.pc := by
      rw [hc]
      exact RegisterFile.pc_switchBank
    unfold Coherent serve at *
    rw [hf, hp, hc]
    exact h
  | branch => trivial

theorem coherent_run (h : Coherent m) (requests : List Request) : Coherent (m.run requests) := by
  induction requests generalizing m with
  | nil => exact h
  | cons r rest ih => exact ih (coherent_serve h r)

/-- Whatever a host has asked since reset, on any bus: with no refill pending, the decode and
execute latches hold the answers to the two latest fetches, at R15 less 4 and R15 less 8, so the
instruction that runs next finds R15 eight past the address it was fetched from. The record of the
fetches is that of the same run on the bus itself. -/
theorem pipeline_coherent (bus : β) (requests : List Request)
    (settled : ((start bus).run requests).cpu.pipe.bubbles = 0) :
    let m := (start (Traced.start bus)).run requests
    m.map Traced.forget = (start bus).run requests ∧
    m.bus.fetches.take 2 =
      [(m.cpu.pc - 4, m.cpu.pipe.decode), (m.cpu.pc - 8, m.cpu.pipe.execute)] ∧
    ∀ op, m.cpu.due = some op →
      m.step = (m.fetch.execute m.cpu.pipe.execute op).advancePipe ∧
      ∃ address, m.bus.fetches[1]? = some (address, m.cpu.pipe.execute) ∧
        m.fetch.cpu.pc = address + 8 := by
  intro m
  have mapped : m.map Traced.forget = (start bus).run requests := (map_run Traced.forget _ _).symm
  have hb : m.cpu.pipe.bubbles = 0 := (congrArg (·.cpu.pipe.bubbles) mapped).trans settled
  have latest := coherent_run (coherent_start bus) requests
  unfold Coherent at latest
  rw [hb] at latest
  refine ⟨mapped, latest, fun op hd => ⟨step_of_due hd, m.cpu.pc - 8, ?_, ?_⟩⟩
  · have second := congrArg (fun fetches => fetches[1]?) latest
    simpa [List.getElem?_take] using second
  · show m.cpu.pc = m.cpu.pc - 8 + 8
    grind

/-- Two instructions into a memory whose every word adds the low byte of its address to R0. -/
theorem pipeline_coherent_rom :
    let rom : Rom := ⟨fun address => 0xE2800000 ||| (address &&& 0xFF)⟩
    let requests : List Request := [.setStatus 0x1F, .branch 0x08000000, .step, .step, .step, .step]
    ((start rom).run requests).cpu.pipe.bubbles = 0 ∧
    ((start (Traced.start rom)).run requests).bus.fetches.take 2 =
      [(0x0800000C, 0xE280000C), (0x08000008, 0xE2800008)] := by
  intro rom requests
  have settled : ((start rom).run requests).cpu.pipe.bubbles = 0 := by decide +kernel
  exact ⟨settled, (pipeline_coherent rom requests settled).2.1.trans (by decide +kernel)⟩

end Core

end GbaArm
