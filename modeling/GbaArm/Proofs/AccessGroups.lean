import GbaArm.Proofs.StepCost
import Mathlib.Algebra.Order.BigOperators.Group.List
import Mathlib.Algebra.Order.Group.Nat

/-!
The calls that a step makes, as a language: one fetch, then groups of data accesses. A group begins
where the bus is told which instruction executes, and both its edges break the fetch sequence.
-/
namespace GbaArm

namespace BusCall

/-- A read or a write of data. -/
def isData : BusCall → Bool
  | read32 .. | read16 .. | read8 .. | write32 .. | write16 .. | write8 .. => true
  | _ => false

def isFetch : BusCall → Bool
  | fetch32 .. => true
  | _ => false

/-- Cycles inside the processor. -/
def isInternal : BusCall → Bool
  | internalCycle _ | internalCycles .. => true
  | _ => false

/-- A call that may stand inside a group of accesses. -/
def staysInside (call : BusCall) : Bool := !call.isFetch && !call.isInternal

/-- A call that may stand between two groups. -/
def staysApart (call : BusCall) : Bool := !call.isFetch && !call.isData

/-- Whatever takes less than the limit of an access is none. -/
theorem staysApart_of_worst {call : BusCall} (cheap : call.worst < WaitStates.accessLimit) :
    call.staysApart = true := by
  cases call with
  | internalCycle | internalCycles | nonSequential | executingAt | branched => rfl
  | _ => exact absurd cheap (Nat.lt_irrefl _)

end BusCall

/-- Whether R15 moves on before the accesses of an instruction. -/
def Opcode.movesFirst : Opcode → Bool
  | transfer load .. => !load
  | halfTransfer kind _ => !kind.isLoad
  | blockTransfer => true
  | _ => false

namespace Traced

variable {β : Type}

theorem worst_eq_sum (t : Traced β) : t.worst = (t.calls.map BusCall.worst).sum := by
  rw [worst]
  induction t.calls with
  | nil => rfl
  | cons call calls ih => rw [List.foldr_cons, ih, List.map_cons, List.sum_cons, Nat.add_comm]

/-- The bus does not forget a call. -/
theorem calls_kept [Bus β] (calls : List BusCall) :
    Bus.Keeps fun t : Traced β => calls <:+ t.calls where
  touch touched h := by
    cases touched with
    | note => exact h
    | _ => exact h.trans (List.suffix_cons _ _)
  fetch _ _ h := h.trans (List.suffix_cons _ _)
  branched _ _ h := h.trans (List.suffix_cons _ _)

end Traced

namespace Core

variable {β : Type} [Bus β] {m k l : Core (Traced β)} {n : Nat} {inside : Bool}

/-- On its way from `m` the processor is at `l`, and R15 stands `n` words past the target of the last
jump, or past where it stood at `m` if there was none. -/
structure Stands (n : Nat) (m l : Core (Traced β)) : Prop where
  moves : Moves n m l
  pc : l.cpu.pc = l.bus.jumps.headD m.cpu.pc + UInt32.ofNat (4 * n)

theorem stands_of_moves (silent : m.bus.jumps = []) (moves : Moves 0 m l) : Stands 0 m l := by
  refine ⟨moves, ?_⟩
  cases moves.arrives rfl with
  | moved quiet _ pc =>
    rw [quiet, silent]
    exact pc
  | jumped _ heard =>
    rw [heard]
    exact (UInt32.add_zero _).symm

theorem Stands.advance (h : Stands 0 m l) : Stands 1 m (l.onCpu Cpu.advancePc) where
  moves := h.moves.before (.advance l)
  pc := by
    have ahead : (l.onCpu Cpu.advancePc).cpu.pc = l.cpu.pc + 4 := RegisterFile.pc_setPc
    have here : l.cpu.pc = l.bus.jumps.headD m.cpu.pc := h.pc.trans (UInt32.add_zero _)
    rw [ahead, here]
    rfl

/-- The calls made from `m` on, the latest first, and whether they end inside a group of accesses. -/
inductive Grouped (m : Core (Traced β)) (n : Nat) : (inside : Bool) → List BusCall → Prop
  | start : Grouped m n false m.bus.calls
  | apart {calls : List BusCall} {call : BusCall} (h : Grouped m n false calls)
      (stays : call.staysApart = true) : Grouped m n false (call :: calls)
  /-- The bus is told where R15 stands. -/
  | opened {l : Core (Traced β)} (h : Grouped m n false l.bus.calls) (stands : Stands n m l) :
      Grouped m n true (.nonSequential :: .executingAt l.cpu.pc :: l.bus.calls)
  | within {calls : List BusCall} {call : BusCall} (h : Grouped m n true calls)
      (stays : call.staysInside = true) : Grouped m n true (call :: calls)
  | closed {calls : List BusCall} (h : Grouped m n true calls) :
      Grouped m n false (.nonSequential :: calls)

/-- After these calls, the latest first, the sequence is broken before anything ends a group. -/
def Breaks (later : List BusCall) : Prop :=
  ∃ between rest : List BusCall, later = rest ++ .nonSequential :: between ∧
    ∀ call ∈ between, call.staysInside = true

theorem Breaks.cons {later : List BusCall} (h : Breaks later) (call : BusCall) :
    Breaks (call :: later) := by
  obtain ⟨between, rest, rfl, inner⟩ := h
  exact ⟨between, call :: rest, rfl, inner⟩

namespace Grouped

variable {calls earlier later : List BusCall} {call : BusCall}

/-- Nothing is fetched. -/
theorem made (h : Grouped m n inside calls) :
    ∃ made, calls = made ++ m.bus.calls ∧ ∀ call ∈ made, call.isFetch = false := by
  induction h with
  | start => exact ⟨[], rfl, nofun⟩
  | apart _ stays ih | within _ stays ih =>
    obtain ⟨made, rfl, plain⟩ := ih
    refine ⟨_ :: made, rfl, List.forall_mem_cons.mpr ⟨?_, plain⟩⟩
    simp_all [BusCall.staysApart, BusCall.staysInside]
  | opened _ _ ih =>
    obtain ⟨made, hm, plain⟩ := ih
    refine ⟨_ :: _ :: made, congrArg (_ :: _ :: ·) hm, ?_⟩
    exact List.forall_mem_cons.mpr ⟨rfl, List.forall_mem_cons.mpr ⟨rfl, plain⟩⟩
  | closed _ ih =>
    obtain ⟨made, rfl, plain⟩ := ih
    exact ⟨_ :: made, rfl, List.forall_mem_cons.mpr ⟨rfl, plain⟩⟩

/-- A group that is still open was opened, and nothing has ended it. -/
theorem opening (h : Grouped m n inside calls) (within : inside = true) :
    ∃ (l : Core (Traced β)) (between : List BusCall), Stands n m l ∧
      calls = between ++ .nonSequential :: .executingAt l.cpu.pc :: l.bus.calls ∧
      ∀ call ∈ between, call.staysInside = true := by
  induction h with
  | start | apart | closed => cases within
  | @opened l _ stands => exact ⟨l, [], stands, rfl, nofun⟩
  | within _ stays ih =>
    obtain ⟨l, between, stands, rfl, inner⟩ := ih rfl
    exact ⟨l, _ :: between, stands, rfl, List.forall_mem_cons.mpr ⟨stays, inner⟩⟩

/-- A call other than an access is not the one looked for. -/
theorem part_cons {first : BusCall} (plain : first.isData = false) (data : call.isData = true)
    (parted : first :: calls = later ++ call :: earlier) :
    ∃ rest, later = first :: rest ∧ calls = rest ++ call :: earlier := by
  obtain ⟨-, same⟩ | ⟨rest, begun, fewer⟩ := List.cons_eq_append_iff.mp parted
  · obtain ⟨rfl, -⟩ := List.cons.inj same
    simp [plain] at data
  · exact ⟨rest, begun, fewer⟩

/-- An access stands inside a group, and the group is closed after it or still open. -/
theorem around (h : Grouped m n inside calls) (idle : ∀ call ∈ m.bus.calls, call.isData = false)
    (parted : calls = later ++ call :: earlier) (data : call.isData = true) :
    Grouped m n true earlier ∧
      (Breaks later ∨ inside = true ∧ ∀ call ∈ later, call.staysInside = true) := by
  -- Calls come off the front until the access does, and only `within` can have made it.
  induction h generalizing later with
  | start =>
    have accessed : call ∈ m.bus.calls := by simp [parted]
    simp [idle call accessed] at data
  | apart _ stays ih =>
    obtain ⟨rest, rfl, fewer⟩ := part_cons (by simp_all [BusCall.staysApart]) data parted
    obtain ⟨before, closed | ⟨⟨⟩, -⟩⟩ := ih fewer
    exact ⟨before, Or.inl (closed.cons _)⟩
  | opened _ _ ih =>
    obtain ⟨last, rfl, fewer⟩ := part_cons rfl data parted
    obtain ⟨rest, rfl, fewest⟩ := part_cons rfl data fewer
    obtain ⟨before, closed | ⟨⟨⟩, -⟩⟩ := ih fewest
    exact ⟨before, Or.inl ((closed.cons _).cons _)⟩
  | within h stays ih =>
    obtain ⟨rfl, same⟩ | ⟨rest, rfl, fewer⟩ := List.cons_eq_append_iff.mp parted
    · obtain ⟨rfl, rfl⟩ := List.cons.inj same
      exact ⟨h, Or.inr ⟨rfl, nofun⟩⟩
    · obtain ⟨before, closed | ⟨_, inner⟩⟩ := ih fewer
      · exact ⟨before, Or.inl (closed.cons _)⟩
      · exact ⟨before, Or.inr ⟨rfl, List.forall_mem_cons.mpr ⟨stays, inner⟩⟩⟩
  | closed _ ih =>
    obtain ⟨rest, rfl, fewer⟩ := part_cons rfl data parted
    obtain ⟨before, closed | ⟨_, inner⟩⟩ := ih fewer
    · exact ⟨before, Or.inl (closed.cons _)⟩
    · exact ⟨before, Or.inl ⟨rest, [], rfl, inner⟩⟩

/-- A group of one access. -/
theorem access (h : Grouped m n false l.bus.calls) (stands : Stands n m l)
    (stays : call.staysInside = true) (made : k.bus.calls =
      .nonSequential :: call :: .nonSequential :: .executingAt l.cpu.pc :: l.bus.calls) :
    Grouped m n false k.bus.calls := by
  rw [made]
  exact ((h.opened stands).within stays).closed

/-- Calls that together take less than the limit of an access stand apart. -/
theorem of_cheap (h : Grouped m n false k.bus.calls) (longer : k.bus.calls <:+ l.bus.calls)
    (cheap : l.bus.worst < k.bus.worst + WaitStates.accessLimit) :
    Grouped m n false l.bus.calls := by
  obtain ⟨made, hm⟩ := longer
  have few : (made.map BusCall.worst).sum < WaitStates.accessLimit := by
    rw [Traced.worst_eq_sum, Traced.worst_eq_sum, ← hm, List.map_append, List.sum_append] at cheap
    omega
  have apart : ∀ call ∈ made, call.staysApart = true := fun call listed =>
    BusCall.staysApart_of_worst
      (Nat.lt_of_le_of_lt (List.le_sum_of_mem (List.mem_map_of_mem listed)) few)
  rw [← hm]
  clear hm few
  induction made with
  | nil => exact h
  | cons call made ih =>
    obtain ⟨first, rest⟩ := List.forall_mem_cons.mp apart
    exact (ih rest).apart first

end Grouped

/-- Between the two the bus hears of at most one jump, and of nothing else. -/
def HearsJump (k l : Core (Traced β)) : Prop :=
  l.bus.calls = k.bus.calls ∨ ∃ target, l.bus.calls = .branched target :: k.bus.calls

theorem HearsJump.grouped (heard : HearsJump k l) (h : Grouped m n inside k.bus.calls) :
    Grouped m n inside l.bus.calls := by
  obtain same | ⟨target, more⟩ := heard
  · rw [same]
    exact h
  · rw [more]
    cases inside with
    | false => exact h.apart rfl
    | true => exact h.within rfl

theorem writeRegister_heard (m : Core (Traced β)) (n : Nat) (value : UInt32) :
    HearsJump m (m.writeRegister n value) := by
  rw [writeRegister]
  split
  · exact Or.inl rfl
  · exact Or.inr ⟨_, rfl⟩

theorem writeUserBase_heard (m : Core (Traced β)) (n : Nat) (value : UInt32) :
    HearsJump m (m.writeUserBase n value) := by
  rw [writeUserBase]
  split
  · exact Or.inl rfl
  · exact Or.inr ⟨_, rfl⟩

theorem noteMode_calls (m : Core (Traced β)) (mode : Mode) :
    (m.noteMode mode).bus.calls = m.bus.calls := by
  rw [noteMode]
  split <;> rfl

theorem returnTo_heard (m : Core (Traced β)) (value : UInt32) : HearsJump m (m.returnTo value) := by
  have silent : m.restoreStatus.bus.calls = m.bus.calls := by
    rw [restoreStatus]
    split
    · exact noteMode_calls m _
    · rfl
  exact Or.inr ⟨_, congrArg (_ :: ·) silent⟩

theorem writeLoaded_heard (mode : BlockMode) (withPc : Bool) (r : Nat) (value : UInt32)
    (m : Core (Traced β)) : HearsJump m (writeLoaded mode withPc r value m) := by
  rw [writeLoaded]
  split
  · split
    · split <;> exact Or.inl rfl
    · exact returnTo_heard m value
  · exact writeRegister_heard m r value

theorem transferAddress_heard (m : Core (Traced β)) (word offset : UInt32) (indexing : Indexing) :
    HearsJump m (m.transferAddress word offset indexing).2 := by
  cases indexing with
  | post => exact writeRegister_heard m _ _
  | postUser => exact writeUserBase_heard m _ _
  | pre =>
    rw [transferAddress]
    simp only
    split
    · exact writeRegister_heard m _ _
    · exact Or.inl rfl

theorem storeRegister_grouped (h : Grouped m 1 false l.bus.calls) (stands : Stands 0 m l)
    (word address : UInt32) (width : TransferWidth) :
    Grouped m 1 false (l.storeRegister word address width).bus.calls := by
  have advanced : Grouped m 1 false (l.onCpu Cpu.advancePc).bus.calls := h
  cases width <;> exact advanced.access stands.advance rfl rfl

theorem loadRegister_grouped (h : Grouped m 0 false l.bus.calls) (stands : Stands 0 m l)
    (word address : UInt32) (width : TransferWidth) :
    Grouped m 0 false (l.loadRegister word address width).bus.calls := by
  have keep : ∀ (k : Core (Traced β)) value, Grouped m 0 false k.bus.calls → Grouped m 0 false
      ((k.onCpu Cpu.advancePc).writeRegister (Field.rd word) value).internalCycle.bus.calls :=
    fun k value loaded =>
      ((writeRegister_heard (k.onCpu Cpu.advancePc) _ value).grouped loaded).apart rfl
  cases width <;> exact keep _ _ (h.access stands rfl rfl)

theorem transferRegister_grouped (silent : m.bus.jumps = []) (word offset : UInt32)
    (indexing : Indexing) (load : Bool) (width : TransferWidth) :
    Grouped m (!load).toNat false (m.transferRegister word offset indexing load width).bus.calls := by
  have stands := stands_of_moves silent (transferAddress_moves m word offset indexing)
  have heard := transferAddress_heard m word offset indexing
  cases load with
  | false => exact storeRegister_grouped (heard.grouped .start) stands _ _ _
  | true => exact loadRegister_grouped (heard.grouped .start) stands _ _ _

/-- Two groups, with a cycle between them. -/
theorem swap_grouped (silent : m.bus.jumps = []) (word : UInt32) (byte : Bool) :
    Grouped m 0 false (m.swap word byte).bus.calls := by
  have keep : ∀ (k : Core (Traced β)) data, Grouped m 0 false k.bus.calls →
      Grouped m 0 false ((k.onCpu Cpu.advancePc).writeRegister (Field.rd word) data).bus.calls :=
    fun k data stored => (writeRegister_heard (k.onCpu Cpu.advancePc) _ data).grouped stored
  have again : ∀ {k : Core (Traced β)}, Moves 0 m k → Grouped m 0 false k.bus.calls →
      Grouped m 0 false k.internalCycle.bus.calls ∧ Stands 0 m k.internalCycle :=
    fun moves loaded =>
      ⟨loaded.apart rfl, stands_of_moves silent (moves.after (internalCycle_moves _))⟩
  have here := stands_of_moves silent (.refl m)
  cases byte with
  | false =>
    have loads := loadWord_moves m (m.cpu.regs.read (Field.rn word))
    obtain ⟨loaded, stands⟩ := again loads (Grouped.start.access here rfl rfl)
    exact keep _ _ (loaded.access stands rfl rfl)
  | true =>
    have loads := loadByte_moves m (m.cpu.regs.read (Field.rn word))
    obtain ⟨loaded, stands⟩ := again loads (Grouped.start.access here rfl rfl)
    exact keep _ _ (loaded.access stands rfl rfl)

theorem storeList_grouped (mode : BlockMode) (r : Nat) (finalBase : UInt32) (list : List Nat)
    (first : Bool) (place : UInt32) (h : Grouped m n true k.bus.calls) :
    Grouped m n true (storeList mode r finalBase list first place k).bus.calls := by
  induction list generalizing first place k with
  | nil => exact h
  | cons s rest ih =>
    rw [storeList]
    refine ih false (place + 4) ?_
    split
    · exact (writeRegister_heard _ _ _).grouped (h.within rfl)
    · exact h.within rfl

theorem loadList_grouped (mode : BlockMode) (withPc : Bool) (list : List Nat) (place : UInt32)
    (h : Grouped m n true k.bus.calls) :
    Grouped m n true (loadList mode withPc list place k).bus.calls := by
  induction list generalizing place k with
  | nil => exact h
  | cons r rest ih =>
    exact ih (place + 4) ((writeLoaded_heard mode withPc r _ _).grouped (h.within rfl))

theorem loadEmpty_grouped (h : Grouped m n true k.bus.calls) (word base : UInt32)
    (mode : BlockMode) : Grouped m n true (k.loadEmpty word base mode).bus.calls := by
  have jumped : ∀ (l : Core (Traced β)) value, HearsJump l
      (if mode.user then l.returnTo value else l.writeRegister 15 value) := by
    intro l value
    split
    · exact returnTo_heard l value
    · exact writeRegister_heard l 15 value
  have written : ∀ l : Core (Traced β), HearsJump l
      (if mode.writeback then l.writeRegister (Field.rn word) (mode.emptyBase base) else l) := by
    intro l
    split
    · exact writeRegister_heard l _ _
    · exact Or.inl rfl
  exact (written _).grouped ((jumped _ _).grouped (h.within rfl))

theorem loadListed_grouped (h : Grouped m n true k.bus.calls) (word base : UInt32)
    (mode : BlockMode) : Grouped m n true (k.loadListed word base mode).bus.calls := by
  unfold loadListed
  extract_lets list count l
  have loaded : Grouped m n true l.bus.calls := loadList_grouped mode _ list _ h
  split
  · exact (writeRegister_heard l _ _).grouped loaded
  · split
    · exact loaded.within rfl
    · exact loaded

/-- An empty list that is stored makes no group. -/
theorem blockTransfer_grouped (silent : m.bus.jumps = []) (word : UInt32) :
    Grouped m 1 false (m.blockTransfer word).bus.calls := by
  unfold blockTransfer
  extract_lets k mode
  have idle : Grouped m 1 false k.bus.calls := .start
  have opened : Grouped m 1 true k.openAccess.bus.calls :=
    idle.opened (stands_of_moves silent (.refl m)).advance
  split
  · rw [blockLoad]
    refine Grouped.apart (Grouped.closed ?_) rfl
    split
    · exact loadEmpty_grouped opened word _ mode
    · exact loadListed_grouped opened word _ mode
  · unfold blockStore
    extract_lets list count base
    split
    · exact idle
    · exact (storeList_grouped mode _ _ list true _ opened).closed

theorem execute_grouped (silent : m.bus.jumps = []) (word : UInt32) (op : Opcode) :
    Grouped m op.movesFirst.toNat false (m.execute word op).bus.calls := by
  have longer : m.bus.calls <:+ (m.execute word op).bus.calls :=
    execute_keeps (Traced.calls_kept _) (List.suffix_refl _) word op
  have cheap : ∀ {n}, (m.execute word op).bus.worst ≤ m.bus.worst + 6 →
      Grouped m n false (m.execute word op).bus.calls := fun few =>
    Grouped.start.of_cheap longer (Nat.lt_of_le_of_lt few (Nat.add_lt_add_left (by decide) _))
  have within : ∀ {total limit : Nat}, total ≤ m.bus.worst + limit → limit ≤ 6 →
      total ≤ m.bus.worst + 6 := fun h hl => by omega
  cases op with
  | dataProcessing op setFlags byRegister =>
    exact cheap (within (worst_dataProcessing m word op setFlags byRegister) (by decide))
  | readStatus => exact cheap (by simp [execute, readStatus])
  | writeStatus => exact cheap (by simp [execute, worst_writeStatus])
  | branchExchange => exact cheap (by simp [execute, branchExchange])
  | multiply accumulate setFlags =>
    exact cheap (within (worst_multiply m word accumulate setFlags) (by decide))
  | multiplyLong signed accumulate setFlags =>
    exact cheap (worst_multiplyLong m word signed accumulate setFlags)
  | halfTransfer kind indexing =>
    rw [halfTransfer_eq]
    exact transferRegister_grouped silent word _ indexing _ _
  | transfer load byte indexing scaled =>
    exact transferRegister_grouped silent word _ indexing load _
  | swap byte => exact swap_grouped silent word byte
  | blockTransfer => exact blockTransfer_grouped silent word
  | branch link => exact cheap (by simp [execute, worst_branchBy])
  | softwareInterrupt => exact cheap (by simp [execute, softwareInterrupt, worst_enterException])
  | undefined => exact cheap (by simp [execute, undefinedInstruction, worst_enterException])

/-- What stands around an access: before it the bus is told where R15 is and the sequence is broken,
after it the sequence is broken again, and no fetch and no cycle comes between. -/
structure InGroup (n : Nat) (m : Core (Traced β)) (before after : List BusCall) : Prop where
  opened : ∃ (l : Core (Traced β)) (between : List BusCall), Stands n m l ∧
    before = l.bus.record ++ .executingAt l.cpu.pc :: .nonSequential :: between ∧
    ∀ call ∈ between, call.staysInside = true
  closed : ∃ between rest : List BusCall, after = between ++ .nonSequential :: rest ∧
    ∀ call ∈ between, call.staysInside = true

theorem Grouped.inGroup {before after : List BusCall} {call : BusCall}
    (h : Grouped m n false k.bus.calls) (idle : ∀ call ∈ m.bus.calls, call.isData = false)
    (parted : k.bus.record = before ++ call :: after) (data : call.isData = true) :
    InGroup n m before after := by
  have latest : k.bus.calls = after.reverse ++ call :: before.reverse := by
    rw [← k.bus.calls.reverse_reverse, ← Traced.record, parted]
    simp
  obtain ⟨inner, closed | ⟨⟨⟩, -⟩⟩ := h.around idle latest data
  constructor
  · obtain ⟨l, between, stands, hb, stays⟩ := inner.opening rfl
    refine ⟨l, between.reverse, stands, ?_, by simpa using stays⟩
    rw [← before.reverse_reverse, hb]
    simp [Traced.record]
  · obtain ⟨between, rest, ha, stays⟩ := closed
    refine ⟨between.reverse, rest.reverse, ?_, by simpa using stays⟩
    rw [← after.reverse_reverse, ha]
    simp

theorem irq_record (m : Core (Traced β)) : m.irq.bus.record = m.bus.record ++ [.branched 0x18] := by
  have calls : m.irq.bus.calls = .branched 0x18 :: m.bus.calls :=
    congrArg (_ :: ·) (noteMode_calls m .irq)
  rw [Traced.record, calls, List.reverse_cons]
  rfl

/-- A step that executes no instruction and enters no interrupt makes its fetch alone. -/
theorem step_calls_of_idle (working : m.cpu.takesIrq = false) (idle : m.cpu.due = none) :
    m.step.bus.calls = m.fetch.bus.calls := by
  cases hr : m.cpu.isRefilling with
  | true => rw [step_of_refilling hr]; rfl
  | false =>
    have hp : m.cpu.irqPending = false := by simpa [Cpu.takesIrq, hr] using working
    rw [step_of_skipped hr hp idle]
    rfl

theorem step_grouped_of_due {op : Opcode} (silent : m.bus.jumps = []) (hd : m.cpu.due = some op) :
    Grouped m.fetch op.movesFirst.toNat false m.step.bus.calls := by
  rw [step_of_due hd]
  exact execute_grouped (m := m.fetch) silent _ op

/-- The calls of a step that fetches, the latest first. -/
theorem step_made (silent : m.bus.jumps = []) (working : m.cpu.takesIrq = false) :
    ∃ made, m.step.bus.calls = made ++ m.fetch.bus.calls ∧ ∀ call ∈ made, call.isFetch = false := by
  cases hd : m.cpu.due with
  | none => exact ⟨[], step_calls_of_idle working hd, nofun⟩
  | some op => exact (step_grouped_of_due silent hd).made

/-- Data accesses always break the fetch sequence. A step fetches the word at R15 before any other call
and fetches nothing else; only the entry into an interrupt fetches nothing. Each access stands in a
group: the bus was told where R15 stands and the sequence was broken before it, and the sequence is
broken again before any cycle of the processor and before the step ends. -/
theorem step_groups_accesses (cpu : Cpu) (bus : β) :
    let m : Core (Traced β) := ⟨cpu, .start bus⟩
    let calls := m.step.bus.record
    m.step.map Traced.forget = (⟨cpu, bus⟩ : Core β).step ∧
    (if cpu.takesIrq then calls = [.branched 0x18]
      else ∃ rest, calls = .fetch32 cpu.pc (Bus.fetch32 cpu.pc bus).1 :: rest ∧
        ∀ call ∈ rest, call.isFetch = false) ∧
    ∀ before call after, calls = before ++ call :: after → call.isData = true →
      ∃ op, cpu.due = some op ∧ InGroup op.movesFirst.toNat m.fetch before after := by
  intro m calls
  have fetched : m.fetch.bus.calls = [.fetch32 cpu.pc (Bus.fetch32 cpu.pc bus).1] := rfl
  have entered : cpu.takesIrq = true → calls = [.branched 0x18] := fun taken =>
    (congrArg (fun k => k.bus.record) (step_of_takesIrq (m := m) taken)).trans (irq_record m)
  refine ⟨(map_step Traced.forget m).symm, ?_, fun before call after parted data => ?_⟩
  · split
    · next taken => exact entered taken
    · next working =>
      obtain ⟨made, hm, plain⟩ := step_made (m := m) rfl (Bool.eq_false_iff.mpr working)
      refine ⟨made.reverse, ?_, by simpa using plain⟩
      rw [show calls = m.step.bus.calls.reverse from rfl, hm, fetched, List.reverse_append]
      rfl
  · cases hd : cpu.due with
    | some op =>
      have idle : ∀ call ∈ m.fetch.bus.calls, call.isData = false := by simp [fetched, BusCall.isData]
      exact ⟨op, rfl, (step_grouped_of_due (m := m) rfl hd).inGroup idle parted data⟩
    | none =>
      -- Neither a bubble, nor a skipped word, nor the entry into an interrupt makes a second call.
      have alone : ∃ only, calls = [only] ∧ only.isData = false := by
        cases taken : cpu.takesIrq with
        | true => exact ⟨_, entered taken, rfl⟩
        | false =>
          have fetch := (step_calls_of_idle (m := m) taken hd).trans fetched
          exact ⟨_, congrArg List.reverse fetch, rfl⟩
      obtain ⟨only, ha, plain⟩ := alone
      have heard : call ∈ calls := by simp [parted]
      obtain rfl : call = only := List.mem_singleton.mp (ha ▸ heard)
      simp [plain] at data

/-- The store of a swap is in a group of its own, with the cycle before it in none. -/
theorem step_groups_accesses_swap :
    let rom : Rom := ⟨fun _ => 0xE1010092⟩
    let m := (start (Traced.start rom)).run [.branch 0x1000, .step, .step]
    let k : Core (Traced Rom) := ⟨m.cpu, .start rom⟩
    let before : List BusCall := [.fetch32 0x1008 0xE1010092, .executingAt 0x1008, .nonSequential,
      .read32 0 0xE1010092, .nonSequential, .internalCycle 0x1008, .executingAt 0x1008, .nonSequential]
    k.step.bus.record = before ++ .write32 0 0 :: [.nonSequential] ∧
    InGroup 0 k.fetch before [.nonSequential] := by
  intro rom m k before
  have parted : k.step.bus.record = before ++ .write32 0 0 :: [.nonSequential] := by decide +kernel
  have due : m.cpu.due = some (.swap false) := by decide +kernel
  obtain ⟨op, hd, grouped⟩ := (step_groups_accesses m.cpu rom).2.2 before _ _ parted rfl
  obtain rfl : Opcode.swap false = op := Option.some.inj (due.symm.trans hd)
  exact ⟨parted, grouped⟩

end Core

end GbaArm
