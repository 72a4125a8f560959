import GbaArm.Proofs.BlockLists
import GbaArm.Proofs.IoRegisters
import GbaArm.Proofs.Jumps
import GbaArm.Proofs.SoundSettings

/-!
What a step costs: the calls of every handler are counted on a traced bus, each call on the real bus
is charged within its limit, and so is the whole step.
-/
namespace GbaArm

/-- The most clocks that a call takes. -/
def BusCall.worst : BusCall → Nat
  | read32 .. | read16 .. | read8 .. | write32 .. | write16 .. | write8 .. | fetch32 .. =>
    WaitStates.accessLimit
  | internalCycle _ => 1
  | internalCycles _ count => count
  | nonSequential | executingAt _ | branched _ => 0

/-- The most clocks that the calls made so far can have taken. -/
def Traced.worst {β : Type} (t : Traced β) : Nat :=
  t.calls.foldr (fun call total => total + call.worst) 0

/-- The next step enters an interrupt. -/
def Cpu.takesIrq (c : Cpu) : Bool := !c.isRefilling && c.irqPending

theorem Traced.worst_of_touches {β : Type} [Bus β] {pc : UInt32} {t t' : Traced β}
    (h : Bus.Touches pc t t') : t.worst ≤ t'.worst := by
  cases h with
  | note => exact Nat.le_refl _
  | _ => exact Nat.le_add_right _ _

namespace Core

variable {β : Type} [Bus β] (m : Core (Traced β))

omit [Bus β] in
@[simp] theorem worst_onCpu (f : Cpu → Cpu) : (m.onCpu f).bus.worst = m.bus.worst := rfl

@[simp] theorem worst_note (e : Event) : (m.note e).bus.worst = m.bus.worst := rfl

@[simp] theorem worst_noteMode (mode : Mode) : (m.noteMode mode).bus.worst = m.bus.worst := by
  rw [noteMode]
  split <;> rfl

@[simp] theorem worst_branch (target : UInt32) : (m.branch target).bus.worst = m.bus.worst := rfl

@[simp] theorem worst_setControl (value : UInt8) : (m.setControl value).bus.worst = m.bus.worst :=
  worst_noteMode m _

@[simp] theorem worst_restoreStatus : m.restoreStatus.bus.worst = m.bus.worst := by
  rw [restoreStatus]
  split
  · exact worst_noteMode m _
  · rfl

@[simp] theorem worst_writeRegister (n : Nat) (value : UInt32) :
    (m.writeRegister n value).bus.worst = m.bus.worst := by
  rw [writeRegister]
  split <;> rfl

@[simp] theorem worst_returnTo (value : UInt32) : (m.returnTo value).bus.worst = m.bus.worst :=
  worst_restoreStatus m

@[simp] theorem worst_writeRegisterRestoring (n : Nat) (value : UInt32) :
    (m.writeRegisterRestoring n value).bus.worst = m.bus.worst := by
  rw [writeRegisterRestoring]
  split <;> simp

@[simp] theorem worst_writeUserBase (n : Nat) (value : UInt32) :
    (m.writeUserBase n value).bus.worst = m.bus.worst := by
  rw [writeUserBase]
  split <;> rfl

@[simp] theorem worst_internalCycle : m.internalCycle.bus.worst = m.bus.worst + 1 := rfl

@[simp] theorem worst_internalCycles (count : Nat) :
    (m.internalCycles count).bus.worst = m.bus.worst + count := rfl

@[simp] theorem worst_openAccess : m.openAccess.bus.worst = m.bus.worst := rfl

@[simp] theorem worst_closeAccess : m.closeAccess.bus.worst = m.bus.worst := rfl

@[simp] theorem worst_loadWord (address : UInt32) :
    (m.loadWord address).2.bus.worst = m.bus.worst + 32 := rfl

@[simp] theorem worst_loadHalf (address : UInt32) :
    (m.loadHalf address).2.bus.worst = m.bus.worst + 32 := rfl

@[simp] theorem worst_loadByte (address : UInt32) :
    (m.loadByte address).2.bus.worst = m.bus.worst + 32 := rfl

@[simp] theorem worst_storeWord (address value : UInt32) :
    (m.storeWord address value).bus.worst = m.bus.worst + 32 := rfl

@[simp] theorem worst_storeHalf (address value : UInt32) :
    (m.storeHalf address value).bus.worst = m.bus.worst + 32 := rfl

@[simp] theorem worst_storeByte (address value : UInt32) :
    (m.storeByte address value).bus.worst = m.bus.worst + 32 := rfl

omit [Bus β] in
@[simp] theorem worst_ite (p : Prop) [Decidable p] (k l : Core (Traced β)) :
    (if p then k else l).bus.worst = if p then k.bus.worst else l.bus.worst :=
  apply_ite (fun m : Core (Traced β) => m.bus.worst) p k l

theorem worst_dataProcessing (word : UInt32) (op : AluOp) (setFlags byRegister : Bool) :
    (m.dataProcessing word op setFlags byRegister).bus.worst ≤ m.bus.worst + 1 := by
  cases byRegister <;> cases setFlags <;> simp [dataProcessing, shiftedByRegister]

theorem worst_writeStatus (word : UInt32) : (m.writeStatus word).bus.worst = m.bus.worst := by
  have saved : ∀ withControl value,
      (m.writeSavedStatus withControl value).bus.worst = m.bus.worst := by
    intro withControl value
    rw [writeSavedStatus]
    split <;> rfl
  rw [writeStatus]
  split <;> simp [writePresentStatus, saved]

theorem worst_branchBy (word : UInt32) (link : Bool) :
    (m.branchBy word link).bus.worst = m.bus.worst := by
  cases link <;> rfl

theorem multiplierCycles_le (rs : UInt32) (signed : Bool) : multiplierCycles rs signed ≤ 4 := by
  grind [multiplierCycles]

theorem worst_multiply (word : UInt32) (accumulate setFlags : Bool) :
    (m.multiply word accumulate setFlags).bus.worst ≤ m.bus.worst + 5 := by
  have cycles := multiplierCycles_le (m.cpu.regs.read (Field.rs word)) true
  have more := accumulate.toNat_le
  by_cases hd : Field.rn word = Field.rm word <;> cases setFlags <;>
    simp [multiply, product32, writeProductHigh, hd] <;> omega

theorem worst_multiplyLong (word : UInt32) (signed accumulate setFlags : Bool) :
    (m.multiplyLong word signed accumulate setFlags).bus.worst ≤ m.bus.worst + 6 := by
  have cycles := multiplierCycles_le (m.cpu.regs.read (Field.rs word)) signed
  cases accumulate <;> cases setFlags <;>
    simp [multiplyLong, product64, writeProductHigh, writeProductLow] <;> omega

theorem worst_transferAddress (word offset : UInt32) (indexing : Indexing) :
    (m.transferAddress word offset indexing).2.bus.worst = m.bus.worst := by
  cases indexing <;> simp [transferAddress]

theorem worst_transferRegister (word offset : UInt32) (indexing : Indexing) (load : Bool)
    (width : TransferWidth) :
    (m.transferRegister word offset indexing load width).bus.worst ≤ m.bus.worst + 33 := by
  have addressed := worst_transferAddress m word offset indexing
  cases load <;> cases width <;>
    simp [transferRegister, loadRegister, storeRegister, addressed]

theorem worst_swap (word : UInt32) (byte : Bool) :
    (m.swap word byte).bus.worst ≤ m.bus.worst + 65 := by
  cases byte <;> simp [swap]

@[simp] theorem worst_read32 (address : UInt32) :
    (m.readBus (Bus.read32 address)).2.bus.worst = m.bus.worst + 32 := rfl

@[simp] theorem worst_write32 (address value : UInt32) :
    (m.onBus (Bus.write32 address value)).bus.worst = m.bus.worst + 32 := rfl

@[simp] theorem worst_breakSequence : (m.onBus Bus.nonSequential).bus.worst = m.bus.worst := rfl

omit [Bus β] in
@[simp] theorem worst_writeUser (n : Nat) (value : UInt32) :
    (m.writeUser n value).bus.worst = m.bus.worst := rfl

theorem worst_storeList (mode : BlockMode) (n : Nat) (finalBase : UInt32) (list : List Nat)
    (first : Bool) (address : UInt32) (m : Core (Traced β)) :
    (storeList mode n finalBase list first address m).bus.worst =
      m.bus.worst + 32 * list.length := by
  induction list generalizing first address m with
  | nil => rfl
  | cons r rest ih =>
    rw [storeList, ih]
    simp
    omega

theorem worst_loadList (mode : BlockMode) (withPc : Bool) (list : List Nat) (address : UInt32)
    (m : Core (Traced β)) :
    (loadList mode withPc list address m).bus.worst = m.bus.worst + 32 * list.length := by
  have written : ∀ r value (k : Core (Traced β)),
      (writeLoaded mode withPc r value k).bus.worst = k.bus.worst := by
    intro r value k
    simp [writeLoaded]
  induction list generalizing address m with
  | nil => rfl
  | cons r rest ih =>
    rw [loadList]
    simp only [ih, written, worst_read32, List.length_cons]
    omega

theorem worst_blockTransfer (word : UInt32) :
    (m.blockTransfer word).bus.worst ≤ m.bus.worst + 513 := by
  have length := length_registerList_le word
  unfold blockTransfer
  extract_lets k mode
  have advanced : k.bus.worst = m.bus.worst := rfl
  split
  · simp [blockLoad, loadEmpty, loadListed, worst_loadList]
    split <;> omega
  · simp [blockStore, worst_storeList]
    split <;> omega

theorem worst_enterException (mode : Mode) (vector : UInt32) :
    (m.enterException mode vector).bus.worst = m.bus.worst := by
  simp [enterException]

/-- No instruction takes more than sixteen data accesses and one cycle, or what is less. -/
theorem worst_execute (word : UInt32) (op : Opcode) :
    (m.execute word op).bus.worst ≤ m.bus.worst + 513 := by
  have within : ∀ {n limit : Nat}, n ≤ m.bus.worst + limit → limit ≤ 513 → n ≤ m.bus.worst + 513 :=
    fun h hl => by omega
  cases op with
  | dataProcessing op setFlags byRegister =>
    exact within (worst_dataProcessing m word op setFlags byRegister) (by decide)
  | readStatus => simp [execute, readStatus]
  | writeStatus => simp [execute, worst_writeStatus]
  | branchExchange => simp [execute, branchExchange]
  | multiply accumulate setFlags =>
    exact within (worst_multiply m word accumulate setFlags) (by decide)
  | multiplyLong signed accumulate setFlags =>
    exact within (worst_multiplyLong m word signed accumulate setFlags) (by decide)
  | halfTransfer kind indexing =>
    rw [halfTransfer_eq]
    exact within (worst_transferRegister m word _ indexing _ _) (by decide)
  | transfer load byte indexing scaled =>
    exact within (worst_transferRegister m word _ indexing load _) (by decide)
  | swap byte => exact within (worst_swap m word byte) (by decide)
  | blockTransfer => exact worst_blockTransfer m word
  | branch link => simp [execute, worst_branchBy]
  | softwareInterrupt => simp [execute, softwareInterrupt, worst_enterException]
  | undefined => simp [execute, undefinedInstruction, worst_enterException]

end Core

namespace Board

variable {b b' b'' : Board} {least most : Nat}

/-- Between `least` and `most` clocks pass from `b` to `b'`, and the settings are sound at the end. -/
structure Spends (least most : Nat) (b b' : Board) : Prop where
  sound : b'.wait.Sound
  least : b.timing.cycles + least ≤ b'.timing.cycles
  most : b'.timing.cycles ≤ b.timing.cycles + most

theorem spends_nothing (h : b'.wait.Sound) (hc : b'.timing.cycles = b.timing.cycles) :
    Spends 0 0 b b' := ⟨h, Nat.le_of_eq hc.symm, Nat.le_of_eq hc⟩

theorem Spends.trans {least' most' : Nat} (h : Spends least most b b')
    (h' : Spends least' most' b' b'') : Spends (least + least') (most + most') b b'' := by
  have := h.least
  have := h.most
  have := h'.least
  have := h'.most
  exact ⟨h'.sound, by omega, by omega⟩

theorem charge_spends {cost : WaitStates → Nat × WaitStates} (h : WaitStates.Fair least (cost b.wait)) :
    Spends least 32 b (b.charge cost) :=
  ⟨h.sound, Nat.add_le_add_left h.least _, Nat.add_le_add_left h.most _⟩

theorem updateAt_spends (h : b.wait.Sound) (width : Width) (address value : UInt32) :
    Spends 0 0 b (b.updateAt width address value) :=
  spends_nothing (updateAt_keeps (fun _ write sound => sound.configure write) h width address value)
    (cycles_updateAt b width address value)

theorem chargeAccess_spends (h : b.wait.Sound) (width : Width) (address : UInt32) :
    Spends 0 32 b (b.chargeAccess width address) := charge_spends (h.access width b.pc _).1

theorem write_spends (h : b.wait.Sound) (width : Width) (address value : UInt32) :
    Spends 0 32 b (b.write width address value) := by
  have charged := chargeAccess_spends h width address
  exact charged.trans (updateAt_spends charged.sound width address value)

/-- The bank can take the clock of a fetch at `next`: it is below its limit, or the fetch empties it, or
there is room in the buffer. -/
def Ready (b : Board) (next : UInt32) : Prop :=
  b.wait.pending < WaitStates.bankLimit ∨ Region.ofAddress next = .sram ∨
    Region.ofAddress next = .rom ∧ b.wait.Roomy

theorem ready_of_empty {next : UInt32} (empty : b.wait.pending = 0) : b.Ready next :=
  .inl (WaitStates.slack_of_empty empty)

theorem Ready.roomy {next : UInt32} (h : b.Ready next) (rom : Region.ofAddress next = .rom) :
    b.wait.Roomy := by
  obtain slack | sram | ⟨-, roomy⟩ := h
  · exact .inl slack
  · exact Region.noConfusion (rom.symm.trans sram)
  · exact roomy

theorem fetch_spends (h : b.wait.Sound) {address : UInt32} (ready : b.Ready address) :
    Spends 1 32 b (b.fetch address).2 := by
  have fair := h.fetch (alignWord address) fun rom =>
    ready.roomy ((ofAddress_align .word address).symm.trans rom)
  exact ⟨fair.sound, Nat.add_le_add_left fair.least _, Nat.add_le_add_left fair.most _⟩

theorem internalCycles_spends (h : b.wait.Sound) {count : Nat} (few : count ≤ 1000) (pc : UInt32) :
    Spends 0 count b (b.internalCycles pc count) := by
  obtain ⟨clocks, sound, -⟩ := h.internalCycles few pc
  exact ⟨sound, Nat.le_add_right _ _, Nat.le_of_eq (congrArg (b.timing.cycles + ·) clocks)⟩

end Board

namespace Traced

variable {t t' : Traced Board}

/-- What the real bus is charged on the way is within what the calls allow. -/
def Pays (t t' : Traced Board) : Prop :=
  t.worst ≤ t'.worst ∧ Board.Spends 0 (t'.worst - t.worst) t.bus t'.bus

theorem pays_nothing (h : t'.bus.wait.Sound) (hc : t'.bus.timing.cycles = t.bus.timing.cycles)
    (hw : t'.worst = t.worst) : t.Pays t' :=
  ⟨Nat.le_of_eq hw.symm, h, Nat.le_of_eq hc.symm, by omega⟩

theorem pays_of_spends {least most : Nat} (h : Board.Spends least most t.bus t'.bus)
    (hw : t'.worst = t.worst + most) : t.Pays t' := by
  have := h.least
  have := h.most
  exact ⟨by omega, h.sound, by omega, by omega⟩

theorem Pays.trans {t'' : Traced Board} (h : t.Pays t') (h' : t'.Pays t'') : t.Pays t'' := by
  obtain ⟨most, _, least, spent⟩ := h
  obtain ⟨most', sound, least', spent'⟩ := h'
  exact ⟨by omega, sound, by omega, by omega⟩

theorem pays_of_touches {pc : UInt32} (h : Bus.Touches pc t t') (sound : t.bus.wait.Sound)
    (few : t'.worst ≤ t.worst + 1000) : t.Pays t' := by
  cases h with
  | read32 address | read16 address | read8 address =>
    exact pays_of_spends (Board.chargeAccess_spends sound _ address) rfl
  | write32 address value | write16 address value | write8 address value =>
    exact pays_of_spends (Board.write_spends sound _ address _) rfl
  | internalCycle => exact pays_of_spends (Board.internalCycles_spends sound (by decide) pc) rfl
  | internalCycles count =>
    have few : count ≤ 1000 := Nat.le_of_add_le_add_left few
    exact pays_of_spends (Board.internalCycles_spends sound few pc) rfl
  | nonSequential => exact pays_nothing sound.breakSequence rfl rfl
  | executingAt | note => exact pays_nothing sound rfl rfl

end Traced

namespace Core

theorem Moves.worst {β : Type} [Bus β] {m k : Core (Traced β)} {n : Nat} (h : Moves n m k) :
    m.bus.worst ≤ k.bus.worst := by
  induction h with
  | trans _ _ ih ih' => exact Nat.le_trans ih ih'
  | touch h => exact Traced.worst_of_touches h
  | _ => exact Nat.le_refl _

variable {m k : Core (Traced Board)} {n : Nat}

theorem Moves.pays (h : Moves n m k) (sound : m.bus.bus.wait.Sound)
    (few : k.bus.worst ≤ m.bus.worst + 1000) : m.bus.Pays k.bus := by
  induction h with
  | trans h h' ih ih' =>
    have grown := h.worst
    have grown' := h'.worst
    have first := ih sound (by omega)
    exact first.trans (ih' first.2.sound (by omega))
  | touch h => exact Traced.pays_of_touches h sound few
  | jump => exact Traced.pays_nothing { sound.breakSequence.resetPrefetch with } rfl rfl
  | _ => exact Traced.pays_nothing sound rfl rfl

theorem enterException_pays (sound : m.bus.bus.wait.Sound) (mode : Mode) (vector : UInt32) :
    m.bus.Pays (m.enterException mode vector).bus := by
  have noted := (noteMode_moves m mode).pays sound (by simp)
  rw [enterException]
  generalize m.noteMode mode = k at noted ⊢
  exact noted.trans
    (Traced.pays_nothing { noted.2.sound.breakSequence.resetPrefetch with } rfl rfl)

theorem branchExchange_pays (sound : m.bus.bus.wait.Sound) (word : UInt32) :
    m.bus.Pays (m.branchExchange word).bus := by
  have jumped : WaitStates.Sound m.bus.bus.wait.breakStream :=
    { sound.breakSequence.resetPrefetch with }
  unfold branchExchange
  extract_lets target noted thumb
  split <;> exact Traced.pays_nothing jumped rfl rfl

theorem execute_pays (sound : m.bus.bus.wait.Sound) (word : UInt32) (op : Opcode) :
    m.bus.Pays (m.execute word op).bus := by
  have few := worst_execute m word op
  cases op with
  | branchExchange => exact branchExchange_pays sound word
  | softwareInterrupt => exact enterException_pays sound _ _
  | undefined =>
    have noted := (note_moves m (.undefinedInstruction m.cpu.pipe.execute (m.cpu.pc - 8))).pays sound
      (Nat.le_add_right _ _)
    exact noted.trans (enterException_pays noted.2.sound _ _)
  | _ =>
    refine (execute_moves m word ?_ ?_ ?_).pays sound (by omega)
    all_goals nofun

/-- The fetch at the head of a step, then an instruction that pays for its own calls. -/
theorem spends_after_fetch (sound : m.bus.bus.wait.Sound) (ready : m.bus.bus.Ready m.cpu.pc)
    (paid : m.fetch.bus.Pays k.bus) (few : k.bus.worst ≤ m.fetch.bus.worst + 513) :
    Board.Spends 1 545 m.bus.bus k.bus.bus := by
  have fetched : Board.Spends 1 32 m.bus.bus m.fetch.bus.bus := Board.fetch_spends sound ready
  have := fetched.least
  have := fetched.most
  obtain ⟨_, sound, least, most⟩ := paid
  exact ⟨sound, by omega, by omega⟩

theorem step_of_takesIrq {β : Type} [Bus β] {m : Core β} (taken : m.cpu.takesIrq = true) :
    m.step = m.irq := by
  obtain ⟨hr, hp⟩ : m.cpu.isRefilling = false ∧ m.cpu.irqPending = true := by
    simpa [Cpu.takesIrq] using taken
  exact step_of_pending hr hp

theorem irq_spends (sound : m.bus.bus.wait.Sound) :
    Board.Spends 0 0 m.bus.bus m.irq.bus.bus := by
  have paid := enterException_pays sound .irq 0x18
  have free := worst_enterException m .irq 0x18
  have nothing : (m.enterException .irq 0x18).bus.worst - m.bus.worst = 0 := by omega
  exact nothing ▸ paid.2

theorem working_spends (sound : m.bus.bus.wait.Sound) (ready : m.bus.bus.Ready m.cpu.pc)
    (working : m.cpu.takesIrq = false) : Board.Spends 1 545 m.bus.bus m.step.bus.bus := by
  have fetched : m.fetch.bus.bus.wait.Sound := (Board.fetch_spends sound ready).sound
  obtain ⟨-, hs⟩ | ⟨hr, hp, -⟩ | ⟨-, op, -, hs⟩ | ⟨-, hs⟩ := step_cases m
  · have spent : Board.Spends 1 32 m.bus.bus m.stepBubble.bus.bus :=
      Board.fetch_spends sound ready
    rw [hs]
    exact ⟨spent.sound, spent.least, Nat.le_trans spent.most (by omega)⟩
  · simp [Cpu.takesIrq, hr, hp] at working
  · rw [hs]
    exact spends_after_fetch sound ready (execute_pays fetched _ op) (worst_execute _ _ op)
  · rw [hs]
    exact spends_after_fetch sound ready (Traced.pays_nothing fetched rfl rfl) (Nat.le_add_right _ _)

/-- The same processor on a bus that has recorded nothing yet. -/
def traced {β : Type} (m : Core β) : Core (Traced β) := ⟨m.cpu, .start m.bus⟩

theorem step_traced {β : Type} [Bus β] (m : Core β) : m.step = m.traced.step.map Traced.forget :=
  map_step Traced.forget m.traced

/-- Entering an interrupt is free. Any other step takes a clock for its fetch, and at most a fetch,
sixteen transfers and a cycle. -/
theorem step_spends {m : Core Board} (sound : m.bus.wait.Sound) (ready : m.bus.Ready m.cpu.pc) :
    if m.cpu.takesIrq then Board.Spends 0 0 m.bus m.step.bus
    else Board.Spends 1 545 m.bus m.step.bus := by
  have bus : m.step.bus = m.traced.step.bus.bus := congrArg Core.bus (step_traced m)
  rw [bus]
  split
  · next taken =>
    rw [step_of_takesIrq (m := m.traced) taken]
    exact irq_spends (m := m.traced) sound
  · next working => exact working_spends (m := m.traced) sound ready (Bool.eq_false_iff.mpr working)

theorem step_sound {m : Core Board} (sound : m.bus.wait.Sound) (ready : m.bus.Ready m.cpu.pc) :
    m.step.bus.wait.Sound := by
  have spent := step_spends sound ready
  split at spent
  · exact spent.sound
  · exact spent.sound

end Core

end GbaArm
