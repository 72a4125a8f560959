import GbaArm.Core.Step
import GbaArm.Proofs.Banks

/-!
What an instruction can do, said once: the primitive changes of a machine, and for each handler that
it is made of them and moves the program counter on by one instruction or jumps.
-/
namespace GbaArm

/-- A change of the bus other than a fetch or the notice of a jump, while R15 reads as `pc`. -/
inductive Bus.Touches {β : Type} [Bus β] (pc : UInt32) : β → β → Prop
  | read32 (address : UInt32) (b : β) : Touches pc b (Bus.read32 address b).2
  | read16 (address : UInt32) (b : β) : Touches pc b (Bus.read16 address b).2
  | read8 (address : UInt32) (b : β) : Touches pc b (Bus.read8 address b).2
  | write32 (address value : UInt32) (b : β) : Touches pc b (Bus.write32 address value b)
  | write16 (address : UInt32) (value : UInt16) (b : β) : Touches pc b (Bus.write16 address value b)
  | write8 (address : UInt32) (value : UInt8) (b : β) : Touches pc b (Bus.write8 address value b)
  | internalCycle (b : β) : Touches pc b (Bus.internalCycle pc b)
  | internalCycles (count : Nat) (b : β) : Touches pc b (Bus.internalCycles pc count b)
  | nonSequential (b : β) : Touches pc b (Bus.nonSequential b)
  | executingAt (b : β) : Touches pc b (Bus.executingAt pc b)
  | note (event : Event) (b : β) : Touches pc b (Bus.note event b)

/-- A property of the bus that no operation of the processor ends. -/
structure Bus.Keeps {β : Type} [Bus β] (P : β → Prop) : Prop where
  touch {pc : UInt32} {b b' : β} : Bus.Touches pc b b' → P b → P b'
  fetch (address : UInt32) {b : β} : P b → P (Bus.fetch32 address b).2
  branched (target : UInt32) {b : β} : P b → P (Bus.branched target b)

theorem Bus.Keeps.note {β : Type} [Bus β] {P : β → Prop} (kept : Bus.Keeps P) (event : Event) {b : β}
    (h : P b) : P (Bus.note event b) :=
  kept.touch (Touches.note event b : Bus.Touches 0 b _) h

theorem Field.lt_sixteen (field : UInt32) : (field &&& 0xF).toNat < 16 := by
  rw [UInt32.toNat_and]
  exact Nat.lt_of_le_of_lt Nat.and_le_right (by decide)

/-- The instruction that the next step executes, if it executes one. -/
def Cpu.due (c : Cpu) : Option Opcode :=
  if !c.isRefilling && !c.irqPending && (Condition.ofWord c.pipe.execute).holds c.flags then
    some (Opcode.ofWord c.pipe.execute)
  else none

namespace Core

variable {β : Type} [Bus β]

/-- `Moves n m m'`: primitive changes lead from `m` to `m'`, and R15 moves on by `n` words unless a
jump is taken. -/
inductive Moves : Nat → Core β → Core β → Prop
  | refl (m : Core β) : Moves 0 m m
  | trans {i j : Nat} {m m' m'' : Core β} : Moves i m m' → Moves j m' m'' → Moves (i + j) m m''
  | touch {m : Core β} {b : β} (h : Bus.Touches m.cpu.pc m.bus b) : Moves 0 m { m with bus := b }
  | advance (m : Core β) : Moves 1 m (m.onCpu Cpu.advancePc)
  /-- A jump makes up for any number of words. -/
  | jump (m : Core β) (n : Nat) (target : UInt32) : Moves n m (m.branch target)
  | flags (m : Core β) (flags : Flags) : Moves 0 m (m.onCpu fun c => { c with flags })
  | write (m : Core β) {n : Nat} (h : n < 15) (value : UInt32) :
      Moves 0 m (m.onCpu fun c => c.writeReg n value)
  | writeUser (m : Core β) {n : Nat} (h : n < 15) (value : UInt32) : Moves 0 m (m.writeUser n value)
  /-- Only a mode that has a saved status word writes one. -/
  | save {m : Core β} (h : m.cpu.savedStatus ≠ none) (value : UInt32) :
      Moves 0 m (m.onCpu fun c => { c with regs := c.regs.setSavedStatus value c.mode })
  | restore {m : Core β} {value : UInt32} (h : m.cpu.savedStatus = some value) :
      Moves 0 m (m.onCpu fun c => c.setStatus value)
  /-- The mode field of User mode writes no control byte, and none writes the Thumb bit. -/
  | control {m : Core β} (h : m.cpu.control &&& 0x1F ≠ 0x10) (value : UInt8) :
      Moves 0 m (m.onCpu fun c => c.setControl (value &&& 0xDF))

variable {m m' m'' : Core β} {n : Nat}

namespace Moves

theorem before (h : Moves 0 m m') (h' : Moves n m' m'') : Moves n m m'' := by
  simpa using h.trans h'

theorem after (h : Moves n m m') (h' : Moves 0 m' m'') : Moves n m m'' := h.trans h'

/-- No primitive change touches a latch. -/
theorem latches (h : Moves n m m') :
    m'.cpu.pipe = { m.cpu.pipe with bubbles := m'.cpu.pipe.bubbles } := by
  induction h with
  | trans _ _ ih ih' => rw [ih', ih]
  | _ => rfl

/-- Either a refill is due, or the program counter has moved on by `n` words. -/
theorem pc (h : Moves n m m') : m'.cpu.pipe.bubbles = 2 ∨
    m'.cpu.pipe.bubbles = m.cpu.pipe.bubbles ∧ m'.cpu.pc = m.cpu.pc + UInt32.ofNat (4 * n) := by
  have still : ∀ p : UInt32, p = p + UInt32.ofNat (4 * 0) := fun p => (UInt32.add_zero p).symm
  induction h with
  | trans _ _ ih ih' =>
    rcases ih' with hb | ⟨hb, hp⟩
    · exact Or.inl hb
    · rcases ih with hb' | ⟨hb', hp'⟩
      · exact Or.inl (hb.trans hb')
      · refine Or.inr ⟨hb.trans hb', ?_⟩
        rw [hp, hp', Nat.mul_add, UInt32.ofNat_add, UInt32.add_assoc]
  | jump => exact Or.inl rfl
  | advance m => exact Or.inr ⟨rfl, RegisterFile.pc_setPc⟩
  | write m h value => exact Or.inr ⟨rfl, (RegisterFile.pc_write h).trans (still _)⟩
  | writeUser m h value => exact Or.inr ⟨rfl, (RegisterFile.pc_writeUser h).trans (still _)⟩
  | save => exact Or.inr ⟨rfl, RegisterFile.pc_setSavedStatus.trans (still _)⟩
  | restore | control => exact Or.inr ⟨rfl, RegisterFile.pc_switchBank.trans (still _)⟩
  | _ => exact Or.inr ⟨rfl, still _⟩

end Moves

theorem note_moves (m : Core β) (e : Event) : Moves 0 m (m.note e) := .touch (.note e m.bus)

theorem noteMode_moves (m : Core β) (mode : Mode) : Moves 0 m (m.noteMode mode) := by
  rw [noteMode]
  split
  · exact .refl m
  · exact note_moves m _

theorem noteMode_cpu (m : Core β) (mode : Mode) : (m.noteMode mode).cpu = m.cpu := by
  rw [noteMode]
  split <;> rfl

theorem restoreStatus_moves (m : Core β) : Moves 0 m m.restoreStatus := by
  rw [restoreStatus]
  split
  · next saved h => exact (noteMode_moves m _).before (.restore (noteMode_cpu m _ ▸ h))
  · exact .refl m

theorem writeRegister_moves (m : Core β) (n : Nat) (value : UInt32) :
    Moves 0 m (m.writeRegister n value) := by
  rw [writeRegister]
  split
  · next h => exact .write m h value
  · exact .jump m 0 _

theorem returnTo_moves (m : Core β) (value : UInt32) : Moves 0 m (m.returnTo value) :=
  (restoreStatus_moves m).before (.jump _ 0 _)

theorem writeRegisterRestoring_moves (m : Core β) (n : Nat) (value : UInt32) :
    Moves 0 m (m.writeRegisterRestoring n value) := by
  rw [writeRegisterRestoring]
  split
  · next h => exact .write m h value
  · exact returnTo_moves m value

theorem writeUserBase_moves (m : Core β) (n : Nat) (value : UInt32) :
    Moves 0 m (m.writeUserBase n value) := by
  rw [writeUserBase]
  split
  · next h => exact .writeUser m h value
  · exact .jump m 0 _

theorem internalCycle_moves (m : Core β) : Moves 0 m m.internalCycle :=
  .touch (.internalCycle _)

theorem openAccess_moves (m : Core β) : Moves 0 m m.openAccess :=
  (Moves.touch (.executingAt _)).after (.touch (.nonSequential _))

theorem closeAccess_moves (m : Core β) : Moves 0 m m.closeAccess := .touch (.nonSequential _)

theorem loadWord_moves (m : Core β) (address : UInt32) : Moves 0 m (m.loadWord address).2 :=
  ((openAccess_moves m).after (.touch (.read32 _ _))).after (closeAccess_moves _)

theorem loadHalf_moves (m : Core β) (address : UInt32) : Moves 0 m (m.loadHalf address).2 :=
  ((openAccess_moves m).after (.touch (.read16 _ _))).after (closeAccess_moves _)

theorem loadByte_moves (m : Core β) (address : UInt32) : Moves 0 m (m.loadByte address).2 :=
  ((openAccess_moves m).after (.touch (.read8 _ _))).after (closeAccess_moves _)

theorem storeWord_moves (m : Core β) (address value : UInt32) :
    Moves 0 m (m.storeWord address value) :=
  ((openAccess_moves m).after (.touch (.write32 _ _ _))).after (closeAccess_moves _)

theorem storeHalf_moves (m : Core β) (address value : UInt32) :
    Moves 0 m (m.storeHalf address value) :=
  ((openAccess_moves m).after (.touch (.write16 _ _ _))).after (closeAccess_moves _)

theorem storeByte_moves (m : Core β) (address value : UInt32) :
    Moves 0 m (m.storeByte address value) :=
  ((openAccess_moves m).after (.touch (.write8 _ _ _))).after (closeAccess_moves _)

theorem keepResult_moves (m : Core β) (word : UInt32) (op : AluOp) (setFlags : Bool)
    (result : UInt32) : Moves 0 m
      (if op.isCompare then m
        else if setFlags then m.writeRegisterRestoring (Field.rd word) result
        else m.writeRegister (Field.rd word) result) := by
  split
  · exact .refl m
  · split
    · exact writeRegisterRestoring_moves m _ result
    · exact writeRegister_moves m _ result

theorem dataProcessing_moves (m : Core β) (word : UInt32) (op : AluOp)
    (setFlags byRegister : Bool) : Moves 1 m (m.dataProcessing word op setFlags byRegister) := by
  rw [dataProcessing]
  cases byRegister with
  | false =>
    exact ((Moves.flags m _).before (.advance _)).after (keepResult_moves _ word op setFlags _)
  | true =>
    have advanced := Moves.advance m
    exact ((advanced.after (internalCycle_moves _)).after (.flags _ _)).after
      (keepResult_moves _ word op setFlags _)

theorem readStatus_moves (m : Core β) (word : UInt32) : Moves 1 m (m.readStatus word) :=
  (Moves.advance m).after (writeRegister_moves _ _ _)

theorem setControl_moves {m : Core β} (h : m.cpu.control &&& 0x1F ≠ 0x10) (value : UInt8) :
    Moves 0 m (m.setControl (value &&& 0xDF)) :=
  (noteMode_moves m _).before (.control (noteMode_cpu m _ ▸ h) value)

theorem writePresentStatus_moves (m : Core β) (word value : UInt32) :
    Moves 0 m (m.writePresentStatus word value) := by
  unfold writePresentStatus
  extract_lets k
  have flagged : Moves 0 m k := .flags m (Flags.ofNzcv value)
  split
  · next h =>
    have hc : k.cpu.control &&& 0x1F ≠ 0x10 := by simp_all
    exact flagged.after (setControl_moves hc value.toUInt8)
  · exact flagged

theorem writeSavedStatus_moves (m : Core β) (withControl : Bool) (value : UInt32) :
    Moves 0 m (m.writeSavedStatus withControl value) := by
  rw [writeSavedStatus]
  split
  · next h => exact .save (by simp [h]) _
  · exact .refl m

theorem writeStatus_moves (m : Core β) (word : UInt32) : Moves 1 m (m.writeStatus word) := by
  rw [writeStatus]
  refine Moves.before ?_ (.advance _)
  split
  · exact writePresentStatus_moves m word _
  · exact writeSavedStatus_moves m _ _
  · exact .flags m _
  · exact writeSavedStatus_moves m false _

theorem branchBy_moves (m : Core β) (word : UInt32) (link : Bool) :
    Moves 1 m (m.branchBy word link) := by
  rw [branchBy]
  cases link with
  | false => exact .jump m 1 _
  | true => exact (Moves.write m (by decide) _).before (.jump _ 1 _)

theorem writeProduct_moves (m : Core β) {n : Nat} (hn : n < 16) (value : UInt32) :
    Moves 0 m (if n = 15 then m else m.onCpu fun c => c.writeReg n value) := by
  split
  · exact .refl m
  · exact .write m (by omega) value

theorem writeProductHigh_moves (m : Core β) (word value : UInt32) :
    Moves 1 m (m.writeProductHigh word value) :=
  (Moves.advance m).after (writeProduct_moves _ (Field.lt_sixteen _) value)

theorem writeProductLow_moves (m : Core β) (word value : UInt32) :
    Moves 0 m (m.writeProductLow word value) := writeProduct_moves m (Field.lt_sixteen _) value

theorem setFlagsIf_moves (m : Core β) (set : Bool) (flags : Flags) :
    Moves 0 m (if set then m.onCpu fun c => { c with flags } else m) := by
  cases set with
  | false => exact .refl m
  | true => exact .flags m flags

theorem multiply_moves (m : Core β) (word : UInt32) (accumulate setFlags : Bool) :
    Moves 1 m (m.multiply word accumulate setFlags) := by
  rw [multiply]
  split
  next product k h =>
    have multiplied : Moves 0 m k := by
      rw [show k = _ from (congrArg Prod.snd h).symm]
      split
      · exact .refl m
      · exact .touch (.internalCycles _ _)
    exact (multiplied.after (setFlagsIf_moves k setFlags _)).before (writeProductHigh_moves _ word _)

theorem multiplyLong_moves (m : Core β) (word : UInt32) (signed accumulate setFlags : Bool) :
    Moves 1 m (m.multiplyLong word signed accumulate setFlags) := by
  have multiplied : ∀ rm rs sum, Moves 0 m (m.product64 rm rs signed sum).2 :=
    fun rm rs sum => .touch (.internalCycles _ _)
  have flagged : ∀ (k : Core β) flags high low, Moves 1 k
      (((if setFlags then k.onCpu fun c => { c with flags } else k).writeProductHigh word
        high).writeProductLow word low) := fun k flags high low =>
    ((setFlagsIf_moves k setFlags flags).before (writeProductHigh_moves _ word high)).after
      (writeProductLow_moves _ word low)
  exact (multiplied (m.cpu.regs.read (Field.rm word)) _ _).before (flagged _ _ _ _)

theorem transferAddress_moves (m : Core β) (word offset : UInt32) (indexing : Indexing) :
    Moves 0 m (m.transferAddress word offset indexing).2 := by
  cases indexing with
  | post => exact writeRegister_moves m _ _
  | postUser => exact writeUserBase_moves m _ _
  | pre =>
    rw [transferAddress]
    simp only
    split
    · exact writeRegister_moves m _ _
    · exact .refl m

theorem storeRegister_moves (m : Core β) (word address : UInt32) (width : TransferWidth) :
    Moves 1 m (m.storeRegister word address width) := by
  have advanced := Moves.advance m
  cases width with
  | word => exact advanced.after (storeWord_moves _ _ _)
  | byte => exact advanced.after (storeByte_moves _ _ _)
  | half | signedHalf | signedByte => exact advanced.after (storeHalf_moves _ _ _)

theorem loadRegister_moves (m : Core β) (word address : UInt32) (width : TransferWidth) :
    Moves 1 m (m.loadRegister word address width) := by
  have store : ∀ (k : Core β) value,
      Moves 1 k ((k.onCpu Cpu.advancePc).writeRegister (Field.rd word) value).internalCycle :=
    fun k value => ((Moves.advance k).after (writeRegister_moves _ _ _)).after (internalCycle_moves _)
  cases width with
  | word => exact (loadWord_moves m address).before (store _ _)
  | half | signedHalf => exact (loadHalf_moves m address).before (store _ _)
  | byte | signedByte => exact (loadByte_moves m address).before (store _ _)

theorem transferRegister_moves (m : Core β) (word offset : UInt32) (indexing : Indexing)
    (load : Bool) (width : TransferWidth) :
    Moves 1 m (m.transferRegister word offset indexing load width) := by
  have addressed := transferAddress_moves m word offset indexing
  cases load with
  | false => exact addressed.before (storeRegister_moves _ _ _ _)
  | true => exact addressed.before (loadRegister_moves _ _ _ _)

theorem halfTransfer_moves (m : Core β) (word : UInt32) (kind : HalfTransfer)
    (indexing : Indexing) : Moves 1 m (m.halfTransfer word kind indexing) := by
  unfold halfTransfer
  cases kind <;> exact transferRegister_moves m word _ indexing _ _

theorem swap_moves (m : Core β) (word : UInt32) (byte : Bool) : Moves 1 m (m.swap word byte) := by
  have write : ∀ (k : Core β) data,
      Moves 1 k ((k.onCpu Cpu.advancePc).writeRegister (Field.rd word) data) :=
    fun k data => (Moves.advance k).after (writeRegister_moves _ _ _)
  cases byte with
  | false =>
    exact (((loadWord_moves m _).after (internalCycle_moves _)).after (storeWord_moves _ _ _)).before
      (write _ _)
  | true =>
    exact (((loadByte_moves m _).after (internalCycle_moves _)).after (storeByte_moves _ _ _)).before
      (write _ _)

theorem storeList_moves (mode : BlockMode) (n : Nat) (finalBase : UInt32) (list : List Nat)
    (first : Bool) (address : UInt32) (m : Core β) :
    Moves 0 m (storeList mode n finalBase list first address m) := by
  induction list generalizing first address m with
  | nil => exact .refl m
  | cons r rest ih =>
    rw [storeList]
    refine Moves.before ?_ (ih false (address + 4) _)
    split
    · exact (Moves.touch (.write32 _ _ _)).before (writeRegister_moves _ _ _)
    · exact .touch (.write32 _ _ _)

theorem writeLoaded_moves (mode : BlockMode) (withPc : Bool) (r : Nat) (value : UInt32)
    (m : Core β) : Moves 0 m (writeLoaded mode withPc r value m) := by
  rw [writeLoaded]
  split
  · split
    · next h =>
      split
      · exact .write m h value
      · exact .writeUser m h value
    · exact returnTo_moves m value
  · exact writeRegister_moves m r value

theorem loadList_moves (mode : BlockMode) (withPc : Bool) (list : List Nat) (address : UInt32)
    (m : Core β) : Moves 0 m (loadList mode withPc list address m) := by
  induction list generalizing address m with
  | nil => exact .refl m
  | cons r rest ih =>
    have loaded := Moves.touch (m := m) (.read32 (alignWord (mode.accessed address)) m.bus)
    exact (loaded.before (writeLoaded_moves mode withPc r _ _)).before (ih (address + 4) _)

theorem blockStore_moves (m : Core β) (word : UInt32) (mode : BlockMode) :
    Moves 0 m (m.blockStore word mode) := by
  unfold blockStore
  extract_lets list count base opened
  split
  · exact .refl m
  · exact ((openAccess_moves m).after (storeList_moves mode _ _ list true _ _)).after
      (closeAccess_moves _)

theorem loadEmpty_moves (m : Core β) (word base : UInt32) (mode : BlockMode) :
    Moves 0 m (m.loadEmpty word base mode) := by
  have jumped : ∀ (k : Core β) (value : UInt32),
      Moves 0 k (if mode.user then k.returnTo value else k.writeRegister 15 value) := by
    intro k value
    split
    · exact returnTo_moves k value
    · exact writeRegister_moves k 15 value
  have written : ∀ k : Core β, Moves 0 k
      (if mode.writeback then k.writeRegister (Field.rn word) (mode.emptyBase base) else k) := by
    intro k
    split
    · exact writeRegister_moves k _ _
    · exact .refl k
  have loaded := Moves.touch (m := m) (.read32 (alignWord (mode.emptyAddress base)) m.bus)
  exact (loaded.before (jumped _ _)).after (written _)

theorem loadListed_moves (m : Core β) (word base : UInt32) (mode : BlockMode) :
    Moves 0 m (m.loadListed word base mode) := by
  have loaded := loadList_moves mode (bit word 15) (registerList word)
    (mode.start base (registerList word).length.toUInt32) m
  unfold loadListed
  extract_lets list count k
  split
  · exact loaded.after (writeRegister_moves k _ _)
  · split
    · exact loaded.after (.touch (.nonSequential _))
    · exact loaded

theorem blockLoad_moves (m : Core β) (word : UInt32) (mode : BlockMode) :
    Moves 0 m (m.blockLoad word mode) := by
  rw [blockLoad]
  refine (openAccess_moves m).before (Moves.before ?_
    ((closeAccess_moves _).after (internalCycle_moves _)))
  split
  · exact loadEmpty_moves _ word _ mode
  · exact loadListed_moves _ word _ mode

theorem blockTransfer_moves (m : Core β) (word : UInt32) : Moves 1 m (m.blockTransfer word) := by
  unfold blockTransfer
  extract_lets k mode
  have advanced : Moves 1 m k := .advance m
  split
  · exact advanced.after (blockLoad_moves k word mode)
  · exact advanced.after (blockStore_moves k word mode)

/-- Every form but the three that enter Thumb state or an exception. -/
theorem execute_moves (m : Core β) (word : UInt32) {op : Opcode} (hx : op ≠ .branchExchange)
    (hs : op ≠ .softwareInterrupt) (hu : op ≠ .undefined) : Moves 1 m (m.execute word op) := by
  cases op with
  | dataProcessing op setFlags byRegister => exact dataProcessing_moves m word op setFlags byRegister
  | readStatus => exact readStatus_moves m word
  | writeStatus => exact writeStatus_moves m word
  | branchExchange => exact absurd rfl hx
  | multiply accumulate setFlags => exact multiply_moves m word accumulate setFlags
  | multiplyLong signed accumulate setFlags =>
    exact multiplyLong_moves m word signed accumulate setFlags
  | halfTransfer kind indexing => exact halfTransfer_moves m word kind indexing
  | transfer load byte indexing scaled => exact transferRegister_moves m word _ indexing load _
  | swap byte => exact swap_moves m word byte
  | blockTransfer => exact blockTransfer_moves m word
  | branch link => exact branchBy_moves m word link
  | softwareInterrupt => exact absurd rfl hs
  | undefined => exact absurd rfl hu

theorem step_of_refilling (h : m.cpu.isRefilling = true) : m.step = m.stepBubble := if_pos h

theorem step_of_pending (hr : m.cpu.isRefilling = false) (hp : m.cpu.irqPending = true) :
    m.step = m.irq := by
  simp [step, hr, hp]

theorem step_of_due {op : Opcode} (h : m.cpu.due = some op) :
    m.step = (m.fetch.execute m.cpu.pipe.execute op).advancePipe := by
  simp only [Cpu.due, Option.ite_none_right_eq_some, Bool.and_eq_true, Bool.not_eq_true',
    Option.some.injEq] at h
  obtain ⟨⟨⟨hr, hp⟩, hc⟩, rfl⟩ := h
  have he : m.fetch.executeIf m.cpu.pipe.execute =
      m.fetch.execute m.cpu.pipe.execute (Opcode.ofWord m.cpu.pipe.execute) := if_pos hc
  simp only [step, hr, hp, Bool.false_eq_true, if_false, ← he]
  rfl

theorem step_of_skipped (hr : m.cpu.isRefilling = false) (hp : m.cpu.irqPending = false)
    (hd : m.cpu.due = none) : m.step = (m.fetch.onCpu Cpu.advancePc).advancePipe := by
  have hc : (Condition.ofWord m.cpu.pipe.execute).holds m.cpu.flags = false := by
    simpa [Cpu.due, hr, hp] using hd
  have he : m.fetch.executeIf m.cpu.pipe.execute = m.fetch.onCpu Cpu.advancePc :=
    if_neg (by simpa [fetch, readBus, onCpu] using hc)
  simp only [step, hr, hp, Bool.false_eq_true, if_false, ← he]
  rfl

/-- A step is a bubble, the entry into an interrupt, an instruction, or one that is skipped. -/
theorem step_cases (m : Core β) :
    (m.cpu.isRefilling = true ∧ m.step = m.stepBubble) ∨
    (m.cpu.isRefilling = false ∧ m.cpu.irqPending = true ∧ m.step = m.irq) ∨
    (m.cpu.isRefilling = false ∧ ∃ op, m.cpu.due = some op ∧
      m.step = (m.fetch.execute m.cpu.pipe.execute op).advancePipe) ∨
    (m.cpu.isRefilling = false ∧ m.step = (m.fetch.onCpu Cpu.advancePc).advancePipe) := by
  cases hr : m.cpu.isRefilling with
  | true => exact Or.inl ⟨rfl, step_of_refilling hr⟩
  | false =>
    cases hp : m.cpu.irqPending with
    | true => exact Or.inr (Or.inl ⟨rfl, rfl, step_of_pending hr hp⟩)
    | false =>
      cases hd : m.cpu.due with
      | none => exact Or.inr (Or.inr (Or.inr ⟨rfl, step_of_skipped hr hp hd⟩))
      | some op => exact Or.inr (Or.inr (Or.inl ⟨rfl, op, rfl, step_of_due hd⟩))

section Keeps

variable {P : β → Prop} {k : Core β}

theorem Moves.keeps {n : Nat} (kept : Bus.Keeps P) (moves : Moves n m k) (h : P m.bus) : P k.bus := by
  induction moves with
  | trans _ _ ih ih' => exact ih' (ih h)
  | touch touched => exact kept.touch touched h
  | jump => exact kept.branched _ h
  | _ => exact h

theorem enterException_keeps (kept : Bus.Keeps P) (h : P m.bus) (mode : Mode) (vector : UInt32) :
    P (m.enterException mode vector).bus := by
  have noted : P (m.noteMode mode).bus := (noteMode_moves m mode).keeps kept h
  exact kept.note _ (kept.branched vector noted)

theorem execute_keeps (kept : Bus.Keeps P) (h : P m.bus) (word : UInt32) (op : Opcode) :
    P (m.execute word op).bus := by
  cases op with
  | branchExchange =>
    rw [execute, branchExchange]
    split
    · exact kept.branched _ (kept.note _ h)
    · exact kept.branched _ h
  | softwareInterrupt => exact enterException_keeps kept h _ _
  | undefined => exact enterException_keeps kept (kept.note _ h) _ _
  | _ =>
    refine (execute_moves m word ?_ ?_ ?_).keeps kept h
    all_goals nofun

theorem step_keeps (kept : Bus.Keeps P) (h : P m.bus) : P m.step.bus := by
  have fetched : P m.fetch.bus := kept.fetch _ h
  obtain ⟨-, hs⟩ | ⟨-, -, hs⟩ | ⟨-, op, -, hs⟩ | ⟨-, hs⟩ := step_cases m
  · exact hs ▸ fetched
  · exact hs ▸ enterException_keeps kept h _ _
  · exact hs ▸ execute_keeps kept fetched _ op
  · exact hs ▸ fetched

end Keeps

end Core

end GbaArm
