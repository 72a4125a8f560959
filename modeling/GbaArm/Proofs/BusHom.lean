import GbaArm.Core.Step

/-!
The processor is uniform in its bus: a map between buses that respects every operation carries each
step on the one to the same step on the other.
-/
namespace GbaArm

/-- A map between buses that respects every operation and its answer. -/
structure BusHom (β γ : Type) [Bus β] [Bus γ] where
  toFun : β → γ
  read32 (address : UInt32) (b : β) :
    Bus.read32 address (toFun b) = ((Bus.read32 address b).1, toFun (Bus.read32 address b).2)
  read16 (address : UInt32) (b : β) :
    Bus.read16 address (toFun b) = ((Bus.read16 address b).1, toFun (Bus.read16 address b).2)
  read8 (address : UInt32) (b : β) :
    Bus.read8 address (toFun b) = ((Bus.read8 address b).1, toFun (Bus.read8 address b).2)
  fetch32 (address : UInt32) (b : β) :
    Bus.fetch32 address (toFun b) = ((Bus.fetch32 address b).1, toFun (Bus.fetch32 address b).2)
  write32 (address value : UInt32) (b : β) :
    Bus.write32 address value (toFun b) = toFun (Bus.write32 address value b)
  write16 (address : UInt32) (value : UInt16) (b : β) :
    Bus.write16 address value (toFun b) = toFun (Bus.write16 address value b)
  write8 (address : UInt32) (value : UInt8) (b : β) :
    Bus.write8 address value (toFun b) = toFun (Bus.write8 address value b)
  internalCycle (pc : UInt32) (b : β) :
    Bus.internalCycle pc (toFun b) = toFun (Bus.internalCycle pc b)
  internalCycles (pc : UInt32) (count : Nat) (b : β) :
    Bus.internalCycles pc count (toFun b) = toFun (Bus.internalCycles pc count b)
  nonSequential (b : β) : Bus.nonSequential (toFun b) = toFun (Bus.nonSequential b)
  executingAt (pc : UInt32) (b : β) : Bus.executingAt pc (toFun b) = toFun (Bus.executingAt pc b)
  branched (target : UInt32) (b : β) : Bus.branched target (toFun b) = toFun (Bus.branched target b)
  note (event : Event) (b : β) : Bus.note event (toFun b) = toFun (Bus.note event b)

namespace Core

variable {β γ : Type} [Bus β] [Bus γ] (h : BusHom β γ) (m : Core β)

/-- The same processor on the image of its bus. -/
def map (h : BusHom β γ) (m : Core β) : Core γ := ⟨m.cpu, h.toFun m.bus⟩

@[simp] theorem map_cpu : (m.map h).cpu = m.cpu := rfl

@[simp] theorem map_onCpu (f : Cpu → Cpu) : (m.map h).onCpu f = (m.onCpu f).map h := rfl

@[simp] theorem map_readUser (n : Nat) : (m.map h).readUser n = m.readUser n := rfl

@[simp] theorem map_writeUser (n : Nat) (value : UInt32) :
    (m.map h).writeUser n value = (m.writeUser n value).map h := rfl

@[simp] theorem map_note (e : Event) : (m.map h).note e = (m.note e).map h := by
  simp [note, onBus, map, h.note]

@[simp] theorem map_noteMode (mode : Mode) : (m.map h).noteMode mode = (m.noteMode mode).map h := by
  unfold noteMode
  split <;> simp_all

@[simp] theorem map_branch (target : UInt32) : (m.map h).branch target = (m.branch target).map h := by
  simp [branch, map, h.branched]

@[simp] theorem map_setControl (value : UInt8) :
    (m.map h).setControl value = (m.setControl value).map h := by
  simp [setControl]

@[simp] theorem map_setStatus (value : UInt32) :
    (m.map h).setStatus value = (m.setStatus value).map h := by
  simp [setStatus]

@[simp] theorem map_restoreStatus : (m.map h).restoreStatus = m.restoreStatus.map h := by
  unfold restoreStatus
  rw [map_cpu]
  split <;> simp

@[simp] theorem map_writeRegister (n : Nat) (value : UInt32) :
    (m.map h).writeRegister n value = (m.writeRegister n value).map h := by
  unfold writeRegister
  split <;> simp

@[simp] theorem map_returnTo (value : UInt32) :
    (m.map h).returnTo value = (m.returnTo value).map h := by
  simp [returnTo]

@[simp] theorem map_writeRegisterRestoring (n : Nat) (value : UInt32) :
    (m.map h).writeRegisterRestoring n value = (m.writeRegisterRestoring n value).map h := by
  unfold writeRegisterRestoring
  split <;> simp

@[simp] theorem map_writeUserBase (n : Nat) (value : UInt32) :
    (m.map h).writeUserBase n value = (m.writeUserBase n value).map h := by
  unfold writeUserBase
  split <;> simp

@[simp] theorem map_internalCycle : (m.map h).internalCycle = m.internalCycle.map h := by
  simp [internalCycle, onBus, map, h.internalCycle]

@[simp] theorem map_internalCycles (count : Nat) :
    (m.map h).internalCycles count = (m.internalCycles count).map h := by
  simp [internalCycles, onBus, map, h.internalCycles]

@[simp] theorem map_openAccess : (m.map h).openAccess = m.openAccess.map h := by
  simp [openAccess, onBus, map, h.executingAt, h.nonSequential]

@[simp] theorem map_closeAccess : (m.map h).closeAccess = m.closeAccess.map h := by
  simp [closeAccess, onBus, map, h.nonSequential]

@[simp] theorem map_read32 (address : UInt32) : (m.map h).readBus (Bus.read32 address) =
    ((m.readBus (Bus.read32 address)).1, (m.readBus (Bus.read32 address)).2.map h) := by
  simp [readBus, map, h.read32]

@[simp] theorem map_read16 (address : UInt32) : (m.map h).readBus (Bus.read16 address) =
    ((m.readBus (Bus.read16 address)).1, (m.readBus (Bus.read16 address)).2.map h) := by
  simp [readBus, map, h.read16]

@[simp] theorem map_read8 (address : UInt32) : (m.map h).readBus (Bus.read8 address) =
    ((m.readBus (Bus.read8 address)).1, (m.readBus (Bus.read8 address)).2.map h) := by
  simp [readBus, map, h.read8]

@[simp] theorem map_write32 (address value : UInt32) :
    (m.map h).onBus (Bus.write32 address value) = (m.onBus (Bus.write32 address value)).map h := by
  simp [onBus, map, h.write32]

@[simp] theorem map_write16 (address : UInt32) (value : UInt16) :
    (m.map h).onBus (Bus.write16 address value) = (m.onBus (Bus.write16 address value)).map h := by
  simp [onBus, map, h.write16]

@[simp] theorem map_write8 (address : UInt32) (value : UInt8) :
    (m.map h).onBus (Bus.write8 address value) = (m.onBus (Bus.write8 address value)).map h := by
  simp [onBus, map, h.write8]

@[simp] theorem map_loadWord (address : UInt32) :
    (m.map h).loadWord address = ((m.loadWord address).1, (m.loadWord address).2.map h) := by
  simp [loadWord]

@[simp] theorem map_loadHalf (address : UInt32) :
    (m.map h).loadHalf address = ((m.loadHalf address).1, (m.loadHalf address).2.map h) := by
  simp [loadHalf]

@[simp] theorem map_loadByte (address : UInt32) :
    (m.map h).loadByte address = ((m.loadByte address).1, (m.loadByte address).2.map h) := by
  simp [loadByte]

@[simp] theorem map_storeWord (address value : UInt32) :
    (m.map h).storeWord address value = (m.storeWord address value).map h := by
  simp [storeWord]

@[simp] theorem map_storeHalf (address value : UInt32) :
    (m.map h).storeHalf address value = (m.storeHalf address value).map h := by
  simp [storeHalf]

@[simp] theorem map_storeByte (address value : UInt32) :
    (m.map h).storeByte address value = (m.storeByte address value).map h := by
  simp [storeByte]

@[simp] theorem map_shiftedByRegister (word : UInt32) : (m.map h).shiftedByRegister word =
    ((m.shiftedByRegister word).1, (m.shiftedByRegister word).2.map h) := by
  simp [shiftedByRegister]

@[simp] theorem map_dataProcessing (word : UInt32) (op : AluOp) (setFlags byRegister : Bool) :
    (m.map h).dataProcessing word op setFlags byRegister =
      (m.dataProcessing word op setFlags byRegister).map h := by
  unfold dataProcessing
  cases byRegister <;> cases setFlags <;> cases op.isCompare <;> simp

@[simp] theorem map_readStatus (word : UInt32) :
    (m.map h).readStatus word = (m.readStatus word).map h := by
  simp [readStatus]

@[simp] theorem map_writePresentStatus (word value : UInt32) :
    (m.map h).writePresentStatus word value = (m.writePresentStatus word value).map h := by
  simp [writePresentStatus, apply_ite (Core.map h)]

@[simp] theorem map_writeSavedStatus (withControl : Bool) (value : UInt32) :
    (m.map h).writeSavedStatus withControl value = (m.writeSavedStatus withControl value).map h := by
  unfold writeSavedStatus
  rw [map_cpu]
  split <;> simp

@[simp] theorem map_writeStatus (word : UInt32) :
    (m.map h).writeStatus word = (m.writeStatus word).map h := by
  unfold writeStatus
  cases bit word 25 <;> cases bit word 22 <;> simp

@[simp] theorem map_branchExchange (word : UInt32) :
    (m.map h).branchExchange word = (m.branchExchange word).map h := by
  simp [branchExchange, apply_ite (Core.map h)]

@[simp] theorem map_branchBy (word : UInt32) (link : Bool) :
    (m.map h).branchBy word link = (m.branchBy word link).map h := by
  cases link <;> simp [branchBy]

@[simp] theorem map_writeProductHigh (word value : UInt32) :
    (m.map h).writeProductHigh word value = (m.writeProductHigh word value).map h := by
  simp [writeProductHigh, apply_ite (Core.map h)]

@[simp] theorem map_writeProductLow (word value : UInt32) :
    (m.map h).writeProductLow word value = (m.writeProductLow word value).map h := by
  simp [writeProductLow, apply_ite (Core.map h)]

@[simp] theorem map_multiply (word : UInt32) (accumulate setFlags : Bool) :
    (m.map h).multiply word accumulate setFlags = (m.multiply word accumulate setFlags).map h := by
  by_cases hd : Field.rn word = Field.rm word <;> cases setFlags <;>
    simp [multiply, product32, hd]

@[simp] theorem map_multiplyLong (word : UInt32) (signed accumulate setFlags : Bool) :
    (m.map h).multiplyLong word signed accumulate setFlags =
      (m.multiplyLong word signed accumulate setFlags).map h := by
  cases setFlags <;> simp [multiplyLong, product64]

@[simp] theorem map_transferAddress (word offset : UInt32) (indexing : Indexing) :
    (m.map h).transferAddress word offset indexing =
      ((m.transferAddress word offset indexing).1,
        (m.transferAddress word offset indexing).2.map h) := by
  cases indexing <;> simp [transferAddress, apply_ite (Core.map h)]

@[simp] theorem map_storeRegister (word address : UInt32) (width : TransferWidth) :
    (m.map h).storeRegister word address width = (m.storeRegister word address width).map h := by
  cases width <;> simp [storeRegister]

@[simp] theorem map_loadRegister (word address : UInt32) (width : TransferWidth) :
    (m.map h).loadRegister word address width = (m.loadRegister word address width).map h := by
  cases width <;> simp [loadRegister]

@[simp] theorem map_transferRegister (word offset : UInt32) (indexing : Indexing) (load : Bool)
    (width : TransferWidth) : (m.map h).transferRegister word offset indexing load width =
      (m.transferRegister word offset indexing load width).map h := by
  cases load <;> simp [transferRegister]

@[simp] theorem map_halfTransfer (word : UInt32) (kind : HalfTransfer) (indexing : Indexing) :
    (m.map h).halfTransfer word kind indexing = (m.halfTransfer word kind indexing).map h := by
  cases kind <;> simp [halfTransfer]

@[simp] theorem map_swap (word : UInt32) (byte : Bool) :
    (m.map h).swap word byte = (m.swap word byte).map h := by
  cases byte <;> simp [swap]

@[simp] theorem map_storeList (mode : BlockMode) (n : Nat) (finalBase : UInt32) (list : List Nat)
    (first : Bool) (address : UInt32) (m : Core β) :
    storeList mode n finalBase list first address (m.map h) =
      (storeList mode n finalBase list first address m).map h := by
  induction list generalizing first address m with
  | nil => rfl
  | cons r rest ih =>
    unfold storeList
    simp only [map_cpu, map_readUser, map_write32, map_writeRegister, ← apply_ite (Core.map h), ih]

@[simp] theorem map_writeLoaded (mode : BlockMode) (withPc : Bool) (r : Nat) (value : UInt32)
    (m : Core β) : writeLoaded mode withPc r value (m.map h) =
      (writeLoaded mode withPc r value m).map h := by
  simp [writeLoaded, apply_ite (Core.map h)]

@[simp] theorem map_loadList (mode : BlockMode) (withPc : Bool) (list : List Nat) (address : UInt32)
    (m : Core β) : loadList mode withPc list address (m.map h) =
      (loadList mode withPc list address m).map h := by
  induction list generalizing address m with
  | nil => rfl
  | cons r rest ih => simp [loadList, ih]

@[simp] theorem map_blockStore (word : UInt32) (mode : BlockMode) :
    (m.map h).blockStore word mode = (m.blockStore word mode).map h := by
  simp [blockStore, apply_ite (Core.map h)]

@[simp] theorem map_loadEmpty (word base : UInt32) (mode : BlockMode) :
    (m.map h).loadEmpty word base mode = (m.loadEmpty word base mode).map h := by
  cases hu : mode.user <;> cases hw : mode.writeback <;> simp [loadEmpty, hu, hw]

@[simp] theorem map_breakSequence :
    (m.map h).onBus Bus.nonSequential = (m.onBus Bus.nonSequential).map h := map_closeAccess h m

@[simp] theorem map_loadListed (word base : UInt32) (mode : BlockMode) :
    (m.map h).loadListed word base mode = (m.loadListed word base mode).map h := by
  simp [loadListed, apply_ite (Core.map h)]

@[simp] theorem map_blockLoad (word : UInt32) (mode : BlockMode) :
    (m.map h).blockLoad word mode = (m.blockLoad word mode).map h := by
  simp [blockLoad, ← apply_ite (Core.map h)]

@[simp] theorem map_blockTransfer (word : UInt32) :
    (m.map h).blockTransfer word = (m.blockTransfer word).map h := by
  simp [blockTransfer, apply_ite (Core.map h)]

@[simp] theorem map_enterException (mode : Mode) (vector : UInt32) :
    (m.map h).enterException mode vector = (m.enterException mode vector).map h := by
  simp [enterException]

@[simp] theorem map_skipBoot (entry : UInt32) :
    (m.map h).skipBoot entry = (m.skipBoot entry).map h := by
  simp [skipBoot]

theorem map_execute (word : UInt32) (op : Opcode) :
    (m.map h).execute word op = (m.execute word op).map h := by
  cases op <;> simp [execute, transfer, softwareInterrupt, undefinedInstruction]

@[simp] theorem map_fetch : (m.map h).fetch = m.fetch.map h := by
  simp [fetch, readBus, onCpu, map, h.fetch32]

theorem map_step : (m.map h).step = m.step.map h := by
  have executed : ∀ word, (m.fetch.map h).executeIf word = (m.fetch.executeIf word).map h := by
    intro word
    unfold executeIf
    rw [map_cpu, map_execute]
    split <;> simp
  unfold step
  rw [map_cpu]
  split
  · simp [stepBubble, advancePipe]
  · split
    · simp [irq]
    · simp [stepInstruction, advancePipe, executed]

end Core

end GbaArm
