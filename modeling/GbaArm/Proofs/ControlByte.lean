import GbaArm.Proofs.DataProcessing

/-! What a step makes of the control byte: only exceptions, their returns, BX and MSR change it. -/
namespace GbaArm.Core

variable {β : Type} {m k l : Core β}

/-- The control byte and the saved status words stay. -/
def KeepsStatus (m k : Core β) : Prop :=
  k.cpu.control = m.cpu.control ∧ k.cpu.regs.saved = m.cpu.regs.saved

/-- They stay, or the control byte becomes that of the saved status word of the present mode. -/
def KeepsOrRestores (m k : Core β) : Prop :=
  KeepsStatus m k ∨ ∃ saved, m.cpu.savedStatus = some saved ∧ k.cpu.control = saved.toUInt8

theorem KeepsStatus.trans (h : KeepsStatus m k) (h' : KeepsStatus k l) : KeepsStatus m l :=
  ⟨h'.1.trans h.1, h'.2.trans h.2⟩

theorem KeepsStatus.savedStatus (h : KeepsStatus m k) : k.cpu.savedStatus = m.cpu.savedStatus := by
  rw [Cpu.savedStatus, Cpu.mode_of_control h.1, RegisterFile.savedStatus, h.2]
  rfl

theorem KeepsStatus.before (h : KeepsStatus m k) (h' : KeepsOrRestores k l) : KeepsOrRestores m l := by
  obtain kept | ⟨saved, present, control⟩ := h'
  · exact Or.inl (h.trans kept)
  · exact Or.inr ⟨saved, h.savedStatus.symm.trans present, control⟩

theorem KeepsOrRestores.after (h : KeepsOrRestores m k) (h' : KeepsStatus k l) :
    KeepsOrRestores m l := by
  obtain kept | ⟨saved, present, control⟩ := h
  · exact Or.inl (kept.trans h')
  · exact Or.inr ⟨saved, present, h'.1.trans control⟩

variable [Bus β] (m)

theorem writeRegister_keepsStatus (n : Nat) (value : UInt32) :
    KeepsStatus m (m.writeRegister n value) := by
  rw [writeRegister]
  split <;> exact ⟨rfl, rfl⟩

theorem writeUserBase_keepsStatus (n : Nat) (value : UInt32) :
    KeepsStatus m (m.writeUserBase n value) := by
  rw [writeUserBase]
  split
  · exact ⟨rfl, RegisterFile.saved_writeUser⟩
  · exact ⟨rfl, rfl⟩

theorem returnTo_control (value : UInt32) : KeepsOrRestores m (m.returnTo value) := by
  cases saved : m.cpu.savedStatus with
  | none =>
    have still : m.restoreStatus = m := by rw [restoreStatus, saved]
    rw [returnTo, still]
    exact Or.inl ⟨rfl, rfl⟩
  | some status =>
    have restored : m.restoreStatus.cpu = m.cpu.setStatus status := restoreStatus_cpu saved
    exact Or.inr ⟨status, saved, congrArg Cpu.control restored⟩

theorem dataProcessing_control (word : UInt32) (op : AluOp) (setFlags byRegister : Bool) :
    KeepsOrRestores m (m.dataProcessing word op setFlags byRegister) := by
  obtain ⟨bus, result⟩ := m.dataProcessing_eq word op setFlags byRegister
  generalize op.outcome setFlags _ _ _ = outcome at result
  have computed : KeepsStatus m ⟨m.cpu.computed outcome.2, bus⟩ := ⟨rfl, rfl⟩
  rw [result, writeBack]
  split
  · exact Or.inl computed
  · refine computed.before ?_
    split
    · rw [writeRegisterRestoring]
      split
      · exact Or.inl ⟨rfl, rfl⟩
      · exact returnTo_control _ _
    · exact Or.inl (writeRegister_keepsStatus _ _ _)

theorem multiply_keepsStatus (word : UInt32) (accumulate setFlags : Bool) :
    KeepsStatus m (m.multiply word accumulate setFlags) := by
  have written : ∀ (k : Core β) flags result, KeepsStatus k
      ((if setFlags then k.onCpu fun c => { c with flags } else k).writeProductHigh word result) := by
    intro k flags result
    unfold writeProductHigh
    cases setFlags <;> dsimp only <;> split <;> exact ⟨rfl, rfl⟩
  rw [multiply]
  split
  next product k hk =>
    have multiplied : KeepsStatus m k := by
      rw [show k = _ from (congrArg Prod.snd hk).symm]
      split <;> exact ⟨rfl, rfl⟩
    exact multiplied.trans (written k _ _)

theorem multiplyLong_keepsStatus (word : UInt32) (signed accumulate setFlags : Bool) :
    KeepsStatus m (m.multiplyLong word signed accumulate setFlags) := by
  unfold multiplyLong writeProductHigh writeProductLow
  cases setFlags <;> dsimp only <;> split <;> split <;> exact ⟨rfl, rfl⟩

theorem transferAddress_keepsStatus (word offset : UInt32) (indexing : Indexing) :
    KeepsStatus m (m.transferAddress word offset indexing).2 := by
  cases indexing with
  | post => exact writeRegister_keepsStatus m _ _
  | postUser => exact writeUserBase_keepsStatus m _ _
  | pre =>
    unfold transferAddress
    dsimp only
    split
    · exact writeRegister_keepsStatus m _ _
    · exact ⟨rfl, rfl⟩

theorem loadRegister_keepsStatus (word address : UInt32) (width : TransferWidth) :
    KeepsStatus m (m.loadRegister word address width) := by
  have written : ∀ (k : Core β) value, KeepsStatus k
      ((k.onCpu Cpu.advancePc).writeRegister (Field.rd word) value).internalCycle :=
    fun k value => writeRegister_keepsStatus (k.onCpu Cpu.advancePc) _ value
  cases width <;> exact written _ _

theorem storeRegister_keepsStatus (word address : UInt32) (width : TransferWidth) :
    KeepsStatus m (m.storeRegister word address width) := by
  cases width <;> exact ⟨rfl, rfl⟩

theorem transferRegister_keepsStatus (word offset : UInt32) (indexing : Indexing) (load : Bool)
    (width : TransferWidth) :
    KeepsStatus m (m.transferRegister word offset indexing load width) := by
  refine (transferAddress_keepsStatus m word offset indexing).trans ?_
  cases load with
  | true => exact loadRegister_keepsStatus _ _ _ _
  | false => exact storeRegister_keepsStatus _ _ _ _

theorem swap_keepsStatus (word : UInt32) (byte : Bool) : KeepsStatus m (m.swap word byte) := by
  refine KeepsStatus.trans ?_ (writeRegister_keepsStatus _ _ _)
  cases byte <;> exact ⟨rfl, rfl⟩

theorem storeList_keepsStatus (mode : BlockMode) (n : Nat) (finalBase : UInt32) (list : List Nat)
    (first : Bool) (place : UInt32) (m : Core β) :
    KeepsStatus m (storeList mode n finalBase list first place m) := by
  induction list generalizing first place m with
  | nil => exact ⟨rfl, rfl⟩
  | cons r rest ih =>
    rw [storeList]
    refine KeepsStatus.trans ?_ (ih _ _ _)
    split
    · exact writeRegister_keepsStatus (m.onBus _) n finalBase
    · exact ⟨rfl, rfl⟩

theorem branchBy_keepsStatus (word : UInt32) (link : Bool) : KeepsStatus m (m.branchBy word link) := by
  cases link <;> exact ⟨rfl, rfl⟩

theorem writeLoaded_control (mode : BlockMode) (withPc : Bool) (value : UInt32) :
    KeepsOrRestores m (writeLoaded mode withPc 15 value m) := by
  cases user : mode.user with
  | false =>
    rw [writeLoaded_pc user]
    exact Or.inl ⟨rfl, rfl⟩
  | true =>
    rw [writeLoaded_pc_user user]
    exact returnTo_control m value

theorem loadList_control (mode : BlockMode) (word place : UInt32) :
    KeepsOrRestores m (loadList mode (bit word 15) (registerList word) place m) := by
  have inner : ∀ withPc, KeepsStatus m (loadList mode withPc (innerList word) place m) := by
    intro withPc
    have low : ∀ r ∈ innerList word, r < 15 := fun r hr => lt_of_mem_innerList hr
    obtain ⟨-, taken⟩ := loadList_taken mode withPc low (nodup_innerList word) place m
    exact ⟨taken.control, taken.saved⟩
  cases listed : bit word 15 with
  | false =>
    rw [registerList_of_not_pc listed]
    exact Or.inl (inner false)
  | true =>
    obtain ⟨value, bus, last⟩ : ∃ value bus, loadList mode true (registerList word) place m =
        writeLoaded mode true 15 value { loadList mode true (innerList word) place m with bus } := by
      rw [registerList_of_pc listed, loadList_concat]
      exact ⟨_, _, rfl⟩
    have others : KeepsStatus m { loadList mode true (innerList word) place m with bus } := inner true
    rw [last]
    exact others.before (writeLoaded_control _ mode true value)

theorem loadListed_control (word base : UInt32) (mode : BlockMode) :
    KeepsOrRestores m (m.loadListed word base mode) := by
  have loaded := loadList_control m mode word (mode.start base (registerList word).length.toUInt32)
  unfold loadListed
  extract_lets list count k
  split
  · exact loaded.after (writeRegister_keepsStatus k _ _)
  · split
    · exact loaded.after (k := k) ⟨rfl, rfl⟩
    · exact loaded

theorem loadEmpty_control (word base : UInt32) (mode : BlockMode) :
    KeepsOrRestores m (m.loadEmpty word base mode) := by
  have jumped : ∀ (k : Core β) (value : UInt32), KeepsOrRestores k
      (if mode.user then k.returnTo value else k.writeRegister 15 value) := by
    intro k value
    split
    · exact returnTo_control k value
    · exact Or.inl (writeRegister_keepsStatus k 15 value)
  have written : ∀ k : Core β, KeepsStatus k
      (if mode.writeback then k.writeRegister (Field.rn word) (mode.emptyBase base) else k) := by
    intro k
    split
    · exact writeRegister_keepsStatus k _ _
    · exact ⟨rfl, rfl⟩
  let read := Bus.read32 (alignWord (mode.emptyAddress base)) m.bus
  have loaded : KeepsStatus m { m with bus := read.2 } := ⟨rfl, rfl⟩
  exact loaded.before ((jumped _ read.1).after (written _))

theorem blockStore_keepsStatus (word : UInt32) (mode : BlockMode) :
    KeepsStatus m (m.blockStore word mode) := by
  unfold blockStore
  extract_lets list count base opened stored
  split
  · exact ⟨rfl, rfl⟩
  · exact storeList_keepsStatus mode _ _ list true _ opened

theorem blockLoad_control (word : UInt32) (mode : BlockMode) :
    KeepsOrRestores m (m.blockLoad word mode) := by
  unfold blockLoad
  extract_lets base opened loaded
  have moved : KeepsOrRestores opened loaded := by
    show KeepsOrRestores opened (if _ then _ else _)
    split
    · exact loadEmpty_control opened word base mode
    · exact loadListed_control opened word base mode
  exact moved

theorem blockTransfer_control (word : UInt32) : KeepsOrRestores m (m.blockTransfer word) := by
  unfold blockTransfer
  extract_lets k mode
  have advanced : KeepsStatus m k := ⟨rfl, rfl⟩
  split
  · exact advanced.before (blockLoad_control k word mode)
  · exact Or.inl (advanced.trans (blockStore_keepsStatus k word mode))

end GbaArm.Core
