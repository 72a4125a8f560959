import GbaArm.Proofs.ConsoleRuns

/-!
The shape of the state between commands: status words without stray bits, an aligned program counter,
at most two bubbles.
-/
namespace GbaArm

/-- No saved status word has a bit between the flags and the control byte. -/
def RegisterFile.Clean (r : RegisterFile) : Prop := ∀ i : Fin 5, r.saved.get i &&& 0x0FFFFF00 = 0

/-- The saved status words are clean. The program counter is even, and the address of a word in ARM
state. -/
structure Cpu.Upright (c : Cpu) : Prop where
  clean : c.regs.Clean
  even : c.pc.toNat % 2 = 0
  aligned : c.isThumb = false → c.pc.toNat % 4 = 0

/-- No status word that is put together has such a bit. -/
theorem status_between (f : Flags) (byte : UInt8) :
    (f.nzcv ||| byte.toUInt32) &&& 0x0FFFFF00 = 0 := by
  apply eq_of_bits
  intro i hi
  have mask : (UInt32.toBitVec 0x0FFFFF00).getLsbD i = decide (8 ≤ i ∧ i < 28) :=
    (by decide : ∀ i < 32, (0x0FFFFF00#32).getLsbD i = decide (8 ≤ i ∧ i < 28)) i hi
  rw [UInt32.toBitVec_and, BitVec.getLsbD_and, mask]
  by_cases between : 8 ≤ i ∧ i < 28
  · have flags : f.nzcv.toBitVec.getLsbD i = false := f.getLsbD_nzcv_low between.2
    simp [flags, between]
  · simp [between]

theorem toNat_alignWord_mod (value : UInt32) : (alignWord value).toNat % 4 = 0 := by
  rw [toNat_alignWord]
  omega

theorem toNat_alignHalf_mod (value : UInt32) : (alignHalf value).toNat % 2 = 0 := by
  rw [toNat_alignHalf]
  omega

/-- The offset of a branch is a number of words. -/
theorem alignWord_branchOffset (word : UInt32) :
    alignWord (Core.branchOffset word) = Core.branchOffset word := by
  have shifted : (Core.branchOffset word).toBitVec = (word <<< 8).toBitVec.sshiftRight 6 := by
    simp [Core.branchOffset, arithmeticShiftRight]
  apply eq_of_bits
  intro i hi
  have mask : (UInt32.toBitVec 0xFFFFFFFC).getLsbD i = decide (2 ≤ i) :=
    (by decide : ∀ i < 32, (0xFFFFFFFC#32).getLsbD i = decide (2 ≤ i)) i hi
  rw [alignWord, UInt32.toBitVec_and, BitVec.getLsbD_and, mask]
  by_cases high : 2 ≤ i
  · simp [high]
  · have low : (Core.branchOffset word).toBitVec.getLsbD i = false := by
      rw [shifted, BitVec.getLsbD_sshiftRight]
      have near : 6 + i < 8 := by omega
      have inside : 6 + i < 32 := by omega
      simp [near, inside]
    simp [low]

namespace RegisterFile

variable {r r' : RegisterFile}

theorem Clean.of_saved (h : r.Clean) (same : r'.saved = r.saved) : r'.Clean := fun i => by
  rw [same]
  exact h i

theorem Clean.setSavedStatus (h : r.Clean) (mode : Mode) {value : UInt32}
    (clean : value &&& 0x0FFFFF00 = 0) : (r.setSavedStatus value mode).Clean := by
  unfold RegisterFile.setSavedStatus
  split
  · next k _ =>
    intro i
    show (r.saved.set k.val value k.isLt)[i.val] &&& 0x0FFFFF00 = 0
    rw [Vector.getElem_set]
    split
    · exact clean
    · exact h i
  · exact h

end RegisterFile

namespace Cpu

variable {c c' : Cpu}

theorem Upright.of_same (h : c.Upright) (saved : c'.regs.saved = c.regs.saved)
    (pc : c'.pc = c.pc) (thumb : c'.isThumb = c.isThumb) : c'.Upright where
  clean := h.clean.of_saved saved
  even := by rw [pc]; exact h.even
  aligned := by rw [pc, thumb]; exact h.aligned

theorem Upright.advancePc (h : c.Upright) : c.advancePc.Upright := by
  have moved : c.advancePc.pc.toNat = (c.pc.toNat + 4) % 2 ^ 32 := by
    have pc : c.advancePc.pc = c.pc + 4 := RegisterFile.pc_setPc
    rw [pc, UInt32.toNat_add]
    rfl
  refine ⟨h.clean, ?_, fun arm => ?_⟩
  · have := h.even
    omega
  · have := h.aligned arm
    omega

theorem Upright.writeReg (h : c.Upright) {n : Nat} (hn : n < 15) (value : UInt32) :
    (c.writeReg n value).Upright := h.of_same rfl (RegisterFile.pc_write hn) rfl

theorem Upright.writeUser (h : c.Upright) {n : Nat} (hn : n < 15) (value : UInt32) :
    ({ c with regs := c.regs.writeUser n value c.mode } : Cpu).Upright :=
  h.of_same RegisterFile.saved_writeUser (RegisterFile.pc_writeUser hn) rfl

theorem Upright.setSavedStatus (h : c.Upright) (mode : Mode) {value : UInt32}
    (clean : value &&& 0x0FFFFF00 = 0) :
    ({ c with regs := c.regs.setSavedStatus value mode } : Cpu).Upright := by
  have pc : (c.regs.setSavedStatus value mode).pc = c.pc := RegisterFile.pc_setSavedStatus
  constructor
  · exact h.clean.setSavedStatus mode clean
  · show (c.regs.setSavedStatus value mode).pc.toNat % 2 = 0
    rw [pc]
    exact h.even
  · intro arm
    show (c.regs.setSavedStatus value mode).pc.toNat % 4 = 0
    rw [pc]
    exact h.aligned arm

theorem clean_switchBank (h : c.regs.Clean) (mode : Mode) : (c.switchBank mode).regs.Clean :=
  h.of_saved RegisterFile.saved_switchBank

/-- A control byte that keeps ARM state. -/
theorem Upright.setControl (h : c.Upright) (arm : c.isThumb = false) {value : UInt8} :
    (c.setControl value).Upright := by
  have pc : (c.setControl value).pc = c.pc := RegisterFile.pc_switchBank
  refine ⟨clean_switchBank h.clean _, ?_, fun _ => ?_⟩
  · rw [pc]; exact h.even
  · rw [pc]; exact h.aligned arm

theorem clean_setStatus (h : c.regs.Clean) (value : UInt32) : (c.setStatus value).regs.Clean :=
  clean_switchBank (c := { c with flags := Flags.ofNzcv value }) h _

theorem clean_enterException (h : c.regs.Clean) (mode : Mode) :
    (c.enterException mode).regs.Clean := by
  have clean : c.status.raw &&& 0x0FFFFF00 = 0 := status_between c.flags c.control
  exact ((clean_switchBank h mode).setSavedStatus mode clean).of_saved rfl

end Cpu

namespace Core

variable {β : Type} [Bus β] {m : Core β}

theorem clean_setStatus (h : m.cpu.regs.Clean) (value : UInt32) :
    (m.setStatus value).cpu.regs.Clean := by
  have same : (m.setStatus value).cpu = m.cpu.setStatus value :=
    congrArg (Cpu.setStatus · value) (noteMode_cpu m _)
  rw [same]
  exact Cpu.clean_setStatus h value

theorem clean_restoreStatus (h : m.cpu.regs.Clean) : m.restoreStatus.cpu.regs.Clean := by
  unfold restoreStatus
  split
  · exact clean_setStatus h _
  · exact h

theorem branch_upright (h : m.cpu.regs.Clean) {target : UInt32} (even : target.toNat % 2 = 0)
    (aligned : m.cpu.isThumb = false → target.toNat % 4 = 0) : (m.branch target).cpu.Upright := by
  have pc : (m.branch target).cpu.pc = target := RegisterFile.pc_setPc
  refine ⟨h, ?_, fun arm => ?_⟩
  · rw [pc]; exact even
  · rw [pc]; exact aligned arm

theorem jump_upright (h : m.cpu.regs.Clean) (value : UInt32) :
    (m.branch (alignWord value)).cpu.Upright := by
  have aligned := toNat_alignWord_mod value
  exact branch_upright h (by omega) fun _ => aligned

/-- An exception return lands upright wherever it starts. -/
theorem returnTo_upright (h : m.cpu.regs.Clean) (value : UInt32) : (m.returnTo value).cpu.Upright := by
  have restored := clean_restoreStatus h
  unfold returnTo
  extract_lets k
  cases thumb : k.cpu.isThumb with
  | true =>
    exact branch_upright restored (toNat_alignHalf_mod value) fun arm => by rw [thumb] at arm; cases arm
  | false => exact jump_upright restored value

theorem writeRegister_upright (h : m.cpu.Upright) (n : Nat) (value : UInt32) :
    (m.writeRegister n value).cpu.Upright := by
  unfold writeRegister
  split
  · next hn => exact h.writeReg hn value
  · exact jump_upright h.clean value

theorem writeRegisterRestoring_upright (h : m.cpu.Upright) (n : Nat) (value : UInt32) :
    (m.writeRegisterRestoring n value).cpu.Upright := by
  unfold writeRegisterRestoring
  split
  · next hn => exact h.writeReg hn value
  · exact returnTo_upright h.clean value

theorem writeUserBase_upright (h : m.cpu.Upright) (n : Nat) (value : UInt32) :
    (m.writeUserBase n value).cpu.Upright := by
  unfold writeUserBase
  split
  · next hn => exact h.writeUser hn value
  · exact jump_upright h.clean value

theorem enterException_upright (h : m.cpu.regs.Clean) (mode : Mode) {vector : UInt32}
    (aligned : vector.toNat % 4 = 0) : (m.enterException mode vector).cpu.Upright := by
  unfold enterException
  extract_lets k j
  have clean : k.cpu.regs.Clean := by
    show ((m.noteMode mode).cpu.enterException mode).regs.Clean
    rw [noteMode_cpu]
    exact Cpu.clean_enterException h mode
  exact branch_upright clean (by omega) fun _ => aligned

theorem dataProcessing_upright (h : m.cpu.Upright) (word : UInt32) (op : AluOp)
    (setFlags byRegister : Bool) :
    (m.dataProcessing word op setFlags byRegister).cpu.Upright := by
  have keep : ∀ (k : Core β) result, k.cpu.Upright →
      (if op.isCompare then k
        else if setFlags then k.writeRegisterRestoring (Field.rd word) result
        else k.writeRegister (Field.rd word) result).cpu.Upright := by
    intro k result hk
    split
    · exact hk
    · split
      · exact writeRegisterRestoring_upright hk _ _
      · exact writeRegister_upright hk _ _
  rw [dataProcessing]
  have advanced := h.advancePc
  cases byRegister with
  | false => exact keep _ _ (advanced.of_same rfl rfl rfl)
  | true => exact keep _ _ (advanced.of_same rfl rfl rfl)

theorem readStatus_upright (h : m.cpu.Upright) (word : UInt32) : (m.readStatus word).cpu.Upright :=
  writeRegister_upright (m := m.onCpu Cpu.advancePc) h.advancePc _ _

theorem writePresentStatus_upright (h : m.cpu.Upright) (arm : m.cpu.isThumb = false)
    (word value : UInt32) : (m.writePresentStatus word value).cpu.Upright := by
  unfold writePresentStatus
  extract_lets k
  have flagged : k.cpu.Upright := h.of_same rfl rfl rfl
  split
  · have control : (k.setControl (value.toUInt8 &&& 0xDF)).cpu =
        k.cpu.setControl (value.toUInt8 &&& 0xDF) := congrArg (Cpu.setControl · _) (noteMode_cpu k _)
    rw [control]
    exact flagged.setControl arm
  · exact flagged

omit [Bus β] in
theorem writeSavedStatus_upright (h : m.cpu.Upright) (withControl : Bool) (value : UInt32) :
    (m.writeSavedStatus withControl value).cpu.Upright := by
  have clean : ∀ low : UInt32, ((value &&& 0xF0000000) ||| (low &&& 0xFF)) &&& 0x0FFFFF00 = 0 := by
    intro low
    have byte : low &&& 0xFF = low.toUInt8.toUInt32 := by
      apply UInt32.toNat_inj.mp
      rw [UInt32.toNat_and, UInt8.toNat_toUInt32, UInt32.toNat_toUInt8]
      exact Nat.and_two_pow_sub_one_eq_mod low.toNat 8
    rw [byte, ← Flags.nzcv_ofNzcv]
    exact status_between _ _
  unfold writeSavedStatus
  split
  · cases withControl with
    | false => exact h.setSavedStatus _ (clean _)
    | true => exact h.setSavedStatus _ (clean _)
  · exact h

/-- The Thumb bit is out of reach of a status write, which could not realign the program counter. -/
theorem writeStatus_upright (h : m.cpu.Upright) (arm : m.cpu.isThumb = false) (word : UInt32) :
    (m.writeStatus word).cpu.Upright := by
  rw [writeStatus]
  refine Cpu.Upright.advancePc ?_
  split
  · exact writePresentStatus_upright h arm word _
  · exact writeSavedStatus_upright h _ _
  · exact h.of_same rfl rfl rfl
  · exact writeSavedStatus_upright h false _

theorem or_thumb_ne (control : UInt8) : (control ||| 0x20) &&& 0x20 ≠ 0 := fun clear => by
  have fifth := congrArg (fun byte => byte.toBitVec.getLsbD 5) clear
  simp at fifth

theorem branchExchange_upright (h : m.cpu.Upright) (word : UInt32) :
    (m.branchExchange word).cpu.Upright := by
  unfold branchExchange
  extract_lets target k j
  split
  · have thumb : j.cpu.isThumb = true := by
      exact bne_iff_ne.mpr (or_thumb_ne m.cpu.control)
    exact branch_upright (m := j) h.clean (toNat_alignHalf_mod target) fun arm => by
      rw [thumb] at arm
      cases arm
  · exact jump_upright h.clean target

theorem branchBy_upright (h : m.cpu.Upright) (word : UInt32) (link : Bool) :
    (m.branchBy word link).cpu.Upright := by
  have jumped : ∀ k : Core β, k.cpu.Upright → (k.branch (k.cpu.pc + branchOffset word)).cpu.Upright := by
    intro k hk
    have words := toNat_alignWord_mod (branchOffset word)
    rw [alignWord_branchOffset] at words
    have even := hk.even
    refine branch_upright hk.clean ?_ fun arm => ?_
    · rw [UInt32.toNat_add]
      omega
    · have := hk.aligned arm
      rw [UInt32.toNat_add]
      omega
  unfold branchBy
  cases link with
  | false => exact jumped m h
  | true => exact jumped _ (h.writeReg (by decide) _)

omit [Bus β] in
theorem writeProduct_upright (h : m.cpu.Upright) {n : Nat} (hn : n < 16) (value : UInt32) :
    (if n = 15 then m else m.onCpu fun c => c.writeReg n value).cpu.Upright := by
  split
  · exact h
  · exact h.writeReg (by omega) value

omit [Bus β] in
theorem writeProductHigh_upright (h : m.cpu.Upright) (word value : UInt32) :
    (m.writeProductHigh word value).cpu.Upright :=
  writeProduct_upright (m := m.onCpu Cpu.advancePc) h.advancePc (Field.lt_sixteen _) value

omit [Bus β] in
theorem setFlagsIf_upright (h : m.cpu.Upright) (set : Bool) (flags : Flags) :
    (if set then m.onCpu fun c => { c with flags } else m).cpu.Upright := by
  split
  · exact h.of_same rfl rfl rfl
  · exact h

theorem multiply_upright (h : m.cpu.Upright) (word : UInt32) (accumulate setFlags : Bool) :
    (m.multiply word accumulate setFlags).cpu.Upright := by
  rw [multiply]
  split
  next product k hk =>
    have multiplied : k.cpu.Upright := by
      rw [show k = _ from (congrArg Prod.snd hk).symm]
      split <;> exact h
    exact writeProductHigh_upright (setFlagsIf_upright multiplied setFlags _) word _

theorem multiplyLong_upright (h : m.cpu.Upright) (word : UInt32)
    (signed accumulate setFlags : Bool) :
    (m.multiplyLong word signed accumulate setFlags).cpu.Upright := by
  have written : ∀ (k : Core β) flags high low, k.cpu.Upright →
      (((if setFlags then k.onCpu fun c => { c with flags } else k).writeProductHigh word
        high).writeProductLow word low).cpu.Upright := fun k flags high low hk =>
    writeProduct_upright (writeProductHigh_upright (setFlagsIf_upright hk setFlags flags) word high)
      (Field.lt_sixteen _) low
  exact written _ _ _ _ h

theorem transferAddress_upright (h : m.cpu.Upright) (word offset : UInt32) (indexing : Indexing) :
    (m.transferAddress word offset indexing).2.cpu.Upright := by
  cases indexing with
  | post => exact writeRegister_upright h _ _
  | postUser => exact writeUserBase_upright h _ _
  | pre =>
    unfold transferAddress
    simp only
    split
    · exact writeRegister_upright h _ _
    · exact h

theorem transferRegister_upright (h : m.cpu.Upright) (word offset : UInt32) (indexing : Indexing)
    (load : Bool) (width : TransferWidth) :
    (m.transferRegister word offset indexing load width).cpu.Upright := by
  have addressed := transferAddress_upright h word offset indexing
  have stored : ∀ (k : Core β) value, k.cpu.Upright →
      ((k.onCpu Cpu.advancePc).writeRegister (Field.rd word) value).internalCycle.cpu.Upright :=
    fun k value hk => writeRegister_upright (m := k.onCpu Cpu.advancePc) hk.advancePc _ value
  cases load with
  | false => cases width <;> exact addressed.advancePc
  | true => cases width <;> exact stored _ _ addressed

theorem halfTransfer_upright (h : m.cpu.Upright) (word : UInt32) (kind : HalfTransfer)
    (indexing : Indexing) : (m.halfTransfer word kind indexing).cpu.Upright := by
  unfold halfTransfer
  cases kind <;> exact transferRegister_upright h word _ indexing _ _

theorem swap_upright (h : m.cpu.Upright) (word : UInt32) (byte : Bool) :
    (m.swap word byte).cpu.Upright := by
  have written : ∀ (k : Core β) data, k.cpu.Upright →
      ((k.onCpu Cpu.advancePc).writeRegister (Field.rd word) data).cpu.Upright :=
    fun k data hk => writeRegister_upright (m := k.onCpu Cpu.advancePc) hk.advancePc _ data
  cases byte <;> exact written _ _ h

theorem storeList_upright (mode : BlockMode) (n : Nat) (finalBase : UInt32) (list : List Nat)
    (first : Bool) (address : UInt32) (h : m.cpu.Upright) :
    (storeList mode n finalBase list first address m).cpu.Upright := by
  induction list generalizing first address m with
  | nil => exact h
  | cons r rest ih =>
    rw [storeList]
    refine ih false (address + 4) ?_
    split
    · exact writeRegister_upright (m := m.onBus _) h _ _
    · exact h

theorem writeLoaded_upright (mode : BlockMode) (withPc : Bool) (r : Nat) (value : UInt32)
    (h : m.cpu.Upright) : (writeLoaded mode withPc r value m).cpu.Upright := by
  unfold writeLoaded
  split
  · split
    · next hr =>
      split
      · exact h.writeReg hr value
      · exact h.writeUser hr value
    · exact returnTo_upright h.clean value
  · exact writeRegister_upright h r value

theorem loadList_upright (mode : BlockMode) (withPc : Bool) (list : List Nat) (address : UInt32)
    (h : m.cpu.Upright) : (loadList mode withPc list address m).cpu.Upright := by
  induction list generalizing address m with
  | nil => exact h
  | cons r rest ih => exact ih (address + 4) (writeLoaded_upright mode withPc r _ h)

theorem blockStore_upright (h : m.cpu.Upright) (word : UInt32) (mode : BlockMode) :
    (m.blockStore word mode).cpu.Upright := by
  unfold blockStore
  extract_lets list count base opened
  split
  · exact h
  · exact storeList_upright (m := opened) mode _ _ list true _ h

theorem loadEmpty_upright (h : m.cpu.Upright) (word base : UInt32) (mode : BlockMode) :
    (m.loadEmpty word base mode).cpu.Upright := by
  have jumped : ∀ (k : Core β) (value : UInt32), k.cpu.Upright →
      (if mode.user then k.returnTo value else k.writeRegister 15 value).cpu.Upright := by
    intro k value hk
    split
    · exact returnTo_upright hk.clean value
    · exact writeRegister_upright hk 15 value
  have written : ∀ k : Core β, k.cpu.Upright →
      (if mode.writeback then k.writeRegister (Field.rn word) (mode.emptyBase base)
        else k).cpu.Upright := by
    intro k hk
    split
    · exact writeRegister_upright hk _ _
    · exact hk
  exact written _ (jumped _ _ h)

theorem loadListed_upright (h : m.cpu.Upright) (word base : UInt32) (mode : BlockMode) :
    (m.loadListed word base mode).cpu.Upright := by
  have loaded := loadList_upright mode (bit word 15) (registerList word)
    (mode.start base (registerList word).length.toUInt32) h
  unfold loadListed
  extract_lets list count k
  split
  · exact writeRegister_upright loaded _ _
  · split <;> exact loaded

theorem blockLoad_upright (h : m.cpu.Upright) (word : UInt32) (mode : BlockMode) :
    (m.blockLoad word mode).cpu.Upright := by
  have loaded : ∀ k : Core β, ∀ base, k.cpu.Upright →
      (if (registerList word).isEmpty then k.loadEmpty word base mode
        else k.loadListed word base mode).cpu.Upright := by
    intro k base hk
    split
    · exact loadEmpty_upright hk word base mode
    · exact loadListed_upright hk word base mode
  exact loaded m.openAccess _ h

theorem blockTransfer_upright (h : m.cpu.Upright) (word : UInt32) :
    (m.blockTransfer word).cpu.Upright := by
  unfold blockTransfer
  extract_lets k mode
  have advanced : k.cpu.Upright := h.advancePc
  split
  · exact blockLoad_upright advanced word mode
  · exact blockStore_upright advanced word mode

/-- Every instruction leaves the processor upright that begins upright in ARM state. -/
theorem execute_upright (h : m.cpu.Upright) (arm : m.cpu.isThumb = false) (word : UInt32)
    (op : Opcode) : (m.execute word op).cpu.Upright := by
  cases op with
  | dataProcessing op setFlags byRegister => exact dataProcessing_upright h word op setFlags byRegister
  | readStatus => exact readStatus_upright h word
  | writeStatus => exact writeStatus_upright h arm word
  | branchExchange => exact branchExchange_upright h word
  | multiply accumulate setFlags => exact multiply_upright h word accumulate setFlags
  | multiplyLong signed accumulate setFlags =>
    exact multiplyLong_upright h word signed accumulate setFlags
  | halfTransfer kind indexing => exact halfTransfer_upright h word kind indexing
  | transfer load byte indexing scaled => exact transferRegister_upright h word _ indexing load _
  | swap byte => exact swap_upright h word byte
  | blockTransfer => exact blockTransfer_upright h word
  | branch link => exact branchBy_upright h word link
  | softwareInterrupt => exact enterException_upright h.clean .supervisor (by decide)
  | undefined =>
    exact enterException_upright (m := m.note (.undefinedInstruction m.cpu.pipe.execute (m.cpu.pc - 8)))
      h.clean .undefined (by decide)

theorem step_upright (h : m.cpu.Upright) (arm : m.cpu.isThumb = false) : m.step.cpu.Upright := by
  obtain ⟨-, hs⟩ | ⟨-, -, hs⟩ | ⟨-, op, -, hs⟩ | ⟨-, hs⟩ := step_cases m
  · rw [hs]
    exact h.advancePc.of_same rfl rfl rfl
  · rw [hs]
    exact enterException_upright h.clean .irq (by decide)
  · rw [hs]
    have fetched : m.fetch.cpu.Upright := h.of_same rfl rfl rfl
    exact (execute_upright fetched arm m.cpu.pipe.execute op).of_same rfl rfl rfl
  · rw [hs]
    exact h.advancePc.of_same rfl rfl rfl

theorem skipBoot_upright (h : m.cpu.regs.Clean) {entry : UInt32} (aligned : entry.toNat % 4 = 0) :
    (m.skipBoot entry).cpu.Upright := by
  -- Setting up a stack pointer changes no saved status word.
  have stack : ∀ (k : Core β) (status sp : UInt32), k.cpu.regs.Clean →
      ((k.setStatus status).onCpu fun c => c.writeReg 13 sp).cpu.regs.Clean :=
    fun k status sp hk => (clean_setStatus hk status).of_saved rfl
  have last := stack _ 0x1F 0x03007F00 (stack _ 0x12 0x03007FA0 (stack m 0x13 0x03007FE0 h))
  exact branch_upright last (by omega) fun _ => aligned

end Core

namespace Console

variable {s : Console}

theorem upright_initial : Cpu.initial.Upright where
  clean := (by decide : ∀ i : Fin 5, Cpu.initial.regs.saved.get i &&& 0x0FFFFF00 = 0)
  even := by decide
  aligned _ := by decide

theorem upright_reset (s : Console) : s.reset.cpu.Upright := by
  let fresh : Core Board := ⟨Cpu.initial, s.core.bus.reset⟩
  have clean : fresh.cpu.regs.Clean := upright_initial.clean
  unfold reset
  simp only [cpu]
  split
  · exact Core.jump_upright clean 0
  · split
    · exact Core.skipBoot_upright clean (by decide)
    · exact upright_initial

theorem upright_stepCore (h : s.cpu.Upright) : s.stepCore.2.cpu.Upright := by
  cases thumb : s.cpu.isThumb with
  | true => exact stepCore_thumb thumb ▸ h
  | false =>
    rw [stepCore_arm thumb]
    exact (Core.step_upright h thumb).of_same rfl rfl rfl

theorem upright_step (h : s.cpu.Upright) : s.step.2.cpu.Upright := by
  cases dozes : s.dozes with
  | true => rw [step_of_dozes dozes]; exact h
  | false => rw [step_of_awake dozes]; exact upright_stepCore (s := s.woken) h

theorem upright_obeyAll (h : s.cpu.Upright) (commands : List Command) :
    (s.obeyAll commands).cpu.Upright := by
  induction commands generalizing s with
  | nil => exact h
  | cons command rest ih =>
    exact ih (obey_keeps (P := fun s => s.cpu.Upright) upright_reset
      (fun _ _ h => h.of_same rfl rfl rfl) (fun _ h => upright_step h) h command)

/-- Whatever a host asks, the status words keep their shape, at most two bubbles are due, and R15 is
aligned for the instruction set. -/
theorem state_shaped (log : Log) (commands : List Command) :
    let c := ((initial log).obeyAll commands).cpu
    c.status.raw &&& 0x0FFFFF00 = 0 ∧ (∀ i : Fin 5, c.regs.saved.get i &&& 0x0FFFFF00 = 0) ∧
      c.pipe.bubbles ≤ 2 ∧ (c.status.t = false → c.pc.toNat % 4 = 0) ∧
      (c.status.t = true → c.pc.toNat % 2 = 0) := by
  intro c
  have upright : c.Upright := upright_obeyAll (s := initial log) upright_initial commands
  have consistent := (consistent_initial log).obeyAll commands
  rw [Cpu.status_t]
  exact ⟨status_between _ _, upright.clean, consistent.bubbles, upright.aligned, fun _ => upright.even⟩

end Console

end GbaArm
