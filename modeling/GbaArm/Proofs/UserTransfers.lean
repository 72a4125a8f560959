import GbaArm.Proofs.BlockTransfers

/-!
Block transfers with the S bit. They move the registers of User mode, or they return from an exception
if R15 is loaded.
-/
namespace GbaArm

theorem Mode.ofBits_toUInt8 (status : UInt32) :
    Mode.ofBits status.toUInt8.toUInt32 = Mode.ofBits status := by
  have field : status.toUInt8.toUInt32 &&& 0x1F = status &&& 0x1F := by
    apply UInt32.toNat_inj.mp
    have low : ∀ n : Nat, n &&& 31 = n % 32 := fun n => Nat.and_two_pow_sub_one_eq_mod n 5
    rw [UInt32.toNat_and, UInt32.toNat_and, UInt8.toNat_toUInt32, UInt32.toNat_toUInt8]
    show _ &&& 31 = _ &&& 31
    rw [low, low]
    omega
  rw [Mode.ofBits, field]
  rfl

namespace Cpu

variable {c : Cpu} {status : UInt32} {r : Nat}

theorem mode_setStatus : (c.setStatus status).mode = Mode.ofBits status :=
  Mode.ofBits_toUInt8 status

/-- System mode sees the registers of User mode. -/
theorem read_setStatus_system (system : Mode.ofBits status = .system) (hr : r < 16) :
    (c.setStatus status).regs.read r = c.cell .user r := by
  rw [← cell_owner, mode_setStatus, system, cell_setStatus hr]
  rfl

theorem cell_advancePc {b : Bank} (hr : r < 15) : c.advancePc.cell b r = c.cell b r :=
  RegisterFile.cell_setPc hr

end Cpu

namespace Core

variable {β : Type} [Bus β] {word status : UInt32} {mode : BlockMode}

/-- A user store takes what System mode would show, and R15 as every store does. -/
theorem source_user (user : mode.user = true) (system : Mode.ofBits status = .system) (m : Core β)
    {r : Nat} (hr : r < 16) :
    source mode (m.onCpu Cpu.advancePc).openAccess r =
      if r = 15 then m.cpu.pc + 4 else (m.cpu.setStatus status).regs.read r := by
  rw [source, if_pos user]
  by_cases h15 : r = 15
  · rw [if_pos h15, h15, ← m.cpu.pc_advancePc]
    refine (RegisterFile.readUser_of_ge (by decide)).trans ?_
    rw [ite_self]
    rfl
  · have inner : r < 15 := by omega
    rw [if_neg h15, Cpu.read_setStatus_system system hr, ← Cpu.cell_advancePc inner]
    exact RegisterFile.readUser_eq_cell inner

theorem loadListed_still (user : mode.user = true) (still : mode.writeback = false) (base : UInt32)
    (m : Core β) :
    m.loadListed word base mode = loadList mode (bit word 15) (registerList word)
      (mode.start base (registerList word).length.toUInt32) m := by
  simp [loadListed, still, user]

section
variable (cpu : Cpu) (bus : β)

theorem userStore_record (stores : bit word 20 = false) (user : bit word 22 = true)
    (still : bit word 21 = false) (listed : registerList word ≠ [])
    (system : Mode.ofBits status = .system) :
    ((⟨cpu, Traced.start bus⟩ : Core (Traced β)).blockTransfer word).bus.record =
      [.executingAt (cpu.pc + 4), .nonSequential] ++
      ((registerList word).mapIdx fun i r =>
        .write32 (slot (lowestAddress word (cpu.advancePc.regs.read (Field.rn word))) i)
          (if r = 15 then cpu.pc + 4 else (cpu.setStatus status).regs.read r)) ++
      [.nonSequential] := by
  let m : Core (Traced β) := ⟨cpu, Traced.start bus⟩
  have source : (registerList word).map
      (source (BlockMode.ofWord word) (m.onCpu Cpu.advancePc).openAccess) =
      (registerList word).map fun r =>
        if r = 15 then cpu.pc + 4 else (cpu.setStatus status).regs.read r :=
    List.map_congr_left fun r hr => source_user user system m (mem_registerList.mp hr).1
  have first : (true && (BlockMode.ofWord word).writeback) = false := still
  rw [blockTransfer_store stores listed]
  simp only [storeList_still _ first, BlockMode.accessed_start]
  refine (Traced.record_nonSequential _).trans ?_
  refine congrArg (· ++ [BusCall.nonSequential]) ?_
  refine (congrArg (fun words => (Bus.storeWords words _ _ : Traced β).record) source).trans ?_
  rw [Traced.record_storeWords, record_openAccess, ← cpu.pc_advancePc]
  rfl

theorem userLoad_law (loads : bit word 20 = true) (user : bit word 22 = true)
    (still : bit word 21 = false) (listed : registerList word ≠ [])
    (unlisted : 15 ∉ registerList word) :
    let k := (⟨cpu, Traced.start bus⟩ : Core (Traced β)).blockTransfer word
    ∃ values, values.length = (registerList word).length ∧
      k.bus.record = [.executingAt (cpu.pc + 4), .nonSequential] ++
        (values.mapIdx fun i value => .read32
          (slot (lowestAddress word (cpu.advancePc.regs.read (Field.rn word))) i) value) ++
        [.nonSequential, .internalCycle (cpu.pc + 4)] ∧
      cpu.advancePc.Taken true (registerList word) values k.cpu := by
  intro k
  let mode := BlockMode.ofWord word
  let base := cpu.advancePc.regs.read (Field.rn word)
  let m : Core (Traced β) := (⟨cpu, Traced.start bus⟩ : Core (Traced β)).onCpu Cpu.advancePc
  have low : ∀ r ∈ registerList word, r < 15 := fun r hr => lt_of_mem_registerList unlisted hr
  obtain ⟨heard, taken⟩ := loadList_taken mode false low (nodup_registerList word)
    (mode.start base (registerList word).length.toUInt32) m.openAccess
  have ended : k = (loadList mode false (registerList word)
      (mode.start base (registerList word).length.toUInt32) m.openAccess).closeAccess.internalCycle := by
    refine (blockTransfer_load loads listed _).trans ?_
    rw [loadListed_still user still, bit_of_unlisted unlisted]
  rw [BlockMode.accessed_start] at heard taken
  rw [show mode.user = true from user] at taken
  have after : k.cpu = _ := congrArg Core.cpu ended
  have closed := (congrArg (fun j => j.bus.record) ended).trans (Traced.record_internalCycle _ _)
  generalize loadList mode false (registerList word)
    (mode.start base (registerList word).length.toUInt32) m.openAccess = l at *
  refine ⟨_, Bus.length_loadWords _ _ _, ?_, after ▸ taken⟩
  have pc : l.cpu.pc = cpu.pc + 4 := taken.pc.trans cpu.pc_advancePc
  have last : l.closeAccess.bus.record = l.bus.record ++ [.nonSequential] :=
    Traced.record_nonSequential _
  have begun : m.openAccess.bus.record = [.executingAt (cpu.pc + 4), .nonSequential] := by
    rw [record_openAccess, ← cpu.pc_advancePc]
    rfl
  refine closed.trans ?_
  rw [last, heard, Traced.record_loadWords, begun, List.append_assoc]
  show _ ++ [BusCall.nonSequential, .internalCycle l.cpu.pc] = _
  rw [pc]

end

/-- A block transfer with the S bit but without writeback moves the registers that System mode would
show. Only a load of R15 is not covered. -/
theorem user_transfer_system (cpu : Cpu) (bus : β) (word : UInt32) (listed : registerList word ≠ [])
    (user : bit word 22 = true) (still : bit word 21 = false) :
    let k := (⟨cpu, Traced.start bus⟩ : Core (Traced β)).blockTransfer word
    let list := registerList word
    let lowest := lowestAddress word (cpu.advancePc.regs.read (Field.rn word))
    let opening := [BusCall.executingAt (cpu.pc + 4), .nonSequential]
    k.map Traced.forget = (⟨cpu, bus⟩ : Core β).blockTransfer word ∧
    (bit word 20 = false → ∀ status, Mode.ofBits status = .system → k.bus.record = opening ++
      (list.mapIdx fun i r => .write32 (slot lowest i)
        (if r = 15 then cpu.pc + 4 else (cpu.setStatus status).regs.read r)) ++ [.nonSequential]) ∧
    (bit word 20 = true → 15 ∉ list →
      k.cpu.mode = cpu.mode ∧
      (∀ r < 15, (Bank.ofMode cpu.mode).owner r ≠ .user → k.cpu.regs.read r = cpu.regs.read r) ∧
      ∃ values, values.length = list.length ∧
        k.bus.record = opening ++
          (values.mapIdx fun i value => .read32 (slot lowest i) value) ++
          [.nonSequential, .internalCycle (cpu.pc + 4)] ∧
        ∀ status, Mode.ofBits status = .system →
          (∀ p ∈ list.zip values, (k.cpu.setStatus status).regs.read p.1 = p.2) ∧
          (∀ r < 15, r ∉ list →
            (k.cpu.setStatus status).regs.read r = (cpu.setStatus status).regs.read r) ∧
          (k.cpu.setStatus status).pc = cpu.pc + 4) := by
  intro k list lowest opening
  refine ⟨(map_blockTransfer Traced.forget _ word).symm, ?_, ?_⟩
  · intro stores status system
    exact userStore_record cpu bus stores user still listed system
  · intro loads unlisted
    obtain ⟨values, length, record, taken⟩ := userLoad_law cpu bus loads user still listed unlisted
    have low : ∀ r ∈ list, r < 15 := fun r hr => lt_of_mem_registerList unlisted hr
    refine ⟨taken.mode, ?_, values, length, record, ?_⟩
    · intro r hr own
      have kept := taken.kept ((Bank.ofMode cpu.mode).owner r) r (by omega) fun h => absurd h own
      rw [← Cpu.cell_owner, taken.mode]
      exact kept.trans ((Cpu.cell_advancePc hr).trans Cpu.cell_owner)
    · intro status system
      refine ⟨?_, ?_, ?_⟩
      · intro p hp
        have inner : p.1 < 15 := low p.1 (List.of_mem_zip hp).1
        rw [Cpu.read_setStatus_system system (by omega)]
        exact taken.loaded p hp
      · intro r hr other
        rw [Cpu.read_setStatus_system system (by omega), Cpu.read_setStatus_system system (by omega),
          taken.kept .user r (by omega) fun _ => other]
        exact Cpu.cell_advancePc hr
      · exact RegisterFile.pc_switchBank.trans (taken.pc.trans cpu.pc_advancePc)

/-- In Supervisor mode, STMIA R0, {SP, PC}^ stores the stack pointer of User mode, and
LDMIA R0, {SP}^ leaves that of Supervisor mode alone. -/
theorem user_transfer_system_stack :
    let user := (Cpu.initial.setStatus 0x1F).writeReg 13 0x5555
    let cpu := ((user.enterException .supervisor).writeReg 13 0x1111).writeReg 0 0x80
    let rom : Rom := ⟨fun _ => 0x7777⟩
    let stored := (⟨cpu, Traced.start rom⟩ : Core (Traced Rom)).blockTransfer 0xE8C0A000
    let loaded := (⟨cpu, Traced.start rom⟩ : Core (Traced Rom)).blockTransfer 0xE8D02000
    registerList 0xE8C0A000 ≠ [] ∧ bit 0xE8C0A000 22 = true ∧ bit 0xE8C0A000 21 = false ∧
    stored.bus.record = [.executingAt (cpu.pc + 4), .nonSequential, .write32 0x80 0x5555,
      .write32 0x84 (cpu.pc + 4), .nonSequential] ∧
    loaded.cpu.mode = .supervisor ∧ loaded.cpu.regs.read 13 = 0x1111 := by
  intro user cpu rom stored loaded
  have listed : registerList 0xE8C0A000 ≠ [] := by decide +kernel
  have forced : bit 0xE8C0A000 22 = true := by decide
  have still : bit 0xE8C0A000 21 = false := by decide
  obtain ⟨_, stores, _⟩ := user_transfer_system cpu rom 0xE8C0A000 listed forced still
  obtain ⟨_, _, loads⟩ :=
    user_transfer_system cpu rom 0xE8D02000 (by decide +kernel) (by decide) (by decide)
  have calls : stored.bus.record = _ := stores (by decide) 0x1F (by decide)
  obtain ⟨mode, kept, _⟩ := loads (by decide) (by decide +kernel)
  refine ⟨listed, forced, still, calls.trans ?_, mode.trans ?_, (kept 13 (by decide) ?_).trans ?_⟩
  all_goals decide +kernel

/-- An exception return exchanges the bank in view and leaves every register where it is kept. -/
theorem returnTo_restores {m : Core β} (saved : m.cpu.savedStatus = some status) (value : UInt32) :
    (m.returnTo value).cpu.mode = Mode.ofBits status ∧
    ∀ b, ∀ r < 15, (m.returnTo value).cpu.cell b r = m.cpu.cell b r := by
  have restored : m.restoreStatus.cpu = m.cpu.setStatus status := restoreStatus_cpu saved
  have mode : (m.returnTo value).cpu.mode = Mode.ofBits status := by
    refine Eq.trans ?_ (Cpu.mode_setStatus (c := m.cpu))
    rw [← restored]
    rfl
  refine ⟨mode, fun b r hr => ?_⟩
  have kept : (m.returnTo value).cpu.cell b r = m.restoreStatus.cpu.cell b r :=
    RegisterFile.cell_setPc hr
  rw [kept, restored, Cpu.cell_setStatus (by omega)]

/-- Registers that an exception return does not load stay where they are kept. -/
theorem loadList_return {m : Core β} (saved : m.cpu.savedStatus = some status)
    (user : mode.user = true) (listed : 15 ∈ registerList word) (place : UInt32) :
    let l := loadList mode true (registerList word) place m
    l.cpu.mode = Mode.ofBits status ∧
    ∀ b, ∀ r < 15, (b = (Bank.ofMode m.cpu.mode).owner r → r ∉ registerList word) →
      l.cpu.cell b r = m.cpu.cell b r := by
  have list : registerList word = innerList word ++ [15] :=
    registerList_of_pc (pc_mem_registerList.mp listed)
  have low : ∀ r ∈ innerList word, r < 15 := fun r hr => lt_of_mem_innerList hr
  obtain ⟨_, taken⟩ := loadList_taken mode true low (nodup_innerList word) place m
  rw [user] at taken
  intro l
  have last : l = _ := (congrArg (loadList mode true · place m) list).trans (loadList_concat _ _ _ _)
  generalize loadList mode true (innerList word) place m = k at *
  have still : k.cpu.savedStatus = some status := by
    rw [Cpu.savedStatus, taken.mode, RegisterFile.savedStatus, taken.saved]
    exact saved
  obtain ⟨value, bus, returned⟩ : ∃ value bus, l = ({ k with bus } : Core β).returnTo value :=
    ⟨_, _, last.trans (writeLoaded_pc_user user _ _)⟩
  have restored := returnTo_restores (m := { k with bus }) still value
  rw [← returned] at restored
  refine ⟨restored.1, fun b r hr apart => (restored.2 b r hr).trans ?_⟩
  refine taken.kept b r (by omega) fun own hi => apart own ?_
  rw [list]
  exact List.mem_append_left _ hi

/-- A load that returns from an exception writes its base back when the registers of the interrupted
mode are in view again. So their base moves, and the handler keeps the old one. -/
theorem return_load_moves_seen_base {m : Core β} (saved : m.cpu.savedStatus = some status)
    (loads : bit word 20 = true) (user : bit word 22 = true) (written : bit word 21 = true)
    (pc : 15 ∈ registerList word) (unloaded : Field.rn word ∉ registerList word)
    (apart : (Bank.ofMode m.cpu.mode).owner (Field.rn word) ≠
      (Bank.ofMode (Mode.ofBits status)).owner (Field.rn word)) :
    let k := m.blockTransfer word
    let n := Field.rn word
    let base := m.cpu.regs.read n
    let own := (Bank.ofMode m.cpu.mode).owner n
    let seen := (Bank.ofMode (Mode.ofBits status)).owner n
    k.cpu.mode = Mode.ofBits status ∧ k.cpu.cell own n = base ∧
    k.cpu.cell seen n = movedBase word base ∧ k.cpu.regs.read n = movedBase word base ∧
    ∀ b, ∀ r < 15, r ∉ registerList word → (b = seen → r ≠ n) → k.cpu.cell b r = m.cpu.cell b r := by
  intro k n base own seen
  have other : n ≠ 15 := fun same => unloaded (show n ∈ registerList word from same ▸ pc)
  have inner : n < 15 := Field.rn_lt_of_ne other
  let mode := BlockMode.ofWord word
  let opened := (m.onCpu Cpu.advancePc).openAccess
  have begun : opened.cpu.savedStatus = some status := saved
  obtain ⟨switched, kept⟩ := loadList_return begun (show mode.user = true from user) pc
    (mode.start base (registerList word).length.toUInt32)
  have after : k.cpu = (opened.loadListed word base mode).cpu := by
    refine (congrArg Core.cpu (blockTransfer_load loads (List.ne_nil_of_mem pc) m)).trans ?_
    rw [m.cpu.read_advancePc inner]
    rfl
  rw [loadListed_cpu inner, show mode.writeback = true from written, if_pos rfl,
    pc_mem_registerList.mp pc] at after
  generalize loadList mode true (registerList word)
    (mode.start base (registerList word).length.toUInt32) opened = l at *
  have frame : ∀ b, ∀ r < 15, r ∉ registerList word → l.cpu.cell b r = m.cpu.cell b r :=
    fun b r hr other => (kept b r hr fun _ => other).trans (Cpu.cell_advancePc hr)
  have moved : ∀ b, ∀ r < 15, k.cpu.cell b r =
      if b = (Bank.ofMode (Mode.ofBits status)).owner r ∧ r = n then movedBase word base
      else l.cpu.cell b r := by
    intro b r hr
    rw [after, ← switched]
    exact Cpu.cell_writeReg inner (by omega) _
  have mode : k.cpu.mode = Mode.ofBits status := by
    rw [after, ← switched]
    rfl
  have shown : k.cpu.cell seen n = movedBase word base := by
    rw [moved seen n inner, if_pos ⟨rfl, rfl⟩]
  refine ⟨mode, ?_, shown, ?_, ?_⟩
  · rw [moved own n inner, if_neg fun h => apart h.1, frame own n inner unloaded]
    exact Cpu.cell_owner
  · rw [← Cpu.cell_owner, mode]
    exact shown
  · intro b r hr other unmoved
    have outside : ¬ (b = (Bank.ofMode (Mode.ofBits status)).owner r ∧ r = n) := by
      rintro ⟨hb, rfl⟩
      exact unmoved hb rfl
    rw [moved b r hr, if_neg outside, frame b r hr other]

/-- LDMIA SP!, {R0, PC}^ at the end of a software interrupt that came from System mode. -/
theorem return_load_moves_seen_base_stack :
    let system := (Cpu.initial.setStatus 0x1F).writeReg 13 0x5555
    let m : Core Rom := ⟨(system.enterException .supervisor).writeReg 13 0x80, ⟨fun _ => 0x2000⟩⟩
    let k := m.blockTransfer 0xE8FD8001
    m.cpu.savedStatus = some 0x1F ∧ bit 0xE8FD8001 20 = true ∧ bit 0xE8FD8001 22 = true ∧
    bit 0xE8FD8001 21 = true ∧ 15 ∈ registerList 0xE8FD8001 ∧
    Field.rn 0xE8FD8001 ∉ registerList 0xE8FD8001 ∧
    (Bank.ofMode m.cpu.mode).owner 13 ≠ (Bank.ofMode (Mode.ofBits 0x1F)).owner 13 ∧
    k.cpu.mode = .system ∧ k.cpu.cell .supervisor 13 = 0x80 ∧ k.cpu.regs.read 13 = 0x88 := by
  intro system m k
  have saved : m.cpu.savedStatus = some 0x1F := by decide +kernel
  have loads : bit 0xE8FD8001 20 = true := by decide
  have user : bit 0xE8FD8001 22 = true := by decide
  have written : bit 0xE8FD8001 21 = true := by decide
  have pc : 15 ∈ registerList 0xE8FD8001 := by decide +kernel
  have unloaded : Field.rn 0xE8FD8001 ∉ registerList 0xE8FD8001 := by decide +kernel
  have apart : (Bank.ofMode m.cpu.mode).owner 13 ≠
      (Bank.ofMode (Mode.ofBits 0x1F)).owner 13 := by decide +kernel
  obtain ⟨mode, kept, _, moved, _⟩ :=
    return_load_moves_seen_base saved loads user written pc unloaded apart
  have own : (Bank.ofMode m.cpu.mode).owner 13 = .supervisor := by decide +kernel
  have old : k.cpu.cell ((Bank.ofMode m.cpu.mode).owner 13) 13 = 0x80 :=
    kept.trans (by decide +kernel)
  rw [own] at old
  exact ⟨saved, loads, user, written, pc, unloaded, apart, mode.trans (by decide), old,
    moved.trans (by decide +kernel)⟩

/-- There the handler's stack pointer is not popped, and that of the interrupted program is lost. -/
theorem return_load_loses_stacks :
    let system := (Cpu.initial.setStatus 0x1F).writeReg 13 0x5555
    let m : Core Rom := ⟨(system.enterException .supervisor).writeReg 13 0x80, ⟨fun _ => 0x2000⟩⟩
    let k := m.blockTransfer 0xE8FD8001
    m.cpu.mode = .supervisor ∧ m.cpu.savedStatus = some 0x1F ∧
    registerList 0xE8FD8001 = [0, 15] ∧ Field.rn 0xE8FD8001 = 13 ∧
    ¬ (k.cpu.cell .supervisor 13 = m.cpu.regs.read 13 + 4 * 2 ∧
      k.cpu.regs.read 13 = m.cpu.cell .user 13) := by
  decide +kernel

end Core

end GbaArm
