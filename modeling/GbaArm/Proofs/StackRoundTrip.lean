import GbaArm.Proofs.BlockTransfers

/-! A block store and the load that takes its words back. -/
namespace GbaArm

/-- The load walks back over what the store wrote: the same registers and the same base, written back
by both, and the walk turned round. So LDMIA takes back what STMDB wrote, LDMDB what STMIA wrote,
LDMDA what STMIB wrote and LDMIB what STMDA wrote. -/
structure TakesBack (load store : UInt32) : Prop where
  store_stores : bit store 20 = false
  load_loads : bit load 20 = true
  store_plain : bit store 22 = false
  load_plain : bit load 22 = false
  store_writes : bit store 21 = true
  load_writes : bit load 21 = true
  before : bit load 24 = !bit store 24
  up : bit load 23 = !bit store 23
  base : Field.rn load = Field.rn store
  list : registerList load = registerList store

namespace TakesBack

variable {load store : UInt32} (pair : TakesBack load store) (base : UInt32)

include pair

/-- The walk that is turned round starts where the other one did. -/
theorem lowestAddress_eq : lowestAddress load (movedBase store base) = lowestAddress store base := by
  rw [lowestAddress, movedBase, lowestAddress, pair.list, pair.before, pair.up]
  cases bit store 24 <;> cases bit store 23 <;> simp

/-- And it ends where the other one started. -/
theorem movedBase_eq : movedBase load (movedBase store base) = base := by
  rw [movedBase, movedBase, pair.list, pair.up]
  cases bit store 23 <;> simp

end TakesBack

namespace Core

variable {β : Type} [Bus β] {word : UInt32}

/-- The words that a store leaves in memory. -/
theorem word_blockTransfer_store (flat : FlatMemory β) (stores : bit word 20 = false)
    (plain : bit word 22 = false) (listed : registerList word ≠ []) (inner : Field.rn word < 15)
    (m : Core β) {i : Nat} (hi : i < ((registerList word).map (m.cpu.storedWord word)).length) :
    flat.word (m.blockTransfer word).bus
        (slot (lowestAddress word (m.cpu.regs.read (Field.rn word))) i) =
      ((registerList word).map (m.cpu.storedWord word))[i] := by
  have short : ((registerList word).map (m.cpu.storedWord word)).length ≤ 0x40000000 := by
    have := length_registerList_le word
    rw [List.length_map]
    omega
  rw [blockTransfer_plainStore stores plain listed inner]
  exact (congrFun (flat.word_nonSequential _) _).trans (flat.word_storeWords short hi)

/-- What a load without R15 makes of words that wait for it in memory. -/
theorem blockTransfer_load_words (flat : FlatMemory β) (loads : bit word 20 = true)
    (plain : bit word 22 = false) (written : bit word 21 = true) (listed : registerList word ≠ [])
    (inner : Field.rn word < 15) (own : Field.rn word ∉ registerList word)
    (unlisted : 15 ∉ registerList word) (k : Core β) (value : Nat → UInt32)
    (memory : ∀ i, ∀ hi : i < ((registerList word).map value).length, flat.word k.bus
        (slot (lowestAddress word (k.cpu.regs.read (Field.rn word))) i) =
      ((registerList word).map value)[i]) :
    (∀ r ∈ registerList word, (k.blockTransfer word).cpu.regs.read r = value r) ∧
    (k.blockTransfer word).cpu.regs.read (Field.rn word) =
      movedBase word (k.cpu.regs.read (Field.rn word)) := by
  have pc : bit word 15 = false := bit_of_unlisted unlisted
  have low : ∀ r ∈ registerList word, r < 15 := fun r hr => lt_of_mem_registerList unlisted hr
  let opened := (k.onCpu Cpu.advancePc).openAccess
  have waiting : flat.word opened.bus = flat.word k.bus :=
    (flat.word_nonSequential _).trans (flat.word_executingAt _ _)
  have values : (Bus.loadWords (registerList word).length
      (lowestAddress word (k.cpu.regs.read (Field.rn word))) opened.bus).1 =
      (registerList word).map value := by
    rw [← List.length_map value]
    exact flat.loadWords_of_words fun i hi => (congrFun waiting _).trans (memory i hi)
  have after : (k.blockTransfer word).cpu = (opened.loadListed word
      (k.cpu.regs.read (Field.rn word)) (BlockMode.ofWord word)).cpu := by
    rw [← k.cpu.read_advancePc inner, blockTransfer_load loads listed]
    rfl
  have back : (BlockMode.ofWord word).writeback = true := written
  rw [loadListed_cpu inner, back, if_pos rfl, pc] at after
  obtain ⟨_, taken⟩ := loadList_taken (BlockMode.ofWord word) false low (nodup_registerList word)
    ((BlockMode.ofWord word).start (k.cpu.regs.read (Field.rn word))
      (registerList word).length.toUInt32) opened
  rw [BlockMode.accessed_start, show (BlockMode.ofWord word).user = false from plain] at taken
  refine ⟨?_, ?_⟩
  · intro r hr
    have other : r ≠ Field.rn word := fun same => own (same ▸ hr)
    have pair : (r, value r) ∈ (registerList word).zip ((registerList word).map value) := by
      rw [← List.map_prod_left_eq_zip]
      exact List.mem_map_of_mem hr
    rw [after, Cpu.read_writeReg _ inner (by have := low r hr; omega), if_neg other]
    exact taken.read (values ▸ pair)
  · rw [after, Cpu.read_writeReg _ inner (by omega), if_pos rfl]
    rfl

/-- A load that takes back what a store wrote restores the stored registers and the base. In between,
everything may change but the words in memory and the base. -/
theorem load_takes_back (flat : FlatMemory β) {load store : UInt32} (pair : TakesBack load store)
    (listed : registerList store ≠ []) (based : Field.rn store ≠ 15)
    (own : Field.rn store ∉ registerList store) (unlisted : 15 ∉ registerList store) (m k : Core β)
    (memory : flat.word k.bus = flat.word (m.blockTransfer store).bus)
    (base : k.cpu.regs.read (Field.rn store) =
      (m.blockTransfer store).cpu.regs.read (Field.rn store)) :
    (∀ r ∈ registerList store, (k.blockTransfer load).cpu.regs.read r = m.cpu.regs.read r) ∧
    (k.blockTransfer load).cpu.regs.read (Field.rn store) = m.cpu.regs.read (Field.rn store) := by
  have inner : Field.rn store < 15 := Field.rn_lt_of_ne based
  have moved : k.cpu.regs.read (Field.rn store) =
      movedBase store (m.cpu.regs.read (Field.rn store)) := by
    rw [base, blockTransfer_plainStore pair.store_stores pair.store_plain listed inner,
      if_pos pair.store_writes, Cpu.read_writeReg _ inner (by omega), if_pos rfl]
  have stored : (registerList store).map (m.cpu.storedWord store) =
      (registerList store).map m.cpu.regs.read := by
    refine List.map_congr_left fun r hr => ?_
    have notPc : r ≠ 15 := fun same => unlisted (same ▸ hr)
    have notBase : r ≠ Field.rn store := fun same => own (same ▸ hr)
    rw [Cpu.storedWord, if_neg notPc, if_neg fun h => notBase h.1]
  have waiting : ∀ i, ∀ hi : i < ((registerList store).map m.cpu.regs.read).length,
      flat.word k.bus (slot (lowestAddress load (k.cpu.regs.read (Field.rn store))) i) =
        ((registerList store).map m.cpu.regs.read)[i] := by
    intro i hi
    have left := word_blockTransfer_store flat pair.store_stores pair.store_plain listed inner m
      (i := i) (by rwa [stored])
    rw [moved, pair.lowestAddress_eq, memory, left]
    simp only [stored]
  have loaded := blockTransfer_load_words flat pair.load_loads pair.load_plain pair.load_writes
    (by rwa [pair.list]) (by rwa [pair.base]) (by rwa [pair.base, pair.list])
    (by rwa [pair.list]) k m.cpu.regs.read (by rwa [pair.base, pair.list])
  rw [pair.base, pair.list, moved, pair.movedBase_eq] at loaded
  exact loaded

/-- STMDB SP!, {R0, R4} with a base that is misaligned and near the bottom of memory, so that the run
wraps around. -/
theorem load_takes_back_wrapped :
    let m : Core Ram := ⟨((Cpu.initial.writeReg 13 6).writeReg 0 0x11).writeReg 4 0x44, ⟨fun _ => 0⟩⟩
    let k := (m.blockTransfer 0xE92D0011).onCpu fun c => (c.writeReg 0 1).writeReg 4 2
    TakesBack 0xE8BD0011 0xE92D0011 ∧ registerList 0xE92D0011 ≠ [] ∧ Field.rn 0xE92D0011 ≠ 15 ∧
    Field.rn 0xE92D0011 ∉ registerList 0xE92D0011 ∧ 15 ∉ registerList 0xE92D0011 ∧
    Ram.flat.word k.bus = Ram.flat.word (m.blockTransfer 0xE92D0011).bus ∧
    k.cpu.regs.read 13 = 0xFFFFFFFE ∧
    (k.blockTransfer 0xE8BD0011).cpu.regs.read 0 = 0x11 ∧
    (k.blockTransfer 0xE8BD0011).cpu.regs.read 4 = 0x44 ∧
    (k.blockTransfer 0xE8BD0011).cpu.regs.read 13 = 6 := by
  intro m k
  have pair : TakesBack 0xE8BD0011 0xE92D0011 := by
    constructor <;> decide +kernel
  have list : registerList 0xE92D0011 = [0, 4] := by decide +kernel
  have listed : registerList 0xE92D0011 ≠ [] := by simp [list]
  have based : Field.rn 0xE92D0011 ≠ 15 := by decide
  have own : Field.rn 0xE92D0011 ∉ registerList 0xE92D0011 := by decide +kernel
  have unlisted : 15 ∉ registerList 0xE92D0011 := by simp [list]
  have memory : Ram.flat.word k.bus = Ram.flat.word (m.blockTransfer 0xE92D0011).bus := rfl
  have base : k.cpu.regs.read 13 = (m.blockTransfer 0xE92D0011).cpu.regs.read 13 := by
    decide +kernel
  obtain ⟨restored, popped⟩ :=
    load_takes_back Ram.flat pair listed based own unlisted m k memory base
  rw [list] at restored
  exact ⟨pair, listed, based, own, unlisted, memory, by decide +kernel,
    (restored 0 (by simp)).trans (by decide +kernel), (restored 4 (by simp)).trans (by decide +kernel),
    popped.trans (by decide +kernel)⟩

end Core

end GbaArm
