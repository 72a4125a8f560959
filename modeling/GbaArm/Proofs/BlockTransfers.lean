import GbaArm.Proofs.BlockLists

/-! Block transfers as the architecture gives them: which words move where, and in which calls. -/
namespace GbaArm

theorem Field.rn_lt_of_ne {word : UInt32} (h : Field.rn word ≠ 15) : Field.rn word < 15 := by
  have low : Field.rn word < 16 := Field.lt_sixteen _
  omega

namespace Cpu

variable (c : Cpu) (word : UInt32)

theorem read_advancePc {n : Nat} (hn : n < 15) : c.advancePc.regs.read n = c.regs.read n :=
  RegisterFile.read_setPc hn

theorem read_writeReg {n r : Nat} (hn : n < 15) (hr : r < 16) (value : UInt32) :
    (c.writeReg n value).regs.read r = if r = n then value else c.regs.read r := by
  have low : n % 16 = n := Nat.mod_eq_of_lt (by omega)
  exact (RegisterFile.read_write hr).trans (by rw [low])

theorem pc_advancePc : c.advancePc.pc = c.pc + 4 := RegisterFile.pc_setPc

/-- The word that a block store takes from a register. A base that is written back is the old one
only if it goes out first, and R15 is three words past the instruction. -/
def storedWord (r : Nat) : UInt32 :=
  if r = 15 then c.pc + 4
  else if r = Field.rn word ∧ bit word 21 = true ∧ (registerList word).head? ≠ some r then
    movedBase word (c.regs.read r)
  else c.regs.read r

end Cpu

namespace Core

section
variable {β : Type} [Bus β] {word : UInt32}

theorem isEmpty_registerList (listed : registerList word ≠ []) :
    (registerList word).isEmpty = false := by
  simpa using listed

theorem blockTransfer_store (stores : bit word 20 = false) (listed : registerList word ≠ [])
    (m : Core β) :
    m.blockTransfer word =
      let mode := BlockMode.ofWord word
      let base := m.cpu.advancePc.regs.read (Field.rn word)
      let count := (registerList word).length.toUInt32
      (storeList mode (Field.rn word) (mode.finalBase base count) (registerList word) true
        (mode.start base count) (m.onCpu Cpu.advancePc).openAccess).closeAccess := by
  have load : (BlockMode.ofWord word).load = false := stores
  simp only [blockTransfer, load, blockStore, isEmpty_registerList listed]
  rfl

theorem blockTransfer_load (loads : bit word 20 = true) (listed : registerList word ≠ [])
    (m : Core β) :
    m.blockTransfer word =
      ((m.onCpu Cpu.advancePc).openAccess.loadListed word
        (m.cpu.advancePc.regs.read (Field.rn word))
        (BlockMode.ofWord word)).closeAccess.internalCycle := by
  have load : (BlockMode.ofWord word).load = true := loads
  simp only [blockTransfer, load, blockLoad, isEmpty_registerList listed]
  rfl

variable {c : Cpu} {r : Nat}

/-- A register that goes out before the base is written back. -/
theorem storedWord_before (hr : r < 16)
    (early : bit word 21 = false ∨ (registerList word).head? = some r) :
    c.storedWord word r = c.advancePc.regs.read r := by
  have old : ¬ (r = Field.rn word ∧ bit word 21 = true ∧ (registerList word).head? ≠ some r) := by
    rintro ⟨_, written, late⟩
    rcases early with still | head
    · exact Bool.false_ne_true (still.symm.trans written)
    · exact late head
  rw [Cpu.storedWord, if_neg old]
  by_cases h15 : r = 15
  · rw [if_pos h15, h15]
    exact c.pc_advancePc.symm
  · rw [if_neg h15, c.read_advancePc (by omega)]

/-- A register that goes out after the base is written back. -/
theorem storedWord_after (hr : r < 16) (inner : Field.rn word < 15) (written : bit word 21 = true)
    (late : (registerList word).head? ≠ some r) :
    c.storedWord word r = (c.advancePc.writeReg (Field.rn word)
      (movedBase word (c.regs.read (Field.rn word)))).regs.read r := by
  rw [Cpu.read_writeReg _ inner hr, Cpu.storedWord]
  by_cases h15 : r = 15
  · rw [if_pos h15, if_neg (by omega), h15]
    exact c.pc_advancePc.symm
  · rw [if_neg h15, c.read_advancePc (by omega)]
    by_cases hb : r = Field.rn word
    · rw [if_pos ⟨hb, written, late⟩, if_pos hb, hb]
    · rw [if_neg fun h => hb h.1, if_neg hb]

/-- The words of a plain store leave as `storedWord` says, with a break before and one after. -/
theorem blockTransfer_plainStore (stores : bit word 20 = false) (plain : bit word 22 = false)
    (listed : registerList word ≠ []) (inner : Field.rn word < 15) (m : Core β) :
    m.blockTransfer word =
      ⟨if bit word 21 then m.cpu.advancePc.writeReg (Field.rn word)
          (movedBase word (m.cpu.regs.read (Field.rn word)))
        else m.cpu.advancePc,
      Bus.nonSequential (Bus.storeWords ((registerList word).map (m.cpu.storedWord word))
        (lowestAddress word (m.cpu.regs.read (Field.rn word)))
        (Bus.nonSequential (Bus.executingAt (m.cpu.pc + 4) m.bus)))⟩ := by
  have low : ∀ k ∈ registerList word, k < 16 := fun k hk => (mem_registerList.mp hk).1
  have taken : ∀ k : Core β, k.source (BlockMode.ofWord word) = k.cpu.regs.read := by
    intro k
    have user : (BlockMode.ofWord word).user = false := plain
    funext r
    rw [source, user]
    rfl
  rw [blockTransfer_store stores listed, m.cpu.read_advancePc inner, ← m.cpu.pc_advancePc]
  cases written : bit word 21 with
  | false =>
    have still : (true && (BlockMode.ofWord word).writeback) = false := written
    have words := List.map_congr_left fun k hk =>
      storedWord_before (c := m.cpu) (low k hk) (Or.inl written)
    simp only [storeList_still _ still, taken, BlockMode.accessed_start, words]
    rfl
  | true =>
    have back : (BlockMode.ofWord word).writeback = true := written
    obtain ⟨r, rest, list⟩ := List.exists_cons_of_ne_nil listed
    have fresh : r ∉ rest := (List.nodup_cons.mp (list ▸ nodup_registerList word)).1
    have first : m.cpu.storedWord word r = m.cpu.advancePc.regs.read r :=
      storedWord_before (low r (by simp [list])) (Or.inr (by simp [list]))
    have later := List.map_congr_left fun k (hk : k ∈ rest) =>
      storedWord_after (c := m.cpu) (low k (by simp [list, hk])) inner written
        (by simpa [list] using fun h : r = k => fresh (h ▸ hk))
    have words := congr (congrArg List.cons first) later
    rw [← List.map_cons, ← list] at words
    have loop : ∀ final place (k : Core β),
        storeList (BlockMode.ofWord word) (Field.rn word) final (registerList word) true place k =
          _ := fun final place k =>
      (congrArg (storeList _ _ final · true place k) list).trans
        (storeList_writingBack back inner r rest place k)
    simp only [loop, taken, BlockMode.accessed_start, words]
    rfl

end

section
variable {β : Type} [Bus β] {word : UInt32} {mode : BlockMode}

/-- The base is written back last. -/
theorem loadListed_cpu (inner : Field.rn word < 15) (base : UInt32) (m : Core β) :
    let l := loadList mode (bit word 15) (registerList word)
      (mode.start base (registerList word).length.toUInt32) m
    (m.loadListed word base mode).cpu =
      if mode.writeback then l.cpu.writeReg (Field.rn word)
        (mode.finalBase base (registerList word).length.toUInt32) else l.cpu := by
  intro l
  unfold loadListed
  extract_lets list count k
  split
  · rw [writeRegister, if_pos inner]
    rfl
  · split <;> rfl

end

theorem record_openAccess {β : Type} [Bus β] (m : Core (Traced β)) :
    m.openAccess.bus.record = m.bus.record ++ [.executingAt m.cpu.pc, .nonSequential] := by
  refine (Traced.record_nonSequential _).trans ?_
  rw [Traced.record_executingAt, List.append_assoc]
  rfl

section
variable {β : Type} [Bus β] {word : UInt32} {mode : BlockMode}

/-- What the loads of a plain block transfer leave before the base is written back. -/
structure PlainLoads (word lowest : UInt32) (values : List UInt32) (m k : Core (Traced β)) : Prop where
  length : values.length = (registerList word).length
  record : k.bus.record = m.bus.record ++
    (values.mapIdx fun i value => .read32 (slot lowest i) value) ++
    if 15 ∈ registerList word then [.branched k.cpu.pc] else []
  loaded : ∀ p ∈ (registerList word).zip values,
    k.cpu.regs.read p.1 = if p.1 = 15 then alignWord p.2 else p.2
  kept : ∀ r < 15, r ∉ registerList word → k.cpu.regs.read r = m.cpu.regs.read r
  pc : 15 ∉ registerList word → k.cpu.pc = m.cpu.pc

theorem plainLoads_of_not_pc (plain : mode.user = false) (unlisted : 15 ∉ registerList word)
    (place : UInt32) (m : Core (Traced β)) :
    PlainLoads word (mode.accessed place)
      (Bus.loadWords (registerList word).length (mode.accessed place) m.bus).1 m
      (loadList mode false (registerList word) place m) := by
  have low : ∀ r ∈ registerList word, r < 15 := fun r hr => lt_of_mem_registerList unlisted hr
  obtain ⟨bus, taken⟩ := loadList_taken mode false low (nodup_registerList word) place m
  rw [plain, Bool.false_and] at taken
  exact {
    length := Bus.length_loadWords _ _ _
    record := by rw [bus, Traced.record_loadWords, if_neg unlisted, List.append_nil]
    loaded := fun p hp => by
      have inner : p.1 < 15 := low p.1 (List.of_mem_zip hp).1
      rw [if_neg (Nat.ne_of_lt inner)]
      exact taken.read hp
    kept := fun r hr hn => taken.read_other (by omega) hn
    pc := fun _ => taken.pc }

theorem plainLoads_of_pc (plain : mode.user = false) (listed : 15 ∈ registerList word)
    (place : UInt32) (m : Core (Traced β)) :
    ∃ values, PlainLoads word (mode.accessed place) values m
      (loadList mode true (registerList word) place m) := by
  have list : registerList word = innerList word ++ [15] :=
    registerList_of_pc (pc_mem_registerList.mp listed)
  have low : ∀ r ∈ innerList word, r < 15 := fun r hr => lt_of_mem_innerList hr
  have length := Bus.length_loadWords (innerList word).length (mode.accessed place) m.bus
  have record := Traced.record_loadWords (innerList word).length (mode.accessed place) m.bus
  obtain ⟨bus, taken⟩ := loadList_taken mode true low (nodup_innerList word) place m
  rw [plain, Bool.false_and] at taken
  generalize (Bus.loadWords (innerList word).length (mode.accessed place) m.bus).1 = values at *
  rw [list, loadList_concat]
  generalize loadList mode true (innerList word) place m = k at *
  refine ⟨values ++ [(Bus.read32 (slot (mode.accessed place) (innerList word).length) k.bus).1], ?_⟩
  simp only [writeLoaded_pc plain]
  exact {
    length := by simp [list, length]
    record := by
      rw [if_pos listed, List.mapIdx_concat, length, ← List.append_assoc m.bus.record, ← record, ← bus]
      refine (Traced.record_branched _ _).trans ?_
      rw [Traced.record_read32, pc_branch]
    loaded := by
      intro p hp
      rw [list, List.zip_append length.symm] at hp
      rcases List.mem_append.mp hp with hi | hl
      · have inner : p.1 < 15 := low p.1 (List.of_mem_zip hi).1
        rw [if_neg (Nat.ne_of_lt inner)]
        exact (RegisterFile.read_setPc inner).trans (taken.read hi)
      · obtain rfl : p = (15, _) := List.mem_singleton.mp hl
        exact RegisterFile.pc_setPc
    kept := by
      intro r hr hn
      have outside : r ∉ innerList word := fun h => hn (by simp [list, h])
      exact (RegisterFile.read_setPc hr).trans (taken.read_other (by omega) outside)
    pc := fun unlisted => absurd listed unlisted }

theorem exists_plainLoads (plain : mode.user = false) (place : UInt32) (m : Core (Traced β)) :
    ∃ values, PlainLoads word (mode.accessed place) values m
      (loadList mode (bit word 15) (registerList word) place m) := by
  by_cases listed : 15 ∈ registerList word
  · rw [pc_mem_registerList.mp listed]
    exact plainLoads_of_pc plain listed place m
  · rw [bit_of_unlisted listed]
    exact ⟨_, plainLoads_of_not_pc plain listed place m⟩

/-- After the loads the walk down breaks the sequence once more, unless the base is written back. -/
theorem loadListed_record (plain : mode.user = false) (inner : Field.rn word < 15) (base : UInt32)
    (m : Core (Traced β)) :
    let l := loadList mode (bit word 15) (registerList word)
      (mode.start base (registerList word).length.toUInt32) m
    let k := (m.loadListed word base mode).closeAccess.internalCycle
    k.bus.record = l.bus.record ++
      (if mode.before || mode.up || mode.writeback then [] else [.nonSequential]) ++
      [.nonSequential, .internalCycle k.cpu.pc] := by
  intro l k
  have closed : k.bus.record = (m.loadListed word base mode).bus.record ++
      [.nonSequential, .internalCycle k.cpu.pc] := by
    refine (Traced.record_internalCycle _ _).trans ?_
    exact (congrArg (· ++ [_]) (Traced.record_nonSequential _)).trans (List.append_assoc _ _ _)
  have loaded : (m.loadListed word base mode).bus.record = l.bus.record ++
      if mode.before || mode.up || mode.writeback then [] else [.nonSequential] := by
    simp only [loadListed, writeRegister, if_pos inner, plain]
    cases mode.writeback with
    | true =>
      rw [Bool.or_true]
      exact (List.append_nil _).symm
    | false =>
      cases mode.before <;> cases mode.up
      · exact Traced.record_nonSequential _
      all_goals exact (List.append_nil _).symm
  rw [closed, loaded]

end

section
variable {β : Type} [Bus β] (cpu : Cpu) (bus : β) {word : UInt32}

theorem plainStore_law (stores : bit word 20 = false) (plain : bit word 22 = false)
    (listed : registerList word ≠ []) (inner : Field.rn word < 15) :
    let k := (⟨cpu, Traced.start bus⟩ : Core (Traced β)).blockTransfer word
    let base := cpu.regs.read (Field.rn word)
    k.bus.record = [.executingAt (cpu.pc + 4), .nonSequential] ++
      ((registerList word).mapIdx fun i r =>
        .write32 (slot (lowestAddress word base) i) (cpu.storedWord word r)) ++ [.nonSequential] ∧
    (bit word 21 = true → k.cpu.regs.read (Field.rn word) = movedBase word base) ∧
    (∀ r < 15, (bit word 21 = true → r ≠ Field.rn word) →
      k.cpu.regs.read r = cpu.regs.read r) ∧
    k.cpu.pc = cpu.pc + 4 := by
  intro k base
  have stored : k = _ := blockTransfer_plainStore stores plain listed inner _
  have after : k.cpu = _ := congrArg Core.cpu stored
  have heard : k.bus = _ := congrArg Core.bus stored
  refine ⟨?_, ?_, ?_, ?_⟩
  · rw [heard]
    rw [Traced.record_nonSequential, Traced.record_storeWords, Traced.record_nonSequential,
      Traced.record_executingAt, Traced.record_start]
    rfl
  · intro written
    rw [after, if_pos written, Cpu.read_writeReg _ inner (by omega), if_pos rfl]
  · intro r hr other
    rw [after]
    split
    · next written =>
      rw [Cpu.read_writeReg _ inner (by omega), if_neg (other written), cpu.read_advancePc hr]
    · exact cpu.read_advancePc hr
  · rw [after]
    split
    · exact (RegisterFile.pc_write inner).trans cpu.pc_advancePc
    · exact cpu.pc_advancePc

theorem plainLoad_law (loads : bit word 20 = true) (plain : bit word 22 = false)
    (listed : registerList word ≠ []) (inner : Field.rn word < 15) :
    let k := (⟨cpu, Traced.start bus⟩ : Core (Traced β)).blockTransfer word
    let base := cpu.regs.read (Field.rn word)
    (∃ values, values.length = (registerList word).length ∧
      k.bus.record = [.executingAt (cpu.pc + 4), .nonSequential] ++
        (values.mapIdx fun i value => .read32 (slot (lowestAddress word base) i) value) ++
        (if 15 ∈ registerList word then [.branched k.cpu.pc] else []) ++
        (if bit word 24 || bit word 23 || bit word 21 then [] else [.nonSequential]) ++
        [.nonSequential, .internalCycle k.cpu.pc] ∧
      ∀ p ∈ (registerList word).zip values, (p.1 = Field.rn word → bit word 21 = false) →
        k.cpu.regs.read p.1 = if p.1 = 15 then alignWord p.2 else p.2) ∧
    (bit word 21 = true → k.cpu.regs.read (Field.rn word) = movedBase word base) ∧
    (∀ r < 15, r ∉ registerList word → (bit word 21 = true → r ≠ Field.rn word) →
      k.cpu.regs.read r = cpu.regs.read r) ∧
    (15 ∉ registerList word → k.cpu.pc = cpu.pc + 4) := by
  intro k base
  let mode := BlockMode.ofWord word
  have user : mode.user = false := plain
  let m : Core (Traced β) := (⟨cpu, Traced.start bus⟩ : Core (Traced β)).onCpu Cpu.advancePc
  let opened := m.openAccess
  have begun : opened.bus.record = [.executingAt (cpu.pc + 4), .nonSequential] := by
    rw [record_openAccess, ← cpu.pc_advancePc]
    rfl
  obtain ⟨values, moved⟩ := exists_plainLoads user
    (mode.start base (registerList word).length.toUInt32) opened
  rw [BlockMode.accessed_start] at moved
  have ended : k = (opened.loadListed word base mode).closeAccess.internalCycle := by
    refine (blockTransfer_load loads listed _).trans ?_
    rw [cpu.read_advancePc inner]
  have after : k.cpu = _ := (congrArg Core.cpu ended).trans (loadListed_cpu inner base opened)
  have heard := loadListed_record user inner base opened
  rw [← ended] at heard
  generalize loadList mode (bit word 15) (registerList word)
    (mode.start base (registerList word).length.toUInt32) opened = l at *
  have pc : k.cpu.pc = l.cpu.pc := by
    rw [after]
    split
    · exact RegisterFile.pc_write inner
    · rfl
  have kept : ∀ r < 16, (bit word 21 = true → r ≠ Field.rn word) →
      k.cpu.regs.read r = l.cpu.regs.read r := by
    intro r hr other
    rw [after]
    split
    · next written => rw [Cpu.read_writeReg _ inner hr, if_neg (other written)]
    · rfl
  refine ⟨⟨values, moved.length, ?_, ?_⟩, ?_, ?_, ?_⟩
  · rw [heard, moved.record, begun, pc]
    simp only [List.append_assoc]
    rfl
  · intro p hp own
    have hr : p.1 < 16 := (mem_registerList.mp (List.of_mem_zip hp).1).1
    rw [kept p.1 hr fun written same => Bool.false_ne_true ((own same).symm.trans written)]
    exact moved.loaded p hp
  · intro written
    have back : mode.writeback = true := written
    rw [after, if_pos back, Cpu.read_writeReg _ inner (by omega), if_pos rfl]
    exact BlockMode.finalBase_ofWord word base
  · intro r hr unlisted other
    rw [kept r (by omega) other, moved.kept r hr unlisted]
    exact cpu.read_advancePc hr
  · intro unlisted
    rw [pc, moved.pc unlisted]
    exact cpu.pc_advancePc

end

variable {β : Type} [Bus β]

/-- The law of block transfers. Over a base other than R15, a transfer of present registers moves one
word for each listed register, the lowest at the lowest address, and makes no other access. The
base is written back over what was loaded into it. -/
theorem block_transfer_law (cpu : Cpu) (bus : β) (word : UInt32) (listed : registerList word ≠ [])
    (plain : bit word 22 = false) (based : Field.rn word ≠ 15) :
    let k := (⟨cpu, Traced.start bus⟩ : Core (Traced β)).blockTransfer word
    let list := registerList word
    let base := cpu.regs.read (Field.rn word)
    let opening := [BusCall.executingAt (cpu.pc + 4), .nonSequential]
    list.Pairwise (· < ·) ∧ (∀ r, r ∈ list ↔ r < 16 ∧ bit word r.toUInt32 = true) ∧
    k.map Traced.forget = (⟨cpu, bus⟩ : Core β).blockTransfer word ∧
    (bit word 20 = false → k.bus.record = opening ++
      (list.mapIdx fun i r => .write32 (slot (lowestAddress word base) i) (cpu.storedWord word r)) ++
      [.nonSequential]) ∧
    (bit word 20 = true → ∃ values, values.length = list.length ∧
      k.bus.record = opening ++
        (values.mapIdx fun i value => .read32 (slot (lowestAddress word base) i) value) ++
        (if 15 ∈ list then [.branched k.cpu.pc] else []) ++
        (if bit word 24 || bit word 23 || bit word 21 then [] else [.nonSequential]) ++
        [.nonSequential, .internalCycle k.cpu.pc] ∧
      ∀ p ∈ list.zip values, (p.1 = Field.rn word → bit word 21 = false) →
        k.cpu.regs.read p.1 = if p.1 = 15 then alignWord p.2 else p.2) ∧
    (bit word 21 = true → k.cpu.regs.read (Field.rn word) = movedBase word base) ∧
    (∀ r < 15, (bit word 20 = true → r ∉ list) → (bit word 21 = true → r ≠ Field.rn word) →
      k.cpu.regs.read r = cpu.regs.read r) ∧
    ((bit word 20 = true → 15 ∉ list) → k.cpu.pc = cpu.pc + 4) := by
  intro k list base opening
  have inner : Field.rn word < 15 := Field.rn_lt_of_ne based
  have unseen : k.map Traced.forget = (⟨cpu, bus⟩ : Core β).blockTransfer word :=
    (map_blockTransfer Traced.forget _ word).symm
  refine ⟨pairwise_registerList word, fun _ => mem_registerList, unseen, ?_⟩
  cases direction : bit word 20 with
  | false =>
    obtain ⟨record, written, kept, pc⟩ := plainStore_law cpu bus direction plain listed inner
    exact ⟨fun _ => record, fun loads => Bool.noConfusion loads, written, fun r hr _ => kept r hr,
      fun _ => pc⟩
  | true =>
    obtain ⟨moved, written, kept, pc⟩ := plainLoad_law cpu bus direction plain listed inner
    exact ⟨fun stores => Bool.noConfusion stores, fun _ => moved, written,
      fun r hr unlisted => kept r hr (unlisted rfl), fun unlisted => pc (unlisted rfl)⟩

/-- STMDB R1!, {R0, R1, PC}: the three words end below the base, and R1 goes out after the writeback. -/
theorem block_transfer_law_late_base :
    let cpu := Cpu.initial.writeReg 1 0x2002
    let rom : Rom := ⟨fun _ => 0⟩
    let k := (⟨cpu, Traced.start rom⟩ : Core (Traced Rom)).blockTransfer 0xE9218003
    registerList 0xE9218003 ≠ [] ∧ bit 0xE9218003 22 = false ∧ Field.rn 0xE9218003 ≠ 15 ∧
    k.bus.record = [.executingAt (cpu.pc + 4), .nonSequential, .write32 0x1FF4 0,
      .write32 0x1FF8 0x1FF6, .write32 0x1FFC (cpu.pc + 4), .nonSequential] ∧
    k.cpu.regs.read 1 = 0x1FF6 := by
  intro cpu rom k
  have listed : registerList 0xE9218003 ≠ [] := by decide +kernel
  have plain : bit 0xE9218003 22 = false := by decide
  have based : Field.rn 0xE9218003 ≠ 15 := by decide
  obtain ⟨_, _, _, stored, _, written, _⟩ := block_transfer_law cpu rom 0xE9218003 listed plain based
  have calls : k.bus.record = _ := stored (by decide)
  have base : k.cpu.regs.read 1 = _ := written (by decide)
  refine ⟨listed, plain, based, calls.trans ?_, base.trans ?_⟩
  · decide +kernel
  · decide +kernel

end Core

end GbaArm
