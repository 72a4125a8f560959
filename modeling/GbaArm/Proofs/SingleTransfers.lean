import GbaArm.Proofs.FlatBytes
import GbaArm.Proofs.TransferForms

/-!
The law of single transfers: which address is accessed, what crosses the bus, and the two registers that
may change.
-/
namespace GbaArm

theorem rotateRight_eq_repeated (w : UInt32) {amount : UInt32} (small : amount.toNat < 32) :
    rotateRight w amount = (ShiftKind.ror.repeated w amount.toNat).value :=
  eq_of_bits fun i hi => (getLsbD_rotateRight w i small hi).trans
    (ShiftKind.getLsbD_repeated .ror w hi).symm

/-- A word made by sign extension, as a number. -/
theorem ofInt_eq_of_bits {w : UInt32} {x : Int} (extended : w.toBitVec = BitVec.ofInt 32 x) :
    UInt32.ofInt x = w := by
  refine AluOp.ofInt_eq ?_
  have number : (w.toNat : Int) = w.toBitVec.toNat := rfl
  rw [number, extended, BitVec.toNat_ofInt, Int.toNat_of_nonneg (Int.emod_nonneg _ (by decide))]

theorem signExtend8_eq (w : UInt32) : signExtend8 w = UInt32.ofInt (Int.bmod w.toNat 0x100) := by
  have narrow : (w.toBitVec.setWidth 8).toInt = Int.bmod w.toNat 0x100 := BitVec.toInt_setWidth _
  refine (ofInt_eq_of_bits ?_).symm
  rw [← narrow]
  simp only [signExtend8, Int32.toBitVec_toUInt32, Int8.toBitVec_toInt32, UInt8.toBitVec_toInt8,
    UInt32.toBitVec_toUInt8]
  rfl

theorem signExtend16_eq (w : UInt32) :
    signExtend16 w = UInt32.ofInt (Int.bmod w.toNat 0x10000) := by
  have narrow : (w.toBitVec.setWidth 16).toInt = Int.bmod w.toNat 0x10000 := BitVec.toInt_setWidth _
  refine (ofInt_eq_of_bits ?_).symm
  rw [← narrow]
  simp only [signExtend16, Int32.toBitVec_toUInt32, Int16.toBitVec_toInt32, UInt16.toBitVec_toInt16,
    UInt32.toBitVec_toUInt16]
  rfl

namespace Core

/-- The size of the access. -/
def TransferWidth.size : TransferWidth → Width
  | word => .word
  | half | signedHalf => .half
  | byte | signedByte => .byte

/-- What a load makes of the unit it reads: turned right by a byte for each place of the address within
the unit, then extended by its sign if it has one. -/
def TransferWidth.loaded (width : TransferWidth) (address raw : UInt32) : UInt32 :=
  let turned := (ShiftKind.ror.repeated raw (8 * (address.toNat % width.size.bytes))).value
  match width with
  | word | half | byte => turned
  | signedHalf => UInt32.ofInt (Int.bmod turned.toNat 0x10000)
  | signedByte => UInt32.ofInt (Int.bmod turned.toNat 0x100)

theorem toNat_lane (size : Width) (address : UInt32) :
    (size.lane address).toNat = address.toNat % size.bytes := by
  cases size with
  | byte => exact (Nat.mod_one _).symm
  | half => exact toNat_and_low (k := 1) rfl address
  | word => exact toNat_and_low (k := 2) rfl address

theorem lane_lt (size : Width) (address : UInt32) : address.toNat % size.bytes < 4 :=
  lt_of_lt_of_le (Nat.mod_lt _ size.bytes_pos) (by cases size <;> decide)

/-- A lane is turned or shifted down by its bits. -/
theorem toNat_laneBits (size : Width) (address : UInt32) :
    (8 * size.lane address).toNat = 8 * (address.toNat % size.bytes) := by
  have within := lane_lt size address
  rw [UInt32.toNat_mul, toNat_lane]
  exact Nat.mod_eq_of_lt (by show 8 * _ < 4294967296; omega)

theorem rotateRight_lane (size : Width) (address raw : UInt32) :
    rotateRight raw (8 * size.lane address) =
      (ShiftKind.ror.repeated raw (8 * (address.toNat % size.bytes))).value := by
  have within := lane_lt size address
  rw [← toNat_laneBits]
  exact rotateRight_eq_repeated raw (by rw [toNat_laneBits]; omega)

variable {β : Type} [Bus β]

theorem loadRegister_eq (m : Core β) (word address : UInt32) (width : TransferWidth) :
    m.loadRegister word address width =
      let (raw, bus) := Bus.load width.size (width.size.align address) m.openAccess.bus
      ((⟨m.cpu.advancePc, Bus.nonSequential bus⟩ : Core β).writeRegister (Field.rd word)
        (width.loaded address raw)).internalCycle := by
  have whole : ∀ raw, rotateRight raw (8 * Width.byte.lane address) = raw :=
    ShiftKind.rotateRight_zero
  unfold loadRegister TransferWidth.loaded
  simp only [← rotateRight_lane, ← signExtend8_eq, ← signExtend16_eq]
  cases width with
  | word | half | signedHalf => rfl
  | byte | signedByte =>
    simp only [TransferWidth.size, whole]
    rfl

theorem storeRegister_eq (m : Core β) (word address : UInt32) {width : TransferWidth}
    (unsigned : width ≠ .signedByte) : m.storeRegister word address width =
      let k := m.onCpu Cpu.advancePc
      ⟨k.cpu, Bus.nonSequential (Bus.store width.size (width.size.align address)
        (k.cpu.regs.read (Field.rd word)) k.openAccess.bus)⟩ := by
  cases width with
  | signedByte => exact absurd rfl unsigned
  | _ => rfl

end Core

namespace SingleTransfer

section
variable (t : SingleTransfer) (c : Cpu) (word : UInt32)

/-- The bank whose base register is used: User's by a translated transfer. -/
def baseBank : Bank :=
  match t.indexing with
  | .postUser => .user
  | .post | .pre => (Bank.ofMode c.mode).owner (Field.rn word)

/-- The base. R15 reads two words past the instruction. -/
def base : UInt32 :=
  match t.indexing with
  | .postUser => c.cell .user (Field.rn word)
  | .post | .pre => c.operand false (Field.rn word)

/-- Base plus or minus offset. -/
def moved : UInt32 :=
  let offset := t.offset.value c word
  if bit word 23 then t.base c word + offset else t.base c word - offset

/-- The address before alignment. -/
def address : UInt32 :=
  match t.indexing with
  | .pre => t.moved c word
  | .post | .postUser => t.base c word

/-- Register `n` of a bank once the base is written back. -/
def rebased (bank : Bank) (n : Nat) : UInt32 :=
  if t.indexing.writesBase word = true ∧ n = Field.rn word ∧ bank = t.baseBank c word then
    t.moved c word
  else c.cell bank n

/-- What a store sends: R15 reads three words past the instruction, and any other register reads as it
does after the base is written back. -/
def stored : UInt32 :=
  let n := Field.rd word
  if n = 15 then c.here + 12 else t.rebased c word ((Bank.ofMode c.mode).owner n) n

/-- The processor once the base is written back. -/
def rebase : Cpu :=
  if t.indexing.writesBase word then
    c.take (t.indexing == .postUser) (Field.rn word, t.moved c word)
  else c

end

variable {β : Type} [Bus β] {t : SingleTransfer} {c : Cpu} {word : UInt32}

/-- The base is not R15, if it is written back. -/
def Based (t : SingleTransfer) (word : UInt32) : Prop :=
  t.indexing.writesBase word = true → Field.rn word ≠ 15

theorem Based.inner (based : t.Based word) (written : t.indexing.writesBase word = true) :
    Field.rn word < 15 := Field.rn_lt_of_ne (based written)

theorem transferAddress_eq (based : t.Based word) (m : Core β) :
    m.transferAddress word (t.offset.value m.cpu word) t.indexing =
      (t.address m.cpu word, ⟨t.rebase m.cpu word, m.bus⟩) := by
  obtain ⟨load, width, indexing, offset⟩ := t
  cases indexing with
  | post =>
    have inner := based.inner rfl
    unfold Core.transferAddress Core.writeRegister
    simp only [if_pos inner, ← Cpu.operand_direct]
    rfl
  | postUser =>
    have inner := based.inner rfl
    have seen : m.readUser (Field.rn word) = m.cpu.cell .user (Field.rn word) :=
      RegisterFile.readUser_eq_cell inner
    unfold Core.transferAddress Core.writeUserBase
    simp only [if_pos inner, seen]
    rfl
  | pre =>
    have asked : Indexing.pre.writesBase word = bit word 21 := rfl
    unfold Core.transferAddress Core.writeRegister rebase
    simp only [← Cpu.operand_direct, asked]
    by_cases written : bit word 21 = true
    · simp only [if_pos written, if_pos (based.inner written)]
      rfl
    · simp only [if_neg written]
      rfl

theorem baseBank_eq : t.baseBank c word = c.taker (t.indexing == .postUser) (Field.rn word) := by
  obtain ⟨load, width, indexing, offset⟩ := t
  cases indexing <;> rfl

theorem cell_rebase (based : t.Based word) (bank : Bank) {n : Nat} (hn : n < 15) :
    (t.rebase c word).cell bank n = t.rebased c word bank n := by
  unfold rebase rebased
  by_cases written : t.indexing.writesBase word = true
  · have own : bank = c.taker (t.indexing == .postUser) n ∧ n = Field.rn word ↔
        t.indexing.writesBase word = true ∧ n = Field.rn word ∧ bank = t.baseBank c word := by
      rw [baseBank_eq]
      constructor
      · rintro ⟨own, rfl⟩
        exact ⟨written, rfl, own⟩
      · rintro ⟨-, rfl, own⟩
        exact ⟨own, rfl⟩
    rw [if_pos written, Cpu.cell_take (based.inner written) (by omega)]
    exact ite_congr (propext own) (fun _ => rfl) fun _ => rfl
  · rw [if_neg written, if_neg fun h => written h.1]

/-- The writeback reaches registers alone. -/
theorem rebase_rest (based : t.Based word) :
    t.rebase c word = { c with regs := (t.rebase c word).regs } ∧
    (t.rebase c word).regs.saved = c.regs.saved ∧ (t.rebase c word).pc = c.pc := by
  unfold rebase
  split
  · next written =>
    refine ⟨?_, Cpu.saved_take, Cpu.pc_take (based.inner written)⟩
    cases t.indexing == .postUser <;> rfl
  · exact ⟨rfl, rfl, rfl⟩

/-- What a single transfer makes of a processor `c`, where a load leaves `value`. A load into the base
wins over the writeback. -/
structure Transferred (t : SingleTransfer) (word : UInt32) (value : Option UInt32) (c k : Cpu) :
    Prop where
  loaded : ∀ v ∈ value, Field.rd word < 15 → k.regs.read (Field.rd word) = v
  /-- Of the registers of all banks only the base moves, where nothing is loaded into it. -/
  cell : ∀ bank, ∀ n < 15,
    (value ≠ none → n = Field.rd word → bank ≠ (Bank.ofMode c.mode).owner n) →
    k.cell bank n = t.rebased c word bank n
  saved : k.regs.saved = c.regs.saved
  rest : k = { c with regs := k.regs, pipe := { c.pipe with bubbles := k.pipe.bubbles } }
  next : (value ≠ none → Field.rd word ≠ 15) → k.pc = c.pc + 4 ∧ k.pipe.bubbles = c.pipe.bubbles
  jump : ∀ v ∈ value, Field.rd word = 15 → k.pc = alignWord v ∧ k.pipe.bubbles = 2

/-- The registers once the base is written back and the program counter has moved on. -/
theorem cell_advance (based : t.Based word) (bank : Bank) {n : Nat} (hn : n < 15) :
    (t.rebase c word).advancePc.cell bank n = t.rebased c word bank n :=
  (Cpu.cell_advancePc hn).trans (cell_rebase based bank hn)

theorem pc_advance (based : t.Based word) : (t.rebase c word).advancePc.pc = c.pc + 4 :=
  (Cpu.pc_advancePc _).trans (congrArg (· + 4) (rebase_rest based).2.2)

theorem mode_advance (based : t.Based word) : (t.rebase c word).advancePc.mode = c.mode := by
  rw [(rebase_rest based).1]
  rfl

theorem Transferred.ofStore (based : t.Based word) :
    Transferred t word none c (t.rebase c word).advancePc := by
  obtain ⟨rest, saved, -⟩ := rebase_rest (c := c) based
  exact {
    loaded := fun _ h => absurd h (Option.not_mem_none _)
    cell := fun bank n hn _ => cell_advance based bank hn
    saved := saved
    rest := by
      rw [rest]
      rfl
    next := fun _ => ⟨pc_advance based, by rw [rest]; rfl⟩
    jump := fun _ h => absurd h (Option.not_mem_none _) }

theorem Transferred.ofLoad (based : t.Based word) (bus : β) (v : UInt32) :
    Transferred t word (some v) c
      ((⟨(t.rebase c word).advancePc, bus⟩ : Core β).writeRegister (Field.rd word) v).cpu := by
  obtain ⟨rest, saved, -⟩ := rebase_rest (c := c) based
  by_cases inner : Field.rd word < 15
  · rw [Core.writeRegister, if_pos inner]
    exact {
      loaded := fun w hw _ => by
        cases hw
        exact (Cpu.read_writeReg _ inner (by omega) v).trans (if_pos rfl)
      cell := fun bank n hn apart => by
        refine (Cpu.cell_writeReg inner (by omega) v).trans ?_
        rw [mode_advance based, if_neg fun h => apart (Option.some_ne_none v) h.2 h.1]
        exact cell_advance based bank hn
      saved := saved
      rest := by
        rw [rest]
        rfl
      next := fun _ => ⟨(RegisterFile.pc_write inner).trans (pc_advance based), by rw [rest]; rfl⟩
      jump := fun _ _ h => absurd h (Nat.ne_of_lt inner) }
  · have last : Field.rd word = 15 := by
      have : Field.rd word < 16 := Field.lt_sixteen _
      omega
    rw [Core.writeRegister, if_neg inner]
    exact {
      loaded := fun _ _ h => absurd h inner
      cell := fun bank n hn _ => (RegisterFile.cell_setPc hn).trans (cell_advance based bank hn)
      saved := saved
      rest := by
        rw [rest]
        rfl
      next := fun h => absurd last (h (Option.some_ne_none v))
      jump := fun w hw _ => by
        cases hw
        exact ⟨RegisterFile.pc_setPc, rfl⟩ }

theorem read_stored (based : t.Based word) :
    (t.rebase c word).advancePc.regs.read (Field.rd word) = t.stored c word := by
  rw [stored]
  split
  · next last =>
    have ahead : c.here + 12 = c.pc + 4 := by
      rw [Cpu.here]
      grind
    rw [last, ahead]
    exact pc_advance based
  · next other =>
    have inner : Field.rd word < 15 := by
      have : Field.rd word < 16 := Field.lt_sixteen _
      omega
    rw [← Cpu.cell_owner, mode_advance based]
    exact cell_advance based _ inner

theorem execute_store (form : ofWord word = some t) (based : t.Based word) (stores : t.load = false)
    (m : Core β) : m.execute word (Opcode.ofWord word) =
      let k := (t.rebase m.cpu word).advancePc
      ⟨k, Bus.nonSequential (Bus.store t.width.size (t.width.size.align (t.address m.cpu word))
        (t.stored m.cpu word) (Bus.nonSequential (Bus.executingAt k.pc m.bus)))⟩ := by
  rw [execute_eq form, Core.transferRegister, transferAddress_eq based, ← read_stored based]
  simp only [stores, Bool.false_eq_true, if_false, Core.storeRegister_eq _ _ _ (unsigned_of_store form stores)]
  rfl

theorem execute_load (form : ofWord word = some t) (based : t.Based word) (loads : t.load = true)
    (m : Core β) : m.execute word (Opcode.ofWord word) =
      let address := t.address m.cpu word
      let (raw, bus) := Bus.load t.width.size (t.width.size.align address)
        (Bus.nonSequential (Bus.executingAt m.cpu.pc m.bus))
      ((⟨(t.rebase m.cpu word).advancePc, Bus.nonSequential bus⟩ : Core β).writeRegister
        (Field.rd word) (t.width.loaded address raw)).internalCycle := by
  have same := (rebase_rest (c := m.cpu) based).2.2
  rw [execute_eq form, Core.transferRegister, transferAddress_eq based, ← same]
  simp only [loads, if_true, Core.loadRegister_eq]
  rfl

/-- A register write is heard of if it is a jump. -/
theorem record_writeRegister (m : Core (Traced β)) {n : Nat} (hn : n < 16) (v : UInt32) :
    (m.writeRegister n v).bus.record =
      m.bus.record ++ if n = 15 then [.branched (m.writeRegister n v).cpu.pc] else [] := by
  rw [Core.writeRegister]
  by_cases inner : n < 15
  · rw [if_pos inner, if_neg (Nat.ne_of_lt inner)]
    exact (List.append_nil _).symm
  · rw [if_neg inner, if_pos (by omega), Core.pc_branch]
    exact Traced.record_branched _ _

theorem byte_writeRegister (flat : FlatBytes β) (m : Core β) (n : Nat) (v : UInt32) :
    flat.byte (m.writeRegister n v).bus = flat.byte m.bus := by
  rw [Core.writeRegister]
  split
  · rfl
  · exact flat.byte_branched _ _

/-- What a store does from `cpu` on `bus`. A flat memory changes at the accessed unit alone. -/
structure Stores (t : SingleTransfer) (word : UInt32) (cpu : Cpu) (bus : β) (k : Core (Traced β)) :
    Prop where
  record : k.bus.record = [.executingAt (cpu.pc + 4), .nonSequential,
    .store t.width.size (t.width.size.align (t.address cpu word)) (t.stored cpu word), .nonSequential]
  registers : t.Transferred word none cpu k.cpu
  memory (flat : FlatBytes β) (other : UInt32) : flat.byte k.bus.bus other =
    let i := (other - t.width.size.align (t.address cpu word)).toNat
    if i < t.width.size.bytes then byteOf (t.stored cpu word) i else flat.byte bus other

theorem execute_stores (form : ofWord word = some t) (based : t.Based word) (stores : t.load = false)
    (cpu : Cpu) (bus : β) : t.Stores word cpu bus
      ((⟨cpu, Traced.start bus⟩ : Core (Traced β)).execute word (Opcode.ofWord word)) := by
  rw [execute_store form based stores]
  exact {
    record := by
      rw [Traced.record_nonSequential, Traced.record_store, Traced.record_nonSequential,
        Traced.record_executingAt, Traced.record_start, pc_advance based]
      rfl
    registers := Transferred.ofStore based
    memory := fun flat other => by
      refine (congrFun (flat.traced.byte_nonSequential _) other).trans ?_
      refine (flat.traced.byte_store _ _ _ _ (align_align _ _) other).trans ?_
      rw [flat.traced.byte_nonSequential, flat.traced.byte_executingAt]
      rfl }

/-- What a load does from `cpu` on `bus` that answers with `raw`. A flat memory answers with the bytes
of the accessed unit. -/
structure Loads (t : SingleTransfer) (word : UInt32) (cpu : Cpu) (bus : β) (raw : UInt32)
    (k : Core (Traced β)) : Prop where
  record : k.bus.record = [.executingAt cpu.pc, .nonSequential,
      .load t.width.size (t.width.size.align (t.address cpu word)) raw, .nonSequential] ++
    (if Field.rd word = 15 then [.branched k.cpu.pc] else []) ++ [.internalCycle k.cpu.pc]
  registers : t.Transferred word (some (t.width.loaded (t.address cpu word) raw)) cpu k.cpu
  memory (flat : FlatBytes β) : flat.byte k.bus.bus = flat.byte bus ∧
    raw.toNat = Nat.ofDigits 256 ((List.range t.width.size.bytes).map fun i =>
      (flat.byte bus (t.width.size.align (t.address cpu word) + i.toUInt32)).toNat)

theorem execute_loads (form : ofWord word = some t) (based : t.Based word) (loads : t.load = true)
    (cpu : Cpu) (bus : β) : ∃ raw, t.Loads word cpu bus raw
      ((⟨cpu, Traced.start bus⟩ : Core (Traced β)).execute word (Opcode.ofWord word)) := by
  let size := t.width.size
  let place := size.align (t.address cpu word)
  let opened : Traced β := Bus.nonSequential (Bus.executingAt cpu.pc (Traced.start bus))
  let read := Bus.load size place opened
  have begun : opened.record = [.executingAt cpu.pc, .nonSequential] := by
    rw [Traced.record_nonSequential, Traced.record_executingAt, Traced.record_start]
    rfl
  have closed : (Bus.nonSequential read.2).record = [.executingAt cpu.pc, .nonSequential,
      .load size place read.1, .nonSequential] := by
    rw [Traced.record_nonSequential, Traced.record_load, begun]
    rfl
  rw [execute_load form based loads]
  refine ⟨read.1, ?_, Transferred.ofLoad based _ _, fun flat => ⟨?_, ?_⟩⟩
  · refine (Traced.record_internalCycle _ _).trans (congrArg (· ++ [_]) ?_)
    exact (record_writeRegister _ (Field.lt_sixteen _) _).trans (congrArg (· ++ _) closed)
  · refine (flat.traced.byte_internalCycle _ _).trans ?_
    refine (byte_writeRegister flat.traced _ _ _).trans ?_
    refine (flat.traced.byte_nonSequential _).trans ?_
    refine (flat.traced.byte_load size place opened).trans ?_
    exact (flat.traced.byte_nonSequential _).trans (flat.traced.byte_executingAt _ _)
  · refine (flat.traced.load size place opened (align_align _ _)).trans ?_
    rw [flat.traced.byte_nonSequential, flat.traced.byte_executingAt]
    rfl

/-- The law of single transfers. A word that encodes one, and does not write its base back into R15,
makes one data access of its width at the aligned address; the base and a loaded register change, and
nothing else. -/
theorem single_transfer_law (form : ofWord word = some t) (based : t.Based word) (cpu : Cpu)
    (bus : β) :
    let k := (⟨cpu, Traced.start bus⟩ : Core (Traced β)).execute word (Opcode.ofWord word)
    k.map Traced.forget = (⟨cpu, bus⟩ : Core β).execute word (Opcode.ofWord word) ∧
    (t.load = false → t.Stores word cpu bus k) ∧
    (t.load = true → ∃ raw, t.Loads word cpu bus raw k) :=
  ⟨(Core.map_execute Traced.forget _ word _).symm,
    fun stores => execute_stores form based stores cpu bus,
    fun loads => execute_loads form based loads cpu bus⟩

/-- LDRT R0, [SP], #4 in Supervisor mode, with a stack pointer of User mode that is not aligned. -/
theorem single_transfer_law_translated :
    let user := (Cpu.initial.setStatus 0x1F).writeReg 13 0x81
    let cpu := (user.enterException .supervisor).writeReg 13 0x1111
    let ram : ByteRam := ⟨fun address => address.toUInt8⟩
    let k := (⟨cpu, Traced.start ram⟩ : Core (Traced ByteRam)).execute 0xE4BD0004
      (Opcode.ofWord 0xE4BD0004)
    ofWord 0xE4BD0004 = some ⟨true, .word, .postUser, .immediate⟩ ∧
    Based ⟨true, .word, .postUser, .immediate⟩ 0xE4BD0004 ∧
    k.bus.record = [.executingAt cpu.pc, .nonSequential, .read32 0x80 0x83828180, .nonSequential,
      .internalCycle (cpu.pc + 4)] ∧
    k.cpu.regs.read 0 = 0x80838281 ∧ k.cpu.cell .user 13 = 0x85 ∧
    k.cpu.cell .supervisor 13 = 0x1111 := by
  intro user cpu ram k
  have form : ofWord 0xE4BD0004 = some ⟨true, .word, .postUser, .immediate⟩ := by decide +kernel
  have based : Based ⟨true, .word, .postUser, .immediate⟩ 0xE4BD0004 := fun _ => by decide
  obtain ⟨_, _, loads⟩ := single_transfer_law form based cpu ram
  obtain ⟨raw, record, registers, memory⟩ := loads rfl
  have answer : raw = 0x83828180 := UInt32.toNat_inj.mp <| (memory ByteRam.flat).2.trans <| by
    decide +kernel
  subst answer
  have pc := (registers.next fun _ => by decide).1
  have base := registers.cell .user 13 (by decide) fun _ h => absurd h (by decide)
  have own := registers.cell .supervisor 13 (by decide) fun _ h => absurd h (by decide)
  have loaded := registers.loaded _ rfl (by decide)
  refine ⟨form, based, record.trans ?_, loaded.trans ?_, base.trans ?_, own.trans ?_⟩
  · rw [pc]
    decide +kernel
  all_goals decide +kernel

end SingleTransfer

end GbaArm
