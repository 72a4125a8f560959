import GbaArm.Proofs.Pipeline

/-!
Where an instruction leaves the program counter: one word further, or at the target of its last jump.
The exception is a single transfer that jumps by writing its base back.
-/
namespace GbaArm

/-- The target of a jump. -/
def BusCall.target : BusCall → Option UInt32
  | branched target => some target
  | _ => none

/-- Whether a single transfer writes its base back. -/
def Indexing.writesBase (word : UInt32) : Indexing → Bool
  | post | postUser => true
  | pre => bit word 21

/-- Whether a single transfer jumps by writing its base back into R15. -/
def Indexing.jumps (word : UInt32) (indexing : Indexing) : Bool :=
  indexing.writesBase word && Field.rn word == 15

/-- Whether a single transfer makes such a jump and does not load R15 after it. -/
def Indexing.strands (word : UInt32) (load : Bool) (indexing : Indexing) : Bool :=
  indexing.jumps word && !(load && Field.rd word == 15)

def HalfTransfer.isLoad : HalfTransfer → Bool
  | storeHalf => false
  | loadHalf | loadSignedByte | loadSignedHalf => true

def HalfTransfer.width : HalfTransfer → Core.TransferWidth
  | storeHalf | loadHalf => .half
  | loadSignedByte => .signedByte
  | loadSignedHalf => .signedHalf

def Opcode.strands (word : UInt32) : Opcode → Bool
  | transfer load _ indexing _ => indexing.strands word load
  | halfTransfer kind indexing => indexing.strands word kind.isLoad
  | _ => false

namespace Traced

variable {β : Type}

/-- The targets of the jumps that the bus has heard of, the latest first. -/
def jumps (t : Traced β) : List UInt32 := t.calls.filterMap BusCall.target

theorem jumps_of_touches [Bus β] {pc : UInt32} {t t' : Traced β}
    (h : Bus.Touches pc t t') : t'.jumps = t.jumps := by
  cases h <;> rfl

end Traced

namespace Core

variable {β : Type} [Bus β] {m k l : Core (Traced β)} {n : Nat}

/-- From `m` to `k` the program counter has moved on by `n` words, or it stands at the target of the
last jump, with a refill ahead. -/
inductive Arrives (n : Nat) (m k : Core (Traced β)) : Prop
  | moved (quiet : k.bus.jumps = m.bus.jumps)
      (bubbles : k.cpu.pipe.bubbles = m.cpu.pipe.bubbles)
      (pc : k.cpu.pc = m.cpu.pc + UInt32.ofNat (4 * n))
  | jumped (earlier : List UInt32) (heard : k.bus.jumps = k.cpu.pc :: (earlier ++ m.bus.jumps))
      (refill : k.cpu.pipe.bubbles = 2)

omit [Bus β] in
theorem Arrives.trans (h : Arrives n m k) (h' : Arrives 0 k l) : Arrives n m l := by
  cases h' with
  | jumped earlier heard refill =>
    cases h with
    | moved quiet => exact .jumped earlier (quiet ▸ heard) refill
    | jumped before heard' =>
      exact .jumped (earlier ++ k.cpu.pc :: before) (by simp [heard, heard']) refill
  | moved quiet bubbles pc =>
    have still : l.cpu.pc = k.cpu.pc := pc.trans (UInt32.add_zero _)
    cases h with
    | moved quiet' bubbles' pc' =>
      exact .moved (quiet.trans quiet') (bubbles.trans bubbles') (still.trans pc')
    | jumped before heard refill =>
      exact .jumped before (by rw [quiet, heard, still]) (bubbles.trans refill)

theorem Moves.jumps (h : Moves n m k) : ∃ made, k.bus.jumps = made ++ m.bus.jumps := by
  induction h with
  | trans _ _ ih ih' =>
    obtain ⟨made, hm⟩ := ih
    obtain ⟨made', hm'⟩ := ih'
    exact ⟨made' ++ made, by rw [hm', hm, List.append_assoc]⟩
  | touch h => exact ⟨[], Traced.jumps_of_touches h⟩
  | jump m n target => exact ⟨[target], rfl⟩
  | _ => exact ⟨[], rfl⟩

/-- A jump decides where it arrives, whatever came before it. -/
theorem Moves.arrives_branch {i : Nat} (h : Moves i m k) (target : UInt32) :
    Arrives n m (k.branch target) := by
  obtain ⟨made, hm⟩ := h.jumps
  have pc : (k.branch target).cpu.pc = target := RegisterFile.pc_setPc
  refine .jumped made ?_ rfl
  rw [pc, ← hm]
  rfl

/-- Without a word of progress a jump is never left behind. -/
theorem Moves.arrives (h : Moves n m k) (hn : n = 0) : Arrives 0 m k := by
  have moved : ∀ {m k : Core (Traced β)}, k.bus.jumps = m.bus.jumps →
      k.cpu.pipe.bubbles = m.cpu.pipe.bubbles → k.cpu.pc = m.cpu.pc → Arrives 0 m k :=
    fun quiet bubbles pc => .moved quiet bubbles (pc.trans (UInt32.add_zero _).symm)
  induction h with
  | trans _ _ ih ih' => exact (ih (by omega)).trans (ih' (by omega))
  | touch h => exact moved (Traced.jumps_of_touches h) rfl rfl
  | advance => omega
  | jump m _ target => exact (Moves.refl m).arrives_branch target
  | write m h value => exact moved rfl rfl (RegisterFile.pc_write h)
  | writeUser m h value => exact moved rfl rfl (RegisterFile.pc_writeUser h)
  | save => exact moved rfl rfl RegisterFile.pc_setSavedStatus
  | restore | control => exact moved rfl rfl RegisterFile.pc_switchBank
  | _ => exact moved rfl rfl rfl

omit [Bus β] in
theorem arrives_advance (m : Core (Traced β)) : Arrives 1 m (m.onCpu Cpu.advancePc) :=
  .moved rfl rfl RegisterFile.pc_setPc

omit [Bus β] in
theorem Arrives.of_quiet (h : Arrives n m k) (quiet : k.bus.jumps = m.bus.jumps) :
    k.cpu.pipe.bubbles = m.cpu.pipe.bubbles ∧ k.cpu.pc = m.cpu.pc + UInt32.ofNat (4 * n) := by
  cases h with
  | moved _ bubbles pc => exact ⟨bubbles, pc⟩
  | jumped earlier heard =>
    have longer := congrArg List.length (heard.symm.trans quiet)
    simp at longer
    omega

/-- What comes before without a jump or a word of progress leaves the program counter alone. -/
theorem Arrives.after (h : Arrives n k l) (before : Moves 0 m k)
    (quiet : k.bus.jumps = m.bus.jumps) : Arrives n m l := by
  obtain ⟨bubbles, pc⟩ := (before.arrives rfl).of_quiet quiet
  have still : k.cpu.pc = m.cpu.pc := pc.trans (UInt32.add_zero _)
  cases h with
  | moved quiet' bubbles' pc' =>
    exact .moved (quiet'.trans quiet) (bubbles'.trans bubbles) (still ▸ pc')
  | jumped earlier heard refill => exact .jumped earlier (quiet ▸ heard) refill

/-- The shape of a handler: no jump before the program counter moves on, and none is undone after. -/
theorem Moves.arrives_advance (h : Moves 0 (k.onCpu Cpu.advancePc) l) (before : Moves 0 m k)
    (quiet : k.bus.jumps = m.bus.jumps) : Arrives 1 m l :=
  ((Core.arrives_advance k).trans (h.arrives rfl)).after before quiet

theorem dataProcessing_arrives (m : Core (Traced β)) (word : UInt32) (op : AluOp)
    (setFlags byRegister : Bool) : Arrives 1 m (m.dataProcessing word op setFlags byRegister) := by
  rw [dataProcessing]
  cases byRegister with
  | false => exact (keepResult_moves _ word op setFlags _).arrives_advance (.flags m _) rfl
  | true =>
    have kept := fun (k : Core (Traced β)) result => keepResult_moves k word op setFlags result
    exact (((internalCycle_moves _).after (.flags _ _)).after (kept _ _)).arrives_advance (.refl m) rfl

theorem noteMode_jumps (m : Core (Traced β)) (mode : Mode) :
    (m.noteMode mode).bus.jumps = m.bus.jumps := by
  rw [noteMode]
  split <;> rfl

theorem writePresentStatus_jumps (m : Core (Traced β)) (word value : UInt32) :
    (m.writePresentStatus word value).bus.jumps = m.bus.jumps := by
  unfold writePresentStatus
  extract_lets k
  split
  · exact noteMode_jumps k _
  · rfl

omit [Bus β] in
theorem writeSavedStatus_jumps (m : Core (Traced β)) (withControl : Bool) (value : UInt32) :
    (m.writeSavedStatus withControl value).bus.jumps = m.bus.jumps := by
  rw [writeSavedStatus]
  split <;> rfl

theorem writeStatus_arrives (m : Core (Traced β)) (word : UInt32) :
    Arrives 1 m (m.writeStatus word) := by
  rw [writeStatus]
  refine (Moves.refl _).arrives_advance ?_ ?_
  · split
    · exact writePresentStatus_moves m word _
    · exact writeSavedStatus_moves m _ _
    · exact .flags m _
    · exact writeSavedStatus_moves m false _
  · split
    · exact writePresentStatus_jumps m word _
    · exact writeSavedStatus_jumps m _ _
    · rfl
    · exact writeSavedStatus_jumps m false _

theorem branchBy_arrives (m : Core (Traced β)) (word : UInt32) (link : Bool) :
    Arrives 1 m (m.branchBy word link) := by
  rw [branchBy]
  cases link with
  | false => exact (Moves.refl m).arrives_branch _
  | true => exact (Moves.write m (by decide) _).arrives_branch _

omit [Bus β] in
theorem setFlagsIf_jumps (m : Core (Traced β)) (set : Bool) (flags : Flags) :
    (if set then m.onCpu fun c => { c with flags } else m).bus.jumps = m.bus.jumps := by
  cases set <;> rfl

theorem writeProductHigh_arrives (m : Core (Traced β)) (word value : UInt32) :
    Arrives 1 m (m.writeProductHigh word value) :=
  (writeProduct_moves _ (Field.lt_sixteen _) value).arrives_advance (.refl m) rfl

theorem multiply_arrives (m : Core (Traced β)) (word : UInt32) (accumulate setFlags : Bool) :
    Arrives 1 m (m.multiply word accumulate setFlags) := by
  rw [multiply]
  split
  next product k h =>
    have multiplied : Moves 0 m k ∧ k.bus.jumps = m.bus.jumps := by
      rw [show k = _ from (congrArg Prod.snd h).symm]
      split
      · exact ⟨.refl m, rfl⟩
      · exact ⟨.touch (.internalCycles _ _), rfl⟩
    exact ((writeProductHigh_arrives _ word _).after (setFlagsIf_moves k setFlags _)
      (setFlagsIf_jumps k setFlags _)).after multiplied.1 multiplied.2

theorem multiplyLong_arrives (m : Core (Traced β)) (word : UInt32)
    (signed accumulate setFlags : Bool) :
    Arrives 1 m (m.multiplyLong word signed accumulate setFlags) := by
  have multiplied : ∀ rm rs sum, Moves 0 m (m.product64 rm rs signed sum).2 :=
    fun rm rs sum => .touch (.internalCycles _ _)
  have flagged : ∀ (k : Core (Traced β)) flags high low, Arrives 1 k
      (((if setFlags then k.onCpu fun c => { c with flags } else k).writeProductHigh word
        high).writeProductLow word low) := fun k flags high low =>
    ((writeProductHigh_arrives _ word high).trans
      ((writeProductLow_moves _ word low).arrives rfl)).after (setFlagsIf_moves k setFlags flags)
      (setFlagsIf_jumps k setFlags flags)
  exact (flagged _ _ _ _).after (multiplied (m.cpu.regs.read (Field.rm word)) _ _) rfl

theorem swap_arrives (m : Core (Traced β)) (word : UInt32) (byte : Bool) :
    Arrives 1 m (m.swap word byte) := by
  cases byte with
  | false =>
    exact (writeRegister_moves _ _ _).arrives_advance
      (((loadWord_moves m _).after (internalCycle_moves _)).after (storeWord_moves _ _ _)) rfl
  | true =>
    exact (writeRegister_moves _ _ _).arrives_advance
      (((loadByte_moves m _).after (internalCycle_moves _)).after (storeByte_moves _ _ _)) rfl

theorem blockTransfer_arrives (m : Core (Traced β)) (word : UInt32) :
    Arrives 1 m (m.blockTransfer word) := by
  unfold blockTransfer
  extract_lets k mode
  split
  · exact (blockLoad_moves k word mode).arrives_advance (.refl m) rfl
  · exact (blockStore_moves k word mode).arrives_advance (.refl m) rfl

theorem storeRegister_arrives (m : Core (Traced β)) (word address : UInt32)
    (width : TransferWidth) : Arrives 1 m (m.storeRegister word address width) := by
  cases width with
  | word => exact (storeWord_moves _ _ _).arrives_advance (.refl m) rfl
  | byte => exact (storeByte_moves _ _ _).arrives_advance (.refl m) rfl
  | half | signedHalf | signedByte => exact (storeHalf_moves _ _ _).arrives_advance (.refl m) rfl

theorem loadRegister_arrives (m : Core (Traced β)) (word address : UInt32)
    (width : TransferWidth) : Arrives 1 m (m.loadRegister word address width) := by
  have keep : ∀ (k : Core (Traced β)) value,
      Arrives 1 k ((k.onCpu Cpu.advancePc).writeRegister (Field.rd word) value).internalCycle :=
    fun k value =>
      ((writeRegister_moves _ _ _).after (internalCycle_moves _)).arrives_advance (.refl k) rfl
  cases width with
  | word => exact (keep _ _).after (loadWord_moves m address) rfl
  | half | signedHalf => exact (keep _ _).after (loadHalf_moves m address) rfl
  | byte | signedByte => exact (keep _ _).after (loadByte_moves m address) rfl

/-- The program counter stands one word past the target of the only jump. -/
def Overshoots (m k : Core (Traced β)) : Prop :=
  ∃ target, k.bus.jumps = target :: m.bus.jumps ∧ k.cpu.pipe.bubbles = 2 ∧ k.cpu.pc = target + 4

theorem writeRegister_quiet (m : Core (Traced β)) (hn : n < 15) (value : UInt32) :
    (m.writeRegister n value).bus.jumps = m.bus.jumps := by
  rw [writeRegister, if_pos hn]
  rfl

theorem transferAddress_quiet {word : UInt32} {indexing : Indexing}
    (h : indexing.jumps word = false) (m : Core (Traced β)) (offset : UInt32) :
    (m.transferAddress word offset indexing).2.bus.jumps = m.bus.jumps := by
  have hn : Field.rn word < 16 := Field.lt_sixteen _
  have plain : indexing.writesBase word = true → Field.rn word < 15 := by
    intro written
    have : Field.rn word ≠ 15 := by simpa [Indexing.jumps, written] using h
    omega
  cases indexing with
  | post => exact writeRegister_quiet m (plain rfl) _
  | postUser =>
    rw [transferAddress, writeUserBase, if_pos (plain rfl)]
    rfl
  | pre =>
    rw [transferAddress]
    simp only
    split
    · next written => exact writeRegister_quiet m (plain written) _
    · rfl

theorem transferAddress_branch {word : UInt32} {indexing : Indexing}
    (h : indexing.jumps word = true) (m : Core (Traced β)) (offset : UInt32) :
    ∃ target, (m.transferAddress word offset indexing).2 = m.branch target := by
  have ⟨written, hn⟩ : indexing.writesBase word = true ∧ Field.rn word = 15 := by
    simpa [Indexing.jumps] using h
  unfold transferAddress
  rw [hn]
  cases indexing with
  | post | postUser => exact ⟨_, rfl⟩
  | pre => exact ⟨_, if_pos written⟩

theorem storeRegister_quiet (m : Core (Traced β)) (word address : UInt32) (width : TransferWidth) :
    (m.storeRegister word address width).bus.jumps = m.bus.jumps := by
  cases width <;> rfl

theorem loadRegister_quiet {word : UInt32} (hd : Field.rd word < 15) (m : Core (Traced β))
    (address : UInt32) (width : TransferWidth) :
    (m.loadRegister word address width).bus.jumps = m.bus.jumps := by
  have keep : ∀ (k : Core (Traced β)) value,
      ((k.onCpu Cpu.advancePc).writeRegister (Field.rd word) value).internalCycle.bus.jumps =
        k.bus.jumps := fun k value => writeRegister_quiet (k.onCpu Cpu.advancePc) hd value
  cases width <;> exact keep _ _

/-- A load into R15 arrives even if its base jumped before. -/
theorem loadRegister_branch {word : UInt32} (hd : Field.rd word = 15) (h : Moves 0 m k)
    (address : UInt32) (width : TransferWidth) :
    Arrives 1 m (k.loadRegister word address width) := by
  have keep : ∀ (l : Core (Traced β)) value, Moves 0 m l →
      Arrives 1 m ((l.onCpu Cpu.advancePc).writeRegister (Field.rd word) value).internalCycle := by
    intro l value before
    rw [writeRegister, if_neg (by omega)]
    exact ((before.trans (.advance l)).arrives_branch _).trans
      ((internalCycle_moves _).arrives rfl)
  cases width with
  | word => exact keep _ _ (h.after (loadWord_moves k address))
  | half | signedHalf => exact keep _ _ (h.after (loadHalf_moves k address))
  | byte | signedByte => exact keep _ _ (h.after (loadByte_moves k address))

theorem transferRegister_arrives {word : UInt32} {indexing : Indexing} {load : Bool}
    (h : indexing.strands word load = false) (m : Core (Traced β)) (offset : UInt32)
    (width : TransferWidth) :
    Arrives 1 m (m.transferRegister word offset indexing load width) := by
  have addressed := transferAddress_moves m word offset indexing
  cases hj : indexing.jumps word with
  | false =>
    have quiet := transferAddress_quiet hj m offset
    cases load with
    | false => exact (storeRegister_arrives _ _ _ _).after addressed quiet
    | true => exact (loadRegister_arrives _ _ _ _).after addressed quiet
  | true =>
    have ⟨loaded, hd⟩ : load = true ∧ Field.rd word = 15 := by simpa [Indexing.strands, hj] using h
    subst loaded
    exact loadRegister_branch hd addressed _ _

theorem transferRegister_overshoots {word : UInt32} {indexing : Indexing} {load : Bool}
    (h : indexing.strands word load = true) (m : Core (Traced β)) (offset : UInt32)
    (width : TransferWidth) :
    Overshoots m (m.transferRegister word offset indexing load width) := by
  have ⟨hj, hd⟩ : indexing.jumps word = true ∧ (load = false ∨ Field.rd word ≠ 15) := by
    simpa [Indexing.strands] using h
  obtain ⟨target, branched⟩ := transferAddress_branch hj m offset
  have past : ∀ l : Core (Traced β), Arrives 1 (m.branch target) l →
      l.bus.jumps = (m.branch target).bus.jumps → Overshoots m l := by
    intro l arrives quiet
    obtain ⟨bubbles, pc⟩ := arrives.of_quiet quiet
    have landed : (m.branch target).cpu.pc = target := RegisterFile.pc_setPc
    exact ⟨target, quiet, bubbles, pc.trans (congrArg (· + 4) landed)⟩
  rw [transferRegister]
  simp only [branched]
  cases load with
  | false => exact past _ (storeRegister_arrives _ _ _ _) (storeRegister_quiet _ _ _ _)
  | true =>
    have inner : Field.rd word < 15 := by
      have : Field.rd word < 16 := Field.lt_sixteen _
      have : Field.rd word ≠ 15 := hd.resolve_left (by decide)
      omega
    exact past _ (loadRegister_arrives _ _ _ _) (loadRegister_quiet inner _ _ _)

omit [Bus β] in
theorem halfTransfer_eq {γ : Type} [Bus γ] (m : Core γ) (word : UInt32) (kind : HalfTransfer)
    (indexing : Indexing) : m.execute word (.halfTransfer kind indexing) =
      m.transferRegister word (halfOffset m.cpu word) indexing kind.isLoad kind.width := by
  cases kind <;> rfl

theorem enterException_arrives (m : Core (Traced β)) (mode : Mode) (vector : UInt32) :
    Arrives 1 m (m.enterException mode vector) := by
  have pc : (m.enterException mode vector).cpu.pc = vector := RegisterFile.pc_setPc
  refine .jumped [] ?_ rfl
  rw [pc, List.nil_append, ← noteMode_jumps m mode]
  rfl

theorem branchExchange_arrives (m : Core (Traced β)) (word : UInt32) :
    Arrives 1 m (m.branchExchange word) := by
  have jumped : ∀ (k : Core (Traced β)) target, k.bus.jumps = m.bus.jumps →
      Arrives 1 m (k.branch target) := by
    intro k target quiet
    have pc : (k.branch target).cpu.pc = target := RegisterFile.pc_setPc
    refine .jumped [] ?_ rfl
    rw [pc, List.nil_append, ← quiet]
    rfl
  unfold branchExchange
  extract_lets target noted thumb
  split
  · exact jumped thumb _ rfl
  · exact jumped m _ rfl

theorem execute_arrives (m : Core (Traced β)) {word : UInt32} {op : Opcode}
    (h : op.strands word = false) : Arrives 1 m (m.execute word op) := by
  cases op with
  | dataProcessing op setFlags byRegister => exact dataProcessing_arrives m word op setFlags byRegister
  | readStatus => exact (writeRegister_moves _ _ _).arrives_advance (.refl m) rfl
  | writeStatus => exact writeStatus_arrives m word
  | branchExchange => exact branchExchange_arrives m word
  | multiply accumulate setFlags => exact multiply_arrives m word accumulate setFlags
  | multiplyLong signed accumulate setFlags =>
    exact multiplyLong_arrives m word signed accumulate setFlags
  | halfTransfer kind indexing =>
    rw [halfTransfer_eq]
    exact transferRegister_arrives h m _ _
  | transfer load byte indexing scaled =>
    exact transferRegister_arrives h m (wordOffset m.cpu word scaled) _
  | swap byte => exact swap_arrives m word byte
  | blockTransfer => exact blockTransfer_arrives m word
  | branch link => exact branchBy_arrives m word link
  | softwareInterrupt => exact enterException_arrives m _ _
  | undefined =>
    exact (enterException_arrives (m.note _) .undefined 0x04).after (note_moves m _) rfl

theorem execute_overshoots (m : Core (Traced β)) {word : UInt32} {op : Opcode}
    (h : op.strands word = true) : Overshoots m (m.execute word op) := by
  cases op with
  | halfTransfer kind indexing =>
    rw [halfTransfer_eq]
    exact transferRegister_overshoots h m _ _
  | transfer load byte indexing scaled =>
    exact transferRegister_overshoots h m (wordOffset m.cpu word scaled) _
  | _ => cases h

omit [Bus β] in
theorem Arrives.advancePipe (h : Arrives n m k) : Arrives n m k.advancePipe := by
  cases h with
  | moved quiet bubbles pc => exact .moved quiet bubbles pc
  | jumped earlier heard refill => exact .jumped earlier heard refill

theorem step_arrives (hr : m.cpu.isRefilling = false)
    (plain : ∀ op, m.cpu.due = some op → op.strands m.cpu.pipe.execute = false) :
    Arrives 1 m m.step := by
  have fetched : ∀ {k}, Arrives 1 m.fetch k → Arrives 1 m k := fun h => by
    cases h with
    | moved quiet bubbles pc => exact .moved quiet bubbles pc
    | jumped earlier heard refill => exact .jumped earlier heard refill
  obtain ⟨hr', _⟩ | ⟨_, _, hs⟩ | ⟨_, op, hd, hs⟩ | ⟨_, hs⟩ := step_cases m
  · simp [hr] at hr'
  · exact hs ▸ enterException_arrives m .irq 0x18
  · exact hs ▸ (fetched (execute_arrives _ (plain op hd))).advancePipe
  · exact hs ▸ (fetched (Core.arrives_advance _)).advancePipe

theorem step_overshoots {op : Opcode} (hd : m.cpu.due = some op)
    (h : op.strands m.cpu.pipe.execute = true) : Overshoots m m.step := by
  rw [step_of_due hd]
  exact execute_overshoots m.fetch h

/-- Two bubbles bring the word at the program counter to where it executes. -/
theorem refilled (m : Core β) (h : m.cpu.pipe.bubbles = 2) :
    m.step.step.cpu.pipe.bubbles = 0 ∧ m.step.step.cpu.pc = m.cpu.pc + 8 ∧
    m.step.step.cpu.pipe.execute = (Bus.fetch32 m.cpu.pc m.bus).1 := by
  have first : m.step = m.stepBubble := step_of_refilling (by simp [Cpu.isRefilling, h])
  have left : m.stepBubble.cpu.pipe.bubbles = 1 := congrArg (· - 1) h
  have second : m.step.step = m.stepBubble.stepBubble := by
    rw [first]
    exact step_of_refilling (by simp [Cpu.isRefilling, left])
  have moved : ∀ k : Core β, k.stepBubble.cpu.pc = k.cpu.pc + 4 := fun k => RegisterFile.pc_setPc
  rw [second]
  refine ⟨congrArg (· - 1) left, ?_, rfl⟩
  rw [moved, moved, UInt32.add_assoc]
  rfl

/-- Control transfers land exactly when no single transfer jumps by its base and is then left
standing: the step is heard to jump nowhere and goes on to the next word, or R15 is the target of the
last jump, with two bubbles ahead that bring the word there to where it executes. Any other step ends
one word past the target of its jump. -/
theorem step_lands_iff (cpu : Cpu) (bus : β) (settled : cpu.pipe.bubbles = 0) :
    let m : Core (Traced β) := ⟨cpu, Traced.start bus⟩
    let k := m.step
    k.map Traced.forget = (⟨cpu, bus⟩ : Core β).step ∧
    ((∀ op, cpu.due = some op → op.strands cpu.pipe.execute = false) ↔
      k.bus.jumps = [] ∧ k.cpu.pipe.bubbles = 0 ∧ k.cpu.pc = cpu.pc + 4 ∨
      k.bus.jumps.head? = some k.cpu.pc ∧ k.cpu.pipe.bubbles = 2 ∧
        k.step.step.cpu.pipe.bubbles = 0 ∧
        k.step.step.cpu.pipe.execute = (Bus.fetch32 k.cpu.pc k.bus.bus).1) ∧
    ∀ op, cpu.due = some op → op.strands cpu.pipe.execute = true →
      ∃ target, k.bus.jumps = [target] ∧ k.cpu.pipe.bubbles = 2 ∧ k.cpu.pc = target + 4 := by
  intro m k
  have hr : m.cpu.isRefilling = false := by simp [m, Cpu.isRefilling, settled]
  have past : ∀ op, cpu.due = some op → op.strands cpu.pipe.execute = true → Overshoots m k :=
    fun op hd => step_overshoots (m := m) hd
  refine ⟨(map_step Traced.forget m).symm, ⟨fun plain => ?_, fun lands op hd => ?_⟩, past⟩
  · cases step_arrives hr plain with
    | moved quiet bubbles pc => exact Or.inl ⟨quiet, bubbles.trans settled, pc⟩
    | jumped earlier heard refill =>
      obtain ⟨idle, _, executes⟩ := refilled k refill
      exact Or.inr ⟨congrArg List.head? heard, refill, idle, executes⟩
  · cases stranded : op.strands cpu.pipe.execute with
    | false => rfl
    | true =>
      obtain ⟨target, heard, _, pc⟩ := past op hd stranded
      obtain ⟨quiet, _⟩ | ⟨last, _⟩ := lands
      · simp [heard] at quiet
      · simp [heard, pc] at last

/-- A block load that writes its base back into R15 and lands on it. -/
theorem step_lands_block :
    let rom : Rom := ⟨fun _ => 0xE8BF0001⟩
    let m := (start (Traced.start rom)).run [.branch 0x1000, .step, .step]
    let k := (⟨m.cpu, Traced.start rom⟩ : Core (Traced Rom)).step
    m.cpu.pipe.bubbles = 0 ∧ k.bus.jumps = [0x1010] ∧ k.bus.jumps.head? = some k.cpu.pc := by
  intro rom m k
  have settled : m.cpu.pipe.bubbles = 0 := by decide +kernel
  have due : m.cpu.due = some .blockTransfer := by decide +kernel
  have jumps : k.bus.jumps = [0x1010] := by decide +kernel
  have plain : ∀ op, m.cpu.due = some op → op.strands m.cpu.pipe.execute = false := by
    intro op hd
    obtain rfl : Opcode.blockTransfer = op := Option.some.inj (due.symm.trans hd)
    rfl
  obtain ⟨quiet, _⟩ | ⟨last, _⟩ := (step_lands_iff m.cpu rom settled).2.1.mp plain
  · exact absurd (jumps.symm.trans quiet) (by decide)
  · exact ⟨settled, jumps, last⟩

/-- A store that writes its base back into R15 jumps to 0x100C and goes on at 0x1010. -/
theorem step_strands_store :
    let rom : Rom := ⟨fun _ => 0xE48F0004⟩
    let m := (start (Traced.start rom)).run [.branch 0x1000, .step, .step]
    let k := (⟨m.cpu, Traced.start rom⟩ : Core (Traced Rom)).step
    m.cpu.pipe.bubbles = 0 ∧ k.bus.jumps = [0x100C] ∧ k.cpu.pc = 0x1010 ∧
    ¬ (k.bus.jumps = [] ∧ k.cpu.pipe.bubbles = 0 ∧ k.cpu.pc = m.cpu.pc + 4 ∨
      k.bus.jumps.head? = some k.cpu.pc ∧ k.cpu.pipe.bubbles = 2) := by
  decide +kernel

end Core

end GbaArm
