import GbaArm.Proofs.DataProcessing

/-!
The multiply family against its reference: exact products of unsigned or signed operands modulo the
size of the result, the registers and flags that change, and the cycles that the multiplier takes.
-/
namespace GbaArm

namespace Opcode

variable {word : UInt32}

/-- No swap has bit 24 clear. -/
theorem ofMultiply_of_clear {high : UInt32} (clear : bit high 4 = false) :
    ofMultiply high =
      if bit high 3 then multiplyLong (bit high 2) (bit high 1) (bit high 0)
      else if bit high 2 then undefined
      else multiply (bit high 1) (bit high 0) := by
  have word : high ≠ 0x10 := by
    rintro rfl
    exact absurd clear (by decide)
  have byte : high ≠ 0x14 := by
    rintro rfl
    exact absurd clear (by decide)
  rw [ofMultiply, if_neg word, if_neg byte, clear]
  rfl

theorem ofWord_multiplies (form : word &&& 0x0F0000F0 = 0x00000090) :
    ofWord word =
      if bit word 23 then multiplyLong (bit word 22) (bit word 21) (bit word 20)
      else if bit word 22 then undefined
      else multiply (bit word 21) (bit word 20) := by
  have bits : ∀ n k : UInt32, n.toNat < 8 → k.toNat = n.toNat + 20 →
      bit (high (classOf word)) n = bit word k := fun _ _ => bit_high word
  have clear : bit (high (classOf word)) 4 = false :=
    (bits 4 24 (by decide) rfl).trans (bit_of_masked form 24 (by decide))
  have top : ((classOf word >>> 4) &&& 0xFF) >>> 5 = 0 :=
    (top_eq word).trans (field_of_masked form 25 7 (by decide))
  have low : classOf word &&& 0xF = 9 :=
    (low_eq word).trans (field_of_masked form 4 0xF (by decide))
  have decoded : ofWord word = ofMultiply (high (classOf word)) := by
    unfold ofWord ofClass
    dsimp only
    rw [top, low]
    rfl
  rw [decoded, ofMultiply_of_clear clear, bits 3 23 (by decide) rfl, bits 2 22 (by decide) rfl,
    bits 1 21 (by decide) rfl, bits 0 20 (by decide) rfl]

/-- MUL and MLA. -/
theorem ofWord_multiply (form : word &&& 0x0FC000F0 = 0x00000090) :
    ofWord word = .multiply (bit word 21) (bit word 20) := by
  have long : bit word 23 = false := bit_of_masked form 23 (by decide)
  have sign : bit word 22 = false := bit_of_masked form 22 (by decide)
  rw [ofWord_multiplies (masked_of_masked form 0x0F0000F0 (by decide)), long, sign]
  rfl

/-- UMULL, UMLAL, SMULL and SMLAL. -/
theorem ofWord_multiplyLong (form : word &&& 0x0F8000F0 = 0x00800090) :
    ofWord word = .multiplyLong (bit word 22) (bit word 21) (bit word 20) := by
  have long : bit word 23 = true := bit_of_masked form 23 (by decide)
  rw [ofWord_multiplies (masked_of_masked form 0x0F0000F0 (by decide)), long]
  rfl

end Opcode

/-- From byte `k` up there are only zeros, or only ones in an operand with a sign. -/
def Negligible (isSigned : Bool) (w : UInt32) (k : Nat) : Prop :=
  (∀ i, 8 * k ≤ i → i < 32 → w.toBitVec.getLsbD i = false) ∨
  isSigned = true ∧ ∀ i, 8 * k ≤ i → i < 32 → w.toBitVec.getLsbD i = true

/-- The least number of low bytes, and at least one, above which the operand is negligible. -/
structure Significant (isSigned : Bool) (w : UInt32) (k : Nat) : Prop where
  least : 1 ≤ k
  most : k ≤ 4
  negligible : Negligible isSigned w k
  needed : ∀ j, 1 ≤ j → j < k → ¬ Negligible isSigned w j

section
variable {w mask : UInt32} {low : Nat}

/-- A mask of all bits from `low` up. -/
theorem getLsbD_masked (high : ∀ i < 32, mask.toBitVec.getLsbD i = decide (low ≤ i)) {i : Nat}
    (hi : i < 32) :
    (w &&& mask).toBitVec.getLsbD i = (w.toBitVec.getLsbD i && decide (low ≤ i)) := by
  rw [UInt32.toBitVec_and, BitVec.getLsbD_and, high i hi]

theorem masked_eq_zero (high : ∀ i < 32, mask.toBitVec.getLsbD i = decide (low ≤ i)) :
    w &&& mask = 0 ↔ ∀ i, low ≤ i → i < 32 → w.toBitVec.getLsbD i = false := by
  constructor
  · intro zero i above hi
    have clear := getLsbD_masked (w := w) high hi
    rw [zero, decide_eq_true above, Bool.and_true] at clear
    exact clear.symm.trans (BitVec.getLsbD_zero)
  · intro clear
    refine eq_of_bits fun i hi => ?_
    rw [getLsbD_masked high hi]
    by_cases above : low ≤ i
    · rw [clear i above hi]
      exact BitVec.getLsbD_zero.symm
    · rw [decide_eq_false above, Bool.and_false]
      exact BitVec.getLsbD_zero.symm

theorem masked_eq_mask (high : ∀ i < 32, mask.toBitVec.getLsbD i = decide (low ≤ i)) :
    w &&& mask = mask ↔ ∀ i, low ≤ i → i < 32 → w.toBitVec.getLsbD i = true := by
  constructor
  · intro same i above hi
    have set := getLsbD_masked (w := w) high hi
    rw [same, high i hi, decide_eq_true above, Bool.and_true] at set
    exact set.symm
  · intro set
    refine eq_of_bits fun i hi => ?_
    rw [getLsbD_masked high hi, high i hi]
    by_cases above : low ≤ i
    · rw [set i above hi, Bool.true_and]
    · rw [decide_eq_false above, Bool.and_false]

theorem insignificant_iff {isSigned : Bool} {k : Nat}
    (high : ∀ i < 32, mask.toBitVec.getLsbD i = decide (8 * k ≤ i)) :
    (w &&& mask == 0 || (isSigned && w &&& mask == mask)) = true ↔ Negligible isSigned w k := by
  rw [Bool.or_eq_true, Bool.and_eq_true, beq_iff_eq, beq_iff_eq, masked_eq_zero high,
    masked_eq_mask high, Negligible]

end

theorem Negligible.mono {isSigned : Bool} {w : UInt32} {j k : Nat} (h : Negligible isSigned w j)
    (more : j ≤ k) : Negligible isSigned w k :=
  h.imp (fun clear i above => clear i (by omega))
    fun ⟨signs, set⟩ => ⟨signs, fun i above => set i (by omega)⟩

theorem significant_succ {isSigned : Bool} {w : UInt32} {k : Nat} (small : k < 4)
    (before : ¬ Negligible isSigned w k) (now : Negligible isSigned w (k + 1)) :
    Significant isSigned w (k + 1) :=
  ⟨Nat.le_add_left 1 k, small, now, fun _ _ less h => before (h.mono (Nat.le_of_lt_succ less))⟩

/-- The masks are tried from the longest down, so the first that fits is the least. -/
theorem significant_multiplierCycles (w : UInt32) (isSigned : Bool) :
    Significant isSigned w (Core.multiplierCycles w isSigned) := by
  have one : (w &&& 0xFFFFFF00 == 0 || (isSigned && w &&& 0xFFFFFF00 == 0xFFFFFF00)) = true ↔
      Negligible isSigned w 1 := insignificant_iff (by decide)
  have two : (w &&& 0xFFFF0000 == 0 || (isSigned && w &&& 0xFFFF0000 == 0xFFFF0000)) = true ↔
      Negligible isSigned w 2 := insignificant_iff (by decide)
  have three : (w &&& 0xFF000000 == 0 || (isSigned && w &&& 0xFF000000 == 0xFF000000)) = true ↔
      Negligible isSigned w 3 := insignificant_iff (by decide)
  have four : Negligible isSigned w 4 := .inl fun i above below => by omega
  unfold Core.multiplierCycles
  extract_lets insignificant
  split
  · next first => exact ⟨by decide, by decide, one.mp first, fun j _ _ => by omega⟩
  · next first =>
    split
    · next second => exact significant_succ (by decide) (mt one.mpr first) (two.mp second)
    · next second =>
      split
      · next third =>
        exact significant_succ (by decide) (mt two.mpr second) (three.mp third)
      · next third => exact significant_succ (by decide) (mt three.mpr third) four

/-- A word as a factor. -/
def factor (isSigned : Bool) (w : UInt32) : Int := if isSigned then signed w else w.toNat

theorem toNat_join (high low : UInt32) :
    (join high low).toNat = high.toNat * UInt32.size + low.toNat := by
  have inner : low.toNat < 2 ^ 32 := low.toNat_lt
  have outer := high.toNat_lt
  have shifted : (high.toUInt64 <<< 32).toNat = high.toNat <<< 32 := by
    rw [UInt64.toNat_shiftLeft, UInt32.toNat_toUInt64]
    refine Nat.mod_eq_of_lt ?_
    rw [Nat.shiftLeft_eq]
    exact Nat.mul_lt_mul_of_pos_right outer (by decide)
  rw [join, UInt64.toNat_or, shifted, UInt32.toNat_toUInt64, ← Nat.shiftLeft_add_eq_or_of_lt inner,
    Nat.shiftLeft_eq]

theorem toNat_signExtend64 (w : UInt32) : ((signExtend64 w).toNat : Int) = signed w % UInt64.size := by
  have extended : (signExtend64 w).toBitVec.toInt = signed w := Int32.toInt_toInt64 _
  have := (signExtend64 w).toNat_lt
  rw [BitVec.toInt_eq_toNat_cond, UInt64.toNat_toBitVec] at extended
  rw [← extended, UInt64.size]
  split <;> omega

/-- The exact product modulo the size of a double word. -/
theorem toNat_product (isSigned : Bool) (a b : UInt32) :
    ((if isSigned then signExtend64 a * signExtend64 b else a.toUInt64 * b.toUInt64).toNat : Int) =
      factor isSigned a * factor isSigned b % UInt64.size := by
  cases isSigned with
  | false =>
    rw [if_neg Bool.false_ne_true, UInt64.toNat_mul, UInt32.toNat_toUInt64, UInt32.toNat_toUInt64]
    exact Int.natCast_emod ..
  | true =>
    rw [if_pos rfl, UInt64.toNat_mul, Int.natCast_emod, Int.natCast_mul, toNat_signExtend64,
      toNat_signExtend64]
    exact (Int.mul_emod ..).symm

theorem toNat_highHalf (x : UInt64) : (x >>> 32).toUInt32.toNat = x.toNat / UInt32.size := by
  have := x.toNat_lt
  rw [UInt64.toNat_toUInt32, UInt64.toNat_shiftRight, Nat.shiftRight_eq_div_pow, UInt32.size]
  show x.toNat / 0x100000000 % 0x100000000 = _
  omega

theorem toNat_lowHalf (x : UInt64) : x.toUInt32.toNat = x.toNat % UInt32.size :=
  UInt64.toNat_toUInt32 x

namespace Flags

variable (f : Flags)

theorem n_eq (word : UInt32) (same : f.negative = word) :
    f.n = decide (0x80000000 ≤ word.toNat) := by
  rw [n, same]
  exact (masked_sign word).trans (msb_eq word)

theorem c_of_zero (clear : f.carry = 0) : f.c = false := by
  rw [c, clear]
  rfl

theorem shortProduct (result : UInt32) :
    let g := f.clearCarry.setNZ result
    g.n = decide (0x80000000 ≤ result.toNat) ∧ g.z = decide (result.toNat = 0) ∧ g.c = false ∧
    g.v = f.v := by
  have zero : (result == 0) = decide (result.toNat = 0) := by
    rw [Bool.eq_iff_iff, beq_iff_eq, decide_eq_true_iff]
    exact UInt32.toNat_inj.symm
  exact ⟨n_eq _ result rfl, zero, c_of_zero _ rfl, rfl⟩

/-- The sign is in the high half, and both halves tell of zero. -/
theorem longProduct (result : UInt64) :
    let high := (result >>> 32).toUInt32
    let g := (f.clearCarry.setNegative high).setZero (high ||| result.toUInt32)
    g.n = decide (0x8000000000000000 ≤ result.toNat) ∧ g.z = decide (result.toNat = 0) ∧
    g.c = false ∧ g.v = f.v := by
  intro high g
  have upper : high.toNat = result.toNat / UInt32.size := toNat_highHalf result
  have lower := toNat_lowHalf result
  have sign : g.n = decide (0x8000000000000000 ≤ result.toNat) := by
    rw [n_eq g high rfl, decide_eq_decide]
    rw [UInt32.size] at upper
    omega
  have zero : (high ||| result.toUInt32 == 0) = decide (result.toNat = 0) := by
    rw [Bool.eq_iff_iff, beq_iff_eq, decide_eq_true_iff, UInt32.or_eq_zero_iff, ← UInt32.toNat_inj,
      ← UInt32.toNat_inj, UInt32.toNat_zero, upper, lower, UInt32.size]
    omega
  exact ⟨sign, zero, c_of_zero _ rfl, rfl⟩

end Flags

/-- What a multiply makes of a processor `c`: in the bank in view each register takes what it is given
and keeps its value if that is nothing, and with the S bit the flags tell of the whole result. -/
structure Multiplied (setFlags negative zero : Bool) (taken : Nat → Option UInt32) (c k : Cpu) :
    Prop where
  /-- R15 is not among the registers that take a part of the result. -/
  cell : ∀ bank, ∀ n < 15, k.cell bank n =
    if bank = (Bank.ofMode c.mode).owner n then (taken n).getD (c.cell bank n) else c.cell bank n
  saved : k.regs.saved = c.regs.saved
  pc : k.pc = c.pc + 4
  kept : setFlags = false → k.flags = c.flags
  set : setFlags = true →
    k.flags.n = negative ∧ k.flags.z = zero ∧ k.flags.c = false ∧ k.flags.v = c.flags.v
  rest : ∃ regs flags, k = { c with regs, flags }

/-- R15 takes no part of a product. -/
def Cpu.writeProduct (c : Cpu) (n : Nat) (value : UInt32) : Cpu :=
  if n = 15 then c else c.writeReg n value

section
variable {setFlags negative zero : Bool} {taken : Nat → Option UInt32} {c k : Cpu}

theorem multiplied_computed {flags : Flags} (kept : setFlags = false → flags = c.flags)
    (set : setFlags = true →
      flags.n = negative ∧ flags.z = zero ∧ flags.c = false ∧ flags.v = c.flags.v) :
    Multiplied setFlags negative zero (fun _ => none) c (c.computed flags) where
  cell bank n hn := by
    rw [c.cell_computed flags hn]
    exact (ite_self _).symm
  saved := rfl
  pc := c.pc_computed flags
  kept := kept
  set := set
  rest := ⟨c.advancePc.regs, flags, rfl⟩

theorem Multiplied.mode (h : Multiplied setFlags negative zero taken c k) : k.mode = c.mode := by
  obtain ⟨regs, flags, rfl⟩ := h.rest
  rfl

/-- Of two parts for one register the later stays. -/
theorem Multiplied.write (h : Multiplied setFlags negative zero taken c k) {r : Nat} (hr : r < 16)
    (value : UInt32) :
    Multiplied setFlags negative zero (fun n => if n = r then some value else taken n) c
      (k.writeProduct r value) := by
  obtain ⟨regs, flags, same⟩ := h.rest
  rw [Cpu.writeProduct]
  split
  · next outer =>
    have other : ∀ n < 15, ¬ n = r := fun n hn => by omega
    exact { h with
      cell := fun bank n hn => by
        rw [h.cell bank n hn, if_neg (other n hn)]
      rest := h.rest }
  · next inner =>
    have low : r < 15 := by omega
    exact {
      cell := fun bank n hn => by
        rw [Cpu.cell_writeReg low (by omega), h.mode, h.cell bank n hn]
        by_cases view : bank = (Bank.ofMode c.mode).owner n
        · by_cases here : n = r <;> simp [view, here]
        · simp [view]
      saved := h.saved
      pc := (RegisterFile.pc_write low).trans h.pc
      kept := h.kept
      set := h.set
      rest := ⟨regs.write r value, flags, by rw [same]; rfl⟩ }

end

namespace Core

variable {β : Type} (m : Core β) (word : UInt32) (accumulate setFlags : Bool)

theorem writeProductHigh_eq (value : UInt32) :
    m.writeProductHigh word value = ⟨m.cpu.advancePc.writeProduct (Field.rn word) value, m.bus⟩ := by
  unfold writeProductHigh Cpu.writeProduct
  split <;> rfl

theorem writeProductLow_eq (value : UInt32) :
    m.writeProductLow word value = ⟨m.cpu.writeProduct (Field.rd word) value, m.bus⟩ := by
  unfold writeProductLow Cpu.writeProduct
  split <;> rfl

theorem setFlags_writeProductHigh (change : Flags → Flags) (value : UInt32) :
    (if setFlags then m.onCpu fun c => { c with flags := change c.flags } else m).writeProductHigh
        word value =
      ⟨(m.cpu.computed (if setFlags then change m.cpu.flags else m.cpu.flags)).writeProduct
        (Field.rn word) value, m.bus⟩ := by
  rw [writeProductHigh_eq]
  cases setFlags <;> rfl

/-- Nothing is multiplied where the destination is the first operand. -/
def shortResult : UInt32 :=
  let regs := m.cpu.regs
  let product :=
    if Field.rn word = Field.rm word then 0
    else regs.read (Field.rm word) * regs.read (Field.rs word)
  if accumulate then product + regs.read (Field.rd word) else product

def longResult (isSigned : Bool) : UInt64 :=
  let regs := m.cpu.regs
  let a := regs.read (Field.rm word)
  let b := regs.read (Field.rs word)
  (if isSigned then signExtend64 a * signExtend64 b else a.toUInt64 * b.toUInt64) +
    if accumulate then join (regs.read (Field.rn word)) (regs.read (Field.rd word)) else 0

variable [Bus β]

theorem multiply_eq :
    let result := m.shortResult word accumulate
    let flags := if setFlags then m.cpu.flags.clearCarry.setNZ result else m.cpu.flags
    let cycles := multiplierCycles (m.cpu.regs.read (Field.rs word)) true + accumulate.toNat
    m.multiply word accumulate setFlags =
      ⟨(m.cpu.computed flags).writeProduct (Field.rn word) result,
        if Field.rn word = Field.rm word then m.bus else Bus.internalCycles m.cpu.pc cycles m.bus⟩ := by
  unfold multiply shortResult
  by_cases aliased : Field.rn word = Field.rm word
  · simp only [if_pos aliased]
    exact setFlags_writeProductHigh m word setFlags (fun f => f.clearCarry.setNZ _) _
  · simp only [if_neg aliased]
    exact setFlags_writeProductHigh (m.product32 _ _ accumulate).2 word setFlags
      (fun f => f.clearCarry.setNZ _) _

theorem multiplyLong_eq (isSigned : Bool) :
    let result := m.longResult word accumulate isSigned
    let high := (result >>> 32).toUInt32
    let low := result.toUInt32
    let flags :=
      if setFlags then (m.cpu.flags.clearCarry.setNegative high).setZero (high ||| low)
      else m.cpu.flags
    let cycles :=
      multiplierCycles (m.cpu.regs.read (Field.rs word)) isSigned + 1 + accumulate.toNat
    m.multiplyLong word isSigned accumulate setFlags =
      ⟨((m.cpu.computed flags).writeProduct (Field.rn word) high).writeProduct (Field.rd word) low,
        Bus.internalCycles m.cpu.pc cycles m.bus⟩ := by
  have ended : ∀ (k : Core β) (high low : UInt32),
      ((if setFlags then k.onCpu fun c =>
          { c with flags := (c.flags.clearCarry.setNegative high).setZero (high ||| low) }
        else k).writeProductHigh word high).writeProductLow word low =
      ⟨((k.cpu.computed (if setFlags then
          (k.cpu.flags.clearCarry.setNegative high).setZero (high ||| low)
        else k.cpu.flags)).writeProduct (Field.rn word) high).writeProduct (Field.rd word) low,
        k.bus⟩ := fun k high low => by
    rw [writeProductLow_eq, setFlags_writeProductHigh k word setFlags
      (fun f => (f.clearCarry.setNegative high).setZero (high ||| low))]
  unfold multiplyLong longResult
  let a := m.cpu.regs.read (Field.rm word)
  let b := m.cpu.regs.read (Field.rs word)
  cases accumulate with
  | false => exact ended (m.product64 a b isSigned none).2 _ _
  | true => exact ended (m.product64 a b isSigned (some _)).2 _ _

variable {m word accumulate setFlags}

omit [Bus β] in
theorem toNat_shortResult :
    let read := fun n => (m.cpu.regs.read n).toNat
    (m.shortResult word accumulate).toNat =
      ((if Field.rn word = Field.rm word then 0
        else read (Field.rm word) * read (Field.rs word)) +
        if accumulate then read (Field.rd word) else 0) % UInt32.size := by
  intro read
  have product : (if Field.rn word = Field.rm word then (0 : UInt32)
      else m.cpu.regs.read (Field.rm word) * m.cpu.regs.read (Field.rs word)).toNat =
      (if Field.rn word = Field.rm word then 0
        else read (Field.rm word) * read (Field.rs word)) % UInt32.size := by
    split
    · rfl
    · exact UInt32.toNat_mul ..
  unfold shortResult
  cases accumulate with
  | false => exact product
  | true =>
    refine (UInt32.toNat_add ..).trans ?_
    rw [product]
    exact Nat.mod_add_mod ..

omit [Bus β] in
theorem toNat_longResult (isSigned : Bool) :
    let regs := m.cpu.regs
    let old := (regs.read (Field.rn word)).toNat * UInt32.size + (regs.read (Field.rd word)).toNat
    ((m.longResult word accumulate isSigned).toNat : Int) =
      (factor isSigned (regs.read (Field.rm word)) * factor isSigned (regs.read (Field.rs word)) +
        if accumulate then (old : Int) else 0) % UInt64.size := by
  intro regs old
  have product := toNat_product isSigned (regs.read (Field.rm word)) (regs.read (Field.rs word))
  have sum : ((if accumulate then join (regs.read (Field.rn word)) (regs.read (Field.rd word))
      else 0).toNat : Int) = if accumulate then (old : Int) else 0 := by
    cases accumulate with
    | false => rfl
    | true => exact congrArg Nat.cast (toNat_join _ _)
  unfold longResult
  rw [UInt64.toNat_add, Int.natCast_emod, Int.natCast_add, product, sum]
  exact Int.emod_add_emod ..

theorem execute_short (m : Core β) {word : UInt32} (form : word &&& 0x0FC000F0 = 0x00000090) :
    let k := m.execute word (Opcode.ofWord word)
    let value := (m.shortResult word (bit word 21)).toNat
    Multiplied (bit word 20) (decide (0x80000000 ≤ value)) (decide (value = 0))
      (fun n => if n = Field.rn word then some (UInt32.ofNat value) else none) m.cpu k.cpu ∧
    ∃ cycles, Significant true (m.cpu.regs.read (Field.rs word)) cycles ∧
      k.bus = if Field.rn word = Field.rm word then m.bus
        else Bus.internalCycles m.cpu.pc (cycles + (bit word 21).toNat) m.bus := by
  intro k value
  have executed : k = m.multiply word (bit word 21) (bit word 20) := by
    show m.execute word (Opcode.ofWord word) = _
    rw [Opcode.ofWord_multiply form]
    rfl
  have destination : Field.rn word < 16 := Field.lt_sixteen _
  rw [executed, multiply_eq]
  refine ⟨?_, _, significant_multiplierCycles _ true, rfl⟩
  rw [UInt32.ofNat_toNat]
  refine Multiplied.write (multiplied_computed ?_ ?_) destination _
  · intro plain
    rw [plain]
    rfl
  · intro sets
    rw [sets]
    exact m.cpu.flags.shortProduct _

theorem execute_long (m : Core β) {word : UInt32} (form : word &&& 0x0F8000F0 = 0x00800090) :
    let k := m.execute word (Opcode.ofWord word)
    let result := m.longResult word (bit word 21) (bit word 22)
    Multiplied (bit word 20) (decide (0x8000000000000000 ≤ result.toNat)) (decide (result.toNat = 0))
      (fun n =>
        if n = Field.rd word then some result.toUInt32
        else if n = Field.rn word then some (result >>> 32).toUInt32
        else none) m.cpu k.cpu ∧
    ∃ cycles, Significant (bit word 22) (m.cpu.regs.read (Field.rs word)) cycles ∧
      k.bus = Bus.internalCycles m.cpu.pc (cycles + 1 + (bit word 21).toNat) m.bus := by
  intro k result
  have executed : k = m.multiplyLong word (bit word 22) (bit word 21) (bit word 20) := by
    show m.execute word (Opcode.ofWord word) = _
    rw [Opcode.ofWord_multiplyLong form]
    rfl
  have upper : Field.rn word < 16 := Field.lt_sixteen _
  have lower : Field.rd word < 16 := Field.lt_sixteen _
  rw [executed, multiplyLong_eq]
  refine ⟨?_, _, significant_multiplierCycles _ _, rfl⟩
  refine ((multiplied_computed ?_ ?_).write upper _).write lower _
  · intro plain
    rw [plain]
    rfl
  · intro sets
    rw [sets]
    exact m.cpu.flags.longProduct _

/-- MUL and MLA leave the product of Rm and Rs, or nothing where Rd is Rm, plus the accumulator, modulo
the size of a word; the long forms leave the product of unsigned or of signed operands, plus what RdHi
and RdLo held, modulo the size of a double word. Of the result and the flags nothing else changes, and
R15 moves on. The multiplier takes a cycle for every byte of Rs that signifies, one more to add and one
more for a long product. -/
theorem execute_multiplies (m : Core β) (word : UInt32) :
    let c := m.cpu
    let read := c.regs.read
    let k := m.execute word (Opcode.ofWord word)
    let accumulate := bit word 21
    let setFlags := bit word 20
    (word &&& 0x0FC000F0 = 0x00000090 →
      let product :=
        if Field.rn word = Field.rm word then 0
        else (read (Field.rm word)).toNat * (read (Field.rs word)).toNat
      let value :=
        (product + if accumulate then (read (Field.rd word)).toNat else 0) % UInt32.size
      Multiplied setFlags (decide (0x80000000 ≤ value)) (decide (value = 0))
        (fun n => if n = Field.rn word then some (UInt32.ofNat value) else none) c k.cpu ∧
      ∃ cycles, Significant true (read (Field.rs word)) cycles ∧
        k.bus = if Field.rn word = Field.rm word then m.bus
          else Bus.internalCycles c.pc (cycles + accumulate.toNat) m.bus) ∧
    (word &&& 0x0F8000F0 = 0x00800090 →
      let isSigned := bit word 22
      let old := (read (Field.rn word)).toNat * UInt32.size + (read (Field.rd word)).toNat
      let product := factor isSigned (read (Field.rm word)) * factor isSigned (read (Field.rs word))
      let value := (product + if accumulate then (old : Int) else 0) % UInt64.size
      ∃ high low : UInt32, (high.toNat * UInt32.size + low.toNat : Int) = value ∧
        Multiplied setFlags (decide (0x8000000000000000 ≤ value)) (decide (value = 0))
          (fun n =>
            if n = Field.rd word then some low else if n = Field.rn word then some high else none)
          c k.cpu ∧
        ∃ cycles, Significant isSigned (read (Field.rs word)) cycles ∧
          k.bus = Bus.internalCycles c.pc (cycles + 1 + accumulate.toNat) m.bus) := by
  intro c read k accumulate setFlags
  refine ⟨fun form => ?_, fun form => ?_⟩
  · intro product value
    have same : (m.shortResult word (bit word 21)).toNat = value := toNat_shortResult
    have done := execute_short m form
    simp only [same] at done
    exact done
  · intro isSigned old product value
    have same : ((m.longResult word (bit word 21) (bit word 22)).toNat : Int) = value :=
      toNat_longResult isSigned
    obtain ⟨done, cycles, significant, bus⟩ := execute_long m form
    generalize m.longResult word (bit word 21) (bit word 22) = result at same done
    have split : (result >>> 32).toUInt32.toNat * UInt32.size + result.toUInt32.toNat =
        result.toNat := by
      rw [toNat_highHalf, toNat_lowHalf]
      exact Nat.div_add_mod' ..
    have sign : decide (0x8000000000000000 ≤ result.toNat) = decide (0x8000000000000000 ≤ value) := by
      rw [← same, decide_eq_decide]
      omega
    have zero : decide (result.toNat = 0) = decide (value = 0) := by
      rw [← same, decide_eq_decide]
      omega
    rw [sign, zero] at done
    exact ⟨_, _, by exact_mod_cast (congrArg Nat.cast split).trans same, done, cycles, significant, bus⟩

/-- MLAS R1, R2, R3, R0, whose product is a multiple of the word size, and SMLALS R1, R1, R3, R4, which
adds the product of two negative factors to -1 and keeps the low half. -/
theorem execute_multiplies_aliased :
    let file := (((RegisterFile.zeroed.write 0 7).write 1 0xFFFFFFFF).write 2 0x10000).write 3 0xFFFF0000
    let m : Core Rom := ⟨{ Cpu.initial with regs := file.write 4 0xFFFFFF80 }, ⟨fun _ => 0⟩⟩
    let short := (m.execute 0xE0310392 (Opcode.ofWord 0xE0310392)).cpu
    let long := (m.execute 0xE0F11493 (Opcode.ofWord 0xE0F11493)).cpu
    0xE0310392 &&& (0x0FC000F0 : UInt32) = 0x00000090 ∧ short.cell .user 1 = 7 ∧ short.pc = 4 ∧
    short.flags.n = false ∧ short.flags.z = false ∧
    0xE0F11493 &&& (0x0F8000F0 : UInt32) = 0x00800090 ∧ long.cell .user 1 = 0x7FFFFF ∧
    long.pc = 4 ∧ long.flags.n = false ∧ long.flags.z = false := by
  intro file m short long
  have form : 0xE0310392 &&& (0x0FC000F0 : UInt32) = 0x00000090 := by decide
  have form' : 0xE0F11493 &&& (0x0F8000F0 : UInt32) = 0x00800090 := by decide
  obtain ⟨done, -⟩ := (execute_multiplies m 0xE0310392).1 form
  obtain ⟨high, low, value, done', -⟩ := (execute_multiplies m 0xE0F11493).2 form'
  have flags := done.set (by decide)
  have flags' := done'.set (by decide)
  have number : (high.toNat * UInt32.size + low.toNat : Int) = 0x7FFFFF :=
    value.trans (by decide +kernel)
  have lowest : low = 0x7FFFFF := by
    have := low.toNat_lt
    rw [UInt32.size] at number
    exact UInt32.toNat_inj.mp (show low.toNat = 0x7FFFFF by omega)
  have view : Bank.user = (Bank.ofMode m.cpu.mode).owner 1 := by decide
  have lower : 1 = Field.rd 0xE0F11493 := by decide
  have taken : long.cell .user 1 = low := by
    rw [done'.cell .user 1 (by decide), if_pos view, if_pos lower]
    rfl
  exact ⟨form, (done.cell .user 1 (by decide)).trans (by decide +kernel), done.pc.trans (by decide),
    flags.1.trans (by decide +kernel), flags.2.1.trans (by decide +kernel), form', taken.trans lowest,
    done'.pc.trans (by decide), flags'.1.trans (by decide +kernel), flags'.2.1.trans (by decide +kernel)⟩

end Core

end GbaArm
