import GbaArm.Proofs.Bits
import GbaArm.Shift

/-! A shift by some amount is that many shifts by one place. -/
namespace GbaArm

theorem toNat_ne_zero {n : UInt32} (moved : n ≠ 0) : n.toNat ≠ 0 :=
  fun h => moved (UInt32.toNat_inj.mp h)

theorem toNat_pred {n : UInt32} (moved : n ≠ 0) : (n - 1).toNat = n.toNat - 1 :=
  UInt32.toNat_sub_of_le _ _ (Nat.one_le_iff_ne_zero.mpr (toNat_ne_zero moved))

section
variable (w : UInt32) {n : UInt32} (i : Nat)

theorem bit_eq (hn : n.toNat < 32) : bit w n = w.toBitVec.getLsbD n.toNat := by
  have shifted : w.toBitVec.getLsbD n.toNat = (w >>> n).toBitVec.getLsbD 0 := by
    rw [UInt32.toBitVec_shiftRight, BitVec.ushiftRight_eq', BitVec.getLsbD_ushiftRight,
      BitVec.toNat_umod]
    exact congrArg w.toBitVec.getLsbD (Nat.mod_eq_of_lt hn).symm
  have last : ∀ v : UInt32, (v &&& 1 != 0) = v.toBitVec.getLsbD 0 := by
    intro v
    have masked : (v &&& 1).toBitVec = if v.toBitVec.getLsbD 0 then 1#32 else 0#32 :=
      BitVec.and_twoPow v.toBitVec 0
    rw [bne, Bool.not_eq_eq_eq_not, Bool.eq_iff_iff, beq_iff_eq, ← UInt32.toBitVec_inj, masked]
    cases v.toBitVec.getLsbD 0 <;> simp
  rw [bit, last, shifted]

theorem getLsbD_shiftRight (hn : n.toNat < 32) :
    (w >>> n).toBitVec.getLsbD i = w.toBitVec.getLsbD (i + n.toNat) := by
  rw [UInt32.toBitVec_shiftRight, BitVec.ushiftRight_eq', BitVec.getLsbD_ushiftRight,
    BitVec.toNat_umod, Nat.add_comm]
  exact congrArg (fun k => w.toBitVec.getLsbD (i + k)) (Nat.mod_eq_of_lt hn)

theorem getLsbD_shiftLeft (hn : n.toNat < 32) (hi : i < 32) :
    (w <<< n).toBitVec.getLsbD i = (decide (n.toNat ≤ i) && w.toBitVec.getLsbD (i - n.toNat)) := by
  have amount : (n.toBitVec % 32).toNat = n.toNat := Nat.mod_eq_of_lt hn
  rw [UInt32.toBitVec_shiftLeft, BitVec.shiftLeft_eq', BitVec.getLsbD_shiftLeft, amount]
  by_cases h : n.toNat ≤ i <;> simp [hi, h]

/-- A field of a word is what a mask leaves of the word moved down. -/
theorem getLsbD_field (mask : UInt32) (hn : n.toNat < 32) :
    ((w >>> n) &&& mask).toBitVec.getLsbD i =
      (w.toBitVec.getLsbD (i + n.toNat) && mask.toBitVec.getLsbD i) := by
  rw [UInt32.toBitVec_and, BitVec.getLsbD_and, getLsbD_shiftRight _ _ hn]

theorem getLsbD_arithmeticShiftRight (hn : n.toNat < 32) (hi : i < 32) :
    (arithmeticShiftRight w n).toBitVec.getLsbD i = w.toBitVec.getLsbD (min (i + n.toNat) 31) := by
  have positive : n.toBitVec.msb = false := by
    rw [BitVec.msb_eq_decide]
    exact decide_eq_false (by rw [UInt32.toNat_toBitVec]; omega)
  have amount : (n.toBitVec.smod 32).toNat = n.toNat := by
    rw [BitVec.smod_eq, positive]
    exact Nat.mod_eq_of_lt hn
  rw [arithmeticShiftRight, Int32.toBitVec_toUInt32, Int32.toBitVec_shiftRight,
    UInt32.toBitVec_toInt32, UInt32.toBitVec_toInt32, BitVec.sshiftRight', amount,
    BitVec.getLsbD_sshiftRight]
  by_cases h : n.toNat + i < 32
  · rw [if_pos h, Nat.min_eq_left (by omega), Nat.add_comm]
    simp [hi]
  · rw [if_neg h, Nat.min_eq_right (by omega)]
    simp [hi, BitVec.msb_eq_getLsbD_last]

theorem getLsbD_rotateRight (hn : n.toNat < 32) (hi : i < 32) :
    (rotateRight w n).toBitVec.getLsbD i = w.toBitVec.getLsbD ((i + n.toNat) % 32) := by
  rw [rotateRight, UInt32.toBitVec_or, BitVec.getLsbD_or, getLsbD_shiftRight w i hn]
  by_cases h0 : n.toNat = 0
  · obtain rfl : n = 0 := UInt32.toNat_inj.mp h0
    have still : w <<< (32 - 0 : UInt32) = w := by
      apply UInt32.toBitVec_inj.mp
      rw [UInt32.toBitVec_shiftLeft]
      exact BitVec.shiftLeft_zero _
    rw [still, h0, Nat.add_zero, Nat.mod_eq_of_lt hi, Bool.or_self]
  · have rest : (32 - n).toNat = 32 - n.toNat := UInt32.toNat_sub_of_le _ _ (by
      rw [UInt32.le_iff_toNat_le]
      exact Nat.le_of_lt hn)
    rw [getLsbD_shiftLeft w i (by omega) hi, rest]
    by_cases h : i + n.toNat < 32
    · rw [Nat.mod_eq_of_lt h, decide_eq_false (by omega), Bool.false_and, Bool.or_false]
    · rw [BitVec.getLsbD_of_ge _ _ (by omega), decide_eq_true (by omega), Bool.true_and,
        Bool.false_or, show (i + n.toNat) % 32 = i - (32 - n.toNat) by omega]

end

namespace ShiftKind

/-- The word after a shift by one place. -/
def once (w : UInt32) : ShiftKind → UInt32
  | lsl => w <<< 1
  | lsr => w >>> 1
  | asr => (w >>> 1) ||| (w &&& 0x80000000)
  | ror => (w >>> 1) ||| (w <<< 31)

/-- The bit that a shift by one place pushes out. -/
def pushedOut (w : UInt32) : ShiftKind → Bool
  | lsl => bit w 31
  | lsr | asr | ror => bit w 0

/-- The word after a number of shifts by one place, and the bit that the last of them pushes out. -/
def repeated (kind : ShiftKind) (w : UInt32) : Nat → Shifted
  | 0 => ⟨w, none⟩
  | n + 1 =>
    let before := (kind.repeated w n).value
    ⟨kind.once before, some (kind.pushedOut before)⟩

/-- Where bit `i` comes from in a shift by `n` places. -/
def source (w : UInt32) (n i : Nat) : ShiftKind → Bool
  | lsl => decide (n ≤ i) && w.toBitVec.getLsbD (i - n)
  | lsr => w.toBitVec.getLsbD (i + n)
  | asr => w.toBitVec.getLsbD (min (i + n) 31)
  | ror => w.toBitVec.getLsbD ((i + n) % 32)

variable (kind : ShiftKind) (w : UInt32) {n i : Nat}

theorem getLsbD_once (hi : i < 32) : (kind.once w).toBitVec.getLsbD i = kind.source w 1 i := by
  have one : (1 : UInt32).toNat < 32 := by decide
  cases kind with
  | lsl => exact getLsbD_shiftLeft w i one hi
  | lsr => exact getLsbD_shiftRight w i one
  | asr =>
    have sign : (w &&& 0x80000000).toBitVec.getLsbD i =
        (w.toBitVec.getLsbD i && decide (i = 31)) := by
      rw [UInt32.toBitVec_and, BitVec.getLsbD_and]
      exact congrArg _ (getLsbD_bit31 i)
    rw [once, source, UInt32.toBitVec_or, BitVec.getLsbD_or, getLsbD_shiftRight w i one, sign]
    by_cases h : i = 31
    · subst h
      simp
    · rw [decide_eq_false h, Bool.and_false, Bool.or_false, Nat.min_eq_left (by omega)]
      rfl
  | ror => exact getLsbD_rotateRight w i one hi

/-- Single shifts add up. -/
theorem source_once {before : UInt32} (hi : i < 32)
    (earlier : ∀ j < 32, before.toBitVec.getLsbD j = kind.source w n j) :
    kind.source before 1 i = kind.source w (n + 1) i := by
  cases kind with
  | lsl =>
    have reach : (decide (1 ≤ i) && decide (n ≤ i - 1)) = decide (n + 1 ≤ i) := by
      rw [← Bool.decide_and, decide_eq_decide]
      omega
    rw [source, earlier _ (by omega), source, source, ← Bool.and_assoc, reach, Nat.sub_sub,
      Nat.add_comm 1 n]
  | lsr =>
    rw [source, source, Nat.add_comm n 1, ← Nat.add_assoc]
    by_cases h : i + 1 < 32
    · exact earlier _ h
    · rw [BitVec.getLsbD_of_ge _ _ (by omega), BitVec.getLsbD_of_ge _ _ (by omega)]
  | asr =>
    rw [source, earlier _ (by omega), source, source]
    congr 1
    omega
  | ror =>
    rw [source, earlier _ (by omega), source, source]
    congr 1
    omega

theorem getLsbD_repeated (hi : i < 32) :
    (kind.repeated w n).value.toBitVec.getLsbD i = kind.source w n i := by
  induction n generalizing i with
  | zero =>
    have last : i ≤ 31 := Nat.le_of_lt_succ hi
    cases kind <;> simp [repeated, source, Nat.mod_eq_of_lt hi, Nat.min_eq_left last]
  | succ n ih =>
    -- The last shift moves what the earlier ones left, so every bit of that is needed.
    rw [repeated, getLsbD_once _ _ hi]
    exact source_once kind w hi fun j hj => ih hj

/-- The bit that the last of some single shifts pushes out. -/
def lastOut (w : UInt32) (n : Nat) : ShiftKind → Bool
  | lsl => decide (n ≤ 32) && w.toBitVec.getLsbD (32 - n)
  | lsr => w.toBitVec.getLsbD (n - 1)
  | asr => w.toBitVec.getLsbD (min (n - 1) 31)
  | ror => w.toBitVec.getLsbD ((n - 1) % 32)

theorem pushedOut_repeated :
    kind.pushedOut (kind.repeated w n).value = kind.lastOut w (n + 1) := by
  cases kind with
  | lsl =>
    rw [pushedOut, bit_eq _ (by decide)]
    refine (getLsbD_repeated lsl w (by decide)).trans ?_
    have reach : decide (n ≤ 31) = decide (n + 1 ≤ 32) := decide_eq_decide.mpr (by omega)
    rw [lastOut, ← reach, show 32 - (n + 1) = 31 - n by omega]
    rfl
  | lsr | asr | ror =>
    rw [pushedOut, bit_eq _ (by decide)]
    refine (getLsbD_repeated _ w (by decide)).trans ?_
    rw [source, lastOut, Nat.add_sub_cancel, UInt32.toNat_zero, Nat.zero_add]

/-- What so many single shifts come to, as a condition on the word and the carry. -/
theorem eq_repeated {s : Shifted} (value : ∀ i < 32, s.value.toBitVec.getLsbD i = kind.source w n i)
    (carry : s.carry = if n = 0 then none else some (kind.lastOut w n)) :
    s = kind.repeated w n := by
  have same : s.value = (kind.repeated w n).value :=
    eq_of_bits fun i hi => (value i hi).trans (getLsbD_repeated kind w hi).symm
  have out : s.carry = (kind.repeated w n).carry := by
    cases n with
    | zero => exact carry
    | succ n =>
      rw [carry, if_neg (Nat.succ_ne_zero n), ← pushedOut_repeated]
      rfl
  calc s = ⟨s.value, s.carry⟩ := rfl
    _ = ⟨(kind.repeated w n).value, (kind.repeated w n).carry⟩ := by rw [same, out]

section
variable {amount : UInt32} (carryIn : Bool)

/-- An encoded amount that stands for itself. -/
theorem immediate_eq_repeated (positive : amount ≠ 0) (small : amount < 32) :
    kind.immediate w amount carryIn = kind.repeated w amount.toNat := by
  have moved := toNat_ne_zero positive
  have before := toNat_pred positive
  have within : amount.toNat < 32 := small
  have rest : (32 - amount).toNat = 32 - amount.toNat :=
    UInt32.toNat_sub_of_le _ _ (Nat.le_of_lt small)
  cases kind with
  | lsl =>
    rw [immediate, Shift.lslImmediate, if_neg positive]
    refine eq_repeated lsl w (fun i hi => getLsbD_shiftLeft w i within hi) ?_
    rw [if_neg moved, bit_eq _ (by omega), rest, lastOut, decide_eq_true (by omega), Bool.true_and]
  | lsr =>
    rw [immediate, Shift.lsrImmediate, if_neg positive]
    refine eq_repeated lsr w (fun i _ => getLsbD_shiftRight w i within) ?_
    rw [if_neg moved, bit_eq _ (by omega), before, lastOut]
  | asr =>
    rw [immediate, Shift.asrImmediate, if_neg positive]
    refine eq_repeated asr w (fun i hi => getLsbD_arithmeticShiftRight w i within hi) ?_
    rw [if_neg moved, bit_eq _ (by omega), before, lastOut, Nat.min_eq_left (by omega)]
  | ror =>
    rw [immediate, Shift.rorImmediate, if_neg positive]
    refine eq_repeated ror w (fun i hi => getLsbD_rotateRight w i within hi) ?_
    rw [if_neg moved, bit_eq _ (by omega), before, lastOut, Nat.mod_eq_of_lt (by omega)]

end

theorem lsl_large (large : 32 ≤ n) :
    lsl.repeated w n = ⟨0, some (decide (n = 32) && bit w 0)⟩ := by
  refine (eq_repeated lsl w (fun i hi => BitVec.getLsbD_zero.trans ?_) ?_).symm
  · rw [source, decide_eq_false (by omega), Bool.false_and]
  · have last : decide (n = 32) = decide (n ≤ 32) := decide_eq_decide.mpr (by omega)
    rw [if_neg (by omega), lastOut, bit_eq _ (by decide), last, show 32 - n = 0 by omega]
    rfl

theorem lsr_large (large : 32 ≤ n) :
    lsr.repeated w n = ⟨0, some (decide (n = 32) && bit w 31)⟩ := by
  refine (eq_repeated lsr w (fun i hi => BitVec.getLsbD_zero.trans ?_) ?_).symm
  · rw [source, BitVec.getLsbD_of_ge _ _ (by omega)]
  · rw [if_neg (by omega), lastOut, bit_eq _ (by decide)]
    by_cases h : n = 32
    · subst h
      rfl
    · rw [decide_eq_false h, Bool.false_and, BitVec.getLsbD_of_ge _ _ (by omega)]

theorem asr_large (large : 32 ≤ n) :
    asr.repeated w n = ⟨arithmeticShiftRight w 31, some (bit w 31)⟩ := by
  refine (eq_repeated asr w (fun i hi => ?_) ?_).symm
  · refine (getLsbD_arithmeticShiftRight w i (by decide) hi).trans ?_
    have far : min (i + n) 31 = 31 := by omega
    rw [source, far]
    exact congrArg w.toBitVec.getLsbD (Nat.min_eq_right (Nat.le_add_left _ _))
  · rw [if_neg (by omega), lastOut, bit_eq _ (by decide), Nat.min_eq_right (by omega)]
    rfl

/-- Rotations repeat after 32 places. -/
theorem ror_mod (turned : n % 32 ≠ 0) : ror.repeated w (n % 32) = ror.repeated w n := by
  refine eq_repeated ror w (fun i hi => ?_) ?_
  · rw [getLsbD_repeated _ _ hi, source, source, Nat.add_mod_mod]
  · obtain ⟨k, hk⟩ := Nat.exists_eq_succ_of_ne_zero turned
    have last : k % 32 = (n - 1) % 32 := by omega
    rw [hk, if_neg (by rintro rfl; exact turned rfl), repeated, pushedOut_repeated, lastOut,
      lastOut, Nat.add_sub_cancel, last]

theorem ror_whole (whole : n % 32 = 0) (turned : n ≠ 0) :
    ror.repeated w n = ⟨w, some (bit w 31)⟩ := by
  refine (eq_repeated ror w (fun i hi => ?_) ?_).symm
  · rw [source, show (i + n) % 32 = i by omega]
  · rw [if_neg turned, lastOut, bit_eq _ (by decide), show (n - 1) % 32 = 31 by omega]
    rfl

theorem toNat_and_31 (amount : UInt32) : (amount &&& 31).toNat = amount.toNat % 32 := by
  rw [UInt32.toNat_and]
  exact Nat.and_two_pow_sub_one_eq_mod amount.toNat 5

variable {amount : UInt32} (carryIn : Bool)

theorem register_eq_immediate (positive : amount ≠ 0) (small : amount < 32) :
    kind.register w amount = kind.immediate w amount carryIn := by
  have whole : amount &&& 31 = amount :=
    UInt32.toNat_inj.mp ((toNat_and_31 amount).trans (Nat.mod_eq_of_lt small))
  cases kind with
  | lsl => rw [register, immediate, Shift.lslRegister, Shift.lslImmediate, if_neg positive,
      if_neg positive, if_pos small]
  | lsr => rw [register, immediate, Shift.lsrRegister, Shift.lsrImmediate, if_neg positive,
      if_neg positive, if_pos small]
  | asr => rw [register, immediate, Shift.asrRegister, Shift.asrImmediate, if_neg positive,
      if_neg positive, if_pos small]
  | ror => rw [register, immediate, Shift.rorRegister, Shift.rorImmediate, whole, if_neg positive,
      if_neg positive, if_neg positive]

theorem rorRegister_eq_repeated (moved : amount ≠ 0) :
    Shift.rorRegister w amount = ror.repeated w amount.toNat := by
  rw [Shift.rorRegister, if_neg moved]
  have places := toNat_and_31 amount
  by_cases whole : amount &&& 31 = 0
  · rw [whole] at places
    rw [if_pos whole, ror_whole w places.symm (toNat_ne_zero moved)]
  · have turned : amount.toNat % 32 ≠ 0 := fun h => whole (UInt32.toNat_inj.mp (places.trans h))
    have small : amount &&& 31 < 32 := by
      rw [UInt32.lt_iff_toNat_lt, places]
      exact Nat.mod_lt _ (by decide)
    rw [if_neg whole, ← ror_mod w turned, ← places,
      ← immediate_eq_repeated ror w false whole small, immediate, Shift.rorImmediate, if_neg whole]

variable (amount)

/-- An amount that a byte could not hold counts in full. -/
theorem register_eq_repeated : kind.register w amount = kind.repeated w amount.toNat := by
  by_cases moved : amount = 0
  · subst moved
    cases kind <;> rfl
  by_cases small : amount < 32
  · exact (register_eq_immediate kind w false moved small).trans
      (immediate_eq_repeated kind w false moved small)
  have large : 32 ≤ amount.toNat := Nat.le_of_not_lt small
  have edge : amount = 32 ↔ amount.toNat = 32 := UInt32.toNat_inj.symm
  cases kind with
  | lsl =>
    rw [register, Shift.lslRegister, if_neg moved, if_neg small, lsl_large w large]
    by_cases h : amount = 32 <;> simp [h, mt edge.mpr]
  | lsr =>
    rw [register, Shift.lsrRegister, if_neg moved, if_neg small, lsr_large w large]
    by_cases h : amount = 32 <;> simp [h, mt edge.mpr]
  | asr => rw [register, Shift.asrRegister, if_neg moved, if_neg small, asr_large w large]
  | ror => exact rorRegister_eq_repeated w moved

/-- The carry and the word as 33 bits, turned one place to the right. -/
def throughCarry (w : UInt32) (carryIn : Bool) : Shifted :=
  let turned := (BitVec.cons carryIn w.toBitVec).rotateRight 1
  ⟨⟨turned.setWidth 32⟩, some turned.msb⟩

/-- What an encoded amount of zero stands for. -/
def encodedZero (kind : ShiftKind) (w : UInt32) (carryIn : Bool) : Shifted :=
  match kind with
  | lsl => ⟨w, none⟩
  | lsr => lsr.repeated w 32
  | asr => asr.repeated w 32
  | ror => throughCarry w carryIn

theorem rorImmediate_zero : Shift.rorImmediate w 0 carryIn = throughCarry w carryIn := by
  let top : UInt32 := if carryIn then 0x80000000 else 0
  have value : top ||| (w >>> 1) = (throughCarry w carryIn).value := by
    refine eq_of_bits fun i hi => ?_
    have sign : top.toBitVec.getLsbD i = (carryIn && decide (i = 31)) := by
      cases carryIn with
      | false => exact BitVec.getLsbD_zero
      | true => exact getLsbD_bit31 i
    rw [UInt32.toBitVec_or, BitVec.getLsbD_or, sign, getLsbD_shiftRight w i (by decide),
      throughCarry, BitVec.getLsbD_setWidth, BitVec.getLsbD_rotateRight, decide_eq_true hi,
      Bool.true_and, Bool.cond_true, BitVec.getLsbD_cons, Nat.add_comm (1 % (32 + 1))]
    by_cases h : i = 31
    · subst h
      simp
    · rw [decide_eq_false h, Bool.and_false, Bool.false_or, if_neg (by omega)]
      rfl
  have out : some (bit w 0) = (throughCarry w carryIn).carry := by
    rw [bit_eq _ (by decide), throughCarry]
    simp [BitVec.msb_eq_getLsbD_last, BitVec.getElem_cons]
  rw [Shift.rorImmediate, if_pos rfl, value, out]

theorem immediate_zero : kind.immediate w 0 carryIn = kind.encodedZero w carryIn := by
  cases kind with
  | lsl => rfl
  | lsr => exact (lsr_large w (Nat.le_refl 32)).symm
  | asr => exact (asr_large w (Nat.le_refl 32)).symm
  | ror => exact rorImmediate_zero w carryIn

/-- What an encoded amount stands for. -/
def encoded (kind : ShiftKind) (w amount : UInt32) (carryIn : Bool) : Shifted :=
  if amount = 0 then kind.encodedZero w carryIn else kind.repeated w amount.toNat

theorem immediate_eq_encoded {amount : UInt32} (small : amount < 32) :
    kind.immediate w amount carryIn = kind.encoded w amount carryIn := by
  rw [encoded]
  split
  · next none => rw [none, immediate_zero]
  · next moved => exact immediate_eq_repeated kind w carryIn moved small

/-- The rotate field of an instruction, in steps of two places. -/
def rotateField (word : UInt32) : UInt32 := (word >>> 8) &&& 0xF

theorem eq_two_mul_rotateField (word : UInt32) :
    (word >>> 7) &&& 0x1E = (2 : UInt32) * rotateField word := by
  have doubled : ∀ a : UInt32, (2 : UInt32) * a = a <<< 1 := by
    intro a
    rw [← UInt32.toNat_inj, UInt32.toNat_mul, UInt32.toNat_shiftLeft, Nat.shiftLeft_eq,
      Nat.mul_comm]
    rfl
  have mask : ∀ i < 32, (0x1E#32).getLsbD i = (decide (1 ≤ i) && (0xF#32).getLsbD (i - 1)) := by
    decide
  refine eq_of_bits fun i hi => ?_
  rw [doubled, getLsbD_shiftLeft _ i (by decide) hi, rotateField, getLsbD_field _ _ _ (by decide),
    getLsbD_field _ _ _ (by decide)]
  refine (congrArg _ (mask i hi)).trans ?_
  cases i with
  | zero => exact Bool.and_false _
  | succ i => rfl

theorem rotateRight_zero : rotateRight w 0 = w := by
  refine eq_of_bits fun i hi => (getLsbD_rotateRight w i (by decide) hi).trans ?_
  exact congrArg w.toBitVec.getLsbD (Nat.mod_eq_of_lt hi)

/-- The last bit that a rotation pushes out comes back in at the top. -/
theorem bit_rotateRight {amount : UInt32} (moved : amount ≠ 0) (small : amount < 32) :
    bit (rotateRight w amount) 31 = bit w (amount - 1) := by
  have positive := toNat_ne_zero moved
  have before := toNat_pred moved
  have within : amount.toNat < 32 := small
  have back : (31 + amount.toNat) % 32 = amount.toNat - 1 := by omega
  rw [bit_eq _ (by decide), bit_eq _ (by omega), before]
  refine (getLsbD_rotateRight w _ within (by decide)).trans ?_
  exact congrArg w.toBitVec.getLsbD back

/-- The low byte turned right by twice the rotate field. -/
theorem rotatedImmediate_eq (word : UInt32) :
    Shift.rotatedImmediate word
      = ror.register (word &&& 0xFF) ((2 : UInt32) * rotateField word) := by
  have bound : (word >>> 7) &&& 0x1E < 32 := by
    rw [UInt32.lt_iff_toNat_lt, UInt32.toNat_and]
    exact Nat.lt_of_le_of_lt Nat.and_le_right (by decide)
  rw [← eq_two_mul_rotateField, Shift.rotatedImmediate]
  generalize (word >>> 7) &&& 0x1E = amount at bound
  by_cases moved : amount = 0
  · rw [moved, rotateRight_zero]
    rfl
  · rw [register_eq_immediate ror _ false moved bound, immediate, Shift.rorImmediate, if_neg moved,
      if_neg moved, bit_rotateRight _ moved bound]

/-- A shift by a register is so many shifts by one place, with the last bit pushed out as its carry,
for every amount of 32 bits. An encoded amount agrees with it from 1 to 31, zero has a meaning of
its own, and an immediate operand is the low byte turned right by twice the rotate field. -/
theorem shifts_are_repeated (kind : ShiftKind) (w amount : UInt32) (carryIn : Bool)
    (word : UInt32) :
    kind.register w amount = kind.repeated w amount.toNat ∧
    (1 ≤ amount → amount ≤ 31 → kind.immediate w amount carryIn = kind.register w amount) ∧
    kind.immediate w 0 carryIn = kind.encodedZero w carryIn ∧
    Shift.rotatedImmediate word =
      ror.register (word &&& 0xFF) ((2 : UInt32) * rotateField word) := by
  have encoded : 1 ≤ amount → amount ≤ 31 →
      kind.immediate w amount carryIn = kind.register w amount := by
    intro positive small
    have moved : amount ≠ 0 := by
      rintro rfl
      exact absurd positive (by decide)
    exact (register_eq_immediate kind w carryIn moved (Nat.lt_succ_of_le small)).symm
  exact ⟨register_eq_repeated kind w amount, encoded, immediate_zero kind w carryIn,
    rotatedImmediate_eq word⟩

/-- The largest encoded amount, on a negative word. -/
theorem shifts_are_repeated_31 :
    asr.register 0x80000001 31 = asr.repeated 0x80000001 31 ∧
    asr.immediate 0x80000001 31 false = asr.register 0x80000001 31 ∧
    asr.immediate 0x80000001 0 false = asr.repeated 0x80000001 32 ∧
    Shift.rotatedImmediate 0x000004FF = ror.register 0xFF 8 := by
  obtain ⟨register, encoded, zero, rotated⟩ :=
    shifts_are_repeated asr 0x80000001 31 false 0x000004FF
  exact ⟨register, encoded (by decide) (by decide), zero, rotated⟩

end ShiftKind

end GbaArm
