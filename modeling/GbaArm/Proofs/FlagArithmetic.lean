import GbaArm.Proofs.Bits
import Mathlib.Data.Nat.Digits.Defs

/-!
What the flags of a sum and of a difference say about the exact integers. A difference is the sum
with the complement of what is taken off, so all of it follows from sums.
-/
namespace GbaArm

/-- `x` is a two's complement number of so many words. -/
def Fits (words : Nat) (x : Int) : Prop :=
  -((UInt32.size ^ words : Nat) : Int) ≤ 2 * x ∧ 2 * x < ((UInt32.size ^ words : Nat) : Int)

instance (words : Nat) (x : Int) : Decidable (Fits words x) :=
  inferInstanceAs (Decidable (_ ∧ _))

theorem fits_one {x : Int} : Fits 1 x ↔ -0x80000000 ≤ x ∧ x < 0x80000000 := by
  rw [Fits, Nat.pow_one, UInt32.size]
  omega

/-- A word as a signed number. -/
def signed (w : UInt32) : Int := w.toInt32.toInt

theorem signed_eq (w : UInt32) :
    signed w = if w.toNat < 0x80000000 then (w.toNat : Int) else w.toNat - 0x100000000 := by
  have cond : signed w = _ := BitVec.toInt_eq_toNat_cond w.toBitVec
  rw [cond, UInt32.toNat_toBitVec]
  grind

theorem signed_not (w : UInt32) : signed (~~~w) = -1 - signed w := by
  have := w.toNat_lt
  rw [signed_eq, signed_eq, UInt32.toNat_not, UInt32.size]
  split <;> split <;> omega

theorem masked_top (w : UInt32) :
    w &&& 0x80000000 = if w.toBitVec.msb then 0x80000000 else 0 := by
  rw [← UInt32.toBitVec_inj, apply_ite UInt32.toBitVec]
  exact BitVec.and_twoPow w.toBitVec 31

/-- The top bit is the sign. -/
theorem masked_sign (w : UInt32) : (w &&& 0x80000000 != 0) = w.toBitVec.msb := by
  rw [masked_top]
  cases w.toBitVec.msb <;> rfl

theorem msb_eq (w : UInt32) : w.toBitVec.msb = decide (0x80000000 ≤ w.toNat) :=
  BitVec.msb_eq_decide w.toBitVec

theorem msb_eq_signed (w : UInt32) : w.toBitVec.msb = decide (signed w < 0) := by
  have := w.toNat_lt
  rw [msb_eq, decide_eq_decide, signed_eq]
  split <;> omega

namespace Flags

variable (f : Flags) (a b carry : UInt32)

theorem sum_n : (sum a b carry).2.n = decide (signed (sum a b carry).1 < 0) :=
  (masked_sign _).trans (msb_eq_signed _)

theorem sum_z : (sum a b carry).2.z = decide ((sum a b carry).1 = 0) := rfl

theorem sum_c : (sum a b carry).2.c =
    decide (UInt32.size ≤ a.toNat + b.toNat + carry.toNat) := by
  rw [c, sum]
  by_cases h : UInt32.size ≤ a.toNat + b.toNat + carry.toNat <;> simp [h]

theorem toNat_sum : (sum a b carry).1.toNat = (a.toNat + b.toNat + carry.toNat) % UInt32.size := by
  rw [sum, UInt32.toNat_add, UInt32.toNat_add]
  exact Nat.mod_add_mod _ _ _

/-- The overflow flag is set when the exact sum of the signed numbers is no word. -/
theorem sum_v (small : carry.toNat ≤ 1) : (sum a b carry).2.v =
    decide (¬ Fits 1 (signed a + signed b + carry.toNat)) := by
  have result := toNat_sum a b carry
  have := a.toNat_lt
  have := b.toNat_lt
  have overflow : (sum a b carry).2.v = ((a.toBitVec.msb ^^ (sum a b carry).1.toBitVec.msb) &&
      (b.toBitVec.msb ^^ (sum a b carry).1.toBitVec.msb)) := by
    rw [← BitVec.msb_xor, ← BitVec.msb_xor, ← BitVec.msb_and]
    exact masked_sign _
  -- In each quadrant of signs the exact sum is compared with the range of a word.
  rw [overflow, msb_eq, msb_eq, msb_eq, result, Bool.eq_iff_iff, decide_eq_true_iff, fits_one,
    signed_eq, signed_eq, UInt32.size]
  split <;> split <;> simp <;> omega

/-- To take `b` and a borrow off is to add the complement of `b` and what the borrow leaves. -/
theorem difference_eq_sum {borrow : UInt32} (small : borrow.toNat ≤ 1) :
    difference a b borrow = sum a (~~~b) (1 - borrow) := by
  have result : a - b - borrow = a + ~~~b + (1 - borrow) := by
    rw [UInt32.not_eq_neg_sub]
    grind
  have rest : (1 - borrow).toNat = 1 - borrow.toNat := UInt32.toNat_sub_of_le _ _ small
  have carried : b.toNat + borrow.toNat ≤ a.toNat ↔
      UInt32.size ≤ a.toNat + (~~~b).toNat + (1 - borrow).toNat := by
    have := b.toNat_lt
    rw [rest, UInt32.toNat_not, UInt32.size]
    omega
  have overflow : ∀ r, (a ^^^ b) &&& (a ^^^ r) = (a ^^^ r) &&& (~~~b ^^^ r) := by
    have bits : ∀ x y z : Bool, ((x ^^ y) && (x ^^ z)) = ((x ^^ z) && (!y ^^ z)) := by decide
    intro r
    apply eq_of_bits
    intro i hi
    simpa [hi] using bits _ _ _
  simp only [difference, sum, result, carried, overflow]

theorem difference_n {borrow : UInt32} :
    (difference a b borrow).2.n = decide (signed (difference a b borrow).1 < 0) :=
  (masked_sign _).trans (msb_eq_signed _)

theorem difference_z {borrow : UInt32} :
    (difference a b borrow).2.z = decide ((difference a b borrow).1 = 0) := rfl

/-- The carry is set when nothing is borrowed. -/
theorem difference_c {borrow : UInt32} :
    (difference a b borrow).2.c = decide (b.toNat + borrow.toNat ≤ a.toNat) := by
  rw [c, difference]
  by_cases h : b.toNat + borrow.toNat ≤ a.toNat <;> simp [h]

theorem difference_v {borrow : UInt32} (small : borrow.toNat ≤ 1) : (difference a b borrow).2.v =
    decide (¬ Fits 1 (signed a - signed b - borrow.toNat)) := by
  have rest : (1 - borrow).toNat = 1 - borrow.toNat := UInt32.toNat_sub_of_le _ _ small
  rw [difference_eq_sum a b small, sum_v _ _ _ (by omega), signed_not, rest, decide_eq_decide]
  rw [show signed a + (-1 - signed b) + ((1 - borrow.toNat : Nat) : Int) =
    signed a - signed b - borrow.toNat by omega]

theorem toNat_carryBit : f.carryBit.toNat = f.c.toNat := by
  have := f.carry.toNat_lt
  have shifted : f.carryBit.toNat = f.carry.toNat / 0x80000000 := Nat.shiftRight_eq_div_pow _ 31
  rw [shifted, c, masked_sign, msb_eq]
  by_cases h : 0x80000000 ≤ f.carry.toNat <;> simp [h] <;> omega

theorem toNat_borrowBit : f.borrowBit.toNat = 1 - f.c.toNat := by
  have := f.carry.toNat_lt
  have shifted : f.borrowBit.toNat = (~~~f.carry).toNat / 0x80000000 :=
    Nat.shiftRight_eq_div_pow _ 31
  rw [shifted, UInt32.toNat_not, UInt32.size, c, masked_sign, msb_eq]
  by_cases h : 0x80000000 ≤ f.carry.toNat <;> simp [h] <;> omega

theorem carryBit_small : f.carryBit.toNat ≤ 1 := toNat_carryBit f ▸ Bool.toNat_le f.c

theorem borrowBit_small : f.borrowBit.toNat ≤ 1 := by
  rw [toNat_borrowBit]
  omega

/-- Subtraction with borrow is addition with carry of the complement. -/
theorem sbc_eq_adc : f.sbc a b = f.adc a (~~~b) := by
  have small := f.borrowBit_small
  have rest : 1 - f.borrowBit = f.carryBit := by
    have := Bool.toNat_le f.c
    apply UInt32.toNat_inj.mp
    rw [UInt32.toNat_sub_of_le _ _ small, toNat_borrowBit, toNat_carryBit]
    show 1 - (1 - f.c.toNat) = f.c.toNat
    omega
  rw [sbc, difference_eq_sum a b small, rest, adc]

end Flags

end GbaArm
