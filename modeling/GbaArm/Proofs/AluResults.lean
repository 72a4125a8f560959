import GbaArm.Core.DataProcessing
import GbaArm.Proofs.FlagArithmetic
import Mathlib.Data.Int.Bitwise

/-!
The sixteen operations over the integers: the result is the exact one modulo the word size, and the
flags say how the exact one relates to a word.
-/
namespace GbaArm

namespace AluOp

/-- The exact result, where both operands are read as unsigned numbers or both as signed ones. -/
def exact (op : AluOp) (carry : Bool) (a b : Int) : Int :=
  match op with
  | .sub | .cmp => a - b
  | .rsb => b - a
  | .add | .cmn => a + b
  | .adc => a + b + carry.toNat
  | .sbc => a - b - (!carry).toNat
  | .rsc => b - a - (!carry).toNat
  | .and | .tst => Int.land a b
  | .eor | .teq => Int.xor a b
  | .orr => Int.lor a b
  | .bic => Int.ldiff a b
  | .mov => b
  | .mvn => Int.lnot b

def isSubtraction : AluOp → Bool
  | .sub | .cmp | .rsb | .sbc | .rsc => true
  | _ => false

section
variable (op : AluOp) (carry overflow : Bool) (a b : UInt32)

def result : UInt32 := UInt32.ofInt (op.exact carry a.toNat b.toNat)

/-- The carry out of an addition, the absence of a borrow in a subtraction, else what the shifter
says, if anything. -/
def carryOut (shifter : Option Bool) : Bool :=
  if op.isLogical then shifter.getD carry
  else if op.isSubtraction then decide (0 ≤ op.exact carry a.toNat b.toNat)
  else decide (UInt32.size ≤ op.exact carry a.toNat b.toNat)

/-- Whether the exact signed result leaves the range of a word. Logical operations keep the flag. -/
def overflowOut : Bool :=
  if op.isLogical then overflow else decide (¬ Fits 1 (op.exact carry (signed a) (signed b)))

/-- The flags that an operation sets, given the carry and overflow before it. -/
structure Sets (shifter : Option Bool) (f : Flags) : Prop where
  n : f.n = decide (signed (op.result carry a b) < 0)
  z : f.z = decide (op.result carry a b = 0)
  c : f.c = op.carryOut carry a b shifter
  v : f.v = op.overflowOut carry overflow a b

end

variable (op : AluOp) (f : Flags) (a b : UInt32)

theorem ofInt_eq {x : Int} {w : UInt32} (h : x % UInt32.size = w.toNat) : UInt32.ofInt x = w := by
  have same : w.toNat = (x % UInt32.size).toNat := (congrArg Int.toNat h).symm
  exact (congrArg UInt32.ofNat same).symm.trans UInt32.ofNat_toNat

theorem ofInt_toNat : UInt32.ofInt a.toNat = a :=
  ofInt_eq (Int.emod_eq_of_lt (Int.natCast_nonneg _) (Int.ofNat_lt.mpr a.toNat_lt))

theorem land_toNat : Int.land a.toNat b.toNat = (a &&& b).toNat := by
  rw [UInt32.toNat_and]
  rfl

theorem lor_toNat : Int.lor a.toNat b.toNat = (a ||| b).toNat := by
  rw [UInt32.toNat_or]
  rfl

theorem xor_toNat : Int.xor a.toNat b.toNat = (a ^^^ b).toNat := by
  rw [UInt32.toNat_xor]
  rfl

theorem ldiff_toNat : Int.ldiff a.toNat b.toNat = (a &&& ~~~b).toNat := by
  refine congrArg Int.ofNat (Nat.eq_of_testBit_eq fun i => ?_)
  rw [Nat.testBit_ldiff]
  show _ = (a &&& ~~~b).toBitVec.getLsbD i
  rw [UInt32.toBitVec_and, BitVec.getLsbD_and, UInt32.toBitVec_not, BitVec.getLsbD_not]
  show (a.toBitVec.getLsbD i && !b.toBitVec.getLsbD i) = _
  by_cases hi : i < 32
  · rw [decide_eq_true hi, Bool.true_and]
  · rw [BitVec.getLsbD_of_ge a.toBitVec _ (by omega), Bool.false_and, Bool.false_and]

theorem ofInt_lnot : UInt32.ofInt (Int.lnot b.toNat) = ~~~b := by
  have := b.toNat_lt
  refine ofInt_eq ?_
  rw [UInt32.toNat_not, show Int.lnot b.toNat = -(b.toNat + 1) from rfl, UInt32.size]
  omega

theorem value_logical {op : AluOp} (logical : op.isLogical = true) (carry : Bool) :
    op.value f a b = op.result carry a b := by
  cases op with
  | and | tst => rw [result, exact, land_toNat, ofInt_toNat, value]
  | eor | teq => rw [result, exact, xor_toNat, ofInt_toNat, value]
  | orr => rw [result, exact, lor_toNat, ofInt_toNat, value]
  | bic => rw [result, exact, ldiff_toNat, ofInt_toNat, value]
  | mov => rw [result, exact, ofInt_toNat, value]
  | mvn => rw [result, exact, ofInt_lnot, value]
  | _ => cases logical

theorem valueFlags_logical {op : AluOp} (logical : op.isLogical = true) :
    op.valueFlags f a b = (op.value f a b, f.setNZ (op.value f a b)) := by
  cases op <;> first | rfl | cases logical

theorem c_takeCarry (shifter : Option Bool) : (f.takeCarry shifter).c = shifter.getD f.c := by
  cases shifter with
  | none => rfl
  | some out => cases out <;> simp [Flags.takeCarry, Flags.setCarryBit, Flags.c]

theorem v_takeCarry (shifter : Option Bool) : (f.takeCarry shifter).v = f.v := by
  cases shifter <;> rfl

theorem sets_logical {op : AluOp} (logical : op.isLogical = true) (shifter : Option Bool) :
    let done := op.valueFlags (f.takeCarry shifter) a b
    done.1 = op.result f.c a b ∧ op.Sets f.c f.v a b shifter done.2 := by
  rw [valueFlags_logical _ a b logical, value_logical _ a b logical f.c]
  refine ⟨rfl, ?_⟩
  exact {
    n := (masked_sign _).trans (msb_eq_signed _)
    z := rfl
    c := by
      rw [carryOut, if_pos logical]
      exact c_takeCarry f shifter
    v := by
      rw [overflowOut, if_pos logical]
      exact v_takeCarry f shifter }

section
variable {op f a b} {x y incoming : UInt32} (arithmetic : op.isLogical = false)
  (shifter : Option Bool) (small : incoming.toNat ≤ 1)
include arithmetic small

theorem sets_sum (adds : op.isSubtraction = false)
    (words : op.exact f.c a.toNat b.toNat = x.toNat + y.toNat + incoming.toNat)
    (numbers : op.exact f.c (signed a) (signed b) = signed x + signed y + incoming.toNat) :
    let done := Flags.sum x y incoming
    done.1 = op.result f.c a b ∧ op.Sets f.c f.v a b shifter done.2 := by
  have value : (Flags.sum x y incoming).1 = op.result f.c a b := by
    refine (ofInt_eq ?_).symm
    rw [words, Flags.toNat_sum]
    rfl
  refine ⟨value, ?_⟩
  exact {
    n := value ▸ Flags.sum_n x y incoming
    z := value ▸ Flags.sum_z x y incoming
    c := by
      rw [Flags.sum_c, carryOut, arithmetic, adds, words]
      exact decide_eq_decide.mpr Int.ofNat_le.symm
    v := by
      rw [Flags.sum_v x y incoming small, overflowOut, arithmetic, numbers]
      rfl }

theorem sets_difference (subtracts : op.isSubtraction = true)
    (words : op.exact f.c a.toNat b.toNat = x.toNat - y.toNat - incoming.toNat)
    (numbers : op.exact f.c (signed a) (signed b) = signed x - signed y - incoming.toNat) :
    let done := Flags.difference x y incoming
    done.1 = op.result f.c a b ∧ op.Sets f.c f.v a b shifter done.2 := by
  have value : (Flags.difference x y incoming).1 = op.result f.c a b := by
    have := y.toNat_lt
    refine (ofInt_eq ?_).symm
    rw [words, Flags.difference, UInt32.toNat_sub, UInt32.toNat_sub, UInt32.size]
    omega
  refine ⟨value, ?_⟩
  exact {
    n := value ▸ Flags.difference_n x y
    z := value ▸ Flags.difference_z x y
    c := by
      rw [Flags.difference_c, carryOut, arithmetic, subtracts, words]
      exact decide_eq_decide.mpr (by omega)
    v := by
      rw [Flags.difference_v x y small, overflowOut, arithmetic, numbers]
      rfl }

end

theorem toNat_not_c : (!f.c).toNat = f.borrowBit.toNat := by
  rw [f.toNat_borrowBit]
  cases f.c <;> rfl

/-- Result and flags of every operation. Logical ones take the carry of the shifter first. -/
theorem valueFlags_sets (shifter : Option Bool) :
    let done := op.valueFlags (if op.isLogical then f.takeCarry shifter else f) a b
    done.1 = op.result f.c a b ∧ op.Sets f.c f.v a b shifter done.2 := by
  have still : (0 : UInt32).toNat ≤ 1 := by decide
  have carried : ∀ x : Int, x + f.c.toNat = x + f.carryBit.toNat :=
    fun x => congrArg (fun n : Nat => x + n) f.toNat_carryBit.symm
  have borrowed : ∀ x : Int, x - (!f.c).toNat = x - f.borrowBit.toNat :=
    fun x => congrArg (fun n : Nat => x - n) (toNat_not_c f)
  cases op with
  | add | cmn => exact sets_sum rfl shifter still rfl (Int.add_zero _).symm (Int.add_zero _).symm
  | sub | cmp | rsb =>
    exact sets_difference rfl shifter still rfl (Int.sub_zero _).symm (Int.sub_zero _).symm
  | adc => exact sets_sum rfl shifter f.carryBit_small rfl (carried _) (carried _)
  | sbc | rsc => exact sets_difference rfl shifter f.borrowBit_small rfl (borrowed _) (borrowed _)
  | _ => exact sets_logical f a b rfl shifter

theorem value_eq_fst : op.value f a b = (op.valueFlags f a b).1 := by
  cases op with
  | add | cmn => exact (UInt32.add_zero _).symm
  | sub | cmp | rsb => exact (UInt32.sub_zero _).symm
  | _ => rfl

theorem value_eq_result : op.value f a b = op.result f.c a b := by
  have done := (op.valueFlags_sets f a b none).1
  rwa [Flags.takeCarry, ite_self, ← value_eq_fst] at done

end AluOp

end GbaArm
