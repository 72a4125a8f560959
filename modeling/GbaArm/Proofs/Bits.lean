import GbaArm.Cpu
import GbaArm.Word

/-! Words bit by bit: flags packed and unpacked, the status word, aligned addresses. -/
namespace GbaArm

theorem eq_of_bits {a b : UInt32}
    (h : ∀ i < 32, a.toBitVec.getLsbD i = b.toBitVec.getLsbD i) : a = b :=
  UInt32.toBitVec_inj.mp (BitVec.eq_of_getLsbD_eq h)

theorem getLsbD_bit31 (i : Nat) : (0x80000000#32).getLsbD i = decide (i = 31) := by
  rw [show 0x80000000#32 = BitVec.twoPow 32 31 by decide, BitVec.getLsbD_twoPow]
  simp [eq_comm]

theorem getLsbD_bit30 (i : Nat) : (0x40000000#32).getLsbD i = decide (i = 30) := by
  rw [show 0x40000000#32 = BitVec.twoPow 32 30 by decide, BitVec.getLsbD_twoPow]
  simp [eq_comm]

theorem getLsbD_nzcv : ∀ i < 32, (0xF0000000#32).getLsbD i = decide (28 ≤ i) := by decide

namespace Flags

variable (f : Flags) (w : UInt32)

theorem z_eq_bit : (ofNzcv w).z = w.toBitVec.getLsbD 30 := by
  cases hb : w.toBitVec.getLsbD 30 with
  | true =>
    have h : ~~~w &&& 0x40000000 = 0 := by
      apply eq_of_bits
      intro i hi
      simp [getLsbD_bit30]
      grind
    simp [z, ofNzcv, h]
  | false =>
    have h : ~~~w &&& 0x40000000 ≠ 0 := by
      intro h
      have h30 := congrArg (fun x => x.toBitVec.getLsbD 30) h
      have set : w.toBitVec.getLsbD 30 = true := by simpa using h30
      exact Bool.false_ne_true (hb.symm.trans set)
    simpa [z, ofNzcv] using h

theorem getLsbD_nzcv_low {i : Nat} (hi : i < 28) : f.nzcv.toBitVec.getLsbD i = false := by
  have hn : ¬ i = 31 := by omega
  have hz : ¬ i = 30 := by omega
  have hc : ¬ 2 + i = 31 := by omega
  have hv : ¬ 3 + i = 31 := by omega
  cases h : f.z <;> simp [nzcv, h, getLsbD_bit31, getLsbD_bit30, hn, hz, hc, hv]

/-- Unpacking a word and packing it again keeps its top four bits. -/
theorem nzcv_ofNzcv : (ofNzcv w).nzcv = w &&& 0xF0000000 := by
  apply eq_of_bits
  intro i hi
  have mask := getLsbD_nzcv i hi
  by_cases h : 28 ≤ i
  · have hz := z_eq_bit w
    obtain rfl | rfl | rfl | rfl : i = 31 ∨ i = 30 ∨ i = 29 ∨ i = 28 := by omega
    all_goals cases hb : w.toBitVec.getLsbD 30 <;> simp_all [nzcv, ofNzcv]
  · simp [getLsbD_nzcv_low _ (Nat.lt_of_not_le h), mask, h]

theorem nzcv_toUInt8 : f.nzcv.toUInt8 = 0 := by
  apply UInt8.toBitVec_inj.mp
  apply BitVec.eq_of_getLsbD_eq
  intro i hi
  simp [getLsbD_nzcv_low f (show i < 28 by omega)]

end Flags

theorem toUInt8_or_toUInt32 (f : Flags) (byte : UInt8) :
    (f.nzcv ||| byte.toUInt32).toUInt8 = byte := by
  rw [UInt32.toUInt8_or, f.nzcv_toUInt8]
  simp

/-- Unpacking a status word and packing it again gives it back. -/
theorem status_repacked (f : Flags) (byte : UInt8) :
    (Flags.ofNzcv (f.nzcv ||| byte.toUInt32)).nzcv ||| byte.toUInt32 = f.nzcv ||| byte.toUInt32 := by
  rw [Flags.nzcv_ofNzcv]
  apply eq_of_bits
  intro i hi
  have mask := getLsbD_nzcv i hi
  by_cases h : 28 ≤ i
  · simp [mask, h]
  · simp [Flags.getLsbD_nzcv_low f (Nat.lt_of_not_le h), mask, h]

/-- A mask of the low byte sees the low byte alone. -/
theorem toUInt8_masked (w : UInt32) (mask : UInt8) :
    w.toUInt8 &&& mask = 0 ↔ w &&& mask.toUInt32 = 0 := by
  have low : (w &&& mask.toUInt32).toNat ≤ mask.toNat := by
    rw [UInt32.toNat_and]
    exact Nat.and_le_right
  have cut : (w &&& mask.toUInt32).toUInt8 = w.toUInt8 &&& mask := by simp
  have := mask.toNat_lt
  rw [← cut, ← UInt8.toNat_inj, ← UInt32.toNat_inj, UInt32.toNat_toUInt8]
  simp only [UInt8.toNat_zero, UInt32.toNat_zero]
  omega

namespace Cpu

variable (c : Cpu)

theorem status_masked (mask : UInt8) :
    c.status.raw &&& mask.toUInt32 = 0 ↔ c.control &&& mask = 0 := by
  have control : c.status.raw.toUInt8 = c.control := toUInt8_or_toUInt32 c.flags c.control
  rw [← toUInt8_masked, control]

theorem status_i : c.status.i = c.irqDisabled := by
  rw [Bool.eq_iff_iff]
  simpa [StatusWord.i, irqDisabled, StatusWord.irqDisable] using not_congr (c.status_masked 0x80)

theorem status_t : c.status.t = c.isThumb := by
  rw [Bool.eq_iff_iff]
  simpa [StatusWord.t, isThumb, StatusWord.thumbBit] using not_congr (c.status_masked 0x20)

end Cpu

theorem masked_or_masked (w a b : UInt32) : (w &&& a) ||| (w &&& b) = w &&& (a ||| b) := by
  apply UInt32.toBitVec_inj.mp
  simp only [UInt32.toBitVec_or, UInt32.toBitVec_and]
  exact BitVec.and_or_distrib_left.symm

/-- A mask of the low bits sees the low bits alone. -/
theorem masked_congr {a b mask : UInt32} {k : Nat}
    (low : ∀ i < 32, mask.toBitVec.getLsbD i = decide (i < k))
    (same : ∀ i < k, a.toBitVec.getLsbD i = b.toBitVec.getLsbD i) : a &&& mask = b &&& mask := by
  refine eq_of_bits fun i hi => ?_
  rw [UInt32.toBitVec_and, UInt32.toBitVec_and, BitVec.getLsbD_and, BitVec.getLsbD_and, low i hi]
  by_cases inner : i < k
  · rw [same i inner]
  · rw [decide_eq_false inner, Bool.and_false, Bool.and_false]

theorem toNat_lowByte (w : UInt32) : (w &&& 0xFF).toNat = w.toNat % 256 := by
  rw [UInt32.toNat_and]
  exact Nat.and_two_pow_sub_one_eq_mod w.toNat 8

theorem toUInt32_toUInt8 (w : UInt32) : w.toUInt8.toUInt32 = w &&& 0xFF := by
  rw [← UInt32.toNat_inj, toNat_lowByte, UInt8.toNat_toUInt32, UInt32.toNat_toUInt8]

/-- A mask of all the bits from `k` on clears those below. -/
theorem toNat_and_high {mask : UInt32} {k : Nat}
    (high : ∀ i < 32, mask.toBitVec.getLsbD i = decide (k ≤ i)) (address : UInt32) :
    (address &&& mask).toNat = address.toNat >>> k <<< k := by
  apply Nat.eq_of_testBit_eq
  intro i
  rw [UInt32.toNat_and, Nat.testBit_and, Nat.testBit_shiftLeft, Nat.testBit_shiftRight]
  by_cases hi : i < 32
  · have masked : mask.toNat.testBit i = decide (k ≤ i) := high i hi
    rw [masked, Bool.and_comm]
    by_cases hk : k ≤ i
    · simp [hk, Nat.add_sub_cancel' hk]
    · simp [hk]
  · have above : address.toNat.testBit i = false := Nat.testBit_lt_two_pow
      (Nat.lt_of_lt_of_le address.toNat_lt (Nat.pow_le_pow_right (by decide) (Nat.le_of_not_lt hi)))
    by_cases hk : k ≤ i
    · simp [hk, above, Nat.add_sub_cancel' hk]
    · simp [hk, above]

theorem toNat_alignWord (address : UInt32) :
    (alignWord address).toNat = address.toNat - address.toNat % 4 := by
  have cleared := toNat_and_high (k := 2) (by decide : ∀ i < 32,
    (UInt32.toBitVec 0xFFFFFFFC).getLsbD i = decide (2 ≤ i)) address
  rw [alignWord, cleared, Nat.shiftLeft_eq, Nat.shiftRight_eq_div_pow]
  omega

theorem toNat_alignHalf (address : UInt32) :
    (alignHalf address).toNat = address.toNat - address.toNat % 2 := by
  have cleared := toNat_and_high (k := 1) (by decide : ∀ i < 32,
    (UInt32.toBitVec 0xFFFFFFFE).getLsbD i = decide (1 ≤ i)) address
  rw [alignHalf, cleared, Nat.shiftLeft_eq, Nat.shiftRight_eq_div_pow]
  omega

/-- Going back by whole words stays on a word boundary. -/
theorem alignWord_sub {address distance : UInt32} (ha : alignWord address = address)
    (hd : distance.toNat % 4 = 0) : alignWord (address - distance) = address - distance := by
  have h := congrArg UInt32.toNat ha
  rw [toNat_alignWord] at h
  have := address.toNat_lt
  have := distance.toNat_lt
  apply UInt32.toNat_inj.mp
  rw [toNat_alignWord, UInt32.toNat_sub]
  omega

end GbaArm
