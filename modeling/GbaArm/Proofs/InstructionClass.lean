import GbaArm.Opcode
import GbaArm.Proofs.SingleShifts

/-! Which bits of an instruction its class keeps, and where. -/
namespace GbaArm

namespace Opcode

variable (word : UInt32)

/-- A class is two fields of a word side by side, twelve bits in all. -/
theorem getLsbD_classOf {i : Nat} (hi : i < 32) : (classOf word).toBitVec.getLsbD i =
    (word.toBitVec.getLsbD (if i < 4 then i + 4 else i + 16) && decide (i < 12)) := by
  have masks : ∀ i < 32, (0xFF0#32).getLsbD i = decide (4 ≤ i ∧ i < 12) ∧
      (0xF#32).getLsbD i = decide (i < 4) := by decide
  obtain ⟨high, low⟩ := masks i hi
  rw [classOf, UInt32.toBitVec_or, BitVec.getLsbD_or, getLsbD_field _ _ _ (by decide),
    getLsbD_field _ _ _ (by decide)]
  show (_ && (0xFF0#32).getLsbD i || _ && (0xF#32).getLsbD i) = _
  rw [high, low]
  by_cases h : i < 4
  · have inner : i < 12 := by omega
    simp [h, inner, Nat.not_le.mpr h]
  · simp [h, Nat.le_of_not_lt h]

/-- Bits 27 to 20 of an instruction, kept in its class. -/
def high (index : UInt32) : UInt32 := (index >>> 4) &&& 0xFF

theorem getLsbD_high {i : Nat} (hi : i < 8) :
    (high (classOf word)).toBitVec.getLsbD i = word.toBitVec.getLsbD (i + 20) := by
  have mask : ∀ i < 8, (0xFF#32).getLsbD i = true := by decide
  have inner : i + UInt32.toNat 4 < 12 := Nat.add_lt_add_right hi 4
  have above : ¬ i + UInt32.toNat 4 < 4 := Nat.not_lt.mpr (Nat.le_add_left _ _)
  refine (getLsbD_field _ i _ (by decide)).trans ?_
  rw [getLsbD_classOf word (by omega), if_neg above, decide_eq_true inner, Bool.and_true]
  exact (congrArg _ (mask i hi)).trans (Bool.and_true _)

theorem bit_high {n k : UInt32} (hn : n.toNat < 8) (hk : k.toNat = n.toNat + 20) :
    bit (high (classOf word)) n = bit word k := by
  rw [bit_eq _ (by omega), bit_eq _ (by omega), getLsbD_high _ hn, hk]

/-- Bits 27 to 25. -/
theorem top_eq : high (classOf word) >>> 5 = (word >>> 25) &&& (7 : UInt32) := by
  have mask : ∀ i < 32, (UInt32.toBitVec 7).getLsbD i = decide (i < 3) := by decide
  have three : high (classOf word) >>> 5 = (high (classOf word) >>> 5) &&& (7 : UInt32) := by
    have cut : ∀ i < 32, (0xFF#32).getLsbD (i + 5) = ((0xFF#32).getLsbD (i + 5) && (7#32).getLsbD i) := by
      decide
    refine eq_of_bits fun i hi => ?_
    rw [getLsbD_field _ _ _ (by decide), getLsbD_shiftRight _ _ (by decide), high,
      getLsbD_field _ _ _ (by decide), Bool.and_assoc]
    exact congrArg _ (cut i hi)
  rw [three]
  refine masked_congr mask fun i inner => ?_
  rw [getLsbD_shiftRight _ _ (by decide), getLsbD_shiftRight _ _ (by decide)]
  exact getLsbD_high word (show i + UInt32.toNat 5 < 8 from Nat.add_lt_add_right inner 5)

/-- Bits 7 to 4. -/
theorem low_eq : classOf word &&& (0xF : UInt32) = (word >>> 4) &&& (0xF : UInt32) := by
  have mask : ∀ i < 32, (UInt32.toBitVec 0xF).getLsbD i = decide (i < 4) := by decide
  refine masked_congr mask fun i inner => ?_
  have within : i < 12 := by omega
  rw [getLsbD_classOf word (by omega), getLsbD_shiftRight _ _ (by decide), if_pos inner,
    decide_eq_true within, Bool.and_true]
  rfl

theorem bit_low : bit (classOf word &&& 0xF) 0 = bit word 4 := by
  rw [low_eq, bit_eq _ (by decide), bit_eq _ (by decide), getLsbD_field _ _ _ (by decide)]
  exact Bool.and_true _

/-- The mask leaves bit 22 of a word free, which is bit 6 of its class. -/
theorem classOf_of_masked {word value : UInt32} (form : word &&& 0x0FB000F0 = value) :
    classOf word = classOf value ∨ classOf word = classOf value ||| (0x40 : UInt32) := by
  have mask : ∀ i < 32, ((0x0FB000F0#32).getLsbD (if i < 4 then i + 4 else i + 16) && decide (i < 12)) =
      (decide (i < 12) && decide (i ≠ 6)) := by decide
  have free : ∀ i < 32, (0x40#32).getLsbD i = decide (i = 6) := by decide
  have given : ∀ i < 32, (classOf value).toBitVec.getLsbD i =
      ((classOf word).toBitVec.getLsbD i && decide (i ≠ 6)) := by
    intro i hi
    rw [← form, getLsbD_classOf _ hi, getLsbD_classOf _ hi, UInt32.toBitVec_and, BitVec.getLsbD_and,
      Bool.and_assoc, Bool.and_assoc]
    exact congrArg _ (mask i hi)
  have clear : (classOf value).toBitVec.getLsbD 6 = false :=
    (given 6 (by decide)).trans (Bool.and_false _)
  have same : ∀ i < 32, i ≠ 6 →
      (classOf word).toBitVec.getLsbD i = (classOf value).toBitVec.getLsbD i := by
    intro i hi other
    rw [given i hi, decide_eq_true other, Bool.and_true]
  cases bit6 : (classOf word).toBitVec.getLsbD 6 with
  | false =>
    refine Or.inl (eq_of_bits fun i hi => ?_)
    by_cases h : i = 6
    · rw [h, bit6, clear]
    · exact same i hi h
  | true =>
    refine Or.inr (eq_of_bits fun i hi => ?_)
    rw [UInt32.toBitVec_or, BitVec.getLsbD_or]
    refine Eq.trans ?_ (congrArg (_ || ·) (free i hi)).symm
    by_cases h : i = 6
    · rw [h, bit6, clear]
      rfl
    · rw [same i hi h, decide_eq_false h, Bool.or_false]

/-- The mask says all of a field that lies inside it. -/
theorem field_of_masked {word mask value : UInt32} (form : word &&& mask = value) (shift field : UInt32)
    (inside : (mask >>> shift) &&& field = field) :
    (word >>> shift) &&& field = (value >>> shift) &&& field := by
  rw [← form, UInt32.shiftRight_and, UInt32.and_assoc, inside]

theorem masked_of_masked {word mask value : UInt32} (form : word &&& mask = value) (part : UInt32)
    (inside : mask &&& part = part) : word &&& part = value &&& part := by
  rw [← form, UInt32.and_assoc, inside]

theorem bit_of_masked {word mask value : UInt32} (form : word &&& mask = value) (n : UInt32)
    (inside : (mask >>> n) &&& 1 = 1) : bit word n = bit value n := by
  rw [bit, field_of_masked form n 1 inside, bit]

end Opcode

end GbaArm
