import GbaArm.Proofs.FlagArithmetic

/-! A condition after a comparison decides the relation that it names. -/
namespace GbaArm

theorem signed_inj {a b : UInt32} (h : signed a = signed b) : a = b := by
  have := a.toNat_lt
  have := b.toNat_lt
  rw [signed_eq, signed_eq] at h
  apply UInt32.toNat_inj.mp
  split at h <;> split at h <;> omega

namespace Flags

variable (f : Flags) (a b : UInt32)

/-- N and V agree exactly if the exact signed sum is not negative. -/
theorem sum_agree (carry : UInt32) (small : carry.toNat ≤ 1) :
    (sum a b carry).2.n = (sum a b carry).2.v ↔ 0 ≤ signed a + signed b + carry.toNat := by
  have result := toNat_sum a b carry
  have := a.toNat_lt
  have := b.toNat_lt
  rw [sum_n, sum_v a b carry small, decide_eq_decide, fits_one, signed_eq (sum a b carry).1,
    signed_eq a, signed_eq b, result, UInt32.size]
  split <;> split <;> split <;> omega

theorem cmp_agree : (f.cmp a b).n = (f.cmp a b).v ↔ signed b ≤ signed a := by
  have complement : f.cmp a b = (sum a (~~~b) 1).2 :=
    congrArg Prod.snd (difference_eq_sum a b (by decide))
  rw [complement, sum_agree a (~~~b) 1 (by decide), signed_not]
  show 0 ≤ signed a + (-1 - signed b) + 1 ↔ _
  omega

theorem cmp_z : (f.cmp a b).z = decide (a = b) := by
  refine (difference_z a b).trans (decide_eq_decide.mpr ?_)
  rw [difference]
  grind

theorem cmp_c : (f.cmp a b).c = decide (b.toNat ≤ a.toNat) := difference_c a b

theorem cmp_n : (f.cmp a b).n = decide (signed (a - b) < 0) := by
  refine (difference_n a b).trans ?_
  rw [difference, UInt32.sub_zero]

theorem cmp_v : (f.cmp a b).v = decide (¬ Fits 1 (signed a - signed b)) := by
  refine (difference_v a b (by decide)).trans ?_
  rw [show ((0 : UInt32).toNat : Int) = 0 from rfl, Int.sub_zero]

theorem cmn_agree : (f.cmn a b).n = (f.cmn a b).v ↔ 0 ≤ signed a + signed b := by
  refine (sum_agree a b 0 (by decide)).trans ?_
  rw [show ((0 : UInt32).toNat : Int) = 0 from rfl, Int.add_zero]

theorem cmn_z : (f.cmn a b).z = decide (a + b = 0) := by
  refine (sum_z a b 0).trans ?_
  rw [sum, UInt32.add_zero]

theorem cmn_c : (f.cmn a b).c = decide (UInt32.size ≤ a.toNat + b.toNat) := sum_c a b 0

theorem cmn_n : (f.cmn a b).n = decide (signed (a + b) < 0) := by
  refine (sum_n a b 0).trans ?_
  rw [sum, UInt32.add_zero]

theorem cmn_v : (f.cmn a b).v = decide (¬ Fits 1 (signed a + signed b)) := by
  refine (sum_v a b 0 (by decide)).trans ?_
  rw [show ((0 : UInt32).toNat : Int) = 0 from rfl, Int.add_zero]

end Flags

namespace Condition

/-- The encoding of a condition. -/
def code : Condition → Nat
  | eq => 0x0 | ne => 0x1 | cs => 0x2 | cc => 0x3 | mi => 0x4 | pl => 0x5 | vs => 0x6 | vc => 0x7
  | hi => 0x8 | ls => 0x9 | ge => 0xA | lt => 0xB | gt => 0xC | le => 0xD | al => 0xE | nv => 0xF

theorem code_ofWord (word : UInt32) : (ofWord word).code = word.toNat / 0x10000000 := by
  have shifted : (word >>> 28).toNat = word.toNat / 0x10000000 := Nat.shiftRight_eq_div_pow _ 28
  have := word.toNat_lt
  rw [ofWord, shifted]
  split <;> grind [code]

/-- What a condition says of two words that were compared. -/
def Compares (a b : UInt32) : Condition → Prop
  | eq => a = b
  | ne => a ≠ b
  | cs => b.toNat ≤ a.toNat
  | cc => a.toNat < b.toNat
  | mi => signed (a - b) < 0
  | pl => 0 ≤ signed (a - b)
  | vs => ¬ Fits 1 (signed a - signed b)
  | vc => Fits 1 (signed a - signed b)
  | hi => b.toNat < a.toNat
  | ls => a.toNat ≤ b.toNat
  | ge => signed b ≤ signed a
  | lt => signed a < signed b
  | gt => signed b < signed a
  | le => signed a ≤ signed b
  | al | nv => True

/-- What a condition says of two words whose sum was compared with zero. -/
def ComparesSum (a b : UInt32) : Condition → Prop
  | eq => a + b = 0
  | ne => a + b ≠ 0
  | cs => UInt32.size ≤ a.toNat + b.toNat
  | cc => a.toNat + b.toNat < UInt32.size
  | mi => signed (a + b) < 0
  | pl => 0 ≤ signed (a + b)
  | vs => ¬ Fits 1 (signed a + signed b)
  | vc => Fits 1 (signed a + signed b)
  | hi => UInt32.size < a.toNat + b.toNat
  | ls => a.toNat + b.toNat ≤ UInt32.size
  | ge => 0 ≤ signed a + signed b
  | lt => signed a + signed b < 0
  | gt => 0 < signed a + signed b
  | le => signed a + signed b ≤ 0
  | al | nv => True

variable (f : Flags) (a b : UInt32) (condition : Condition)

theorem holds_cmp : condition.holds (f.cmp a b) = true ↔ condition.Compares a b := by
  have agree := f.cmp_agree a b
  cases condition with
  | hi | ls =>
    have equal : a = b ↔ a.toNat = b.toNat := UInt32.toNat_inj.symm
    simp [holds, Compares, f.cmp_c, f.cmp_z, equal]
    omega
  | gt | le =>
    have equal : a = b ↔ signed a = signed b := ⟨congrArg signed, signed_inj⟩
    simp [holds, Compares, f.cmp_z, equal, agree]
    omega
  | ge | lt => simp [holds, Compares, agree]
  | _ => simp [holds, Compares, f.cmp_z, f.cmp_c, f.cmp_n, f.cmp_v]

theorem holds_cmn : condition.holds (f.cmn a b) = true ↔ condition.ComparesSum a b := by
  have agree := f.cmn_agree a b
  have := a.toNat_lt
  have := b.toNat_lt
  have zero : a + b = 0 ↔ (a.toNat + b.toNat) % 0x100000000 = 0 := by
    rw [← UInt32.toNat_inj, UInt32.toNat_add]
    rfl
  cases condition with
  | hi | ls =>
    simp [holds, ComparesSum, f.cmn_c, f.cmn_z, zero, UInt32.size]
    omega
  | gt | le =>
    simp [holds, ComparesSum, f.cmn_z, zero, agree, signed_eq]
    split <;> split <;> omega
  | ge | lt => simp [holds, ComparesSum, agree]
  | _ => simp [holds, ComparesSum, f.cmn_z, f.cmn_c, f.cmn_n, f.cmn_v]

/-- The condition of an instruction decides the relation that its code names: after a comparison
between the two words, after a negated comparison between their exact sum and zero. -/
theorem comparison_decides (word : UInt32) :
    (ofWord word).code = word.toNat / 0x10000000 ∧
    ((ofWord word).holds (f.cmp a b) = true ↔ (ofWord word).Compares a b) ∧
    ((ofWord word).holds (f.cmn a b) = true ↔ (ofWord word).ComparesSum a b) :=
  ⟨code_ofWord word, holds_cmp f a b _, holds_cmn f a b _⟩

end Condition

end GbaArm
