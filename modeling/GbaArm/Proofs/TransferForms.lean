import GbaArm.Proofs.DataProcessing
import GbaArm.Proofs.Jumps

/-! How an instruction encodes a single transfer, and how it gives the offset. -/
namespace GbaArm

/-- How a single transfer gives its offset. -/
inductive OffsetForm
  /-- Twelve bits. -/
  | immediate
  /-- A register shifted by an encoded amount. -/
  | scaled
  /-- Eight bits in two fields. -/
  | split
  | register
  deriving DecidableEq, Repr

structure SingleTransfer where
  load : Bool
  width : Core.TransferWidth
  indexing : Indexing
  offset : OffsetForm
  deriving DecidableEq, Repr

namespace SingleTransfer

/-- A word or a byte. -/
def plain (word : UInt32) (offset : OffsetForm) : SingleTransfer where
  load := bit word 20
  width := if bit word 22 then .byte else .word
  indexing := if bit word 24 then .pre else if bit word 21 then .postUser else .post
  offset := offset

/-- A halfword or a signed value. -/
def narrow (word : UInt32) (load : Bool) (width : Core.TransferWidth) : SingleTransfer where
  load := load
  width := width
  indexing := if bit word 24 then .pre else .post
  offset := if bit word 22 then .split else .register

/-- The single transfer that a word encodes. Words and bytes have 010 or 011 in bits 27 to 25; halfwords
and signed values have 000 there and one of three codes in bits 7 to 4. -/
def ofWord (word : UInt32) : Option SingleTransfer :=
  match ((word >>> 25) &&& 7).toNat with
  | 2 => some (plain word .immediate)
  | 3 => if bit word 4 then none else some (plain word .scaled)
  | 0 =>
    match ((word >>> 4) &&& 0xF).toNat with
    | 0xB => some (narrow word (bit word 20) .half)
    | 0xD => if bit word 20 then some (narrow word true .signedByte) else none
    | 0xF => if bit word 20 then some (narrow word true .signedHalf) else none
    | _ => none
  | _ => none

end SingleTransfer

namespace Opcode

variable (word : UInt32)

theorem ofTransfer_high (scaled : Bool) : ofTransfer (high (classOf word)) scaled =
    transfer (bit word 20) (bit word 22)
      (if bit word 24 then .pre else if bit word 21 then .postUser else .post) scaled := by
  have bits : ∀ n k : UInt32, n.toNat < 8 → k.toNat = n.toNat + 20 →
      bit (high (classOf word)) n = bit word k := fun _ _ => bit_high word
  rw [ofTransfer, bits 0 20 (by decide) rfl, bits 1 21 (by decide) rfl, bits 2 22 (by decide) rfl,
    bits 4 24 (by decide) rfl]

theorem ofWord_immediate (top : ((word >>> 25) &&& 7).toNat = 2) :
    ofWord word = ofTransfer (high (classOf word)) false := by
  rw [← top_eq, high] at top
  simp only [ofWord, ofClass, top, high]

theorem ofWord_scaled (top : ((word >>> 25) &&& 7).toNat = 3) (direct : bit word 4 = false) :
    ofWord word = ofTransfer (high (classOf word)) true := by
  rw [← top_eq, high] at top
  simp only [ofWord, ofClass, top, high, bit_low, direct]
  rfl

theorem ofHalfTransfer_high (code : UInt32) : ofHalfTransfer (high (classOf word)) code =
    let indexing := if bit word 24 then Indexing.pre else .post
    if bit word 20 then
      if code = 0xB then halfTransfer .loadHalf indexing
      else if code = 0xD then halfTransfer .loadSignedByte indexing
      else halfTransfer .loadSignedHalf indexing
    else if code = 0xB then halfTransfer .storeHalf indexing
    else undefined := by
  rw [ofHalfTransfer, bit_high word (show UInt32.toNat 0 < 8 by decide) (show UInt32.toNat 20 = _ from rfl),
    bit_high word (show UInt32.toNat 4 < 8 by decide) (show UInt32.toNat 24 = _ from rfl)]

theorem ofWord_narrow (code : UInt32) (top : ((word >>> 25) &&& 7).toNat = 0)
    (low : ((word >>> 4) &&& 0xF).toNat = code.toNat) (other : code ≠ 9) (ends : code &&& 9 = 9) :
    ofWord word = ofHalfTransfer (high (classOf word)) code := by
  have field : classOf word &&& 0xF = code := (low_eq word).trans (UInt32.toNat_inj.mp low)
  rw [← top_eq, high] at top
  simp only [ofWord, ofClass, top, high, field, other, ends, if_true, if_false]

end Opcode

namespace OffsetForm

/-- The offset. R15 reads two words past the instruction. -/
def value (c : Cpu) (word : UInt32) : OffsetForm → UInt32
  | immediate => word &&& 0xFFF
  | scaled =>
    let amount := (word >>> 7) &&& 0x1F
    ((ShiftKind.ofWord word).encoded (c.operand false (Field.rm word)) amount c.flags.c).value
  | split => UInt32.ofNat (16 * Field.rs word + Field.rm word)
  | register => c.operand false (Field.rm word)

variable (c : Cpu) (word : UInt32)

theorem wordOffset_immediate : Core.wordOffset c word false = immediate.value c word := rfl

theorem wordOffset_scaled : Core.wordOffset c word true = scaled.value c word := by
  have small : (word >>> 7) &&& 0x1F < 32 := by
    rw [UInt32.lt_iff_toNat_lt, UInt32.toNat_and]
    exact Nat.lt_of_le_of_lt Nat.and_le_right (by decide)
  rw [value, Cpu.operand_direct, ← ShiftKind.immediate_eq_encoded _ _ _ small]
  rfl

/-- Bits 11 to 8 over bits 3 to 0. -/
theorem splitOffset_eq :
    ((word &&& 0xF00) >>> 4) ||| (word &&& (0xF : UInt32)) = split.value c word := by
  have mask : ∀ i < 32,
      (0xF00#32).getLsbD (i + 4) = (decide (4 ≤ i) && (0xF#32).getLsbD (i - 4)) := by
    decide
  have moved : (word &&& 0xF00) >>> 4 = ((word >>> 8) &&& (0xF : UInt32)) <<< 4 := by
    refine eq_of_bits fun i hi => ?_
    rw [getLsbD_shiftRight _ _ (by decide), getLsbD_shiftLeft _ _ (by decide) hi,
      getLsbD_field _ _ _ (by decide), UInt32.toBitVec_and, BitVec.getLsbD_and]
    refine (congrArg _ (mask i hi)).trans ?_
    show (word.toBitVec.getLsbD (i + 4) && (decide (4 ≤ i) && _)) =
      (decide (4 ≤ i) && (word.toBitVec.getLsbD (i - 4 + 8) && _))
    by_cases inner : 4 ≤ i
    · rw [show i - 4 + 8 = i + 4 by omega, decide_eq_true inner, Bool.true_and, Bool.true_and]
      rfl
    · rw [decide_eq_false inner, Bool.false_and, Bool.false_and, Bool.and_false]
  have high : Field.rs word < 16 := Field.lt_sixteen _
  have low : Field.rm word < 2 ^ 4 := Field.lt_sixteen _
  have sum : (UInt32.ofNat (16 * Field.rs word + Field.rm word)).toNat =
      16 * Field.rs word + Field.rm word := Nat.mod_eq_of_lt (by omega)
  apply UInt32.toNat_inj.mp
  rw [moved, UInt32.toNat_or, UInt32.toNat_shiftLeft, value, sum]
  show (Field.rs word <<< 4 % 4294967296 ||| Field.rm word) = _
  rw [Nat.mod_eq_of_lt (by rw [Nat.shiftLeft_eq]; omega), ← Nat.shiftLeft_add_eq_or_of_lt low,
    Nat.shiftLeft_eq]
  omega

theorem halfOffset_eq : Core.halfOffset c word =
    (if bit word 22 then split else register).value c word := by
  unfold Core.halfOffset
  split
  · exact splitOffset_eq c word
  · exact c.operand_direct.symm

end OffsetForm

namespace SingleTransfer

variable {β : Type} [Bus β] {word : UInt32} {t : SingleTransfer}

omit [Bus β] in
/-- Nothing is stored with a sign. -/
theorem unsigned_of_store (form : ofWord word = some t) (stores : t.load = false) :
    t.width ≠ .signedByte := by
  have unsigned : ∀ offset, (plain word offset).width ≠ .signedByte := by
    intro offset
    unfold plain
    simp only
    split <;> nofun
  unfold ofWord at form
  repeat' split at form
  all_goals cases form
  · exact unsigned _
  · exact unsigned _
  · nofun
  · cases stores
  · cases stores

theorem execute_plain (m : Core β) (scaled : Bool) :
    let t := plain word (if scaled then .scaled else .immediate)
    m.execute word (.transfer t.load (bit word 22) t.indexing scaled) =
      m.transferRegister word (t.offset.value m.cpu word) t.indexing t.load t.width := by
  have offset : Core.wordOffset m.cpu word scaled =
      (if scaled then OffsetForm.scaled else .immediate).value m.cpu word := by
    cases scaled with
    | false => exact OffsetForm.wordOffset_immediate m.cpu word
    | true => exact OffsetForm.wordOffset_scaled m.cpu word
  dsimp only
  rw [plain, ← offset]
  rfl

theorem execute_narrow (m : Core β) (kind : HalfTransfer) :
    let t := narrow word kind.isLoad kind.width
    m.execute word (.halfTransfer kind t.indexing) =
      m.transferRegister word (t.offset.value m.cpu word) t.indexing t.load t.width := by
  dsimp only
  rw [Core.halfTransfer_eq, OffsetForm.halfOffset_eq]
  rfl

theorem execute_eq (form : ofWord word = some t) (m : Core β) :
    m.execute word (Opcode.ofWord word) =
      m.transferRegister word (t.offset.value m.cpu word) t.indexing t.load t.width := by
  unfold ofWord at form
  split at form
  · next top =>
    cases form
    rw [Opcode.ofWord_immediate word top, Opcode.ofTransfer_high]
    exact execute_plain m false
  · next top =>
    split at form
    · cases form
    · next direct =>
      cases form
      rw [Opcode.ofWord_scaled word top (Bool.eq_false_of_not_eq_true direct),
        Opcode.ofTransfer_high]
      exact execute_plain m true
  · next top =>
    have narrowed : ∀ code : UInt32, ((word >>> 4) &&& 0xF).toNat = code.toNat → code ≠ 9 →
        code &&& 9 = 9 → Opcode.ofWord word = _ := fun code low other ends =>
      (Opcode.ofWord_narrow word code top low other ends).trans (Opcode.ofHalfTransfer_high word code)
    split at form
    · next low =>
      cases form
      rw [narrowed 0xB low (by decide) (by decide)]
      cases bit word 20 with
      | true => exact execute_narrow m .loadHalf
      | false => exact execute_narrow m .storeHalf
    · next low =>
      split at form
      · next loads =>
        cases form
        rw [narrowed 0xD low (by decide) (by decide), loads]
        exact execute_narrow m .loadSignedByte
      · cases form
    · next low =>
      split at form
      · next loads =>
        cases form
        rw [narrowed 0xF low (by decide) (by decide), loads]
        exact execute_narrow m .loadSignedHalf
      · cases form
    · cases form
  · cases form

end SingleTransfer

end GbaArm
