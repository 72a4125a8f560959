import GbaArm.Proofs.FlagArithmetic

/-!
The four bits into which the flags are packed are all that can be found out about them. The bits of the
flag words that carry no meaning never come to light, so flags that were packed and unpacked, on their own
or in a status word, serve as well as those that were kept.
-/
namespace GbaArm

/-- What may be asked of the flags. -/
inductive FlagRequest
  | setNZ (result : UInt32)
  | setNegative (word : UInt32)
  | setZero (word : UInt32)
  | setCarry (word : UInt32)
  | setCarryBit (set : Bool)
  | clearCarry
  | setOverflowBit (set : Bool)
  | unpack (word : UInt32)
  | add (a b : UInt32)
  | adc (a b : UInt32)
  | sub (a b : UInt32)
  | sbc (a b : UInt32)
  | cmp (a b : UInt32)
  | cmn (a b : UInt32)
  /-- Whether the condition of an instruction is met. -/
  | check (instruction : UInt32)

inductive FlagAnswer
  | nothing
  | result (word : UInt32)
  | verdict (holds : Bool)

/-- All that can be read off the flags. -/
structure FlagReadings where
  n : Bool
  z : Bool
  c : Bool
  v : Bool
  carryBit : UInt32
  borrowBit : UInt32
  nzcv : UInt32

namespace Flags

def readings (f : Flags) : FlagReadings := ⟨f.n, f.z, f.c, f.v, f.carryBit, f.borrowBit, f.nzcv⟩

/-- The answer to a request, and the flags it leaves. -/
def serve (f : Flags) : FlagRequest → FlagAnswer × Flags
  | .setNZ result => (.nothing, f.setNZ result)
  | .setNegative word => (.nothing, f.setNegative word)
  | .setZero word => (.nothing, f.setZero word)
  | .setCarry word => (.nothing, f.setCarry word)
  | .setCarryBit set => (.nothing, f.setCarryBit set)
  | .clearCarry => (.nothing, f.clearCarry)
  | .setOverflowBit set => (.nothing, f.setOverflowBit set)
  | .unpack word => (.nothing, ofNzcv word)
  | .add a b => (f.add a b).map .result id
  | .adc a b => (f.adc a b).map .result id
  | .sub a b => (f.sub a b).map .result id
  | .sbc a b => (f.sbc a b).map .result id
  | .cmp a b => (.nothing, f.cmp a b)
  | .cmn a b => (.nothing, f.cmn a b)
  | .check instruction => (.verdict ((Condition.ofWord instruction).holds f), f)

/-- The answers to a sequence of requests, each with what can be read afterwards. -/
def transcript (f : Flags) : List FlagRequest → List (FlagAnswer × FlagReadings)
  | [] => []
  | request :: rest =>
    ((f.serve request).1, (f.serve request).2.readings) :: (f.serve request).2.transcript rest

/-- All four flags are the same, whatever the words around them hold. -/
structure Alike (f g : Flags) : Prop where
  n : f.n = g.n
  z : f.z = g.z
  c : f.c = g.c
  v : f.v = g.v

variable {f g : Flags}

theorem Alike.refl (f : Flags) : Alike f f := ⟨rfl, rfl, rfl, rfl⟩

/-- Four flags in the top bits of a word. -/
def packed (n z c v : Bool) : UInt32 :=
  (if n then 0x80000000 else 0) ||| (if z then 0x40000000 else 0) |||
    (if c then 0x20000000 else 0) ||| (if v then 0x10000000 else 0)

theorem nzcv_eq_packed (f : Flags) : f.nzcv = packed f.n f.z f.c f.v := by
  rw [nzcv, n, c, v, masked_sign, masked_sign, masked_sign, masked_top, masked_top, masked_top]
  cases f.negative.toBitVec.msb <;> cases f.z <;> cases f.carry.toBitVec.msb <;>
    cases f.overflow.toBitVec.msb <;> decide

theorem packed_inj : ∀ n z c v n' z' c' v' : Bool, packed n z c v = packed n' z' c' v' →
    n = n' ∧ z = z' ∧ c = c' ∧ v = v' := by
  decide

theorem alike_iff : Alike f g ↔ f.nzcv = g.nzcv := by
  rw [nzcv_eq_packed, nzcv_eq_packed]
  constructor
  · rintro ⟨n, z, c, v⟩
    rw [n, z, c, v]
  · intro same
    obtain ⟨n, z, c, v⟩ := packed_inj _ _ _ _ _ _ _ _ same
    exact ⟨n, z, c, v⟩

example : Alike ⟨0x80000001, 7, 0x7FFFFFFF, 0xC0000000⟩ ⟨0xFFFFFFFF, 1, 0, 0x80000000⟩ :=
  alike_iff.mpr (by decide)

/-- Flags that come back out of a status word are the ones that went in, whatever else it holds. -/
theorem alike_ofNzcv (control : UInt8) : Alike (ofNzcv (f.nzcv ||| control.toUInt32)) f := by
  rw [alike_iff, nzcv_ofNzcv]
  apply eq_of_bits
  intro i hi
  have mask := getLsbD_nzcv i hi
  by_cases h : 28 ≤ i
  · have above : control.toBitVec.getLsbD i = false :=
      BitVec.getLsbD_of_ge _ _ (Nat.le_trans (by decide) h)
    simp [mask, h, above]
  · simp [getLsbD_nzcv_low f (Nat.lt_of_not_le h), mask, h]

namespace Alike

theorem carryBit (alike : Alike f g) : f.carryBit = g.carryBit := by
  rw [← UInt32.toNat_inj, toNat_carryBit, toNat_carryBit, alike.c]

theorem borrowBit (alike : Alike f g) : f.borrowBit = g.borrowBit := by
  rw [← UInt32.toNat_inj, toNat_borrowBit, toNat_borrowBit, alike.c]

theorem readings (alike : Alike f g) : f.readings = g.readings := by
  rw [Flags.readings, alike.n, alike.z, alike.c, alike.v, alike.carryBit, alike.borrowBit,
    alike_iff.mp alike, Flags.readings]

theorem holds (alike : Alike f g) (condition : Condition) : condition.holds f = condition.holds g := by
  cases condition <;> simp only [Condition.holds, alike.n, alike.z, alike.c, alike.v]

/-- Each request is answered alike and leaves the flags alike. -/
theorem serve (alike : Alike f g) (request : FlagRequest) :
    (f.serve request).1 = (g.serve request).1 ∧ Alike (f.serve request).2 (g.serve request).2 := by
  cases request with
  | setNZ result => exact ⟨rfl, rfl, rfl, alike.c, alike.v⟩
  | setNegative word => exact ⟨rfl, rfl, alike.z, alike.c, alike.v⟩
  | setZero word => exact ⟨rfl, alike.n, rfl, alike.c, alike.v⟩
  | setCarry word => exact ⟨rfl, alike.n, alike.z, rfl, alike.v⟩
  | setCarryBit set => exact ⟨rfl, alike.n, alike.z, rfl, alike.v⟩
  | clearCarry => exact ⟨rfl, alike.n, alike.z, rfl, alike.v⟩
  | setOverflowBit set => exact ⟨rfl, alike.n, alike.z, alike.c, rfl⟩
  | unpack word => exact ⟨rfl, .refl _⟩
  | add a b => exact ⟨rfl, .refl _⟩
  | sub a b => exact ⟨rfl, .refl _⟩
  | cmp a b => exact ⟨rfl, .refl _⟩
  | cmn a b => exact ⟨rfl, .refl _⟩
  -- These two look at the flags before they set them, but only at the carry.
  | adc a b =>
    have same : f.adc a b = g.adc a b := congrArg (sum a b) alike.carryBit
    rw [Flags.serve, Flags.serve, same]
    exact ⟨rfl, .refl _⟩
  | sbc a b =>
    have same : f.sbc a b = g.sbc a b := congrArg (difference a b) alike.borrowBit
    rw [Flags.serve, Flags.serve, same]
    exact ⟨rfl, .refl _⟩
  | check instruction => exact ⟨congrArg FlagAnswer.verdict (alike.holds _), alike⟩

theorem transcript (alike : Alike f g) (requests : List FlagRequest) :
    f.transcript requests = g.transcript requests := by
  induction requests generalizing f g with
  | nil => rfl
  | cons request rest ih =>
    obtain ⟨answer, left⟩ := alike.serve request
    rw [Flags.transcript, Flags.transcript, answer, left.readings, ih left]

end Alike

/-- Flags that are packed into the same bits, and only those, answer every sequence of requests alike and
are read alike after each. So flags that are put back after they were packed answer as they would have, and
those that a processor takes from a saved status word too, in whatever state it is. -/
theorem transcript_eq_iff (f g : Flags) :
    (f.nzcv = g.nzcv ↔ ∀ requests, f.transcript requests = g.transcript requests) ∧
    (∀ requests, (ofNzcv f.nzcv).transcript requests = f.transcript requests) ∧
    ∀ (c : Cpu) (control : UInt8) (requests : List FlagRequest),
      (c.setStatus (f.nzcv ||| control.toUInt32)).flags.transcript requests =
        f.transcript requests := by
  refine ⟨⟨fun same => (alike_iff.mpr same).transcript, fun agree => ?_⟩, fun requests => ?_,
    fun c control => (alike_ofNzcv control).transcript⟩
  · have first := agree [.check 0]
    exact congrArg FlagReadings.nzcv (congrArg Prod.snd (List.cons.inj first).1)
  · have whole : f.nzcv ||| (0 : UInt8).toUInt32 = f.nzcv := UInt32.or_zero
    exact whole ▸ (alike_ofNzcv 0).transcript requests

end Flags

end GbaArm
