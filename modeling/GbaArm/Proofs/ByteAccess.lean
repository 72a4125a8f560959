import GbaArm.Memory
import Mathlib.Data.Nat.Digits.Defs

/-!
Words told by their bytes, and units of several bytes in an array: which bytes a store changes, and what
number a load reads.
-/
namespace GbaArm

/-- Byte `i` of a word, counted from the lowest. -/
def byteOf (word : UInt32) (i : Nat) : UInt8 := (word >>> (8 * i).toUInt32).toUInt8

/-- The bytes of a word are its digits in base 256. -/
theorem toNat_byteOf (word : UInt32) {i : Nat} (hi : i < 4) :
    (byteOf word i).toNat = word.toNat / 256 ^ i % 256 := by
  have amount : (8 * i).toUInt32.toNat % 32 = 8 * i := by
    simp only [Nat.toUInt32, UInt32.toNat_ofNat']
    omega
  rw [byteOf, UInt32.toNat_toUInt8, UInt32.toNat_shiftRight, amount, Nat.shiftRight_eq_div_pow,
    Nat.pow_mul]

/-- A word is known by its bytes. -/
theorem eq_of_byteOf {a b : UInt32} (same : ∀ i < 4, byteOf a i = byteOf b i) : a = b := by
  have digit : ∀ i < 4, a.toNat / 256 ^ i % 256 = b.toNat / 256 ^ i % 256 := fun i hi => by
    rw [← toNat_byteOf a hi, same i hi, toNat_byteOf b hi]
  have zero := digit 0 (by decide)
  have one := digit 1 (by decide)
  have two := digit 2 (by decide)
  have three := digit 3 (by decide)
  have := a.toNat_lt
  have := b.toNat_lt
  apply UInt32.toNat_inj.mp
  omega

theorem byteOf_and (a b : UInt32) (i : Nat) : byteOf (a &&& b) i = byteOf a i &&& byteOf b i := by
  rw [byteOf, UInt32.shiftRight_and, UInt32.toUInt8_and, byteOf, byteOf]

theorem byteOf_or (a b : UInt32) (i : Nat) : byteOf (a ||| b) i = byteOf a i ||| byteOf b i := by
  rw [byteOf, UInt32.shiftRight_or, UInt32.toUInt8_or, byteOf, byteOf]

/-- A byte moved up to a place stands there alone. -/
theorem byteOf_shiftLeft (data : UInt8) {i k : Nat} (hi : i < 4) (hk : k < 4) :
    byteOf (data.toUInt32 <<< (8 * k).toUInt32) i = if i = k then data else 0 := by
  have := data.toNat_lt
  have places : (8 * k).toUInt32.toNat % 32 = 8 * k := by
    simp only [Nat.toUInt32, UInt32.toNat_ofNat']
    omega
  rw [← UInt8.toNat_inj, toNat_byteOf _ hi, UInt32.toNat_shiftLeft, UInt8.toNat_toUInt32, places,
    Nat.shiftLeft_eq]
  obtain rfl | rfl | rfl | rfl : i = 0 ∨ i = 1 ∨ i = 2 ∨ i = 3 := by omega
  all_goals
    obtain rfl | rfl | rfl | rfl : k = 0 ∨ k = 1 ∨ k = 2 ∨ k = 3 := by omega
    all_goals
      simp only [Nat.reduceMul, Nat.reducePow, Nat.reduceEqDiff, if_true, if_false, UInt8.toNat_zero]
      omega

/-- A byte moved up to the high half of a halfword loses no bit. -/
theorem toNat_highByte (byte : UInt8) : (byte.toUInt16 <<< 8).toNat = byte.toNat <<< 8 := by
  have := byte.toNat_lt
  rw [UInt16.toNat_shiftLeft, UInt8.toNat_toUInt16]
  refine Nat.mod_eq_of_lt ?_
  rw [Nat.shiftLeft_eq]
  show byte.toNat * 256 < 65536
  omega

/-- Two bytes side by side. -/
theorem toNat_joinBytes (low high : UInt8) :
    (low.toUInt16 ||| high.toUInt16 <<< 8).toNat = low.toNat + 256 * high.toNat := by
  rw [UInt16.toNat_or, toNat_highByte, UInt8.toNat_toUInt16, Nat.or_comm,
    ← Nat.shiftLeft_add_eq_or_of_lt low.toNat_lt, Nat.shiftLeft_eq]
  omega

/-- A halfword as a word has nothing above its two bytes. -/
theorem byteOf_half (data : UInt16) {i : Nat} (low : 2 ≤ i) (high : i < 4) :
    byteOf data.toUInt32 i = 0 := by
  have := data.toNat_lt
  rw [← UInt8.toNat_inj, toNat_byteOf _ high, UInt16.toNat_toUInt32]
  obtain rfl | rfl : i = 2 ∨ i = 3 := by omega
  all_goals simp only [Nat.reducePow, UInt8.toNat_zero]; omega

theorem byteOf_half_low (data : UInt16) :
    byteOf data.toUInt32 0 = data.toUInt8 ∧ byteOf data.toUInt32 1 = (data >>> 8).toUInt8 := by
  rw [← UInt8.toNat_inj, ← UInt8.toNat_inj, toNat_byteOf _ (by decide), toNat_byteOf _ (by decide),
    UInt16.toNat_toUInt32, UInt16.toNat_toUInt8, UInt16.toNat_toUInt8, UInt16.toNat_shiftRight,
    Nat.shiftRight_eq_div_pow, Nat.pow_zero, Nat.div_one]
  exact ⟨rfl, rfl⟩

theorem toUInt16_eq_bytes (word : UInt32) :
    word.toUInt16 = (byteOf word 0).toUInt16 ||| (byteOf word 1).toUInt16 <<< 8 := by
  rw [← UInt16.toNat_inj, toNat_joinBytes, toNat_byteOf _ (by decide), toNat_byteOf _ (by decide),
    UInt32.toNat_toUInt16]
  omega

theorem byteOf_highHalf (word : UInt32) {i : Nat} (hi : i < 2) :
    byteOf (word >>> 16) i = byteOf word (i + 2) := by
  have moved : (word >>> 16).toNat = word.toNat / 65536 := by
    rw [UInt32.toNat_shiftRight, Nat.shiftRight_eq_div_pow]
    rfl
  rw [← UInt8.toNat_inj, toNat_byteOf _ (by omega), toNat_byteOf _ (by omega), moved, Nat.div_div_eq_div_mul,
    Nat.pow_add, Nat.mul_comm]

/-- Four bytes side by side. -/
theorem byteOf_compose (byte : Nat → UInt8) {i : Nat} (hi : i < 4) :
    byteOf ((byte 0).toUInt32 ||| (byte 1).toUInt32 <<< 8 ||| (byte 2).toUInt32 <<< 16 |||
      (byte 3).toUInt32 <<< 24) i = byte i := by
  have zero : byteOf (byte 0).toUInt32 i = if i = 0 then byte 0 else 0 := by
    simpa using byteOf_shiftLeft (byte 0) hi (k := 0) (by decide)
  have one : byteOf ((byte 1).toUInt32 <<< 8) i = if i = 1 then byte 1 else 0 :=
    byteOf_shiftLeft (byte 1) hi (k := 1) (by decide)
  have two : byteOf ((byte 2).toUInt32 <<< 16) i = if i = 2 then byte 2 else 0 :=
    byteOf_shiftLeft (byte 2) hi (k := 2) (by decide)
  have three : byteOf ((byte 3).toUInt32 <<< 24) i = if i = 3 then byte 3 else 0 :=
    byteOf_shiftLeft (byte 3) hi (k := 3) (by decide)
  rw [byteOf_or, byteOf_or, byteOf_or, zero, one, two, three]
  obtain rfl | rfl | rfl | rfl : i = 0 ∨ i = 1 ∨ i = 2 ∨ i = 3 := by omega
  all_goals simp

/-- Two halfwords side by side. -/
theorem byteOf_halves {low high : UInt32} (hl : low.toNat < 65536) (hh : high.toNat < 65536) {i : Nat}
    (hi : i < 4) : byteOf (low ||| high <<< 16) i = byteOf (if i < 2 then low else high) (i % 2) := by
  have moved : (high <<< 16).toNat = high.toNat <<< 16 := by
    rw [UInt32.toNat_shiftLeft]
    refine Nat.mod_eq_of_lt ?_
    rw [Nat.shiftLeft_eq]
    show high.toNat * 65536 < 4294967296
    omega
  have sum : (low ||| high <<< 16).toNat = low.toNat + 65536 * high.toNat := by
    rw [UInt32.toNat_or, moved, Nat.or_comm, ← Nat.shiftLeft_add_eq_or_of_lt (b := low.toNat) hl,
      Nat.shiftLeft_eq]
    omega
  rw [← UInt8.toNat_inj, toNat_byteOf _ hi, toNat_byteOf _ (by omega), sum]
  split
  · obtain rfl | rfl : i = 0 ∨ i = 1 := by omega
    all_goals simp only [Nat.reduceMod, Nat.reducePow]; omega
  · obtain rfl | rfl : i = 2 ∨ i = 3 := by omega
    all_goals simp only [Nat.reduceMod, Nat.reducePow]; omega

theorem Width.bytes_pos (width : Width) : 0 < width.bytes := by cases width <;> decide

namespace Bytes

variable {bytes : ByteArray} {width : Width} {offset : Nat}

@[simp] theorem size_extend (byte : UInt8) (n : Nat) (start : ByteArray) :
    (extend byte n start).size = start.size + n := by
  induction n generalizing start with
  | zero => rfl
  | succ n ih => rw [extend, ih, ByteArray.size_push]; omega

@[simp] theorem size_filled (n : Nat) (byte : UInt8) : (filled n byte).size = n := by
  rw [filled, size_extend]
  exact Nat.zero_add n

theorem get_of_size_le {i : Nat} (beyond : bytes.size ≤ i) : get bytes i = 0 :=
  dif_neg (Nat.not_lt.mpr beyond)

theorem get_push (start : ByteArray) (byte : UInt8) (i : Nat) :
    get (start.push byte) i = if i = start.size then byte else get start i := by
  have pushed : (start.push byte).data = start.data.push byte := ByteArray.data_push ..
  show (start.push byte).data.getD i 0 = if i = start.data.size then byte else start.data.getD i 0
  rw [pushed, Array.getD_eq_getD_getElem?, Array.getD_eq_getD_getElem?, Array.getElem?_push]
  split <;> rfl

theorem get_extend (byte : UInt8) (n : Nat) (start : ByteArray) (i : Nat) :
    get (extend byte n start) i =
      if start.size ≤ i ∧ i < start.size + n then byte else get start i := by
  induction n generalizing start with
  | zero => rw [if_neg (by omega), extend]
  | succ n ih =>
    rw [extend, ih, ByteArray.size_push, get_push]
    split
    · rw [if_pos (by omega)]
    · split
      · rw [if_pos (by omega)]
      · rw [if_neg (by omega)]

theorem get_extend_zero (n : Nat) (start : ByteArray) (i : Nat) :
    get (extend 0 n start) i = get start i := by
  rw [get_extend]
  split
  · next inside => exact (get_of_size_le inside.1).symm
  · rfl

theorem get_filled {n i : Nat} (inside : i < n) (byte : UInt8) : get (filled n byte) i = byte := by
  rw [filled, get_extend]
  exact if_pos ⟨Nat.zero_le i, Nat.lt_of_lt_of_eq inside (Nat.zero_add n).symm⟩

theorem get_filled_zero (n i : Nat) : get (filled n 0) i = 0 := get_extend_zero n _ i

theorem data_set (bytes : ByteArray) (i : Nat) (value : UInt8) :
    (set bytes i value).data = bytes.data.setIfInBounds i value := by
  by_cases inside : i < bytes.size
  · rw [set, dif_pos inside, Array.setIfInBounds, dif_pos (show i < bytes.data.size from inside)]
    rfl
  · rw [set, dif_neg inside, Array.setIfInBounds, dif_neg (show ¬ i < bytes.data.size from inside)]

@[simp] theorem size_set (bytes : ByteArray) (i : Nat) (value : UInt8) :
    (set bytes i value).size = bytes.size := by
  rw [← ByteArray.size_data, data_set, Array.size_setIfInBounds, ByteArray.size_data]

theorem get_set_self {i : Nat} (inside : i < bytes.size) (value : UInt8) :
    get (set bytes i value) i = value := by
  show (set bytes i value).data.getD i 0 = value
  rw [data_set, Array.getD_eq_getD_getElem?, Array.getElem?_setIfInBounds_self_of_lt inside]
  rfl

theorem get_set_other {i j : Nat} (other : i ≠ j) (value : UInt8) :
    get (set bytes i value) j = get bytes j := by
  show (set bytes i value).data.getD j 0 = bytes.data.getD j 0
  rw [data_set, Array.getD_eq_getD_getElem?, Array.getElem?_setIfInBounds_ne other,
    Array.getD_eq_getD_getElem?]

@[simp] theorem size_store (width : Width) (bytes : ByteArray) (offset : Nat) (value : UInt32) :
    (store width bytes offset value).size = bytes.size := by
  unfold store
  split
  · cases width <;> simp
  · rfl

theorem get_store_outside (value : UInt32) {j : Nat}
    (outside : j < offset ∨ offset + width.bytes ≤ j) :
    get (store width bytes offset value) j = get bytes j := by
  unfold store
  split
  · cases width with
    | byte =>
      simp only [Width.bytes] at outside
      exact get_set_other (by omega) _
    | half =>
      simp only [Width.bytes] at outside
      rw [get_set_other (by omega), get_set_other (by omega)]
    | word =>
      simp only [Width.bytes] at outside
      rw [get_set_other (by omega), get_set_other (by omega), get_set_other (by omega),
        get_set_other (by omega)]
  · rfl

/-- A store that fits puts each byte of the value in its place. -/
theorem get_store_inside (fits : offset + width.bytes ≤ bytes.size) (value : UInt32) {i : Nat}
    (inside : i < width.bytes) :
    get (store width bytes offset value) (offset + i) = byteOf value i := by
  have lowest : value.toUInt8 = byteOf value 0 := by simp [byteOf]
  unfold store
  rw [if_pos fits]
  cases width with
  | byte =>
    simp only [Width.bytes] at fits inside
    obtain rfl : i = 0 := by omega
    exact (get_set_self (by omega) _).trans lowest
  | half =>
    simp only [Width.bytes] at fits inside
    obtain rfl | rfl : i = 0 ∨ i = 1 := by omega
    · rw [get_set_other (by omega)]
      exact (get_set_self (by omega) _).trans lowest
    · exact get_set_self (by simp only [size_set]; omega) _
  | word =>
    simp only [Width.bytes] at fits inside
    obtain rfl | rfl | rfl | rfl : i = 0 ∨ i = 1 ∨ i = 2 ∨ i = 3 := by omega
    · rw [get_set_other (by omega), get_set_other (by omega), get_set_other (by omega)]
      exact (get_set_self (by omega) _).trans lowest
    · rw [get_set_other (by omega), get_set_other (by omega)]
      exact get_set_self (by simp only [size_set]; omega) _
    · rw [get_set_other (by omega)]
      exact get_set_self (by simp only [size_set]; omega) _
    · exact get_set_self (by simp only [size_set]; omega) _

theorem load_of_fits (fits : offset + width.bytes ≤ bytes.size) :
    load width bytes offset = some ((load width bytes offset).getD 0) := by
  rw [load, if_pos fits]
  rfl

/-- A byte above `k` bits adds up with the number below it. -/
theorem toNat_or_byte {low : UInt32} {k n : Nat} (hk : k ≤ 24) (hn : low.toNat = n)
    (small : n < 2 ^ k) (high : UInt8) :
    (low ||| high.toUInt32 <<< k.toUInt32).toNat = n + 2 ^ k * high.toNat := by
  have shift : k.toUInt32.toNat % 32 = k := by simp [Nat.toUInt32]; omega
  have fits : high.toNat <<< k < 2 ^ 32 := by
    rw [Nat.shiftLeft_eq]
    calc high.toNat * 2 ^ k < 2 ^ 8 * 2 ^ k :=
          Nat.mul_lt_mul_of_pos_right high.toNat_lt (Nat.two_pow_pos k)
      _ = 2 ^ (8 + k) := (Nat.pow_add ..).symm
      _ ≤ 2 ^ 32 := Nat.pow_le_pow_right (by decide) (by omega)
  rw [UInt32.toNat_or, UInt32.toNat_shiftLeft, UInt8.toNat_toUInt32, shift, Nat.mod_eq_of_lt fits, hn,
    Nat.or_comm, ← Nat.shiftLeft_add_eq_or_of_lt small, Nat.shiftLeft_eq, Nat.mul_comm, Nat.add_comm]

/-- A load that fits reads the number that its bytes write in base 256, the lowest first. -/
theorem toNat_load (fits : offset + width.bytes ≤ bytes.size) :
    ((load width bytes offset).getD 0).toNat =
      Nat.ofDigits 256 ((List.range width.bytes).map fun i => (get bytes (offset + i)).toNat) := by
  have zero := (get bytes (offset + 0)).toNat_lt
  have one := (get bytes (offset + 1)).toNat_lt
  have two := (get bytes (offset + 2)).toNat_lt
  have half := toNat_or_byte (k := 8) (by decide) (UInt8.toNat_toUInt32 _) zero (get bytes (offset + 1))
  unfold load
  rw [if_pos fits]
  cases width with
  | byte => exact (UInt8.toNat_toUInt32 _).trans (Nat.ofDigits_singleton ..).symm
  | half =>
    refine half.trans ?_
    simp [Width.bytes, List.range_succ, Nat.ofDigits_cons]
  | word =>
    have third := toNat_or_byte (k := 16) (by decide) half (by omega) (get bytes (offset + 2))
    have fourth := toNat_or_byte (k := 24) (by decide) third (by omega) (get bytes (offset + 3))
    refine fourth.trans ?_
    simp [Width.bytes, List.range_succ, Nat.ofDigits_cons]
    omega

/-- A load that fits has each byte of its unit in its place. -/
theorem byteOf_load (fits : offset + width.bytes ≤ bytes.size) {i : Nat} (inside : i < width.bytes) :
    byteOf ((load width bytes offset).getD 0) i = get bytes (offset + i) := by
  have small : width.bytes ≤ 4 := by cases width <;> decide
  have bounded : ∀ l ∈ (List.range width.bytes).map fun k => (get bytes (offset + k)).toNat, l < 256 := by
    intro l hl
    obtain ⟨k, -, rfl⟩ := List.mem_map.mp hl
    exact UInt8.toNat_lt _
  have digits : (List.range width.bytes).drop i = i :: (List.range width.bytes).drop (i + 1) := by
    rw [List.drop_eq_getElem_cons (by simpa using inside), List.getElem_range]
  rw [← UInt8.toNat_inj, toNat_byteOf _ (by omega), toNat_load fits,
    Nat.ofDigits_div_pow_eq_ofDigits_drop i (by decide) _ bounded, ← List.map_drop, digits,
    List.map_cons, Nat.ofDigits_cons, Nat.add_mul_mod_self_left]
  exact Nat.mod_eq_of_lt (UInt8.toNat_lt _)

end Bytes

end GbaArm
