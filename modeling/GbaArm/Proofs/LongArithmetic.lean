import GbaArm.Proofs.FlagArithmetic

/-! Numbers of several words, added and subtracted word by word with the flags handed on. -/
namespace GbaArm

/-- The value of words that are written lowest first. -/
def number (words : List UInt32) : Nat := Nat.ofDigits UInt32.size (words.map UInt32.toNat)

/-- The value of such words in two's complement. -/
def signedNumber (words : List UInt32) : Int :=
  if 2 * number words < UInt32.size ^ words.length then (number words : Int)
  else number words - ((UInt32.size ^ words.length : Nat) : Int)

theorem number_cons (w : UInt32) (ws : List UInt32) :
    number (w :: ws) = w.toNat + UInt32.size * number ws := Nat.ofDigits_cons

theorem number_lt (ws : List UInt32) : number ws < UInt32.size ^ ws.length := by
  have bound : ∀ x ∈ ws.map UInt32.toNat, x < UInt32.size := by
    intro x hx
    obtain ⟨w, _, rfl⟩ := List.mem_map.mp hx
    exact w.toNat_lt
  simpa [number] using Nat.ofDigits_lt_base_pow_length (by decide) bound

theorem signedNumber_one (w : UInt32) : signedNumber [w] = signed w := by
  rw [signedNumber, signed_eq, number_cons, List.length_singleton, Nat.pow_one, UInt32.size]
  simp only [number, List.map_nil, Nat.ofDigits_nil]
  split <;> split <;> omega

/-- A word below others only counts up from their value. -/
theorem signedNumber_cons (w : UInt32) {ws : List UInt32} (more : ws ≠ []) :
    signedNumber (w :: ws) = w.toNat + UInt32.size * signedNumber ws := by
  obtain ⟨v, vs, rfl⟩ := List.exists_cons_of_ne_nil more
  have := w.toNat_lt
  rw [signedNumber, signedNumber, number_cons, List.length_cons, Nat.pow_succ]
  generalize number (v :: vs) = value
  rw [List.length_cons, Nat.pow_succ]
  generalize UInt32.size ^ vs.length = base
  rw [UInt32.size]
  split <;> split <;> omega

theorem fits_cons (w : UInt32) (words : Nat) (x : Int) :
    Fits (words + 2) (w.toNat + UInt32.size * x) ↔ Fits (words + 1) x := by
  have := w.toNat_lt
  simp only [Fits, Nat.pow_succ]
  generalize UInt32.size ^ words = base
  rw [UInt32.size]
  omega

theorem number_complement (ws : List UInt32) :
    number (ws.map (~~~·)) + number ws + 1 = UInt32.size ^ ws.length := by
  induction ws with
  | nil => rfl
  | cons w ws ih =>
    have := w.toNat_lt
    rw [List.map_cons, number_cons, number_cons, List.length_cons, Nat.pow_succ, ← ih,
      UInt32.toNat_not, UInt32.size]
    omega

theorem signedNumber_complement {ws : List UInt32} (nonempty : ws ≠ []) :
    signedNumber (ws.map (~~~·)) = -1 - signedNumber ws := by
  obtain ⟨w, ws, rfl⟩ := List.exists_cons_of_ne_nil nonempty
  have complement := number_complement (w :: ws)
  rw [List.length_cons, Nat.pow_succ] at complement
  rw [signedNumber, signedNumber, List.length_map, List.length_cons, Nat.pow_succ]
  generalize number (w :: ws) = value at *
  generalize number ((w :: ws).map (~~~·)) = other at *
  generalize UInt32.size ^ ws.length = base at *
  rw [UInt32.size] at *
  split <;> split <;> omega

namespace Flags

/-- Works through two numbers from their lowest words up, with the flags handed on. -/
def chain (operation : Flags → UInt32 → UInt32 → UInt32 × Flags) :
    Flags → List UInt32 → List UInt32 → List UInt32 × Flags
  | f, x :: xs, y :: ys =>
    let low := operation f x y
    let high := chain operation low.2 xs ys
    (low.1 :: high.1, high.2)
  | f, _, _ => ([], f)

/-- One word of a sum and its carry. -/
theorem adc_split (f : Flags) (a b : UInt32) :
    (f.adc a b).1.toNat + UInt32.size * (f.adc a b).2.c.toNat = a.toNat + b.toNat + f.c.toNat := by
  have := a.toNat_lt
  have := b.toNat_lt
  have := Bool.toNat_le f.c
  rw [adc, toNat_sum, sum_c, toNat_carryBit, UInt32.size]
  by_cases h : 0x100000000 ≤ a.toNat + b.toNat + f.c.toNat <;> simp [h] <;> omega

theorem adc_v (f : Flags) (a b : UInt32) :
    (f.adc a b).2.v = decide (¬ Fits 1 (signed a + signed b + f.c.toNat)) := by
  rw [adc, sum_v a b _ f.carryBit_small, toNat_carryBit]

section
variable {operation : Flags → UInt32 → UInt32 → UInt32 × Flags} {xs ys : List UInt32}

theorem chain_sbc (f : Flags) (xs ys : List UInt32) :
    chain sbc f xs ys = chain adc f xs (ys.map (~~~·)) := by
  induction xs generalizing f ys with
  | nil => rfl
  | cons x xs ih =>
    cases ys with
    | nil => rfl
    | cons y ys => simp only [chain, List.map_cons, sbc_eq_adc, ih]

variable (same : xs.length = ys.length)
include same

theorem length_chain (f : Flags) : (chain operation f xs ys).1.length = xs.length := by
  induction xs generalizing f ys with
  | nil => simp [chain]
  | cons x xs ih =>
    obtain ⟨y, ys, rfl⟩ := List.exists_cons_of_length_eq_add_one same.symm
    simp [chain, ih (Nat.succ.inj same)]

/-- A chain of sums is the sum. -/
theorem number_chain (f : Flags) :
    number (chain adc f xs ys).1 + UInt32.size ^ xs.length * (chain adc f xs ys).2.c.toNat =
      number xs + number ys + f.c.toNat := by
  induction xs generalizing f ys with
  | nil =>
    obtain rfl := List.length_eq_zero_iff.mp same.symm
    simp [chain, number]
  | cons x xs ih =>
    obtain ⟨y, ys, rfl⟩ := List.exists_cons_of_length_eq_add_one same.symm
    -- The carry out of the low word is the carry into the others.
    have low := adc_split f x y
    have high := ih (Nat.succ.inj same) (f.adc x y).2
    simp only [chain, number_cons, List.length_cons, Nat.pow_succ]
    linarith

/-- The last word carries the sign. -/
theorem chain_n (nonempty : xs ≠ []) (f : Flags) :
    (chain adc f xs ys).2.n = decide (signedNumber (chain adc f xs ys).1 < 0) := by
  induction xs generalizing f ys with
  | nil => exact absurd rfl nonempty
  | cons x xs ih =>
    obtain ⟨y, ys, rfl⟩ := List.exists_cons_of_length_eq_add_one same.symm
    have length : (chain adc (f.adc x y).2 xs ys).1.length = xs.length :=
      length_chain (Nat.succ.inj same) _
    cases xs with
    | nil =>
      simp only [chain, signedNumber_one]
      exact sum_n x y _
    | cons _ _ =>
      have more : (chain adc (f.adc x y).2 (_ :: _) ys).1 ≠ [] :=
        List.ne_nil_of_length_eq_add_one length
      have high := ih (Nat.succ.inj same) (List.cons_ne_nil _ _) (f.adc x y).2
      have := (f.adc x y).1.toNat_lt
      refine high.trans (decide_eq_decide.mpr ?_)
      rw [chain, signedNumber_cons _ more, UInt32.size]
      omega

/-- The last overflow is that of the whole sum. -/
theorem chain_v (nonempty : xs ≠ []) (f : Flags) : (chain adc f xs ys).2.v =
    decide (¬ Fits xs.length (signedNumber xs + signedNumber ys + f.c.toNat)) := by
  induction xs generalizing f ys with
  | nil => exact absurd rfl nonempty
  | cons x xs ih =>
    obtain ⟨y, ys, rfl⟩ := List.exists_cons_of_length_eq_add_one same.symm
    cases xs with
    | nil =>
      obtain rfl := List.length_eq_zero_iff.mp (Nat.succ.inj same).symm
      simp only [chain, signedNumber_one]
      exact adc_v f x y
    | cons x' xs =>
      have others : ys ≠ [] := List.ne_nil_of_length_eq_add_one (Nat.succ.inj same).symm
      have low := adc_split f x y
      have high := ih (Nat.succ.inj same) (List.cons_ne_nil _ _) (f.adc x y).2
      have total : signedNumber (x :: x' :: xs) + signedNumber (y :: ys) + f.c.toNat =
          (f.adc x y).1.toNat + UInt32.size *
            (signedNumber (x' :: xs) + signedNumber ys + (f.adc x y).2.c.toNat) := by
        rw [signedNumber_cons x (List.cons_ne_nil _ _), signedNumber_cons y others]
        rw [UInt32.size] at low ⊢
        omega
      rw [total]
      exact high.trans (decide_eq_decide.mpr (not_congr (fits_cons _ _ _).symm))

theorem number_chain_lt (f : Flags) :
    number (chain operation f xs ys).1 < UInt32.size ^ xs.length := by
  have bound := number_lt (chain operation f xs ys).1
  rwa [length_chain same f] at bound

theorem number_chain_mod (f : Flags) : number (chain adc f xs ys).1 =
    (number xs + number ys + f.c.toNat) % UInt32.size ^ xs.length := by
  rw [← number_chain same f, Nat.add_mul_mod_self_left]
  exact (Nat.mod_eq_of_lt (number_chain_lt same f)).symm

theorem chain_c (f : Flags) : (chain adc f xs ys).2.c =
    decide (UInt32.size ^ xs.length ≤ number xs + number ys + f.c.toNat) := by
  have small : number (chain adc f xs ys).1 < UInt32.size ^ xs.length := number_chain_lt same f
  rw [← number_chain same f]
  cases (chain adc f xs ys).2.c <;> simp [small]

/-- A chain of differences is the difference, and the carry says that nothing was borrowed. -/
theorem number_chain_sbc (f : Flags) : number (chain sbc f xs ys).1 + number ys + (!f.c).toNat =
    number xs + UInt32.size ^ xs.length * (!(chain sbc f xs ys).2.c).toNat := by
  have mapped : xs.length = (ys.map (~~~·)).length := by rw [List.length_map, same]
  have total := number_chain mapped f
  have complement := number_complement ys
  rw [← chain_sbc] at total
  rw [← same] at complement
  generalize (chain sbc f xs ys).2.c = carry at *
  generalize f.c = before at *
  cases carry <;> cases before <;> simp at total ⊢ <;> omega

theorem number_chain_sbc_mod (f : Flags) : (number (chain sbc f xs ys).1 : Int) =
    ((number xs : Int) - number ys - (!f.c).toNat) % (UInt32.size ^ xs.length : Nat) := by
  have total := number_chain_sbc same f
  have small : number (chain sbc f xs ys).1 < UInt32.size ^ xs.length := number_chain_lt same f
  generalize UInt32.size ^ xs.length = modulus at *
  have exact : (number xs : Int) - number ys - (!f.c).toNat = number (chain sbc f xs ys).1 +
      (modulus : Int) * -((!(chain sbc f xs ys).2.c).toNat : Int) := by
    zify at total
    linarith
  rw [exact, Int.add_mul_emod_self_left]
  exact (Int.emod_eq_of_lt (by omega) (by omega)).symm

theorem chain_sbc_c (f : Flags) :
    (chain sbc f xs ys).2.c = decide (number ys + (!f.c).toNat ≤ number xs) := by
  have total := number_chain_sbc same f
  have small : number (chain sbc f xs ys).1 < UInt32.size ^ xs.length := number_chain_lt same f
  generalize (chain sbc f xs ys).2.c = carry at *
  cases carry <;> simp at total ⊢ <;> omega

theorem chain_sbc_n (nonempty : xs ≠ []) (f : Flags) :
    (chain sbc f xs ys).2.n = decide (signedNumber (chain sbc f xs ys).1 < 0) := by
  rw [chain_sbc]
  exact chain_n (by rw [List.length_map, same]) nonempty f

theorem chain_sbc_v (nonempty : xs ≠ []) (f : Flags) : (chain sbc f xs ys).2.v =
    decide (¬ Fits xs.length (signedNumber xs - signedNumber ys - (!f.c).toNat)) := by
  have others : ys ≠ [] := by
    rintro rfl
    exact nonempty (List.length_eq_zero_iff.mp same)
  have rest : signedNumber xs + (-1 - signedNumber ys) + f.c.toNat =
      signedNumber xs - signedNumber ys - (!f.c).toNat := by
    cases f.c <;> simp <;> omega
  rw [chain_sbc, chain_v (by rw [List.length_map, same]) nonempty f,
    signedNumber_complement others, rest]

end

/-- Words added from the lowest up, with no carry to begin with, give the sum modulo what so many
words hold, and words taken off with no borrow give the difference. The flags that are left are
those of the whole operation. -/
theorem chain_exact (f : Flags) {xs ys : List UInt32} (same : xs.length = ys.length)
    (nonempty : xs ≠ []) :
    let modulus := UInt32.size ^ xs.length
    (f.c = false →
      let sum := chain adc f xs ys
      sum.1.length = xs.length ∧
      number sum.1 = (number xs + number ys) % modulus ∧
      sum.2.c = decide (modulus ≤ number xs + number ys) ∧
      sum.2.n = decide (signedNumber sum.1 < 0) ∧
      sum.2.v = decide (¬ Fits xs.length (signedNumber xs + signedNumber ys))) ∧
    (f.c = true →
      let difference := chain sbc f xs ys
      difference.1.length = xs.length ∧
      (number difference.1 : Int) = ((number xs : Int) - number ys) % (modulus : Nat) ∧
      difference.2.c = decide (number ys ≤ number xs) ∧
      difference.2.n = decide (signedNumber difference.1 < 0) ∧
      difference.2.v = decide (¬ Fits xs.length (signedNumber xs - signedNumber ys))) := by
  intro modulus
  constructor
  · intro clear sum
    have value := number_chain_mod same f
    have carry := chain_c same f
    have overflow := chain_v same nonempty f
    rw [clear, Bool.toNat_false] at value carry overflow
    rw [Int.natCast_zero, Int.add_zero] at overflow
    exact ⟨length_chain same f, value, carry, chain_n same nonempty f, overflow⟩
  · intro set difference
    have value := number_chain_sbc_mod same f
    have carry := chain_sbc_c same f
    have overflow := chain_sbc_v same nonempty f
    rw [set, Bool.not_true, Bool.toNat_false] at value carry overflow
    rw [Int.natCast_zero, Int.sub_zero] at value overflow
    exact ⟨length_chain same f, value, carry, chain_sbc_n same nonempty f, overflow⟩

/-- The sum of the largest number of two words and one, and one taken off the smallest. -/
theorem chain_exact_extremes :
    let largest : List UInt32 := [0xFFFFFFFF, 0x7FFFFFFF]
    let smallest : List UInt32 := [0, 0x80000000]
    let one : List UInt32 := [1, 0]
    let set := clear.setCarryBit true
    largest.length = one.length ∧ largest ≠ [] ∧ smallest.length = one.length ∧ smallest ≠ [] ∧
    clear.c = false ∧ set.c = true ∧
    number (chain adc clear largest one).1 = number smallest ∧
    (chain adc clear largest one).2.c = false ∧ (chain adc clear largest one).2.v = true ∧
    number (chain sbc set smallest one).1 = number largest ∧
    (chain sbc set smallest one).2.c = true ∧ (chain sbc set smallest one).2.v = true := by
  intro largest smallest one set
  have carried : set.c = true := by decide
  obtain ⟨added, _⟩ :=
    chain_exact clear (show largest.length = one.length from rfl) (List.cons_ne_nil _ _)
  obtain ⟨_, taken⟩ :=
    chain_exact set (show smallest.length = one.length from rfl) (List.cons_ne_nil _ _)
  obtain ⟨_, sum, carry, _, overflow⟩ := added rfl
  obtain ⟨_, difference, carry', _, overflow'⟩ := taken carried
  refine ⟨rfl, List.cons_ne_nil _ _, rfl, List.cons_ne_nil _ _, rfl, carried, sum.trans ?_,
    carry.trans ?_, overflow.trans ?_, Int.ofNat_inj.mp (difference.trans ?_), carry'.trans ?_,
    overflow'.trans ?_⟩
  all_goals decide +kernel

end Flags

end GbaArm
