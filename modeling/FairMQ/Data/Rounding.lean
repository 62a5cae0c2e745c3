import FairMQ.Data.Binary64
import Mathlib.Order.Nat

namespace FairMQ.Data

def spacing (digits number : Nat) : Nat :=
  2 ^ (number.log2 + 1 - digits)

def rounded (digits number : Nat) : Nat :=
  Binary64.halfEven number (spacing digits number) * spacing digits number

def toFloat (number : Nat) : Nat :=
  rounded 24 number

example : toFloat (2 ^ 24 + 1) = 2 ^ 24 ∧ toFloat (2 ^ 24 + 3) = 2 ^ 24 + 4 := by decide

theorem spacing_pos (digits number : Nat) : 0 < spacing digits number :=
  Nat.two_pow_pos _

section HalfEven

variable {denominator : Nat}

theorem halfEven_of_small (quotient : Nat) {rest : Nat} (small : 2 * rest < denominator) :
    Binary64.halfEven (quotient * denominator + rest) denominator = quotient := by
  have positive : 0 < denominator := by omega
  have isQuotient : (quotient * denominator + rest) / denominator = quotient := by
    rw [Nat.mul_comm, Nat.mul_add_div positive, Nat.div_eq_of_lt (by omega), Nat.add_zero]
  have isRest : (quotient * denominator + rest) % denominator = rest := by
    rw [Nat.mul_comm, Nat.mul_add_mod, Nat.mod_eq_of_lt (by omega)]
  simp only [Binary64.halfEven, isQuotient, isRest]
  rw [if_neg (by omega)]

theorem halfEven_mul (quotient : Nat) (positive : 0 < denominator) :
    Binary64.halfEven (quotient * denominator) denominator = quotient := by
  have exact := halfEven_of_small quotient (show 2 * 0 < denominator by omega)
  rwa [Nat.add_zero] at exact

theorem halfEven_bounds (numerator denominator : Nat) :
    numerator / denominator ≤ Binary64.halfEven numerator denominator ∧
      Binary64.halfEven numerator denominator ≤ numerator / denominator + 1 := by
  unfold Binary64.halfEven
  dsimp only
  split <;> omega

theorem halfEven_mono (denominator : Nat) {less more : Nat} (le : less ≤ more) :
    Binary64.halfEven less denominator ≤ Binary64.halfEven more denominator := by
  have quotients : less / denominator ≤ more / denominator := Nat.div_le_div_right le
  have lower := halfEven_bounds less denominator
  have upper := halfEven_bounds more denominator
  by_cases same : less / denominator = more / denominator
  · -- the same multiple below both: the rests are in order
    have lessSplit := Nat.div_add_mod less denominator
    have moreSplit := Nat.div_add_mod more denominator
    rw [same] at lessSplit
    unfold Binary64.halfEven
    dsimp only
    rw [same]
    split <;> split <;> omega
  · omega

end HalfEven

theorem rounded_of_split {digits number quotient rest : Nat}
    (split : number = quotient * spacing digits number + rest)
    (small : 2 * rest < spacing digits number) :
    rounded digits number = quotient * spacing digits number := by
  have falls := halfEven_of_small quotient small
  rw [← split] at falls
  rw [rounded, falls]

section Powers

variable {digits number exponent : Nat} (enough : 0 < digits)

include enough

theorem spacing_dvd_pow (log : number.log2 ≤ exponent) :
    ∃ factor, 2 ^ exponent = factor * spacing digits number := by
  refine ⟨2 ^ (exponent - (number.log2 + 1 - digits)), ?_⟩
  rw [spacing, ← Nat.pow_add]
  congr 1
  omega

theorem rounded_le_pow (below : number ≤ 2 ^ exponent) (log : number.log2 ≤ exponent) :
    rounded digits number ≤ 2 ^ exponent := by
  obtain ⟨factor, isFactor⟩ := spacing_dvd_pow enough log
  rw [isFactor] at below
  have mono := halfEven_mono (spacing digits number) below
  rw [halfEven_mul factor (spacing_pos _ _)] at mono
  rw [rounded, isFactor]
  exact Nat.mul_le_mul_right _ mono

theorem pow_le_rounded (above : 2 ^ exponent ≤ number) (log : number.log2 ≤ exponent) :
    2 ^ exponent ≤ rounded digits number := by
  obtain ⟨factor, isFactor⟩ := spacing_dvd_pow enough log
  rw [isFactor] at above
  have mono := halfEven_mono (spacing digits number) above
  rw [halfEven_mul factor (spacing_pos _ _)] at mono
  rw [rounded, isFactor]
  exact Nat.mul_le_mul_right _ mono

theorem rounded_mono {less more : Nat} (le : less ≤ more) :
    rounded digits less ≤ rounded digits more := by
  by_cases zero : less = 0
  · subst zero
    simp [rounded, Binary64.halfEven]
  · have some : more ≠ 0 := by omega
    have isLess := Nat.log2_self_le zero
    have logs : less.log2 ≤ more.log2 := (Nat.le_log2 some).mpr (Nat.le_trans isLess le)
    by_cases same : less.log2 = more.log2
    · have unit : spacing digits less = spacing digits more := by rw [spacing, same, spacing]
      rw [rounded, rounded, unit]
      exact Nat.mul_le_mul_right _ (halfEven_mono _ le)
    · -- a power of two lies between them
      have middle : 2 ^ (less.log2 + 1) ≤ 2 ^ more.log2 :=
        Nat.pow_le_pow_right (by decide) (by omega)
      have lower := rounded_le_pow enough (Nat.le_of_lt (Nat.lt_log2_self (n := less)))
        (Nat.le_succ _)
      have upper := pow_le_rounded enough (Nat.log2_self_le some) (Nat.le_refl _)
      omega

theorem rounded_add_small (some : number ≠ 0) {small : Nat}
    (lost : 2 * small < spacing digits number) :
    rounded digits (rounded digits number + small) = rounded digits number := by
  have lower := pow_le_rounded enough (Nat.log2_self_le some) (Nat.le_refl _)
  have upper := rounded_le_pow enough (Nat.le_of_lt (Nat.lt_log2_self (n := number)))
    (Nat.le_succ _)
  have power : 0 < 2 ^ number.log2 := Nat.two_pow_pos _
  by_cases inside : rounded digits number + small < 2 ^ (number.log2 + 1)
  · -- the sum stays between the same powers of two
    have log := (Nat.log2_eq_iff (by omega)).mpr
      ⟨Nat.le_trans lower (Nat.le_add_right _ small), inside⟩
    have unit : spacing digits (rounded digits number + small) = spacing digits number := by
      rw [spacing, log, spacing]
    have split : rounded digits number + small = Binary64.halfEven number (spacing digits number) *
        spacing digits (rounded digits number + small) + small := by
      rw [unit, rounded]
    rw [rounded_of_split split (by omega), unit, rounded]
  · -- the number was rounded up to the next power of two
    obtain ⟨factor, isFactor⟩ := spacing_dvd_pow enough (Nat.le_succ number.log2)
    have isPower : rounded digits number = 2 ^ (number.log2 + 1) := by
      refine Nat.le_antisymm upper ?_
      rw [rounded, isFactor] at inside ⊢
      refine Nat.mul_le_mul_right _ ?_
      by_contra fewer
      have next := Nat.mul_le_mul_right (spacing digits number) (Nat.not_le.mp fewer)
      rw [Nat.succ_mul] at next
      omega
    rw [isPower]
    have bound : spacing digits number ≤ 2 ^ (number.log2 + 1) :=
      Nat.pow_le_pow_right (by decide) (by omega)
    have log : (2 ^ (number.log2 + 1) + small).log2 = number.log2 + 1 := by
      refine (Nat.log2_eq_iff (by omega)).mpr ⟨Nat.le_add_right _ _, ?_⟩
      rw [Nat.pow_succ 2 (number.log2 + 1)]
      omega
    have wider : spacing digits number ≤ spacing digits (2 ^ (number.log2 + 1) + small) := by
      rw [spacing, spacing, log]
      exact Nat.pow_le_pow_right (by decide) (by omega)
    obtain ⟨multiple, isMultiple⟩ := spacing_dvd_pow enough (Nat.le_of_eq log)
    refine (rounded_of_split (congrArg (· + small) isMultiple) ?_).trans isMultiple.symm
    omega

end Powers

end FairMQ.Data
