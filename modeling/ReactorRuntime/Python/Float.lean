import Mathlib.Data.Rat.Floor

/-!
# Python floats

A finite float is the decimal number that `repr` writes for it, so two floats that are written
differently are different.  Every double is such a decimal; which decimals are doubles is left open,
so a number that is read or converted is not rounded to the nearest double.  It is infinite if it is
too large for one (`doubleBound`).
-/

namespace ReactorRuntime.Python

/-- The least integer that is too large for a double. -/
def doubleBound : ℕ := 2 ^ 1024 - 2 ^ 970

/-- The decimal number `digits * 10 ^ exponent`, with no zeros at the end of its digits. -/
structure Decimal where
  negative : Bool
  digits : ℕ
  exponent : ℤ
  normal : digits % 10 ≠ 0 ∨ digits = 0 ∧ exponent = 0
  bounded : digits * 10 ^ exponent.toNat < doubleBound * 10 ^ (-exponent).toNat
  deriving DecidableEq

inductive PyFloat where
  | finite (x : Decimal)
  | inf (negative : Bool)
  | nan
  deriving DecidableEq

namespace Decimal

/-- The number. -/
def toRat (x : Decimal) : ℚ :=
  let size : ℚ := x.digits * 10 ^ x.exponent.toNat / 10 ^ (-x.exponent).toNat
  if x.negative then -size else size

def stripZeros (digits : ℕ) (exponent : ℤ) : ℕ × ℤ :=
  if digits = 0 then (0, 0)
  else if digits % 10 = 0 then stripZeros (digits / 10) (exponent + 1)
  else (digits, exponent)
termination_by digits
decreasing_by omega

theorem stripZeros_of_normal {digits : ℕ} {exponent : ℤ}
    (h : digits % 10 ≠ 0 ∨ digits = 0 ∧ exponent = 0) :
    stripZeros digits exponent = (digits, exponent) := by
  rw [stripZeros]
  rcases h with h | ⟨rfl, rfl⟩
  · rw [if_neg (by omega), if_neg h]
  · rw [if_pos rfl]

theorem normal_stripZeros (digits : ℕ) (exponent : ℤ) :
    (stripZeros digits exponent).1 % 10 ≠ 0 ∨
      (stripZeros digits exponent).1 = 0 ∧ (stripZeros digits exponent).2 = 0 := by
  induction digits, exponent using stripZeros.induct with
  | case1 exponent =>
    right
    rw [stripZeros, if_pos rfl]
    exact ⟨rfl, rfl⟩
  | case2 digits exponent hzero hmod ih =>
    rw [stripZeros, if_neg hzero, if_pos hmod]
    exact ih
  | case3 digits exponent hzero hmod =>
    left
    rw [stripZeros, if_neg hzero, if_neg hmod]
    exact hmod

/-- An integer stays one without its zeros, and keeps its value. -/
theorem stripZeros_nonneg (digits : ℕ) {exponent : ℤ} (h : 0 ≤ exponent) :
    0 ≤ (stripZeros digits exponent).2 ∧
      (stripZeros digits exponent).1 * 10 ^ (stripZeros digits exponent).2.toNat =
        digits * 10 ^ exponent.toNat := by
  induction digits, exponent using stripZeros.induct with
  | case1 exponent =>
    rw [stripZeros, if_pos rfl]
    simp
  | case2 digits exponent hzero hmod ih =>
    rw [stripZeros, if_neg hzero, if_pos hmod]
    obtain ⟨hnonneg, hvalue⟩ := ih (by omega)
    refine ⟨hnonneg, hvalue.trans ?_⟩
    have hdigits : digits = digits / 10 * 10 := by omega
    have hexponent : (exponent + 1).toNat = exponent.toNat + 1 := by omega
    conv_rhs => rw [hdigits]
    rw [hexponent, pow_succ]
    ring
  | case3 digits exponent hzero hmod =>
    rw [stripZeros, if_neg hzero, if_neg hmod]
    exact ⟨h, rfl⟩

theorem stripZeros_mul_pow {digits : ℕ} {exponent : ℤ} (k : ℕ)
    (h : digits % 10 ≠ 0 ∨ digits = 0 ∧ exponent = 0) :
    stripZeros (digits * 10 ^ k) (exponent - k) = (digits, exponent) := by
  induction k with
  | zero => simpa using stripZeros_of_normal h
  | succ k ih =>
    by_cases hzero : digits = 0
    · have hexponent : exponent = 0 := by omega
      rw [hzero, hexponent, Nat.zero_mul, stripZeros, if_pos rfl]
    · have hpos : digits * 10 ^ (k + 1) ≠ 0 := by positivity
      have hmul : digits * 10 ^ (k + 1) = digits * 10 ^ k * 10 := by rw [pow_succ, Nat.mul_assoc]
      rw [stripZeros, if_neg hpos, hmul, if_pos (Nat.mul_mod_left _ _),
        Nat.mul_div_cancel _ (by norm_num)]
      rw [← ih]
      congr 1
      push_cast
      ring

end Decimal

namespace PyFloat

/-- Whether a float is neither infinite nor NaN. -/
def isFinite : PyFloat → Bool
  | finite _ => true
  | inf _ | nan => false

def ofDecimal (negative : Bool) (digits : ℕ) (exponent : ℤ) : PyFloat :=
  let number := Decimal.stripZeros digits exponent
  if h : number.1 * 10 ^ number.2.toNat < doubleBound * 10 ^ (-number.2).toNat then
    finite {
      negative
      digits := number.1
      exponent := number.2
      normal := Decimal.normal_stripZeros digits exponent
      bounded := h }
  else inf negative

/-- A decimal number with zeros at its end is read back without them. -/
theorem ofDecimal_mul_pow (x : Decimal) (k : ℕ) :
    ofDecimal x.negative (x.digits * 10 ^ k) (x.exponent - k) = finite x := by
  unfold ofDecimal
  simp only [Decimal.stripZeros_mul_pow k x.normal, x.bounded, dif_pos]

/-- An integer that is not too large is a finite float. -/
theorem isFinite_ofDecimal {negative : Bool} {n : ℕ} (h : n < doubleBound) :
    (ofDecimal negative n 0).isFinite := by
  obtain ⟨hexponent, hvalue⟩ := Decimal.stripZeros_nonneg n (le_refl (0 : ℤ))
  have hsmall : (Decimal.stripZeros n 0).1 * 10 ^ (Decimal.stripZeros n 0).2.toNat <
      doubleBound * 10 ^ (-(Decimal.stripZeros n 0).2).toNat := by
    rw [hvalue, Int.toNat_of_nonpos (neg_nonpos.mpr hexponent), Int.toNat_zero, pow_zero,
      Nat.mul_one, Nat.mul_one]
    exact h
  simp only [ofDecimal, hsmall, dif_pos, isFinite]

def isZero : PyFloat → Bool
  | finite x => x.digits = 0
  | inf _ | nan => false

def zero : PyFloat := ofDecimal false 0 0

end PyFloat

end ReactorRuntime.Python
