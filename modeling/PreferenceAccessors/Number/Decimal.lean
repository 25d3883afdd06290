import PreferenceAccessors.Number.Binary

/-!
Decimal numbers: a sign, a coefficient and a power of ten. Reading one as a
binary datum rounds its exact value once; exponents far outside the range of a
double are answered without building their powers of ten.

The digits of a magnitude in units are exact: `toDigits` rounds to a given
number of significant digits, a tie to the even last digit, and `shortest` is
the decimal with the fewest digits that reads back, the nearest of those.
-/

namespace PreferenceAccessors

structure Decimal where
  negative : Bool
  coefficient : Nat
  exponent : Int
deriving DecidableEq, Repr

def decimalLength (n : Nat) : Nat :=
  if n = 0 then 0 else decimalLength (n / 10) + 1
termination_by n
decreasing_by omega

theorem decimalLength_zero : decimalLength 0 = 0 := by
  rw [decimalLength]; simp

theorem lt_ten_pow_decimalLength (n : Nat) : n < Nat.pow 10 (decimalLength n) := by
  induction n using Nat.strongRecOn with
  | ind n ih =>
    rw [decimalLength]
    split
    · simp_all
    · have := ih (n / 10) (by omega)
      rw [Nat.pow_eq] at this ⊢
      rw [Nat.pow_succ]
      omega

theorem ten_pow_decimalLength_le (n : Nat) (h : n ≠ 0) :
    Nat.pow 10 (decimalLength n - 1) ≤ n := by
  induction n using Nat.strongRecOn with
  | ind n ih =>
    rw [decimalLength]
    simp only [h, if_false, Nat.add_sub_cancel]
    by_cases hz : n / 10 = 0
    · rw [hz, decimalLength_zero, Nat.pow_eq]
      omega
    · have := ih (n / 10) (by omega) hz
      obtain ⟨k, hk⟩ : ∃ k, decimalLength (n / 10) = k + 1 := by
        refine ⟨decimalLength (n / 10) - 1, ?_⟩
        have : decimalLength (n / 10) ≠ 0 := by
          rw [decimalLength]; simp [hz]
        omega
      rw [hk] at this ⊢
      simp only [Nat.add_sub_cancel, Nat.pow_eq] at this ⊢
      rw [Nat.pow_succ]
      omega

def scaleByTen (n : Nat) (exponent : Int) : Nat × Nat :=
  if 0 ≤ exponent then (n * Nat.pow 10 exponent.toNat, 1) else (n, Nat.pow 10 (-exponent).toNat)

namespace Decimal

def magnitude (d : Decimal) : Int :=
  decimalLength d.coefficient + d.exponent

/-- No double is as large as 10^309, and all below 10^-330 round to zero. -/
def round (f : BinaryFormat) (d : Decimal) : Binary :=
  if d.coefficient = 0 then .finite d.negative 0
  else if 310 < d.magnitude then .infinite d.negative
  else if d.magnitude < -330 then .finite d.negative 0
  else
    let (num, den) := scaleByTen d.coefficient d.exponent
    f.round d.negative (unitsPerOne * num) den

def reduce (negative : Bool) (coefficient : Nat) (exponent : Int) : Decimal :=
  if coefficient = 0 then ⟨negative, 0, 0⟩
  else if coefficient % 10 = 0 then reduce negative (coefficient / 10) (exponent + 1)
  else ⟨negative, coefficient, exponent⟩
termination_by coefficient
decreasing_by omega

end Decimal

namespace Binary

def leadingExponent (num den : Nat) : Int :=
  if den ≤ num then (decimalLength (num / den) : Int) - 1
  else -(decimalLength ((den - 1) / num) : Int)

def overTen (units : Nat) (exponent : Int) : Nat × Nat :=
  if 0 ≤ exponent then (units, unitsPerOne * Nat.pow 10 exponent.toNat)
  else (units * Nat.pow 10 (-exponent).toNat, unitsPerOne)

def toDigits (negative : Bool) (units digits : Nat) : Decimal :=
  let exponent := leadingExponent units unitsPerOne + 1 - digits
  let (num, den) := overTen units exponent
  .reduce negative (divideToNearest num den) exponent

def readsBackOnGrid (negative : Bool) (units digits : Nat) : Option Decimal :=
  let exponent := leadingExponent units unitsPerOne + 1 - digits
  let (num, den) := overTen units exponent
  let below : Decimal := ⟨negative, num / den, exponent⟩
  let above : Decimal := ⟨negative, num / den + 1, exponent⟩
  let nearest : Decimal := ⟨negative, divideToNearest num den, exponent⟩
  let readsBack (d : Decimal) : Bool := d.round double == .finite negative units
  if readsBack nearest then some nearest
  else if readsBack below then some below
  else if readsBack above then some above
  else none

/-- Seventeen digits always read back as the same double. -/
def shortest (negative : Bool) (units : Nat) : Decimal :=
  if units = 0 then ⟨negative, 0, 0⟩
  else
    let found := (List.range 17).findSome? fun k => readsBackOnGrid negative units (k + 1)
    let d := found.getD (toDigits negative units 17)
    .reduce negative d.coefficient d.exponent

end Binary

end PreferenceAccessors
