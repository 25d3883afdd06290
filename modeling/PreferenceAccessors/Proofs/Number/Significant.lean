import PreferenceAccessors.Proofs.Number.Digits

/-!
Significant digits. How many a decimal has depends on its size alone: it is the
length of the shortest coefficient that the size can be written with. Decimals
of a digit count that are no less than the first digit of a magnitude lie on one
grid, so none of them stands between the two points of the grid around it, and
`toDigits` takes the nearer of these.
-/

namespace PreferenceAccessors

theorem decimalLength_le_iff {m n : ℕ} : decimalLength m ≤ n ↔ m < 10 ^ n := by
  constructor
  · intro h
    exact (lt_ten_pow_decimalLength m).trans_le (Nat.pow_le_pow_right (by decide) h)
  · intro h
    by_cases hm : m = 0
    · simp [hm, decimalLength_zero]
    · have hle := (ten_pow_decimalLength_le m hm).trans_lt h
      rw [Nat.pow_eq, Nat.pow_lt_pow_iff_right (by decide)] at hle
      omega

namespace Decimal

theorem reduce_coefficient (negative : Bool) (coefficient : ℕ) (exponent : ℤ) :
    (reduce negative coefficient exponent).coefficient = 0 ∨
      (reduce negative coefficient exponent).coefficient % 10 ≠ 0 := by
  fun_induction reduce negative coefficient exponent with
  | case1 => exact .inl rfl
  | case2 _ _ _ _ ih => exact ih
  | case3 _ _ _ h => exact .inr h

/-- The significant digits, zeros at the end not counted. -/
def significant (d : Decimal) : ℕ :=
  decimalLength (reduce d.negative d.coefficient d.exponent).coefficient

theorem eq_mul_ten_pow {a b i : ℕ} {x : ℤ} (h : (a * 10 ^ x : ℚ) = b * 10 ^ (x + i)) :
    a = b * 10 ^ i := by
  rw [zpow_add₀ (by norm_num), mul_comm ((10 : ℚ) ^ x), ← mul_assoc,
    mul_left_inj' (by positivity), zpow_natCast] at h
  exact_mod_cast h

theorem significant_le_iff {d : Decimal} {n : ℕ} :
    d.significant ≤ n ↔ ∃ (c : ℕ) (x : ℤ), c < 10 ^ n ∧ d.size = c * 10 ^ x := by
  have hsize : (reduce d.negative d.coefficient d.exponent).size = d.size := reduce_size ..
  have hlast := reduce_coefficient d.negative d.coefficient d.exponent
  rw [significant, decimalLength_le_iff]
  generalize reduce d.negative d.coefficient d.exponent = r at hsize hlast
  constructor
  · exact fun h => ⟨r.coefficient, r.exponent, h, hsize.symm⟩
  · rintro ⟨c, x, hc, hx⟩
    rw [← hsize, size] at hx
    rcases lt_or_ge r.exponent x with hlt | hge
    · -- A coefficient that does not end in zero cannot be written with a larger power of ten.
      obtain ⟨i, rfl⟩ : ∃ i : ℕ, x = r.exponent + (i + 1 : ℕ) :=
        ⟨(x - r.exponent - 1).toNat, by omega⟩
      have hnat := eq_mul_ten_pow hx
      rcases hlast with hzero | hend
      · rw [hzero]
        positivity
      · rw [hnat, Nat.pow_succ, ← Nat.mul_assoc, Nat.mul_mod_left] at hend
        exact absurd rfl hend
    · obtain ⟨i, hi⟩ : ∃ i : ℕ, r.exponent = x + i := ⟨(r.exponent - x).toNat, by omega⟩
      rw [hi] at hx
      have hnat := eq_mul_ten_pow hx.symm
      exact (Nat.le_mul_of_pos_right _ (by positivity)).trans_lt (hnat ▸ hc)

theorem significant_congr {d e : Decimal} (h : d.size = e.size) : d.significant = e.significant := by
  refine le_antisymm (significant_le_iff.mpr ?_) (significant_le_iff.mpr ?_)
  · rw [h]
    exact significant_le_iff.mp le_rfl
  · rw [← h]
    exact significant_le_iff.mp le_rfl

theorem significant_pos {d : Decimal} (h : d.size ≠ 0) : 0 < d.significant := by
  by_contra hzero
  obtain ⟨c, x, hc, hsize⟩ := significant_le_iff.mp (not_lt.mp hzero)
  obtain rfl : c = 0 := by simpa using hc
  exact h (by simpa using hsize)

end Decimal

namespace Binary

theorem lt_ten_pow_leadingExponent {num den : ℕ} (hnum : 0 < num) (hden : 0 < den) :
    (num / den : ℚ) < 10 ^ (leadingExponent num den + 1) := by
  have hdenQ : (0 : ℚ) < den := by exact_mod_cast hden
  unfold leadingExponent
  split_ifs with h
  · have hpow := lt_ten_pow_decimalLength (num / den)
    rw [Nat.pow_eq, Nat.div_lt_iff_lt_mul hden] at hpow
    rw [sub_add_cancel, zpow_natCast, div_lt_iff₀ hdenQ]
    exact_mod_cast hpow
  · have hwhole : (den - 1) / num ≠ 0 := (Nat.div_pos (by omega) hnum).ne'
    have hpow := ten_pow_decimalLength_le _ hwhole
    rw [Nat.pow_eq, Nat.le_div_iff_mul_le hnum] at hpow
    have hlength := decimalLength_pos hwhole
    have hexp : -(decimalLength ((den - 1) / num) : ℤ) + 1 =
        -((decimalLength ((den - 1) / num) - 1 : ℕ) : ℤ) := by omega
    have hlt : 10 ^ (decimalLength ((den - 1) / num) - 1) * num < den := by omega
    rw [hexp, zpow_neg, zpow_natCast, ← one_div, div_lt_div_iff₀ hdenQ (by positivity), one_mul,
      mul_comm]
    exact_mod_cast hlt

theorem divideToNearest_cases (num den : ℕ) :
    divideToNearest num den = num / den ∨ divideToNearest num den = num / den + 1 := by
  unfold divideToNearest
  simp only
  split_ifs <;> omega

def gridExponent (units digits : ℕ) : ℤ := leadingExponent units unitsPerOne + 1 - digits

def gridStep (exponent : ℤ) : ℚ := 10 ^ exponent * unitsPerOne

def gridFloor (units : ℕ) (exponent : ℤ) : ℕ :=
  (overTen units exponent).1 / (overTen units exponent).2

def gridNearest (units : ℕ) (exponent : ℤ) : ℕ :=
  divideToNearest (overTen units exponent).1 (overTen units exponent).2

theorem gridStep_pos (exponent : ℤ) : 0 < gridStep exponent :=
  mul_pos (by positivity) Decimal.unitsPerOne_pos

theorem gridStep_add (exponent : ℤ) (n : ℕ) :
    gridStep (exponent + n) = 10 ^ n * gridStep exponent := by
  rw [gridStep, zpow_add₀ (by norm_num), zpow_natCast, gridStep]
  ring

theorem toDigits_size (negative : Bool) (units digits : ℕ) :
    (toDigits negative units digits).size =
      gridNearest units (gridExponent units digits) * 10 ^ gridExponent units digits :=
  Decimal.reduce_size ..

theorem toDigits_units (negative : Bool) (units digits : ℕ) :
    (toDigits negative units digits).size * unitsPerOne =
      gridNearest units (gridExponent units digits) * gridStep (gridExponent units digits) := by
  rw [toDigits_size, gridStep, mul_assoc]

section

variable {units digits : ℕ} {exponent : ℤ}

theorem overTen_den_pos (units : ℕ) (exponent : ℤ) : (0 : ℚ) < (overTen units exponent).2 := by
  exact_mod_cast (overTen_spec units exponent).1

theorem overTen_quotient (units : ℕ) (exponent : ℤ) :
    ((overTen units exponent).1 / (overTen units exponent).2 : ℚ) * gridStep exponent = units := by
  rw [gridStep, ← mul_assoc, (overTen_spec units exponent).2,
    div_mul_cancel₀ _ Decimal.unitsPerOne_pos.ne']

theorem overTen_mul_gridStep (units : ℕ) (exponent : ℤ) :
    ((overTen units exponent).1 : ℚ) * gridStep exponent =
      units * (overTen units exponent).2 := by
  have hden := (overTen_den_pos units exponent).ne'
  rw [← overTen_quotient units exponent]
  field_simp

theorem overTen_num_pos (hunits : 0 < units) (exponent : ℤ) :
    (0 : ℚ) < (overTen units exponent).1 := by
  have hunitsQ : (0 : ℚ) < units := by exact_mod_cast hunits
  refine pos_of_mul_pos_left ?_ (gridStep_pos exponent).le
  rw [overTen_mul_gridStep]
  exact mul_pos hunitsQ (overTen_den_pos units exponent)

def gapBelow (units : ℕ) (exponent : ℤ) : ℚ :=
  units - gridFloor units exponent * gridStep exponent

def gapAbove (units : ℕ) (exponent : ℤ) : ℚ :=
  (gridFloor units exponent + 1) * gridStep exponent - units

theorem overTen_eq (units : ℕ) (exponent : ℤ) :
    ((overTen units exponent).1 : ℚ) =
      gridFloor units exponent * (overTen units exponent).2 +
        ((overTen units exponent).1 % (overTen units exponent).2 : ℕ) := by
  exact_mod_cast (Nat.div_add_mod' _ _).symm

theorem gapBelow_mul_den (units : ℕ) (exponent : ℤ) :
    gapBelow units exponent * (overTen units exponent).2 =
      ((overTen units exponent).1 % (overTen units exponent).2 : ℕ) * gridStep exponent := by
  have hunits := overTen_mul_gridStep units exponent
  rw [overTen_eq] at hunits
  rw [gapBelow, sub_mul, ← hunits]
  ring

theorem gapAbove_mul_den (units : ℕ) (exponent : ℤ) :
    gapAbove units exponent * (overTen units exponent).2 =
      ((overTen units exponent).2 - (overTen units exponent).1 % (overTen units exponent).2 : ℕ) *
        gridStep exponent := by
  have hle := (Nat.mod_lt (overTen units exponent).1 (overTen_spec units exponent).1).le
  have hbelow := gapBelow_mul_den units exponent
  have hboth : gapAbove units exponent = gridStep exponent - gapBelow units exponent := by
    unfold gapAbove gapBelow
    ring
  rw [hboth, sub_mul, hbelow, Nat.cast_sub hle]
  ring

theorem gap_mul_num {gap : ℚ} {part : ℕ}
    (h : gap * (overTen units exponent).2 = part * gridStep exponent) :
    gap * (overTen units exponent).1 = part * units := by
  have hstep := (gridStep_pos exponent).ne'
  refine mul_right_cancel₀ hstep ?_
  rw [mul_assoc, overTen_mul_gridStep, mul_left_comm, h]
  ring

theorem gapBelow_nonneg (units : ℕ) (exponent : ℤ) : 0 ≤ gapBelow units exponent := by
  have hstep := gridStep_pos exponent
  refine nonneg_of_mul_nonneg_left ?_ (overTen_den_pos units exponent)
  rw [gapBelow_mul_den]
  positivity

theorem gapAbove_pos (units : ℕ) (exponent : ℤ) : 0 < gapAbove units exponent := by
  have hmod := Nat.mod_lt (overTen units exponent).1 (overTen_spec units exponent).1
  have hrest := Nat.sub_pos_of_lt hmod
  refine pos_of_mul_pos_left ?_ (overTen_den_pos units exponent).le
  rw [gapAbove_mul_den]
  exact mul_pos (by exact_mod_cast hrest) (gridStep_pos exponent)

theorem gridNearest_cases (units : ℕ) (exponent : ℤ) :
    (gridNearest units exponent = gridFloor units exponent ∧
        gapBelow units exponent ≤ gapAbove units exponent) ∨
      (gridNearest units exponent = gridFloor units exponent + 1 ∧
        gapAbove units exponent ≤ gapBelow units exponent) := by
  obtain ⟨habove, hbelow⟩ :=
    divideToNearest_span (overTen units exponent).1 (overTen_spec units exponent).1 one_pos
  rw [Nat.mul_one, Nat.cast_one, mul_one] at habove hbelow
  have hstep := gridStep_pos exponent
  have hunits := overTen_quotient units exponent
  have hhigh := mul_le_mul_of_nonneg_right habove hstep.le
  have hlow := mul_le_mul_of_nonneg_right hbelow hstep.le
  rcases divideToNearest_cases (overTen units exponent).1 (overTen units exponent).2 with h | h
  · refine .inl ⟨h, ?_⟩
    rw [h] at hhigh
    unfold gapBelow gapAbove gridFloor
    linarith
  · refine .inr ⟨h, ?_⟩
    rw [h, Nat.cast_succ] at hlow
    unfold gapBelow gapAbove gridFloor
    linarith

variable (hunits : 0 < units)
include hunits

theorem ten_pow_mul_gridStep_le (digits : ℕ) :
    10 ^ digits * gridStep (gridExponent units (digits + 1)) ≤ units := by
  have hone : 0 < unitsPerOne := by exact_mod_cast Decimal.unitsPerOne_pos
  have hlead := ten_pow_leadingExponent_le hunits hone
  rw [le_div_iff₀ Decimal.unitsPerOne_pos] at hlead
  have hexp : leadingExponent units unitsPerOne + 1 - (digits + 1 : ℕ) + digits =
      leadingExponent units unitsPerOne := by
    push_cast
    ring
  rw [← gridStep_add, gridExponent, gridStep, hexp]
  exact hlead

theorem lt_ten_pow_mul_gridStep (digits : ℕ) :
    units < 10 ^ digits * gridStep (gridExponent units digits) := by
  have hone : 0 < unitsPerOne := by exact_mod_cast Decimal.unitsPerOne_pos
  have hlead := lt_ten_pow_leadingExponent hunits hone
  rw [div_lt_iff₀ Decimal.unitsPerOne_pos] at hlead
  rw [← gridStep_add, gridExponent, gridStep, sub_add_cancel]
  exact hlead

theorem gridFloor_lt (digits : ℕ) :
    gridFloor units (gridExponent units digits) < 10 ^ digits := by
  have hstep := gridStep_pos (gridExponent units digits)
  have hlt := (sub_nonneg.mp (gapBelow_nonneg units (gridExponent units digits))).trans_lt
    (lt_ten_pow_mul_gridStep hunits digits)
  exact_mod_cast lt_of_mul_lt_mul_right hlt hstep.le

theorem significant_toDigits_le (negative : Bool) (digits : ℕ) :
    (toDigits negative units (digits + 1)).significant ≤ digits + 1 := by
  have hsize := toDigits_size negative units (digits + 1)
  set exponent := gridExponent units (digits + 1)
  have hfloor : gridFloor units exponent < 10 ^ (digits + 1) := gridFloor_lt hunits _
  have hnearest : gridNearest units exponent ≤ 10 ^ (digits + 1) := by
    rcases gridNearest_cases units exponent with ⟨h, -⟩ | ⟨h, -⟩ <;> omega
  rw [Decimal.significant_le_iff]
  rcases hnearest.lt_or_eq with hlt | heq
  · exact ⟨_, _, hlt, hsize⟩
  · refine ⟨1, exponent + (digits + 1 : ℕ), Nat.one_lt_pow (by omega) (by decide), ?_⟩
    rw [hsize, heq, zpow_add₀ (by norm_num), zpow_natCast]
    push_cast
    ring

/-- No decimal of so many digits lies between the points around a magnitude. -/
theorem le_gridFloor_or {d : Decimal} (hd : d.significant ≤ digits + 1) :
    d.size * unitsPerOne ≤ gridFloor units (gridExponent units (digits + 1)) *
        gridStep (gridExponent units (digits + 1)) ∨
      (gridFloor units (gridExponent units (digits + 1)) + 1) *
        gridStep (gridExponent units (digits + 1)) ≤ d.size * unitsPerOne := by
  set exponent := gridExponent units (digits + 1)
  have hstep := gridStep_pos exponent
  obtain ⟨c, x, hc, hsize⟩ := Decimal.significant_le_iff.mp hd
  have hscaled : d.size * unitsPerOne = c * gridStep x := by rw [hsize, gridStep, mul_assoc]
  rw [hscaled]
  rcases le_or_gt exponent x with hle | hlt
  · -- A point of the grid.
    obtain ⟨i, rfl⟩ : ∃ i : ℕ, x = exponent + i := ⟨(x - exponent).toNat, by omega⟩
    have hpoint : (c * gridStep (exponent + i) : ℚ) = (c * 10 ^ i : ℕ) * gridStep exponent := by
      rw [gridStep_add]
      push_cast
      ring
    rw [hpoint]
    rcases Nat.lt_or_ge (gridFloor units exponent) (c * 10 ^ i) with hgt | hge
    · exact .inr (mul_le_mul_of_nonneg_right (by exact_mod_cast hgt) hstep.le)
    · exact .inl (mul_le_mul_of_nonneg_right (by exact_mod_cast hge) hstep.le)
  · -- Too small for the first digit, which is a point of the grid itself.
    have hfirst : 10 ^ digits ≤ gridFloor units exponent := by
      have hlead := (ten_pow_mul_gridStep_le hunits digits).trans_lt
        (sub_pos.mp (gapAbove_pos units exponent))
      have hnat : 10 ^ digits < gridFloor units exponent + 1 := by
        exact_mod_cast lt_of_mul_lt_mul_right hlead hstep.le
      omega
    obtain ⟨i, hi⟩ : ∃ i : ℕ, exponent = x + (i + 1 : ℕ) := ⟨(exponent - x - 1).toNat, by omega⟩
    have hcoefficient : c ≤ 10 ^ digits * 10 ^ (i + 1) := by
      calc c ≤ 10 ^ (digits + 1) := hc.le
        _ = 10 ^ digits * 10 ^ 1 := Nat.pow_add ..
        _ ≤ 10 ^ digits * 10 ^ (i + 1) := by gcongr <;> omega
    refine .inl ?_
    calc (c * gridStep x : ℚ) ≤ (10 ^ digits * 10 ^ (i + 1) : ℕ) * gridStep x :=
          mul_le_mul_of_nonneg_right (by exact_mod_cast hcoefficient) (gridStep_pos x).le
      _ = 10 ^ digits * gridStep exponent := by
          rw [hi, gridStep_add]
          push_cast
          ring
      _ ≤ gridFloor units exponent * gridStep exponent :=
          mul_le_mul_of_nonneg_right (by exact_mod_cast hfirst) hstep.le

end

end Binary

end PreferenceAccessors
