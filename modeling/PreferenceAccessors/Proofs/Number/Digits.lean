import PreferenceAccessors.Proofs.Number.Narrowing

/-!
Significant digits. The decimal of a digit count lies within half a step of its
grid of the magnitude, a step being a power of ten set by the first digit.
Nine digits stay so close to a float that they are read back as the same.
-/

namespace PreferenceAccessors

namespace Decimal

theorem reduce_negative (negative : Bool) (coefficient : ℕ) (exponent : ℤ) :
    (reduce negative coefficient exponent).negative = negative := by
  fun_induction reduce negative coefficient exponent with
  | case1 => rfl
  | case2 _ _ _ _ ih => exact ih
  | case3 => rfl

theorem reduce_size (negative : Bool) (coefficient : ℕ) (exponent : ℤ) :
    (reduce negative coefficient exponent).size = coefficient * 10 ^ exponent := by
  fun_induction reduce negative coefficient exponent with
  | case1 => simp [size]
  | case2 coefficient exponent hne hmod ih =>
    obtain ⟨c, rfl⟩ := Nat.dvd_of_mod_eq_zero hmod
    rw [ih, Nat.mul_div_cancel_left _ (by decide), zpow_add_one₀ (by norm_num)]
    push_cast
    ring
  | case3 => rfl

end Decimal

namespace Binary

theorem ten_pow_leadingExponent_le {num den : ℕ} (hnum : 0 < num) (hden : 0 < den) :
    (10 : ℚ) ^ leadingExponent num den ≤ num / den := by
  have hdenQ : (0 : ℚ) < den := by exact_mod_cast hden
  unfold leadingExponent
  split_ifs with h
  · have hwhole : num / den ≠ 0 := (Nat.div_pos h hden).ne'
    have hpow := ten_pow_decimalLength_le _ hwhole
    rw [Nat.pow_eq, Nat.le_div_iff_mul_le hden] at hpow
    have hexp : (decimalLength (num / den) : ℤ) - 1 = (decimalLength (num / den) - 1 : ℕ) := by
      have := decimalLength_pos hwhole
      omega
    rw [hexp, zpow_natCast, le_div_iff₀ hdenQ]
    exact_mod_cast hpow
  · have hpow := lt_ten_pow_decimalLength ((den - 1) / num)
    rw [Nat.pow_eq, Nat.div_lt_iff_lt_mul hnum] at hpow
    have hle : den ≤ num * 10 ^ decimalLength ((den - 1) / num) := by
      rw [Nat.mul_comm]
      omega
    rw [zpow_neg, zpow_natCast, ← one_div, div_le_div_iff₀ (by positivity) hdenQ, one_mul]
    exact_mod_cast hle

theorem overTen_spec (units : ℕ) (exponent : ℤ) :
    0 < (overTen units exponent).2 ∧
      ((overTen units exponent).1 / (overTen units exponent).2 : ℚ) * 10 ^ exponent =
        units / unitsPerOne := by
  have hunits : 0 < unitsPerOne := by exact_mod_cast Decimal.unitsPerOne_pos
  unfold overTen
  split_ifs with h
  · obtain ⟨m, rfl⟩ := Int.eq_ofNat_of_zero_le h
    refine ⟨by simpa using hunits, ?_⟩
    simp only [Int.toNat_natCast, Nat.pow_eq, zpow_natCast]
    push_cast
    field_simp
  · obtain ⟨m, hm⟩ : ∃ m : ℕ, exponent = -(m : ℤ) := ⟨(-exponent).toNat, by omega⟩
    subst hm
    refine ⟨hunits, ?_⟩
    simp only [neg_neg, Int.toNat_natCast, Nat.pow_eq, zpow_neg, zpow_natCast]
    push_cast
    field_simp

theorem divideToNearest_abs (num : ℕ) {den : ℕ} (hden : 0 < den) :
    |(divideToNearest num den : ℚ) - num / den| ≤ 1 / 2 := by
  have hnear := divideToNearest_span num hden one_pos
  rw [Nat.mul_one, Nat.cast_one] at hnear
  rw [abs_le]
  constructor <;> linarith [hnear.above, hnear.below]

theorem toDigits_negative (negative : Bool) (units digits : ℕ) :
    (toDigits negative units digits).negative = negative :=
  Decimal.reduce_negative ..

theorem toDigits_zero (negative : Bool) (digits : ℕ) :
    toDigits negative 0 digits = ⟨negative, 0, 0⟩ := by
  have hnum : ∀ exponent, (overTen 0 exponent).1 = 0 := by
    intro exponent
    unfold overTen
    split_ifs <;> simp
  have hzero : ∀ den, divideToNearest 0 den = 0 := by
    intro den
    unfold divideToNearest
    simp
  simp only [toDigits, hnum, hzero]
  rw [Decimal.reduce, if_pos rfl]

theorem toDigits_error (negative : Bool) (units digits : ℕ) :
    |(toDigits negative units digits).size - units / unitsPerOne| ≤
      10 ^ (leadingExponent units unitsPerOne + 1 - digits) / 2 := by
  obtain ⟨hden, hquotient⟩ :=
    overTen_spec units (leadingExponent units unitsPerOne + 1 - digits)
  have hsize := Decimal.reduce_size negative
    (divideToNearest (overTen units (leadingExponent units unitsPerOne + 1 - digits)).1
      (overTen units (leadingExponent units unitsPerOne + 1 - digits)).2)
    (leadingExponent units unitsPerOne + 1 - digits)
  have hnear := divideToNearest_abs
    (overTen units (leadingExponent units unitsPerOne + 1 - digits)).1 hden
  have hpow : (0 : ℚ) < 10 ^ (leadingExponent units unitsPerOne + 1 - digits) := by positivity
  simp only [toDigits, hsize]
  rw [← hquotient, ← sub_mul, abs_mul, abs_of_pos hpow]
  linarith [mul_le_mul_of_nonneg_right hnear hpow.le]

theorem toDigits_relative (negative : Bool) {units : ℕ} (n : ℕ) (h : 0 < units) :
    |(toDigits negative units (n + 1)).size - units / unitsPerOne| ≤
      units / unitsPerOne / 10 ^ n / 2 := by
  have hunits : 0 < unitsPerOne := by exact_mod_cast Decimal.unitsPerOne_pos
  have hlead := ten_pow_leadingExponent_le h hunits
  have hstep : (10 : ℚ) ^ (leadingExponent units unitsPerOne + 1 - (n + 1 : ℕ)) =
      10 ^ leadingExponent units unitsPerOne / 10 ^ n := by
    rw [← zpow_natCast, ← zpow_sub₀ (by norm_num)]
    congr 1
    push_cast
    ring
  calc |(toDigits negative units (n + 1)).size - units / unitsPerOne|
      ≤ 10 ^ leadingExponent units unitsPerOne / 10 ^ n / 2 := by
        rw [← hstep]
        exact toDigits_error negative units (n + 1)
    _ ≤ units / unitsPerOne / 10 ^ n / 2 := by gcongr

theorem exists_rung_of_narrow {x : Binary} {negative : Bool} {units : ℕ}
    (h : x.narrow = .finite negative units) :
    ∃ k, single.rung k = units ∧ units < single.limit := by
  cases x with
  | nan => simp [narrow] at h
  | infinite _ => simp [narrow] at h
  | finite sign n =>
    obtain ⟨k, -, hround⟩ := BinaryFormat.single_bounded.round_spec sign n one_pos
    rw [narrow, hround, BinaryFormat.datum_eq_finite] at h
    obtain ⟨-, hk, hlt⟩ := h
    exact ⟨k, hk, hk ▸ hlt⟩

end Binary

namespace Decimal

/-- A quarter of the least gap around a float is at least its 2^26-th part. -/
theorem narrow_round_of_near (d : Decimal) {k : ℕ} (hrange : single.rung k < single.limit)
    (hnear : |d.size * unitsPerOne - single.rung k| ≤ single.rung k / 2 ^ 26) :
    (d.round double).narrow = .finite d.negative (single.rung k) := by
  have hs := BinaryFormat.single_bounded.toRegular
  obtain ⟨m, j, hm, -, hj, hnarrow⟩ := d.narrow_round_spec
  obtain ⟨hlow, hhigh⟩ := abs_le.mp hnear
  have hgap : ∀ i, (single.rung (i + 1) + 2 ^ 24 * single.rung i : ℚ) ≤
      2 ^ 24 * single.rung (i + 1) := by
    intro i
    have hle := hs.rung_succ_le i
    rw [BinaryFormat.single_precision] at hle
    exact_mod_cast hle
  have hk : single.RoundsTo (double.rung m) k := by
    refine BinaryFormat.roundsTo_of_quarter hm ?_ ?_
    · have hlt := hs.rung_lt (Nat.lt_add_one k)
      unfold BinaryFormat.quarter
      push_cast
      linarith [hgap k]
    · rintro i rfl
      unfold BinaryFormat.quarter
      push_cast
      linarith [hgap i]
  rw [hnarrow, hj.unique hk hs, BinaryFormat.datum_eq_finite]
  exact ⟨rfl, rfl, hrange⟩

/-- Nine significant digits of a float are read back as it. -/
theorem narrow_round_toDigits_nine (negative : Bool) {k : ℕ} (hpos : 0 < single.rung k)
    (hrange : single.rung k < single.limit) :
    ((Binary.toDigits negative (single.rung k) 9).round double).narrow =
      .finite negative (single.rung k) := by
  have herror := Binary.toDigits_relative negative 8 hpos
  have hsign := Binary.toDigits_negative negative (single.rung k) 9
  generalize Binary.toDigits negative (single.rung k) 9 = d at herror hsign ⊢
  have hvalue : (single.rung k / unitsPerOne : ℚ) * unitsPerOne = single.rung k :=
    div_mul_cancel₀ _ unitsPerOne_pos.ne'
  have hnear : |d.size * unitsPerOne - single.rung k| ≤ single.rung k / 2 ^ 26 := by
    calc |d.size * unitsPerOne - single.rung k|
        = |d.size - single.rung k / unitsPerOne| * unitsPerOne := by
          rw [← abs_of_pos unitsPerOne_pos, ← abs_mul, abs_of_pos unitsPerOne_pos, sub_mul, hvalue]
      _ ≤ single.rung k / unitsPerOne / 10 ^ 8 / 2 * unitsPerOne :=
          mul_le_mul_of_nonneg_right herror unitsPerOne_pos.le
      _ = single.rung k / 10 ^ 8 / 2 := by
          rw [← hvalue]
          field_simp
      _ ≤ single.rung k / 2 ^ 26 := by
          have hnonneg : (0 : ℚ) ≤ single.rung k := Nat.cast_nonneg _
          linarith
  rw [← hsign]
  exact d.narrow_round_of_near hrange hnear

end Decimal

end PreferenceAccessors
