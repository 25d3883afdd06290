import PreferenceAccessors.Proofs.Number.Rounding
import PreferenceAccessors.Number.Decimal

/-!
The two formats as formats of magnitudes: both are regular, their limits are
magnitudes, and every decimal is rounded once to either.
-/

namespace PreferenceAccessors

namespace BinaryFormat

/-- A format whose limit is one of its magnitudes, no higher than the limit of the doubles. -/
structure Bounded (f : BinaryFormat) : Prop extends f.Regular where
  limit : ∃ k, 0 < k ∧ f.rung k = f.limit
  range : f.limit ≤ 2 ^ 2098

theorem single_precision : single.precision = 24 := by unfold single; rfl

theorem single_grain : single.grain = 2 ^ 925 := by decide +kernel

theorem single_limit : single.limit = 2 ^ 1202 := by decide +kernel

theorem double_precision : double.precision = 53 := by unfold double; rfl

theorem double_grain : double.grain = 1 := by unfold double; rfl

theorem double_limit : double.limit = 2 ^ 2098 := by decide +kernel

theorem single_binade : single.binade = 2 ^ 23 := by rw [binade, single_precision]

theorem double_binade : double.binade = 2 ^ 52 := by rw [binade, double_precision]

theorem rung_power {f : BinaryFormat} {e t n : ℕ} (ht : f.grain = 2 ^ t)
    (hn : f.precision - 1 + e + t = n) : f.rung ((e + 1) * f.binade) = 2 ^ n := by
  rw [Nat.succ_mul, rung_index (by omega) (.inr le_rfl), ht, binade, ← Nat.pow_add, ← Nat.pow_add,
    hn]

theorem rung_single_limit : single.rung (255 * 2 ^ 23) = single.limit := by
  rw [single_limit, ← single_binade]
  exact rung_power single_grain (by rw [single_precision])

theorem rung_double_limit : double.rung (2047 * 2 ^ 52) = double.limit := by
  rw [double_limit, ← double_binade]
  exact rung_power (t := 0) double_grain (by rw [double_precision])

theorem single_bounded : single.Bounded where
  precision := by rw [single_precision]; decide
  grain := ⟨925, single_grain⟩
  limit := ⟨_, by norm_num, rung_single_limit⟩
  range := by decide +kernel

theorem double_bounded : double.Bounded where
  precision := by rw [double_precision]; decide
  grain := ⟨0, double_grain⟩
  limit := ⟨_, by norm_num, rung_double_limit⟩
  range := double_limit.le

variable {f : BinaryFormat}

theorem Bounded.limit_pos (hf : f.Bounded) : 0 < f.limit := by
  obtain ⟨k, hk, hlimit⟩ := hf.limit
  have hlt := hf.rung_strictMono hk
  rw [rung_zero] at hlt
  omega

theorem Bounded.datum_zero (hf : f.Bounded) (negative : Bool) :
    f.datum negative 0 = .finite negative 0 := by
  simp [datum, hf.limit_pos]

theorem datum_eq_finite {negative sign : Bool} {k units : ℕ} :
    f.datum negative k = .finite sign units ↔
      negative = sign ∧ f.rung k = units ∧ f.rung k < f.limit := by
  unfold datum
  split_ifs with h
  · simp [h]
  · simp [h]

theorem Bounded.datum_of_limit_le (hf : f.Bounded) {a : ℚ} {k : ℕ} (negative : Bool)
    (hk : f.RoundsTo a k) (ha : f.limit ≤ a) : f.datum negative k = .infinite negative := by
  obtain ⟨j, -, hlimit⟩ := hf.limit
  have hle := hk.rung_le hf.toRegular (hlimit ▸ ha)
  rw [hlimit] at hle
  simp [datum, hle]

theorem Regular.roundsTo_zero (hf : f.Regular) {a : ℚ} (hhalf : a < 1 / 2) :
    f.RoundsTo a 0 := by
  have hone : (1 : ℚ) ≤ f.rung 1 := by
    exact_mod_cast Nat.one_le_iff_ne_zero.mpr (f.rung_zero ▸ (hf.rung_strictMono one_pos)).ne'
  have hmid : a < f.middle 0 := by
    simp only [middle, rung_zero, Nat.zero_add, Nat.cast_zero]
    linarith
  refine hf.roundsTo_of_between hmid ?_
  intro j hj
  omega

end BinaryFormat

theorem decimalLength_pos {n : ℕ} (h : n ≠ 0) : 0 < decimalLength n := by
  rw [decimalLength, if_neg h]
  omega

namespace Decimal

def size (d : Decimal) : ℚ := d.coefficient * 10 ^ d.exponent

theorem size_nonneg (d : Decimal) : 0 ≤ d.size := by
  unfold size
  positivity

theorem unitsPerOne_pos : (0 : ℚ) < unitsPerOne := by
  exact_mod_cast (by decide +kernel : 0 < unitsPerOne)

theorem scaleByTen_spec (n : ℕ) (exponent : ℤ) :
    0 < (scaleByTen n exponent).2 ∧
      ((scaleByTen n exponent).1 / (scaleByTen n exponent).2 : ℚ) = n * 10 ^ exponent := by
  unfold scaleByTen
  split_ifs with h
  · obtain ⟨m, rfl⟩ := Int.eq_ofNat_of_zero_le h
    simp
  · obtain ⟨m, hm⟩ : ∃ m : ℕ, exponent = -(m : ℤ) := ⟨(-exponent).toNat, by omega⟩
    subst hm
    simp [zpow_neg, div_eq_mul_inv]

theorem size_lt (d : Decimal) : d.size < 10 ^ d.magnitude := by
  have hlt : (d.coefficient : ℚ) < 10 ^ decimalLength d.coefficient := by
    exact_mod_cast lt_ten_pow_decimalLength d.coefficient
  calc d.size < 10 ^ decimalLength d.coefficient * 10 ^ d.exponent := by
        unfold size
        gcongr
    _ = 10 ^ d.magnitude := by
        rw [magnitude, zpow_add₀ (by norm_num), zpow_natCast]

theorem le_size (d : Decimal) (h : d.coefficient ≠ 0) : 10 ^ (d.magnitude - 1) ≤ d.size := by
  have hle : (10 : ℚ) ^ (decimalLength d.coefficient - 1) ≤ d.coefficient := by
    exact_mod_cast ten_pow_decimalLength_le d.coefficient h
  have hlength := decimalLength_pos h
  calc (10 : ℚ) ^ (d.magnitude - 1)
      = 10 ^ (decimalLength d.coefficient - 1) * 10 ^ d.exponent := by
        rw [← zpow_natCast, ← zpow_add₀ (by norm_num), magnitude]
        congr 1
        omega
    _ ≤ d.size := by
        unfold size
        gcongr

theorem limit_le_of_ten_pow_le {f : BinaryFormat} (hf : f.Bounded) {a : ℚ}
    (ha : 10 ^ 310 ≤ a) : (f.limit : ℚ) ≤ a * unitsPerOne := by
  have hlimit : f.limit ≤ 10 ^ 310 * unitsPerOne :=
    hf.range.trans (by decide +kernel)
  calc (f.limit : ℚ) ≤ (10 ^ 310 * unitsPerOne : ℕ) := by exact_mod_cast hlimit
    _ = 10 ^ 310 * (unitsPerOne : ℚ) := by rw [Nat.cast_mul, Nat.cast_pow, Nat.cast_ofNat]
    _ ≤ a * unitsPerOne := mul_le_mul_of_nonneg_right ha unitsPerOne_pos.le

theorem half_of_lt_ten_pow {a : ℚ} (ha : a < 1 / 10 ^ 331) : a * unitsPerOne < 1 / 2 := by
  have hunits : (unitsPerOne * 2 : ℚ) < 10 ^ 331 := by
    exact_mod_cast (by decide +kernel : unitsPerOne * 2 < 10 ^ 331)
  calc a * unitsPerOne < 1 / 10 ^ 331 * unitsPerOne := mul_lt_mul_of_pos_right ha unitsPerOne_pos
    _ < 1 / 2 := by
      rw [one_div_mul_eq_div, div_lt_div_iff₀ (by positivity) (by norm_num), one_mul]
      exact hunits

/-- A decimal is rounded once, its exact magnitude to the nearest of the format. -/
theorem round_spec {f : BinaryFormat} (hf : f.Bounded) (d : Decimal) :
    ∃ k, f.RoundsTo (d.size * unitsPerOne) k ∧ d.round f = f.datum d.negative k := by
  have hnonneg : 0 ≤ d.size * unitsPerOne := mul_nonneg d.size_nonneg unitsPerOne_pos.le
  unfold round
  split_ifs with hzero hhuge htiny
  · have hsize : d.size = 0 := by simp [size, hzero]
    refine ⟨0, ?_, (hf.datum_zero d.negative).symm⟩
    simpa [hsize] using hf.roundsTo_rung 0
  · have hten : (10 : ℚ) ^ 310 ≤ 10 ^ (d.magnitude - 1) := by
      rw [← zpow_natCast]
      exact zpow_le_zpow_right₀ (by norm_num) (by push_cast; omega)
    obtain ⟨k, hk⟩ := hf.exists_roundsTo hnonneg
    refine ⟨k, hk, (hf.datum_of_limit_le d.negative hk ?_).symm⟩
    exact limit_le_of_ten_pow_le hf (hten.trans (d.le_size hzero))
  · have hten : (10 : ℚ) ^ d.magnitude ≤ 1 / 10 ^ 331 := by
      rw [one_div, ← zpow_natCast, ← zpow_neg]
      exact zpow_le_zpow_right₀ (by norm_num) (by push_cast; omega)
    refine ⟨0, hf.roundsTo_zero ?_, (hf.datum_zero d.negative).symm⟩
    exact half_of_lt_ten_pow (d.size_lt.trans_le hten)
  · obtain ⟨hden, hquotient⟩ := scaleByTen_spec d.coefficient d.exponent
    obtain ⟨k, hk, hround⟩ := hf.round_spec d.negative
      (unitsPerOne * (scaleByTen d.coefficient d.exponent).1) hden
    refine ⟨k, ?_, hround⟩
    have hsize : d.size * unitsPerOne =
        ((unitsPerOne * (scaleByTen d.coefficient d.exponent).1 : ℕ) : ℚ) /
          (scaleByTen d.coefficient d.exponent).2 := by
      rw [size, ← hquotient]
      push_cast
      ring
    rw [hsize]
    exact hk

theorem round_congr {f : BinaryFormat} (hf : f.Bounded) {d e : Decimal}
    (hsign : d.negative = e.negative) (hsize : d.size = e.size) : d.round f = e.round f := by
  obtain ⟨j, hj, hd⟩ := d.round_spec hf
  obtain ⟨k, hk, he⟩ := e.round_spec hf
  rw [hsize] at hj
  rw [hd, he, hsign, hj.unique hk hf.toRegular]

end Decimal

end PreferenceAccessors
