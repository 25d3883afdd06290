import PreferenceAccessors.Proofs.Number.Formats

/-!
Integers taken to doubles: to the nearest one, a tie to the even one, as long as
that is a finite double. It is one for the integers below the middle between the
last finite double and the limit, and for no others.
-/

namespace PreferenceAccessors

theorem BinaryFormat.middle_double_last :
    double.middle (2047 * 2 ^ 52 - 1) = (2 ^ 1024 - 2 ^ 970) * unitsPerOne := by
  have hlast : double.rung (2047 * 2 ^ 52 - 1) = (2 ^ 53 - 1) * 2 ^ 2045 := by
    have hindex : 2047 * 2 ^ 52 - 1 = 2045 * double.binade + (2 ^ 53 - 1) := by
      rw [double_binade]
      norm_num
    have hfits : 2 ^ 53 - 1 ≤ 2 * double.binade := by
      rw [double_binade]
      norm_num
    have hnormal : double.binade ≤ 2 ^ 53 - 1 := by
      rw [double_binade]
      norm_num
    rw [hindex, rung_index hfits (.inr hnormal), double_grain, Nat.mul_one]
  have hlimit : double.rung (2047 * 2 ^ 52 - 1 + 1) = 2 ^ 2098 :=
    rung_double_limit.trans double_limit
  have hunits : unitsPerOne = 2 ^ 1074 := by decide +kernel
  have hbelow : (2 : ℚ) ^ 2045 = 2 * (2 ^ 970 * 2 ^ 1074) := by rw [← pow_add, ← pow_succ']
  have habove : (2 : ℚ) ^ 2098 = 2 ^ 54 * (2 ^ 970 * 2 ^ 1074) := by rw [← pow_add, ← pow_add]
  have hrange : ((2 : ℚ) ^ 1024 - 2 ^ 970) * 2 ^ 1074 = (2 ^ 54 - 1) * (2 ^ 970 * 2 ^ 1074) := by
    rw [← mul_assoc, sub_one_mul, ← pow_add]
  rw [middle, hlast, hlimit, hunits, Nat.cast_mul, Nat.cast_pow, Nat.cast_pow, Nat.cast_pow,
    Nat.cast_ofNat, hbelow, habove, hrange]
  generalize (2 : ℚ) ^ 970 * 2 ^ 1074 = unit
  norm_num
  ring

namespace Binary

/-- The finite double nearest to an integer; of two that are equally near it is the even one. -/
def Widens (i : ℤ) (x : Binary) : Prop :=
  ∃ k, double.RoundsTo (|(i : ℚ)| * unitsPerOne) k ∧ double.rung k < double.limit ∧
    x = .finite (decide (i < 0)) (double.rung k)

theorem ofInt?_spec (i : ℤ) :
    ∃ k, double.RoundsTo (|(i : ℚ)| * unitsPerOne) k ∧
      ofInt? i = if double.rung k < double.limit then
        some (.finite (decide (i < 0)) (double.rung k)) else none := by
  obtain ⟨k, hk, hround⟩ := BinaryFormat.double_bounded.round_spec (decide (i < 0))
    (unitsPerOne * i.natAbs) one_pos
  have hsize : ((unitsPerOne * i.natAbs : ℕ) / (1 : ℕ) : ℚ) = |(i : ℚ)| * unitsPerOne := by
    rw [Nat.cast_one, div_one, Nat.cast_mul, Nat.cast_natAbs, Int.cast_abs, mul_comm]
  rw [hsize] at hk
  refine ⟨k, hk, ?_⟩
  rw [ofInt?, hround, BinaryFormat.datum]
  split_ifs <;> rfl

theorem ofInt?_eq_some_iff {i : ℤ} {x : Binary} : ofInt? i = some x ↔ Widens i x := by
  obtain ⟨k, hk, hofInt⟩ := ofInt?_spec i
  rw [hofInt]
  constructor
  · intro h
    split_ifs at h with hrange
    exact ⟨k, hk, hrange, (Option.some.inj h).symm⟩
  · rintro ⟨j, hj, hrange, rfl⟩
    obtain rfl := hj.unique hk BinaryFormat.double_bounded.toRegular
    exact if_pos hrange

theorem exists_widens_iff {i : ℤ} : (∃ x, Widens i x) ↔ |i| < 2 ^ 1024 - 2 ^ 970 := by
  have hd := BinaryFormat.double_bounded.toRegular
  have hnonneg : 0 ≤ |(i : ℚ)| * unitsPerOne :=
    mul_nonneg (abs_nonneg _) Decimal.unitsPerOne_pos.le
  have hcast : (2 ^ 1024 - 2 ^ 970 ≤ |(i : ℚ)|) ↔ 2 ^ 1024 - 2 ^ 970 ≤ |i| := by
    rw [← Int.cast_abs]
    exact_mod_cast Iff.rfl
  -- The double leaves the range exactly when it is beyond the last finite one, which is odd.
  have hrange : ∀ {k}, double.RoundsTo (|(i : ℚ)| * unitsPerOne) k →
      (double.rung k < double.limit ↔ |i| < 2 ^ 1024 - 2 ^ 970) := by
    intro k hk
    have hbeyond := hk.lt_iff_middle_le hd (j := 2047 * 2 ^ 52 - 1) (by decide)
    rw [BinaryFormat.middle_double_last,
      mul_le_mul_iff_of_pos_right Decimal.unitsPerOne_pos, hcast] at hbeyond
    rw [← BinaryFormat.rung_double_limit, hd.rung_strictMono.lt_iff_lt, ← not_le, ← not_le,
      ← hbeyond]
    omega
  constructor
  · rintro ⟨x, k, hk, hlt, -⟩
    exact (hrange hk).mp hlt
  · intro h
    obtain ⟨k, hk⟩ := hd.exists_roundsTo hnonneg
    exact ⟨_, k, hk, (hrange hk).mpr h, rfl⟩

end Binary

end PreferenceAccessors
