import PreferenceAccessors.Proofs.Number.Formats

/-!
Rounding to a double and then to a float. Quarters of the way between
neighbouring floats are doubles, so the two roundings disagree with one rounding
only where the double is the middle itself and the number lies beside it.
Magnitudes are in units.
-/

namespace PreferenceAccessors

namespace BinaryFormat

/-- So many quarters of the way from a float to the next. -/
def quarter (k i : ℕ) : ℚ := single.rung k + i * (single.rung (k + 1) - single.rung k) / 4

@[simp]
theorem quarter_zero (k : ℕ) : quarter k 0 = single.rung k := by
  simp [quarter]

@[simp]
theorem quarter_two (k : ℕ) : quarter k 2 = single.middle k := by
  simp only [quarter, middle, Nat.cast_ofNat]
  ring

@[simp]
theorem quarter_four (k : ℕ) : quarter k 4 = single.rung (k + 1) := by
  simp only [quarter, Nat.cast_ofNat]
  ring

theorem quarter_lt (k : ℕ) {i j : ℕ} (h : i < j) : quarter k i < quarter k j := by
  have hgap := single_bounded.rung_lt (Nat.lt_add_one k)
  have hcast : (i : ℚ) < j := by exact_mod_cast h
  unfold quarter
  nlinarith

theorem exists_double_quarter (k : ℕ) {i : ℕ} (hi : i ≤ 4) :
    ∃ m, (double.rung m : ℚ) = quarter k i := by
  obtain ⟨e, q, rfl, hq, hlow⟩ := single.exists_index k
  have hfits : 4 * q + i ≤ 2 ^ double.precision := by
    rw [double_precision]
    rw [single_binade] at hq
    omega
  obtain ⟨t, hgrain⟩ : ∃ t, single.grain = 4 * 2 ^ t := ⟨923, by decide +kernel⟩
  obtain ⟨m, hm⟩ := double_bounded.exists_rung (e + t) hfits
  refine ⟨m, ?_⟩
  have hstep : (single.rung (e * single.binade + q + 1) : ℚ) =
      single.rung (e * single.binade + q) + 2 ^ e * single.grain := by
    exact_mod_cast rung_succ hq hlow
  rw [quarter, hstep, hm, rung_index hq.le hlow, double_grain, Nat.mul_one, Nat.pow_add, hgrain]
  push_cast
  ring

section

variable {a : ℚ} {i k m : ℕ}

theorem RoundsTo.le_quarter (hm : double.RoundsTo a m) (hi : i ≤ 4) (ha : a ≤ quarter k i) :
    (double.rung m : ℚ) ≤ quarter k i := by
  obtain ⟨n, hn⟩ := exists_double_quarter k hi
  rw [← hn] at ha ⊢
  exact_mod_cast hm.le_rung double_bounded.toRegular ha

theorem RoundsTo.quarter_le (hm : double.RoundsTo a m) (hi : i ≤ 4) (ha : quarter k i ≤ a) :
    quarter k i ≤ double.rung m := by
  obtain ⟨n, hn⟩ := exists_double_quarter k hi
  rw [← hn] at ha ⊢
  exact_mod_cast hm.rung_le double_bounded.toRegular ha

theorem RoundsTo.rung_le_middle (hm : double.RoundsTo a m) (ha : a ≤ single.middle k) :
    (double.rung m : ℚ) ≤ single.middle k := by
  rw [← quarter_two] at ha ⊢
  exact hm.le_quarter (by decide) ha

theorem RoundsTo.middle_le_rung (hm : double.RoundsTo a m) (ha : single.middle k ≤ a) :
    single.middle k ≤ double.rung m := by
  rw [← quarter_two] at ha ⊢
  exact hm.quarter_le (by decide) ha

end

theorem narrow_datum (negative : Bool) (m : ℕ) :
    ∃ k, single.RoundsTo (double.rung m) k ∧
      (double.datum negative m).narrow = single.datum negative k := by
  obtain ⟨k, hk, hround⟩ := single_bounded.round_spec negative (double.rung m) one_pos
  rw [Nat.cast_one, div_one] at hk
  refine ⟨k, hk, ?_⟩
  by_cases hm : double.rung m < double.limit
  · rw [datum, if_pos hm]
    exact hround
  · have hlimit : single.limit ≤ double.rung m := by
      have hrange := single_bounded.range
      rw [← double_limit] at hrange
      omega
    rw [datum, if_neg hm, single_bounded.datum_of_limit_le negative hk (by exact_mod_cast hlimit)]
    rfl

/-- The double numbered `m` is the middle between the floats numbered `k` and `j`, neighbours, and
`a` lies on the side of `j`. -/
def SlipsTo (a : ℚ) (m k j : ℕ) : Prop :=
  (j = k + 1 ∧ (double.rung m : ℚ) = single.middle k ∧ single.middle k < a) ∨
    (j + 1 = k ∧ (double.rung m : ℚ) = single.middle j ∧ a < single.middle j)

variable {a : ℚ} {j k m : ℕ}

/-- Two roundings give what one gives, unless they slip. -/
theorem roundsTo_iff_not_slipsTo (hm : double.RoundsTo a m)
    (hk : single.RoundsTo (double.rung m) k) :
    single.RoundsTo a k ↔ ¬ ∃ j, SlipsTo a m k j := by
  have hs := single_bounded.toRegular
  constructor
  · rintro h ⟨j, ⟨rfl, -, hbeyond⟩ | ⟨rfl, -, hbeyond⟩⟩
    · exact absurd (h.le_middle hs) (not_le.mpr hbeyond)
    · exact absurd (h.middle_le hs) (not_le.mpr hbeyond)
  · intro hslip
    have habove : single.middle k ≤ a → (double.rung m : ℚ) = single.middle k :=
      fun ha => le_antisymm (hk.le_middle hs) (hm.middle_le_rung ha)
    have hbelow : ∀ j, j + 1 = k → a ≤ single.middle j →
        (double.rung m : ℚ) = single.middle j := by
      rintro j rfl ha
      exact le_antisymm (hm.rung_le_middle ha) (hk.middle_le hs)
    refine BetweenMiddles.roundsTo ⟨⟨?_, fun ha => ?_⟩, fun j hj => ⟨?_, fun ha => ?_⟩⟩ hs
    · by_contra hbeyond
      have hlt := not_le.mp hbeyond
      exact hslip ⟨k + 1, .inl ⟨rfl, habove hlt.le, hlt⟩⟩
    · exact hk.even_of_eq_middle hs (habove ha.ge)
    · by_contra hbeyond
      have hlt := not_le.mp hbeyond
      exact hslip ⟨j, .inr ⟨hj, hbelow j hj hlt.le, hlt⟩⟩
    · subst hj
      exact hk.even_of_middle_eq hs (hbelow j rfl ha.le)

theorem SlipsTo.roundsTo (h : SlipsTo a m k j) (hm : double.RoundsTo a m) :
    single.RoundsTo a j := by
  have hs := single_bounded.toRegular
  rcases h with ⟨rfl, hmiddle, hbeyond⟩ | ⟨rfl, hmiddle, hbeyond⟩
  · have hshort : a < quarter k 4 := by
      by_contra hfar
      have hle := hm.quarter_le (by decide) (not_lt.mp hfar)
      rw [hmiddle, ← quarter_two] at hle
      exact absurd hle (not_le.mpr (quarter_lt k (by decide)))
    rw [quarter_four] at hshort
    refine hs.roundsTo_of_between (hshort.trans (hs.rung_lt_middle (k + 1))) ?_
    intro i hi
    obtain rfl : i = k := by omega
    exact hbeyond
  · have hshort : quarter j 0 < a := by
      by_contra hfar
      have hle := hm.le_quarter (by decide) (not_lt.mp hfar)
      rw [hmiddle, ← quarter_two] at hle
      exact absurd hle (not_le.mpr (quarter_lt j (by decide)))
    rw [quarter_zero] at hshort
    refine hs.roundsTo_of_between hbeyond ?_
    rintro i rfl
    exact (hs.middle_lt_rung i).trans hshort

theorem roundsTo_of_quarter (hm : double.RoundsTo a m) (habove : a ≤ quarter k 1)
    (hbelow : ∀ j, j + 1 = k → quarter j 3 ≤ a) : single.RoundsTo (double.rung m) k := by
  refine single_bounded.roundsTo_of_between ?_ ?_
  · rw [← quarter_two]
    exact (hm.le_quarter (by decide) habove).trans_lt (quarter_lt k (by decide))
  · intro j hj
    rw [← quarter_two]
    exact (quarter_lt j (by decide)).trans_le (hm.quarter_le (by decide) (hbelow j hj))

end BinaryFormat

namespace Decimal

/-- Read through a double, a decimal is rounded twice. -/
theorem narrow_round_spec (d : Decimal) :
    ∃ m k, double.RoundsTo (d.size * unitsPerOne) m ∧ d.round double = double.datum d.negative m ∧
      single.RoundsTo (double.rung m) k ∧ (d.round double).narrow = single.datum d.negative k := by
  obtain ⟨m, hm, hround⟩ := d.round_spec BinaryFormat.double_bounded
  obtain ⟨k, hk, hnarrow⟩ := BinaryFormat.narrow_datum d.negative m
  exact ⟨m, k, hm, hround, hk, by rw [hround, hnarrow]⟩

end Decimal

end PreferenceAccessors
