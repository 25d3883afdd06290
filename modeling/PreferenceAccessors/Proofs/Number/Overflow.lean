import PreferenceAccessors.Proofs.Number.SinglePattern

/-!
Both ends of the range of a float. Rounded at once, a magnitude is infinite from
the middle between the last finite float and the limit on, and it is zero up to
half of the least positive float. Reading through a double agrees, unless it
slips: the infinities are patterns like any other here, standing for the limit.
-/

namespace PreferenceAccessors

namespace SinglePattern

def IsInfinite (b : BitVec 32) : Prop := exponentField b = 255 ∧ fractionField b = 0

theorem isInfinite_iff {b : BitVec 32} : IsInfinite b ↔ index b = 255 * 2 ^ 23 := by
  have hexp := exponentField_le b
  have hfrac := fractionField_lt b
  rw [IsInfinite, index_eq]
  omega

theorem IsInfinite.isNumber {b : BitVec 32} (h : IsInfinite b) : IsNumber b := fun _ => h.2

theorem IsNumber.isFinite_or_isInfinite {b : BitVec 32} (h : IsNumber b) :
    IsFinite b ∨ IsInfinite b := by
  rw [isNumber_iff] at h
  rw [isFinite_iff, isInfinite_iff]
  omega

theorem toBinary_of_isInfinite {b : BitVec 32} (h : IsInfinite b) :
    toBinary b = .infinite b.msb := by
  rw [toBinary, if_pos h.1, if_pos h.2]

theorem toBinary_eq_infinite_iff {b : BitVec 32} {negative : Bool} :
    toBinary b = .infinite negative ↔ IsInfinite b ∧ b.msb = negative := by
  rw [toBinary, IsInfinite]
  split_ifs <;> simp [*]

theorem toBinary_eq_zero_iff {b : BitVec 32} {negative : Bool} :
    toBinary b = .finite negative 0 ↔ index b = 0 ∧ b.msb = negative := by
  by_cases hb : IsFinite b
  · have hzero : single.rung (index b) = 0 ↔ index b = 0 := by
      conv_lhs => rw [← single.rung_zero]
      exact BinaryFormat.single_bounded.rung_strictMono.injective.eq_iff
    rw [toBinary_of_finite hb, Binary.finite.injEq, hzero, and_comm]
  · have hindex := mt isFinite_iff.mpr hb
    have hfield : exponentField b = 255 := le_antisymm (exponentField_le b) (not_lt.mp hb)
    rw [toBinary, if_pos hfield]
    refine iff_of_false ?_ (fun h => by omega)
    split_ifs <;> simp

theorem middle_first : single.middle 0 = 1 / 2 ^ 150 * unitsPerOne := by
  have hmiddle := middle_of_adjacent (b := 0#32) (c := 1#32) (by decide)
  have hindex : index 0#32 = 0 := by decide
  have hzero : magnitude 0#32 = 0 := by
    rw [magnitude, if_pos (by decide)]
    norm_num [fractionField]
  have hleast : magnitude 1#32 = 1 / 2 ^ 149 := by
    rw [magnitude, if_pos (by decide)]
    norm_num [fractionField]
  rw [hindex, hzero, hleast] at hmiddle
  rw [hmiddle]
  ring

theorem middle_last : single.middle (255 * 2 ^ 23 - 1) = (2 ^ 128 - 2 ^ 103) * unitsPerOne := by
  have hmiddle := middle_of_adjacent (b := 0x7F7FFFFF#32) (c := 0x7F800000#32) (by decide)
  have hindex : index 0x7F7FFFFF#32 = 255 * 2 ^ 23 - 1 := by decide
  have hlast : magnitude 0x7F7FFFFF#32 = 2 ^ 128 - 2 ^ 104 := by
    rw [magnitude, if_neg (by decide)]
    norm_num [fractionField, exponentField]
  have hlimit : magnitude 0x7F800000#32 = 2 ^ 128 := by
    rw [magnitude, if_neg (by decide)]
    norm_num [fractionField, exponentField]
  rw [hindex, hlast, hlimit] at hmiddle
  rw [hmiddle]
  ring

theorem le_middle_first_iff {a : ℚ} : a * unitsPerOne ≤ single.middle 0 ↔ a ≤ 1 / 2 ^ 150 := by
  rw [middle_first, mul_le_mul_iff_of_pos_right Decimal.unitsPerOne_pos]

theorem middle_last_le_iff {a : ℚ} :
    single.middle (255 * 2 ^ 23 - 1) ≤ a * unitsPerOne ↔ 2 ^ 128 - 2 ^ 103 ≤ a := by
  rw [middle_last, mul_le_mul_iff_of_pos_right Decimal.unitsPerOne_pos]

theorem roundsTo_zero_iff {a : ℚ} : single.RoundsTo a 0 ↔ a ≤ single.middle 0 := by
  have hs := BinaryFormat.single_bounded.toRegular
  constructor
  · exact fun h => h.le_middle hs
  · intro hle
    refine BinaryFormat.BetweenMiddles.roundsTo ⟨⟨hle, fun _ => Even.zero⟩, ?_⟩ hs
    intro j hj
    omega

theorem isNearest_zero_iff {a : ℚ} {b : BitVec 32} (hb : index b = 0) :
    IsNearest a b ↔ a ≤ 1 / 2 ^ 150 := by
  have hfinite : IsFinite b := isFinite_iff.mpr (by omega)
  rw [isNearest_iff hfinite, hb, roundsTo_zero_iff, le_middle_first_iff]

theorem IsInfinite.isNearest_iff {a : ℚ} {b : BitVec 32} (hb : IsInfinite b) :
    IsNearest a b ↔ 2 ^ 128 - 2 ^ 103 ≤ a := by
  have hs := BinaryFormat.single_bounded.toRegular
  have hindex := isInfinite_iff.mp hb
  rw [← middle_last_le_iff]
  constructor
  · intro h
    obtain ⟨c, -, hc⟩ := exists_index false (k := 255 * 2 ^ 23 - 1) (by decide)
    have hnumber : IsNumber c := isNumber_iff.mpr (by omega)
    have hnearer := (nearer_of_adjacent (a := a) (b := c) (c := b) (by omega)).2
    rw [hc] at hnearer
    exact not_lt.mp (mt hnearer.mpr (not_lt.mpr (h.nearest c hnumber)))
  · intro hle
    refine ⟨hb.isNumber, fun c hc => ?_, fun _ _ _ _ => by rw [hb.2]⟩
    rw [distance_le_iff, hindex]
    rw [isNumber_iff] at hc
    rcases hc.eq_or_lt with heq | hlt
    · rw [heq]
    · -- The mean with any float below is no higher than the middle.
      have hmean : (single.rung (index c) + single.rung (255 * 2 ^ 23)) / 2 ≤
          a * unitsPerOne := by
        refine le_trans ?_ hle
        have hbelow := hs.rung_le (j := index c) (k := 255 * 2 ^ 23 - 1) (by omega)
        have hlast : 255 * 2 ^ 23 - 1 + 1 = 255 * 2 ^ 23 := by decide
        rw [BinaryFormat.middle, hlast]
        gcongr
      have hrung := hs.rung_lt hlt
      exact not_lt.mp fun hnear =>
        not_lt.mpr hmean ((BinaryFormat.abs_sub_lt_iff_lt_mean hrung).mp hnear)

theorem exists_number_of_narrow (d : Decimal) :
    ∃ b, IsNumber b ∧ b.msb = d.negative ∧ (d.round double).narrow = toBinary b := by
  obtain ⟨m, k, -, -, -, hnarrow⟩ := d.narrow_round_spec
  by_cases hrange : single.rung k < single.limit
  · obtain ⟨b, hfinite, hsign, -, hb⟩ := exists_toBinary_eq d.negative hrange
    refine ⟨b, hfinite.isNumber, hsign, ?_⟩
    rw [hnarrow, hb, BinaryFormat.datum, if_pos hrange]
  · obtain ⟨b, hsign, hindex⟩ := exists_index d.negative (k := 255 * 2 ^ 23) (by decide)
    have hb := isInfinite_iff.mpr hindex
    refine ⟨b, hb.isNumber, hsign, ?_⟩
    rw [hnarrow, toBinary_of_isInfinite hb, hsign, BinaryFormat.datum, if_neg hrange]

theorem IsInfinite.middle_le {d : Decimal} {b : BitVec 32} (hb : IsInfinite b)
    (hread : (d.round double).narrow = toBinary b) :
    ∃ m, double.RoundsTo (d.size * unitsPerOne) m ∧ d.round double = double.datum d.negative m ∧
      single.middle (255 * 2 ^ 23 - 1) ≤ double.rung m ∧ b.msb = d.negative := by
  have hs := BinaryFormat.single_bounded.toRegular
  obtain ⟨m, k, hm, hround, hk, hnarrow⟩ := d.narrow_round_spec
  rw [toBinary_of_isInfinite hb, hnarrow, BinaryFormat.datum] at hread
  split_ifs at hread with hrange
  rw [Binary.infinite.injEq] at hread
  refine ⟨m, hm, hround, ?_, hread.symm⟩
  rw [← BinaryFormat.rung_single_limit, hs.rung_strictMono.lt_iff_lt] at hrange
  exact (hk.lt_iff_middle_le hs (by decide)).mp (by omega)

/-- Whatever a decimal is read as through a double, it is read as it at once unless it slips. -/
theorem IsNumber.readsOnce_iff {d : Decimal} {b : BitVec 32} (hb : IsNumber b)
    (hread : (d.round double).narrow = toBinary b) :
    ReadsOnce d b ↔ ¬ ∃ c, IsNumber c ∧ SlipsTo d b c := by
  rcases hb.isFinite_or_isInfinite with hfinite | hinfinite
  · rw [readsOnce_iff_not_slipsTo hfinite hread]
    refine not_congr (exists_congr fun c => ?_)
    exact (and_iff_right_of_imp fun hc => hc.1.isNumber hfinite).symm
  · obtain ⟨m, hm, hround, hle, hsign⟩ := hinfinite.middle_le hread
    constructor
    · rintro ⟨-, hnearest⟩ ⟨c, hc, -, hnearer, -⟩
      exact not_lt.mpr (hnearest.nearest c hc) hnearer
    · intro hslip
      refine ⟨hsign, hinfinite.isNearest_iff.mpr ?_⟩
      by_contra hsmall
      rw [← middle_last_le_iff, not_le] at hsmall
      -- Short of the middle, yet not rounded below it: the double is the middle itself.
      have hmiddle : (double.rung m : ℚ) = single.middle (255 * 2 ^ 23 - 1) :=
        le_antisymm (hm.rung_le_middle hsmall.le) hle
      obtain ⟨c, hmsb, hindex⟩ := exists_index b.msb (k := 255 * 2 ^ 23 - 1) (by decide)
      have hc : IsNumber c := isNumber_iff.mpr (by omega)
      have hlast := isInfinite_iff.mp hinfinite
      refine hslip ⟨c, hc, (slipsTo_iff hb hc hround).mpr ⟨hmsb.symm, .inr ⟨by omega, ?_⟩⟩⟩
      rw [hindex]
      exact ⟨hmiddle, hsmall⟩

theorem SlipsTo.readsOnce_of_isNumber {d : Decimal} {b c : BitVec 32} (h : SlipsTo d b c)
    (hb : IsNumber b) (hc : IsNumber c) (hread : (d.round double).narrow = toBinary b) :
    ReadsOnce d c := by
  rcases hb.isFinite_or_isInfinite with hfinite | hinfinite
  · exact h.readsOnce hfinite hread
  · obtain ⟨m, hm, hround, -, hsign⟩ := hinfinite.middle_le hread
    obtain ⟨hmsb, hslip⟩ := (slipsTo_iff hb hc hround).mp h
    have hbelow : IsFinite c := by
      have hlast := isInfinite_iff.mp hinfinite
      rw [isNumber_iff] at hc
      obtain ⟨-, hadj⟩ := h.1
      exact isFinite_iff.mpr (by omega)
    exact ⟨hmsb.symm.trans hsign, (isNearest_iff hbelow).mpr (hslip.roundsTo hm)⟩

theorem narrow_round_of_underflow {d : Decimal} (h : d.size ≤ 1 / 2 ^ 150) :
    (d.round double).narrow = .finite d.negative 0 := by
  have hs := BinaryFormat.single_bounded
  obtain ⟨m, k, hm, -, hk, hnarrow⟩ := d.narrow_round_spec
  have hdouble := hm.rung_le_middle (le_middle_first_iff.mpr h)
  rw [hnarrow, hk.unique (roundsTo_zero_iff.mpr hdouble) hs.toRegular, hs.datum_zero]

theorem narrow_round_of_overflow {d : Decimal} (h : 2 ^ 128 - 2 ^ 103 ≤ d.size) :
    (d.round double).narrow = .infinite d.negative := by
  have hs := BinaryFormat.single_bounded
  obtain ⟨m, k, hm, -, hk, hnarrow⟩ := d.narrow_round_spec
  have hdouble := hm.middle_le_rung (middle_last_le_iff.mpr h)
  have hlimit : 255 * 2 ^ 23 ≤ k := by
    have hlt := (hk.lt_iff_middle_le hs.toRegular (by decide)).mpr hdouble
    omega
  have hrange := hs.rung_strictMono.monotone hlimit
  rw [BinaryFormat.rung_single_limit] at hrange
  rw [hnarrow, BinaryFormat.datum, if_neg (not_lt.mpr hrange)]

end SinglePattern

end PreferenceAccessors
