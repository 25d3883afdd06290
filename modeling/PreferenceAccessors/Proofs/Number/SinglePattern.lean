import PreferenceAccessors.Proofs.Number.Narrowing

/-!
Floats as 32-bit patterns: a sign bit, eight exponent bits and 23 fraction bits.
Without its sign bit a pattern is the number of its magnitude. An infinity
stands for the first power of two out of range, so what is rounded there has
overflowed.
-/

namespace PreferenceAccessors

namespace SinglePattern

def exponentField (b : BitVec 32) : ℕ := b.toNat / 2 ^ 23 % 2 ^ 8

def fractionField (b : BitVec 32) : ℕ := b.toNat % 2 ^ 23

def index (b : BitVec 32) : ℕ := b.toNat % 2 ^ 31

def IsFinite (b : BitVec 32) : Prop := exponentField b < 255

def IsNumber (b : BitVec 32) : Prop := exponentField b = 255 → fractionField b = 0

/-- The magnitude that the fields stand for; the fraction of a normal float has a hidden one. -/
def magnitude (b : BitVec 32) : ℚ :=
  if exponentField b = 0 then fractionField b / 2 ^ 23 * 2 ^ (-126 : ℤ)
  else (1 + fractionField b / 2 ^ 23) * 2 ^ ((exponentField b : ℤ) - 127)

def toBinary (b : BitVec 32) : Binary :=
  if exponentField b = 255 then
    if fractionField b = 0 then .infinite b.msb else .nan
  else if exponentField b = 0 then .finite b.msb (fractionField b * single.grain)
  else .finite b.msb ((2 ^ 23 + fractionField b) * 2 ^ (exponentField b - 1) * single.grain)

def Adjacent (b c : BitVec 32) : Prop :=
  b.msb = c.msb ∧ (index c = index b + 1 ∨ index c + 1 = index b)

/-- The float nearest to a magnitude, sign apart; of two that are equally near the even one. -/
structure IsNearest (a : ℚ) (b : BitVec 32) : Prop where
  number : IsNumber b
  nearest : ∀ c, IsNumber c → |a - magnitude b| ≤ |a - magnitude c|
  even : ∀ c, IsNumber c → magnitude c ≠ magnitude b →
    |a - magnitude b| = |a - magnitude c| → fractionField b % 2 = 0

theorem index_eq (b : BitVec 32) : index b = exponentField b * 2 ^ 23 + fractionField b := by
  unfold index exponentField fractionField
  omega

theorem exponentField_le (b : BitVec 32) : exponentField b ≤ 255 := by
  unfold exponentField
  omega

theorem fractionField_lt (b : BitVec 32) : fractionField b < 2 ^ 23 := by
  unfold fractionField
  omega

theorem exists_index (negative : Bool) {k : ℕ} (hk : k < 2 ^ 31) :
    ∃ b : BitVec 32, b.msb = negative ∧ index b = k := by
  refine ⟨BitVec.ofNat 32 ((if negative then 2 ^ 31 else 0) + k), ?_, ?_⟩
  · rw [BitVec.msb_eq_decide, BitVec.toNat_ofNat]
    cases negative <;> simp <;> omega
  · rw [index, BitVec.toNat_ofNat]
    cases negative <;> simp <;> omega

theorem isNumber_iff {b : BitVec 32} : IsNumber b ↔ index b ≤ 255 * 2 ^ 23 := by
  have hexp := exponentField_le b
  have hfrac := fractionField_lt b
  rw [IsNumber, index_eq]
  omega

theorem isFinite_iff {b : BitVec 32} : IsFinite b ↔ index b < 255 * 2 ^ 23 := by
  have hexp := exponentField_le b
  have hfrac := fractionField_lt b
  rw [IsFinite, index_eq]
  omega

theorem IsFinite.isNumber {b : BitVec 32} (h : IsFinite b) : IsNumber b :=
  isNumber_iff.mpr (isFinite_iff.mp h).le

theorem Adjacent.isNumber {b c : BitVec 32} (h : Adjacent b c) (hb : IsFinite b) : IsNumber c := by
  have hindex := isFinite_iff.mp hb
  obtain ⟨-, hadj⟩ := h
  exact isNumber_iff.mpr (by omega)

theorem even_index {b : BitVec 32} : Even (index b) ↔ fractionField b % 2 = 0 := by
  rw [Nat.even_iff, index_eq]
  omega

theorem rung_index_of_normal {b : BitVec 32} (h : exponentField b ≠ 0) :
    single.rung (index b) =
      (2 ^ 23 + fractionField b) * 2 ^ (exponentField b - 1) * single.grain := by
  have hfrac := fractionField_lt b
  obtain ⟨e, he⟩ := Nat.exists_eq_succ_of_ne_zero h
  have hindex : index b = e * single.binade + (2 ^ 23 + fractionField b) := by
    rw [index_eq, he, BinaryFormat.single_binade]
    omega
  rw [hindex, BinaryFormat.rung_index (by rw [BinaryFormat.single_binade]; omega)
    (.inr (by rw [BinaryFormat.single_binade]; omega)), he, Nat.succ_sub_one]

theorem rung_index_of_subnormal {b : BitVec 32} (h : exponentField b = 0) :
    single.rung (index b) = fractionField b * single.grain := by
  have hfrac := fractionField_lt b
  have hindex : index b = 0 * single.binade + fractionField b := by
    rw [index_eq, h, Nat.zero_mul, Nat.zero_mul]
  rw [hindex, BinaryFormat.rung_index (by rw [BinaryFormat.single_binade]; omega) (.inl rfl),
    pow_zero, Nat.mul_one]

theorem magnitude_mul_unitsPerOne (b : BitVec 32) :
    magnitude b * unitsPerOne = single.rung (index b) := by
  have hunits : unitsPerOne = 2 ^ 149 * single.grain := by decide +kernel
  rw [magnitude, hunits]
  split_ifs with h
  · rw [rung_index_of_subnormal h]
    push_cast
    rw [zpow_neg]
    norm_num
    ring
  · rw [rung_index_of_normal h]
    obtain ⟨e, he⟩ := Nat.exists_eq_succ_of_ne_zero h
    have hpow : (2 : ℚ) ^ ((exponentField b : ℤ) - 127) = 2 ^ e / 2 ^ 126 := by
      rw [he, ← zpow_natCast, ← zpow_natCast, ← zpow_sub₀ (by norm_num)]
      congr 1
      push_cast
      ring
    rw [hpow, he, Nat.succ_sub_one]
    push_cast
    field_simp
    ring

theorem rung_index_lt {b : BitVec 32} (h : IsFinite b) : single.rung (index b) < single.limit := by
  rw [← BinaryFormat.rung_single_limit]
  exact BinaryFormat.single_bounded.rung_strictMono (isFinite_iff.mp h)

theorem toBinary_of_finite {b : BitVec 32} (h : IsFinite b) :
    toBinary b = .finite b.msb (single.rung (index b)) := by
  rw [toBinary, if_neg (ne_of_lt h)]
  split_ifs with hexp
  · rw [rung_index_of_subnormal hexp]
  · rw [rung_index_of_normal hexp]

theorem toBinary_eq_datum {b : BitVec 32} (h : IsFinite b) :
    toBinary b = single.datum b.msb (index b) := by
  rw [toBinary_of_finite h, BinaryFormat.datum, if_pos (rung_index_lt h)]

theorem exists_toBinary_eq {k : ℕ} (negative : Bool) (hk : single.rung k < single.limit) :
    ∃ b, IsFinite b ∧ b.msb = negative ∧ index b = k ∧
      toBinary b = .finite negative (single.rung k) := by
  rw [← BinaryFormat.rung_single_limit] at hk
  have hlt := BinaryFormat.single_bounded.rung_strictMono.lt_iff_lt.mp hk
  obtain ⟨b, hsign, hindex⟩ := exists_index negative (k := k) (by omega)
  have hfinite : IsFinite b := isFinite_iff.mpr (hindex ▸ hlt)
  exact ⟨b, hfinite, hsign, hindex, by rw [toBinary_of_finite hfinite, hsign, hindex]⟩

theorem distance_mul_unitsPerOne (a : ℚ) (b : BitVec 32) :
    |a - magnitude b| * unitsPerOne = |a * unitsPerOne - single.rung (index b)| := by
  rw [← magnitude_mul_unitsPerOne, ← sub_mul, abs_mul, abs_of_pos Decimal.unitsPerOne_pos]

theorem distance_le_iff {a : ℚ} {b c : BitVec 32} :
    |a - magnitude b| ≤ |a - magnitude c| ↔
      |a * unitsPerOne - single.rung (index b)| ≤ |a * unitsPerOne - single.rung (index c)| := by
  rw [← distance_mul_unitsPerOne, ← distance_mul_unitsPerOne,
    mul_le_mul_iff_of_pos_right Decimal.unitsPerOne_pos]

theorem distance_eq_iff {a : ℚ} {b c : BitVec 32} :
    |a - magnitude b| = |a - magnitude c| ↔
      |a * unitsPerOne - single.rung (index b)| = |a * unitsPerOne - single.rung (index c)| := by
  rw [← distance_mul_unitsPerOne, ← distance_mul_unitsPerOne,
    mul_left_inj' Decimal.unitsPerOne_pos.ne']

theorem magnitude_eq_iff {b c : BitVec 32} : magnitude b = magnitude c ↔ index b = index c := by
  rw [← mul_left_inj' Decimal.unitsPerOne_pos.ne', magnitude_mul_unitsPerOne,
    magnitude_mul_unitsPerOne, Nat.cast_inj]
  exact BinaryFormat.single_bounded.rung_strictMono.injective.eq_iff

theorem isNearest_iff {a : ℚ} {b : BitVec 32} (h : IsFinite b) :
    IsNearest a b ↔ single.RoundsTo (a * unitsPerOne) (index b) := by
  have hlt := isFinite_iff.mp h
  constructor
  · intro hb
    -- The neighbours are patterns, and no others count.
    have hbeats : single.BeatsNeighbours (a * unitsPerOne) (index b) := by
      intro j hj
      obtain ⟨c, -, rfl⟩ := exists_index false (k := j) (by omega)
      have hc : IsNumber c := isNumber_iff.mpr (by omega)
      refine ⟨distance_le_iff.mp (hb.nearest c hc), fun heq => ?_⟩
      refine even_index.mpr (hb.even c hc ?_ (distance_eq_iff.mpr heq))
      rw [ne_eq, magnitude_eq_iff]
      omega
    exact (hbeats.betweenMiddles BinaryFormat.single_bounded.toRegular).roundsTo
      BinaryFormat.single_bounded.toRegular
  · intro hb
    refine ⟨isNumber_iff.mpr hlt.le, fun c _ => distance_le_iff.mpr (hb.nearest _), ?_⟩
    intro c _ hne heq
    rw [ne_eq, magnitude_eq_iff] at hne
    exact even_index.mp (hb.even _ hne (distance_eq_iff.mp heq))

/-- The decimal rounded once to a float, ties to even, is this one; the sign is its own. -/
def ReadsOnce (d : Decimal) (b : BitVec 32) : Prop :=
  b.msb = d.negative ∧ IsNearest d.size b

/-- The double nearest to the decimal is the middle between the float and an adjacent one, and the
decimal is nearer to that one. -/
def SlipsTo (d : Decimal) (b c : BitVec 32) : Prop :=
  Adjacent b c ∧ |d.size - magnitude c| < |d.size - magnitude b| ∧
    ∃ units, d.round double = .finite d.negative units ∧
      (units / unitsPerOne : ℚ) = (magnitude b + magnitude c) / 2

theorem middle_of_adjacent {b c : BitVec 32} (h : index c = index b + 1) :
    single.middle (index b) = (magnitude b + magnitude c) / 2 * unitsPerOne := by
  rw [BinaryFormat.middle, ← h, ← magnitude_mul_unitsPerOne, ← magnitude_mul_unitsPerOne]
  ring

theorem nearer_of_adjacent {a : ℚ} {b c : BitVec 32} (h : index c = index b + 1) :
    (|a - magnitude c| < |a - magnitude b| ↔ single.middle (index b) < a * unitsPerOne) ∧
      (|a - magnitude b| < |a - magnitude c| ↔ a * unitsPerOne < single.middle (index b)) := by
  have hlt := BinaryFormat.single_bounded.rung_lt (Nat.lt_add_one (index b))
  constructor
  · rw [← not_le, distance_le_iff, h, BinaryFormat.abs_sub_le_iff_le_mean hlt, not_le]
    rfl
  · rw [← not_le, distance_le_iff, not_le, h, BinaryFormat.abs_sub_lt_iff_lt_mean hlt]
    rfl

theorem middle_lt_double_limit {k : ℕ} (hk : k < 255 * 2 ^ 23) :
    single.middle k < double.limit := by
  have hs := BinaryFormat.single_bounded
  have hlimit : single.rung (k + 1) ≤ double.limit := by
    calc single.rung (k + 1) ≤ single.rung (255 * 2 ^ 23) :=
          hs.rung_strictMono.monotone hk
      _ ≤ double.limit := by
          rw [BinaryFormat.rung_single_limit, BinaryFormat.double_limit]
          exact hs.range
  exact (hs.middle_lt_rung k).trans_le (by exact_mod_cast hlimit)

theorem slipsTo_iff {d : Decimal} {b c : BitVec 32} {m : ℕ} (hb : IsNumber b) (hc : IsNumber c)
    (hround : d.round double = double.datum d.negative m) :
    SlipsTo d b c ↔
      b.msb = c.msb ∧ BinaryFormat.SlipsTo (d.size * unitsPerOne) m (index b) (index c) := by
  rw [isNumber_iff] at hb hc
  have hmean : ∀ {x : ℕ} {q : ℚ}, (x / unitsPerOne : ℚ) = q ↔ (x : ℚ) = q * unitsPerOne :=
    div_eq_iff Decimal.unitsPerOne_pos.ne'
  constructor
  · rintro ⟨⟨hsign, hadj⟩, hnear, units, hunits, hmiddle⟩
    rw [hround, BinaryFormat.datum_eq_finite] at hunits
    obtain ⟨-, rfl, -⟩ := hunits
    rw [hmean] at hmiddle
    refine ⟨hsign, ?_⟩
    rcases hadj with hadj | hadj
    · left
      exact ⟨hadj, hmiddle.trans (middle_of_adjacent hadj).symm,
        (nearer_of_adjacent hadj).1.mp hnear⟩
    · right
      refine ⟨hadj, ?_, (nearer_of_adjacent hadj.symm).2.mp hnear⟩
      rw [hmiddle, middle_of_adjacent hadj.symm, add_comm]
  · have hfinite : ∀ k, k < 255 * 2 ^ 23 → (double.rung m : ℚ) = single.middle k →
        d.round double = .finite d.negative (double.rung m) := by
      intro k hk hm
      have hlt : (double.rung m : ℚ) < double.limit := hm ▸ middle_lt_double_limit hk
      rw [hround, BinaryFormat.datum_eq_finite]
      exact ⟨rfl, rfl, by exact_mod_cast hlt⟩
    rintro ⟨hsign, ⟨hadj, hm, hbeyond⟩ | ⟨hadj, hm, hbeyond⟩⟩
    · refine ⟨⟨hsign, .inl hadj⟩, (nearer_of_adjacent hadj).1.mpr hbeyond, double.rung m,
        hfinite (index b) (by omega) hm, ?_⟩
      rw [hmean, hm, middle_of_adjacent hadj]
    · refine ⟨⟨hsign, .inr hadj⟩, (nearer_of_adjacent hadj.symm).2.mpr hbeyond, double.rung m,
        hfinite (index c) (by omega) hm, ?_⟩
      rw [hmean, hm, middle_of_adjacent hadj.symm, add_comm]

theorem exists_numbers {d : Decimal} {b : BitVec 32} (hb : IsFinite b)
    (hread : (d.round double).narrow = toBinary b) :
    ∃ m, double.RoundsTo (d.size * unitsPerOne) m ∧
      d.round double = double.datum d.negative m ∧
      single.RoundsTo (double.rung m) (index b) ∧ b.msb = d.negative := by
  obtain ⟨m, k, hm, hround, hk, hnarrow⟩ := d.narrow_round_spec
  rw [toBinary_of_finite hb, hnarrow, BinaryFormat.datum_eq_finite] at hread
  obtain ⟨hsign, hrung, -⟩ := hread
  obtain rfl := BinaryFormat.single_bounded.rung_strictMono.injective hrung
  exact ⟨m, hm, hround, hk, hsign.symm⟩

/-- A decimal that is read as a float through a double is read as it at once, unless it slips. -/
theorem readsOnce_iff_not_slipsTo {d : Decimal} {b : BitVec 32} (hb : IsFinite b)
    (hread : (d.round double).narrow = toBinary b) :
    ReadsOnce d b ↔ ¬ ∃ c, SlipsTo d b c := by
  obtain ⟨m, hm, hround, hk, hsign⟩ := exists_numbers hb hread
  have hindex := isFinite_iff.mp hb
  have hslips : (∃ j, BinaryFormat.SlipsTo (d.size * unitsPerOne) m (index b) j) ↔
      ∃ c, SlipsTo d b c := by
    constructor
    · rintro ⟨j, hj⟩
      have hlt : j < 2 ^ 31 := by
        rcases hj with ⟨hj, -⟩ | ⟨hj, -⟩ <;> omega
      obtain ⟨c, hsign, rfl⟩ := exists_index b.msb hlt
      have hc : IsNumber c := by
        rw [isNumber_iff]
        rcases hj with ⟨hj, -⟩ | ⟨hj, -⟩ <;> omega
      exact ⟨c, (slipsTo_iff hb.isNumber hc hround).mpr ⟨hsign.symm, hj⟩⟩
    · rintro ⟨c, hc⟩
      exact ⟨index c, ((slipsTo_iff hb.isNumber (hc.1.isNumber hb) hround).mp hc).2⟩
  rw [ReadsOnce, isNearest_iff hb, BinaryFormat.roundsTo_iff_not_slipsTo hm hk, hslips]
  exact and_iff_right hsign

theorem SlipsTo.readsOnce {d : Decimal} {b c : BitVec 32} (h : SlipsTo d b c) (hb : IsFinite b)
    (hread : (d.round double).narrow = toBinary b) : ReadsOnce d c := by
  obtain ⟨m, hm, hround, hk, hsign⟩ := exists_numbers hb hread
  have hindex := isFinite_iff.mp hb
  obtain ⟨hmsb, hslip⟩ := (slipsTo_iff hb.isNumber (h.1.isNumber hb) hround).mp h
  have hc : IsFinite c := by
    rw [isFinite_iff]
    rcases hslip with ⟨hj, hmiddle, -⟩ | ⟨hj, -⟩
    · -- The last finite float is odd, so the middle above it is not read as it.
      have heven := hk.even_of_eq_middle BinaryFormat.single_bounded.toRegular hmiddle
      rw [Nat.even_iff] at heven
      omega
    · omega
  exact ⟨hmsb.symm.trans hsign, (isNearest_iff hc).mpr (hslip.roundsTo hm)⟩

theorem readsOnce_iff_round {d : Decimal} {b : BitVec 32} (hb : IsFinite b) :
    ReadsOnce d b ↔ d.round single = toBinary b := by
  have hs := BinaryFormat.single_bounded
  obtain ⟨k, hk, hround⟩ := d.round_spec hs
  rw [ReadsOnce, isNearest_iff hb, hround]
  constructor
  · rintro ⟨hsign, hnear⟩
    rw [toBinary_eq_datum hb, hsign, hnear.unique hk hs.toRegular]
  · intro heq
    rw [toBinary_of_finite hb, BinaryFormat.datum_eq_finite] at heq
    obtain ⟨hsign, hrung, -⟩ := heq
    obtain rfl := hs.rung_strictMono.injective hrung
    exact ⟨hsign.symm, hk⟩

end SinglePattern

end PreferenceAccessors
