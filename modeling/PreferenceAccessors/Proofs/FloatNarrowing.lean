import PreferenceAccessors.Proofs.FloatRoundTrip
import PreferenceAccessors.Proofs.Number.Overflow

/-!
Narrowing as rounding of signed numbers. What is in range goes to the float
nearest to it among the floats of both signs, a tie to the even one, and what is
not goes to an infinity; the sign stays, also on a zero. So narrowing keeps the
order of numbers and leaves floats alone. All of this is said of any whole number
of units, of which the doubles are some.
-/

namespace PreferenceAccessors

namespace SinglePattern

def sign (negative : Bool) : ℚ := if negative then -1 else 1

def value (b : BitVec 32) : ℚ := sign b.msb * magnitude b

/-- The finite float nearest to a number, among those of both signs; of two that are equally near
the even one. -/
structure IsClosest (a : ℚ) (b : BitVec 32) : Prop where
  finite : IsFinite b
  nearest : ∀ c, IsFinite c → |a - value b| ≤ |a - value c|
  even : ∀ c, IsFinite c → value c ≠ value b → |a - value b| = |a - value c| →
    fractionField b % 2 = 0

theorem magnitude_nonneg (b : BitVec 32) : 0 ≤ magnitude b := by
  unfold magnitude
  split_ifs <;> positivity

theorem abs_sign_mul_sub (negative : Bool) (a b : ℚ) :
    |sign negative * a - sign negative * b| = |a - b| := by
  have hsign : |sign negative| = 1 := by cases negative <;> simp [sign]
  rw [← mul_sub, abs_mul, hsign, one_mul]

theorem abs_sub_value_of_ne {negative : Bool} {size : ℚ} (hsize : 0 ≤ size) {c : BitVec 32}
    (h : c.msb ≠ negative) : |sign negative * size - value c| = size + magnitude c := by
  have hnonneg := add_nonneg hsize (magnitude_nonneg c)
  have hsign : sign negative * size - value c = sign negative * (size + magnitude c) := by
    cases hc : c.msb <;> cases negative <;> simp_all [value, sign, neg_add_eq_sub]
  have hone : |sign negative| = 1 := by cases negative <;> simp [sign]
  rw [hsign, abs_mul, hone, one_mul, abs_of_nonneg hnonneg]

theorem IsNearest.magnitude_eq_zero {b : BitVec 32} (h : IsNearest 0 b) : magnitude b = 0 := by
  have hzero : magnitude 0#32 = 0 := by
    rw [magnitude, if_pos (by decide)]
    norm_num [fractionField]
  have hle := h.nearest 0#32 (by unfold IsNumber; decide)
  rw [hzero, sub_zero, abs_zero, zero_sub, abs_neg] at hle
  exact abs_nonpos_iff.mp hle

theorem IsNearest.isClosest {size : ℚ} {b : BitVec 32} (h : IsNearest size b) (hb : IsFinite b)
    (hsize : 0 ≤ size) : IsClosest (sign b.msb * size) b := by
  have hown : |sign b.msb * size - value b| = |size - magnitude b| := abs_sign_mul_sub ..
  have hsame : ∀ c : BitVec 32, c.msb = b.msb →
      |sign b.msb * size - value c| = |size - magnitude c| := by
    intro c hc
    rw [value, hc, abs_sign_mul_sub]
  have hcross : ∀ c, |size - magnitude c| ≤ size + magnitude c := by
    intro c
    have hc := magnitude_nonneg c
    rw [abs_le]
    constructor <;> linarith
  refine ⟨hb, fun c hc => ?_, fun c hc hne htie => ?_⟩
  · rw [hown]
    by_cases hsign : c.msb = b.msb
    · rw [hsame c hsign]
      exact h.nearest c hc.isNumber
    · rw [abs_sub_value_of_ne hsize hsign]
      exact (h.nearest c hc.isNumber).trans (hcross c)
  · rw [hown] at htie
    by_cases hsign : c.msb = b.msb
    · rw [hsame c hsign] at htie
      refine h.even c hc.isNumber (fun hmagnitude => hne ?_) htie
      rw [value, value, hsign, hmagnitude]
    · rw [abs_sub_value_of_ne hsize hsign] at htie
      have hequal : |size - magnitude b| = |size - magnitude c| :=
        le_antisymm (h.nearest c hc.isNumber) (htie ▸ hcross c)
      refine h.even c hc.isNumber (fun hmagnitude => hne ?_) hequal
      -- As near across zero as on this side: one of the two distances runs through zero alone.
      have hzero : magnitude b = 0 := by
        rw [hequal, hmagnitude] at htie
        rcases abs_cases (size - magnitude b) with ⟨habs, -⟩ | ⟨habs, -⟩
        · linarith
        · obtain rfl : size = 0 := by linarith
          exact h.magnitude_eq_zero
      rw [value, value, hmagnitude, hzero, mul_zero, mul_zero]

end SinglePattern

namespace BinaryFormat

theorem datum_of_lt {f : BinaryFormat} {k : ℕ} (negative : Bool) (h : f.rung k < f.limit) :
    f.datum negative k = .finite negative (f.rung k) :=
  if_pos h

theorem datum_of_le {f : BinaryFormat} {k : ℕ} (negative : Bool) (h : f.limit ≤ f.rung k) :
    f.datum negative k = .infinite negative :=
  if_neg (not_lt.mpr h)

theorem RoundsTo.limit_le_iff {a : ℚ} {k : ℕ} (h : single.RoundsTo a k) :
    255 * 2 ^ 23 ≤ k ↔ single.middle (255 * 2 ^ 23 - 1) ≤ a := by
  rw [← h.lt_iff_middle_le single_bounded.toRegular (by decide)]
  omega

end BinaryFormat

namespace Binary

open SinglePattern

def number (negative : Bool) (units : ℕ) : ℚ := signed negative units / unitsPerOne

/-- The order of data as numbers. Both zeros are one number, and NaN is none. -/
inductive AtMost : Binary → Binary → Prop
  | least {y : Binary} (hy : y ≠ nan) : AtMost (infinite true) y
  | greatest {x : Binary} (hx : x ≠ nan) : AtMost x (infinite false)
  | finite {a b : Bool} {m n : ℕ} (h : signed a m ≤ signed b n) : AtMost (finite a m) (finite b n)

theorem number_eq (negative : Bool) (units : ℕ) :
    number negative units = sign negative * (units / unitsPerOne) := by
  cases negative <;> simp [number, signed, sign, neg_div]

theorem abs_number (negative : Bool) (units : ℕ) :
    |number negative units| = units / unitsPerOne := by
  have hnonneg : (0 : ℚ) ≤ units / unitsPerOne := by positivity
  rw [number_eq]
  cases negative <;> simp [sign, abs_of_nonneg hnonneg]

theorem narrow_finite (negative : Bool) (units : ℕ) :
    ∃ k, single.RoundsTo units k ∧ (finite negative units).narrow = single.datum negative k := by
  obtain ⟨k, hk, hround⟩ := BinaryFormat.single_bounded.round_spec negative units one_pos
  rw [Nat.cast_one, div_one] at hk
  exact ⟨k, hk, hround⟩

theorem units_eq (units : ℕ) : (units / unitsPerOne : ℚ) * unitsPerOne = units :=
  div_mul_cancel₀ _ Decimal.unitsPerOne_pos.ne'

theorem narrow_of_small {negative : Bool} {units : ℕ}
    (h : |number negative units| < 2 ^ 128 - 2 ^ 103) :
    ∃ b, (finite negative units).narrow = toBinary b ∧ b.msb = negative ∧
      IsClosest (number negative units) b := by
  obtain ⟨k, hk, hnarrow⟩ := narrow_finite negative units
  rw [abs_number, ← not_le, ← middle_last_le_iff, units_eq, ← hk.limit_le_iff, not_le] at h
  have hrange := BinaryFormat.single_bounded.rung_strictMono h
  rw [BinaryFormat.rung_single_limit] at hrange
  obtain ⟨b, hb, hsign, rfl, hvalue⟩ := exists_toBinary_eq negative hrange
  have hnearest : IsNearest (units / unitsPerOne) b := by
    rw [isNearest_iff hb, units_eq]
    exact hk
  refine ⟨b, ?_, hsign, ?_⟩
  · rw [hnarrow, hvalue, BinaryFormat.datum_of_lt negative hrange]
  · rw [number_eq, ← hsign]
    exact hnearest.isClosest hb (by positivity)

theorem narrow_of_large {negative : Bool} {units : ℕ}
    (h : 2 ^ 128 - 2 ^ 103 ≤ |number negative units|) :
    (finite negative units).narrow = infinite negative := by
  obtain ⟨k, hk, hnarrow⟩ := narrow_finite negative units
  rw [abs_number, ← middle_last_le_iff, units_eq, ← hk.limit_le_iff] at h
  have hlimit := BinaryFormat.single_bounded.rung_strictMono.monotone h
  rw [BinaryFormat.rung_single_limit] at hlimit
  rw [hnarrow, BinaryFormat.datum_of_le negative hlimit]

theorem isNegative_datum (f : BinaryFormat) (negative : Bool) (k : ℕ) :
    (f.datum negative k).isNegative = negative := by
  unfold BinaryFormat.datum
  split_ifs <;> rfl

theorem datum_ne_nan (f : BinaryFormat) (negative : Bool) (k : ℕ) : f.datum negative k ≠ nan := by
  unfold BinaryFormat.datum
  split_ifs <;> simp

theorem isNegative_narrow (x : Binary) : x.narrow.isNegative = x.isNegative := by
  cases x with
  | nan => rfl
  | infinite _ => rfl
  | finite negative units =>
    obtain ⟨k, -, hnarrow⟩ := narrow_finite negative units
    rw [hnarrow, isNegative_datum]
    rfl

theorem narrow_ne_nan {x : Binary} (h : x ≠ nan) : x.narrow ≠ nan := by
  cases x with
  | nan => exact absurd rfl h
  | infinite _ => exact Binary.noConfusion
  | finite negative units =>
    obtain ⟨k, -, hnarrow⟩ := narrow_finite negative units
    rw [hnarrow]
    exact datum_ne_nan single negative k

namespace AtMost

theorem datum_false {f : BinaryFormat} (hf : f.Regular) {j k : ℕ} (h : j ≤ k) :
    AtMost (f.datum false j) (f.datum false k) := by
  have hrung := hf.rung_strictMono.monotone h
  rcases lt_or_ge (f.rung k) f.limit with hk | hk
  · rw [BinaryFormat.datum_of_lt false hk, BinaryFormat.datum_of_lt false (hrung.trans_lt hk)]
    exact .finite (by simpa [signed] using hrung)
  · rw [BinaryFormat.datum_of_le false hk]
    exact .greatest (datum_ne_nan f false j)

theorem datum_true {f : BinaryFormat} (hf : f.Regular) {j k : ℕ} (h : j ≤ k) :
    AtMost (f.datum true k) (f.datum true j) := by
  have hrung := hf.rung_strictMono.monotone h
  rcases lt_or_ge (f.rung k) f.limit with hk | hk
  · rw [BinaryFormat.datum_of_lt true hk, BinaryFormat.datum_of_lt true (hrung.trans_lt hk)]
    exact .finite (by simpa [signed] using hrung)
  · rw [BinaryFormat.datum_of_le true hk]
    exact .least (datum_ne_nan f true j)

theorem datum_signs (f : BinaryFormat) (j k : ℕ) : AtMost (f.datum true j) (f.datum false k) := by
  rcases lt_or_ge (f.rung j) f.limit with hj | hj
  · rcases lt_or_ge (f.rung k) f.limit with hk | hk
    · rw [BinaryFormat.datum_of_lt true hj, BinaryFormat.datum_of_lt false hk]
      refine .finite ?_
      simp only [signed, if_true, Bool.false_eq_true, if_false]
      omega
    · rw [BinaryFormat.datum_of_le false hk]
      exact .greatest (datum_ne_nan f true j)
  · rw [BinaryFormat.datum_of_le true hj]
    exact .least (datum_ne_nan f false k)

end AtMost

theorem AtMost.narrow {x y : Binary} (h : AtMost x y) : AtMost x.narrow y.narrow := by
  have hs := BinaryFormat.single_bounded.toRegular
  cases h with
  | least hy => exact .least (narrow_ne_nan hy)
  | greatest hx => exact .greatest (narrow_ne_nan hx)
  | @finite a b m n h =>
    obtain ⟨j, hj, hx⟩ := narrow_finite a m
    obtain ⟨k, hk, hy⟩ := narrow_finite b n
    rw [hx, hy]
    cases a <;> cases b <;> simp only [signed, if_true, Bool.false_eq_true, if_false] at h
    · exact .datum_false hs (hj.mono hk hs (by exact_mod_cast h))
    · -- A number not below zero is at most one not above it only when both are zero.
      obtain ⟨rfl, rfl⟩ : m = 0 ∧ n = 0 := by omega
      have hzero := BinaryFormat.single_bounded.datum_zero
      have hindex : ∀ {i}, single.RoundsTo (0 : ℕ) i → i = 0 := fun hi => by
        have h0 := hs.roundsTo_rung 0
        rw [BinaryFormat.rung_zero] at h0
        exact hi.unique h0 hs
      rw [hindex hj, hindex hk, hzero, hzero]
      exact .finite le_rfl
    · exact .datum_signs single j k
    · exact .datum_true hs (hk.mono hj hs (by exact_mod_cast Int.neg_le_neg_iff.mp h))

theorem narrow_toBinary (b : BitVec 32) : (toBinary b).narrow = toBinary b := by
  by_cases hb : IsFinite b
  · rw [toBinary_of_finite hb]
    exact narrow_rung b.msb (rung_index_lt hb)
  · have hfield : exponentField b = 255 := le_antisymm (exponentField_le b) (not_lt.mp hb)
    rw [toBinary, if_pos hfield]
    split_ifs <;> rfl

/-- In range narrowing gives the closest float, a tie going to the even one; out of range it gives
an infinity. The sign is always kept, NaN stays NaN, the order of numbers is kept, and what is a
float already is left as it is. -/
theorem narrow_isClosest :
    (∀ negative units,
      (|number negative units| < 2 ^ 128 - 2 ^ 103 →
        ∃ b, (finite negative units).narrow = toBinary b ∧ b.msb = negative ∧
          IsClosest (number negative units) b) ∧
      (2 ^ 128 - 2 ^ 103 ≤ |number negative units| →
        (finite negative units).narrow = infinite negative)) ∧
    (∀ negative, (infinite negative).narrow = infinite negative) ∧ nan.narrow = nan ∧
    (∀ x : Binary, x.narrow.isNegative = x.isNegative) ∧
    (∀ x y : Binary, AtMost x y → AtMost x.narrow y.narrow) ∧
    ∀ b, (toBinary b).narrow = toBinary b :=
  ⟨fun _ _ => ⟨narrow_of_small, narrow_of_large⟩, fun _ => rfl, rfl, isNegative_narrow,
    fun _ _ => AtMost.narrow, narrow_toBinary⟩

theorem narrow_isClosest_halfway :
    |number true (3 * 2 ^ 924)| < 2 ^ 128 - 2 ^ 103 ∧
      (finite true (3 * 2 ^ 924)).narrow = toBinary 0x80000002 ∧
      IsClosest (number true (3 * 2 ^ 924)) 0x80000002 ∧
      2 ^ 128 - 2 ^ 103 ≤ |number true ((2 ^ 128 - 2 ^ 103) * unitsPerOne)| ∧
      (finite true ((2 ^ 128 - 2 ^ 103) * unitsPerOne)).narrow = infinite true ∧
      AtMost (finite true (3 * 2 ^ 924)) (finite true 0) ∧
      AtMost (finite true (3 * 2 ^ 924)).narrow (finite true 0).narrow := by
  have hsmall : |number true (3 * 2 ^ 924)| < 2 ^ 128 - 2 ^ 103 := by
    have hunits : 3 * 2 ^ 924 ≤ unitsPerOne := by decide +kernel
    have hone : |number true (3 * 2 ^ 924)| ≤ 1 := by
      rw [abs_number]
      exact div_le_one_of_le₀ (by exact_mod_cast hunits) Decimal.unitsPerOne_pos.le
    exact hone.trans_lt (by norm_num)
  have hlarge : 2 ^ 128 - 2 ^ 103 ≤ |number true ((2 ^ 128 - 2 ^ 103) * unitsPerOne)| := by
    have hcast : (((2 ^ 128 - 2 ^ 103) * unitsPerOne : ℕ) : ℚ) =
        (2 ^ 128 - 2 ^ 103) * unitsPerOne := by
      rw [Nat.cast_mul, Nat.cast_sub (by decide)]
      norm_num
    rw [abs_number, hcast, mul_div_cancel_right₀ _ Decimal.unitsPerOne_pos.ne']
  have hbelow : AtMost (finite true (3 * 2 ^ 924)) (finite true 0) :=
    .finite (by simp only [signed, if_true]; omega)
  obtain ⟨hrange, -, -, -, hmono, -⟩ := narrow_isClosest
  obtain ⟨b, hvalue, -, hclosest⟩ := (hrange true (3 * 2 ^ 924)).1 hsmall
  have hnarrow : (finite true (3 * 2 ^ 924)).narrow = toBinary 0x80000002 := by decide +kernel
  have hfinite : IsFinite 0x80000002 := by unfold IsFinite; decide
  obtain rfl := eq_of_toBinary_eq hfinite (hvalue.symm.trans hnarrow)
  exact ⟨hsmall, hnarrow, hclosest, hlarge, (hrange true _).2 hlarge, hbelow, hmono _ _ hbelow⟩

end Binary

end PreferenceAccessors
