import PreferenceAccessors.Proofs.FloatRoundTrip
import PreferenceAccessors.Proofs.Number.PowerOfTwo

/-!
How short float literals are, read back as their writer reads them. The digit
count of a literal is the first at which the nearest decimal reads back. Some
other decimal of that count may read back before, but only above a power of two,
and there only with eight digits of three of them; so a literal is the shortest
decimal that reads back, and of the floats of those three it has one digit more.
-/

namespace PreferenceAccessors

open BinaryFormat Binary

namespace BinaryFormat

variable {k digits : ℕ} {d : Decimal}

theorem size_ne_zero_of_readsAs (hpos : 0 < single.rung k) (hd : ReadsAs k (d.size * unitsPerOne)) :
    d.size ≠ 0 := by
  intro hzero
  have hnone := readsAs_rung 0
  rw [rung_zero, Nat.cast_zero] at hnone
  rw [hzero, zero_mul] at hd
  obtain rfl := hd.unique hnone
  simp at hpos

theorem readsAs_floor_or_succ (hpos : 0 < single.rung k) (hd : ReadsAs k (d.size * unitsPerOne))
    (hdigits : d.significant ≤ digits + 1) :
    ReadsAs k (gridFloor (single.rung k) (gridExponent (single.rung k) (digits + 1)) *
        gridStep (gridExponent (single.rung k) (digits + 1))) ∨
      ReadsAs k ((gridFloor (single.rung k) (gridExponent (single.rung k) (digits + 1)) + 1) *
        gridStep (gridExponent (single.rung k) (digits + 1))) := by
  have houtside := le_gridFloor_or hpos hdigits
  generalize gridExponent (single.rung k) (digits + 1) = exponent at *
  have hstep := gridStep_pos exponent
  have hbelow := gapBelow_nonneg (single.rung k) exponent
  have habove := gapAbove_pos (single.rung k) exponent
  have hown := readsAs_rung k
  rcases houtside with hle | hge
  · exact .inl (hd.between hown (by positivity) hle (sub_nonneg.mp hbelow))
  · exact .inr (hown.between hd (by positivity) (sub_pos.mp habove).le hge)

theorem DoublesMirrored.readsAs_gridNearest {c n : ℕ} {exponent : ℤ} (hm : DoublesMirrored k c n)
    (h : ReadsAs k (gridFloor (single.rung k) exponent * gridStep exponent) ∨
      ReadsAs k ((gridFloor (single.rung k) exponent + 1) * gridStep exponent)) :
    ReadsAs k (gridNearest (single.rung k) exponent * gridStep exponent) := by
  have hstep := gridStep_pos exponent
  have hbelow := gapBelow_nonneg (single.rung k) exponent
  have habove := gapAbove_pos (single.rung k) exponent
  have hfloor : |gridFloor (single.rung k) exponent * gridStep exponent - single.rung k| =
      gapBelow (single.rung k) exponent := by
    rw [abs_sub_comm]
    exact abs_of_nonneg hbelow
  have hsucc : |(gridFloor (single.rung k) exponent + 1) * gridStep exponent - single.rung k| =
      gapAbove (single.rung k) exponent := abs_of_pos habove
  rcases gridNearest_cases (single.rung k) exponent with ⟨hnearest, hle⟩ | ⟨hnearest, hle⟩
  · rw [hnearest]
    rcases h with h | h
    · exact h
    · exact hm.readsAs_of_abs_le h (by positivity) (by rwa [hfloor, hsucc])
  · rw [hnearest, Nat.cast_succ]
    rcases h with h | h
    · exact hm.readsAs_of_abs_le h (by positivity) (by rwa [hfloor, hsucc])
    · exact h

/-- If any decimal of so many digits is read as a float, the nearest one is, but for eight digits
of a lopsided power of two. -/
theorem readsAs_toDigits (negative : Bool) (hpos : 0 < single.rung k)
    (hrange : single.rung k < single.limit) (hd : ReadsAs k (d.size * unitsPerOne))
    (hdigits : d.significant ≤ digits + 1) (hfew : digits < 8)
    (hclear : ∀ t ∈ lopsided, single.rung k = 2 ^ t → digits + 1 ≠ 8) :
    ReadsAs k ((toDigits negative (single.rung k) (digits + 1)).size * unitsPerOne) := by
  rw [toDigits_units]
  have haround := readsAs_floor_or_succ hpos hd hdigits
  by_cases hpower : ∃ t, single.rung k = 2 ^ t
  · obtain ⟨t, ht⟩ := hpower
    obtain ⟨-, -, hlow, -⟩ := exists_neighbours ht
    have hhigh : t < 1202 := by
      obtain ⟨l, hl, hlimit⟩ : ∃ l, l = 1202 ∧ single.limit = 2 ^ l := ⟨1202, rfl, single_limit⟩
      rw [ht, hlimit, Nat.pow_lt_pow_iff_right (by decide)] at hrange
      omega
    have hgrid := clear_of_power t (List.mem_range'_1.mpr ⟨hlow, hhigh⟩) (digits + 1)
      (List.mem_range'_1.mpr ⟨by omega, by omega⟩)
    have hclear := hgrid.resolve_left fun h => hclear t h.1 ht h.2
    rw [ht] at haround ⊢
    exact readsAs_gridNearest_of_clear ht hclear haround
  · obtain ⟨c, n, hm⟩ := exists_doublesMirrored hpos.ne' (not_exists.mp hpower)
    exact hm.readsAs_gridNearest haround

end BinaryFormat

namespace FloatLiteral

variable {negative : Bool} {k : ℕ} {e : Decimal}

theorem readsBack_toDigits_iff (hrange : single.rung k < single.limit) (digits : ℕ) :
    readsBack negative (single.rung k) (toDigits negative (single.rung k) digits) = true ↔
      ReadsAs k ((toDigits negative (single.rung k) digits).size * unitsPerOne) := by
  rw [readsBack, beq_iff_eq, Decimal.narrow_round_eq_iff hrange, toDigits_negative]
  exact and_iff_right rfl

/-- What reads back has at least the digit count of the literal, but for eight digits of a lopsided
power of two. -/
theorem digitCount_le_significant (hpos : 0 < single.rung k)
    (hrange : single.rung k < single.limit)
    (he : (e.round double).narrow = .finite negative (single.rung k))
    (hclear : ∀ t ∈ lopsided, single.rung k = 2 ^ t → e.significant ≠ 8) :
    digitCount negative (single.rung k) ≤ e.significant := by
  obtain ⟨-, hreads⟩ := (Decimal.narrow_round_eq_iff hrange).mp he
  have hfirst := isFirstReadingBack_digitCount negative hrange
  have hsome := Decimal.significant_pos (size_ne_zero_of_readsAs hpos hreads)
  by_contra hshort
  have hmost := (List.mem_range'_1.mp hfirst.mem).2
  obtain ⟨digits, hdigits⟩ : ∃ digits, e.significant = digits + 1 := ⟨e.significant - 1, by omega⟩
  have hback := readsAs_toDigits negative hpos hrange hreads hdigits.le (by omega)
    (hdigits ▸ hclear)
  rw [← readsBack_toDigits_iff hrange,
    hfirst.first (digits + 1) (by omega) (by omega)] at hback
  exact Bool.false_ne_true hback

theorem lopsided_shorter : ∀ negative : Bool, ∀ t ∈ lopsided,
    ((⟨negative, gridFloor (2 ^ t) (gridExponent (2 ^ t) 8) + 1, gridExponent (2 ^ t) 8⟩ :
        Decimal).round double).narrow = .finite negative (2 ^ t) ∧
      (⟨negative, gridFloor (2 ^ t) (gridExponent (2 ^ t) 8) + 1, gridExponent (2 ^ t) 8⟩ :
        Decimal).significant <
        (toDigits negative (2 ^ t) (digitCount negative (2 ^ t))).significant := by
  decide +kernel

end FloatLiteral

namespace Kind

open FloatLiteral

/-- The literal of a value whose float is finite and not zero is the shortest decimal that reads
back as the float, unless this is one of the lopsided powers of two; and then it is one digit
longer. -/
theorem literal_shortest_iff {v : Value} {x : Binary} {negative : Bool} {units : ℕ}
    (hv : v.toDouble = .ok x) (hx : x.narrow = .finite negative units) (hunits : units ≠ 0) :
    ∃ text d, Kind.float.literal v = .ok text ∧
      FloatText.parse? text.toList = some (.number d) ∧ (d.round double).narrow = x.narrow ∧
      (∀ e : Decimal, (e.round double).narrow = x.narrow → d.significant ≤ e.significant + 1) ∧
      ((∀ e : Decimal, (e.round double).narrow = x.narrow → d.significant ≤ e.significant) ↔
        ∀ t ∈ lopsided, units ≠ 2 ^ t) := by
  obtain ⟨k, rfl, hrange⟩ := exists_rung_of_narrow hx
  have hpos := Nat.pos_of_ne_zero hunits
  obtain ⟨d, hparse, hsign, hsize⟩ := exists_parse?_write negative (single.rung k)
  have hcount := isFirstReadingBack_digitCount negative hrange
  have hback : (d.round double).narrow = .finite negative (single.rung k) := by
    rw [Decimal.narrow_round_eq_iff hrange, hsize, ← readsBack_toDigits_iff hrange]
    exact ⟨hsign, hcount.readsBack⟩
  have hsignificant := Decimal.significant_congr hsize
  have hlength : d.significant ≤ digitCount negative (single.rung k) := by
    obtain ⟨digits, hdigits⟩ : ∃ digits, digitCount negative (single.rung k) = digits + 1 := by
      have hone := (List.mem_range'_1.mp hcount.mem).1
      exact ⟨digitCount negative (single.rung k) - 1, by omega⟩
    rw [hsignificant, hdigits]
    exact significant_toDigits_le hpos negative digits
  rw [hx]
  refine ⟨write x.narrow, d, ?_, hx ▸ hparse, hback, fun e he => ?_, ?_⟩
  · rw [literal, hv, Except.map]
  · by_cases hshort : e.significant = 8
    · have hmost := (List.mem_range'_1.mp hcount.mem).2
      omega
    · have hle := digitCount_le_significant hpos hrange he fun _ _ _ => hshort
      omega
  · constructor
    · rintro hall t ht hpower
      obtain ⟨hreads, hlt⟩ := lopsided_shorter negative t ht
      have hle := hall _ (hpower ▸ hreads)
      rw [hsignificant, hpower] at hle
      exact absurd hlt (not_lt.mpr hle)
    · intro hpower e he
      exact hlength.trans
        (digitCount_le_significant hpos hrange he fun t ht h => absurd h (hpower t ht))

theorem literal_shortest_least :
    (Value.float (.finite false (2 ^ 925))).toDouble = .ok (.finite false (2 ^ 925)) ∧
      (Binary.finite false (2 ^ 925)).narrow = .finite false (2 ^ 925) ∧ 2 ^ 925 ≠ 0 ∧
      ∃ text d, Kind.float.literal (.float (.finite false (2 ^ 925))) = .ok text ∧
        FloatText.parse? text.toList = some (.number d) ∧
        ∀ e : Decimal, (e.round double).narrow = .finite false (2 ^ 925) →
          d.significant ≤ e.significant := by
  have hvalue : (Value.float (.finite false (2 ^ 925))).toDouble = .ok (.finite false (2 ^ 925)) :=
    rfl
  have hnarrow : (Binary.finite false (2 ^ 925)).narrow = .finite false (2 ^ 925) := by
    decide +kernel
  have hne : 2 ^ 925 ≠ 0 := by decide +kernel
  obtain ⟨text, d, htext, hparse, -, -, hiff⟩ := literal_shortest_iff hvalue hnarrow hne
  refine ⟨hvalue, hnarrow, hne, text, d, htext, hparse, ?_⟩
  rw [hnarrow] at hiff
  exact hiff.mpr (by decide +kernel)

/-- 2^90: nine digits are written, and eight would do. -/
theorem literal_not_shortest :
    Kind.float.literal (.float (.ofBits 0x4590000000000000)) = .ok "1.23794004e+27f" ∧
      FloatText.parse? "1.23794004e+27f".toList = some (.number ⟨false, 123794004, 19⟩) ∧
      ((⟨false, 12379401, 20⟩ : Decimal).round double).narrow =
        (Binary.ofBits 0x4590000000000000).narrow ∧
      (⟨false, 12379401, 20⟩ : Decimal).significant <
        (⟨false, 123794004, 19⟩ : Decimal).significant := by
  decide +kernel

end Kind

end PreferenceAccessors
