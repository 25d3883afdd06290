import PreferenceAccessors.Proofs.Number.Meaning
import PreferenceAccessors.Proofs.Number.Overflow

/-!
What is read for a float in free text. Exactly the literals are taken, blanks
around them apart, and what is read is the nearest double of what the literal
spells, narrowed to a float. Against the number rounded once to a float this
makes a difference only where the double is the middle between two adjacent
floats and the number lies beside it; an infinity counts as the float that
follows the last finite one.
-/

namespace PreferenceAccessors

open FloatText

theorem readFloat_error_iff {s : String} :
    readFloat s = .error ⟨Text.strip s⟩ ↔ ¬ IsLiteral (Text.trim s.toList) := by
  rw [← parse?_eq_none_iff, readFloat]
  cases parse? (Text.trim s.toList) with
  | none => simp
  | some t => simp

theorem FloatText.Spells.exists_readFloat {s : String} {v : Meaning}
    (h : Spells (Text.trim s.toList) v) :
    ∃ x, v.RoundsTo double x ∧ readFloat s = .ok x.narrow := by
  obtain ⟨t, ht, rfl⟩ := h.exists_parse?
  exact ⟨t.toDouble, meaning_roundsTo t, by rw [readFloat, ht]⟩

theorem exists_readFloat_iff {s : String} :
    (∃ x, readFloat s = .ok x) ↔ IsLiteral (Text.trim s.toList) := by
  constructor
  · rintro ⟨x, hx⟩
    by_contra hno
    simp [readFloat_error_iff.mpr hno] at hx
  · intro h
    obtain ⟨v, hv⟩ := h.exists_spells
    obtain ⟨x, -, hx⟩ := hv.exists_readFloat
    exact ⟨x.narrow, hx⟩

/-- Taken are the literals and no other text, and each has one meaning. Without its suffix letter a
literal is a number in free text, the double nearest to the meaning, and that is narrowed. -/
theorem readFloat_spec (s : String) :
    ((∃ x, readFloat s = .ok x) ↔ IsLiteral (Text.trim s.toList)) ∧
      (readFloat s = .error ⟨Text.strip s⟩ ↔ ¬ IsLiteral (Text.trim s.toList)) ∧
      (IsLiteral (Text.trim s.toList) ↔ ∃! v, Spells (Text.trim s.toList) v) ∧
      ∀ v, Spells (Text.trim s.toList) v →
        ∃ x, Numeral.float? (String.ofList (dropSuffix (Text.trim s.toList))) = some x ∧
          v.RoundsTo double x ∧ readFloat s = .ok x.narrow := by
  refine ⟨exists_readFloat_iff, readFloat_error_iff, isLiteral_iff_existsUnique, ?_⟩
  intro v hv
  obtain ⟨x, hfloat, hx⟩ := hv.exists_float?
  obtain ⟨y, hy, hread⟩ := hv.exists_readFloat
  obtain rfl := hy.unique BinaryFormat.double_bounded.toRegular hx
  exact ⟨y, hfloat, hx, hread⟩

theorem readFloat_spec_padded :
    Spells (Text.trim " -12.5e-1f\n".toList) (.number true (5 / 4)) ∧
      ∃ x, Numeral.float? "-12.5e-1" = some x ∧
        Meaning.RoundsTo double (.number true (5 / 4)) x ∧ readFloat " -12.5e-1f\n" = .ok x.narrow := by
  have hparse : parse? (Text.trim " -12.5e-1f\n".toList) = some (.number ⟨true, 125, -2⟩) := by
    decide +kernel
  have hsize : (⟨true, 125, -2⟩ : Decimal).size = 5 / 4 := by norm_num [Decimal.size]
  have hspells := spells_number hparse hsize
  exact ⟨hspells, (readFloat_spec " -12.5e-1f\n").2.2.2 _ hspells⟩

open SinglePattern

/-- A decimal number is read as a float of its sign, the one it is rounded to at once unless it
slips to an adjacent one; and then it is rounded at once to that one. -/
theorem readFloat_readsOnce_iff {s : String} {negative : Bool} {q : ℚ}
    (h : Spells (Text.trim s.toList) (.number negative q)) :
    ∃ d b, d.negative = negative ∧ d.size = q ∧ IsNumber b ∧ b.msb = negative ∧
      readFloat s = .ok (toBinary b) ∧
      (ReadsOnce d b ↔ ¬ ∃ c, IsNumber c ∧ SlipsTo d b c) ∧
      (∀ c, IsNumber c → SlipsTo d b c → ReadsOnce d c) ∧
      (2 ^ 128 - 2 ^ 103 ≤ q → ReadsOnce d b ∧ toBinary b = .infinite negative) ∧
      (q ≤ 1 / 2 ^ 150 → ReadsOnce d b ∧ toBinary b = .finite negative 0) := by
  obtain ⟨t, ht, hmeaning⟩ := h.exists_parse?
  cases t with
  | nan => exact Meaning.noConfusion hmeaning
  | infinity sign => exact Meaning.noConfusion hmeaning
  | number d =>
    rw [meaning, Meaning.number.injEq] at hmeaning
    obtain ⟨rfl, rfl⟩ := hmeaning
    obtain ⟨b, hb, hsign, hread⟩ := exists_number_of_narrow d
    refine ⟨d, b, rfl, rfl, hb, hsign, ?_, hb.readsOnce_iff hread, ?_, ?_, ?_⟩
    · rw [readFloat, ht, ← hread]
      rfl
    · intro c hc hslip
      exact hslip.readsOnce_of_isNumber hb hc hread
    · intro hover
      have hvalue := hread.symm.trans (narrow_round_of_overflow hover)
      have hinfinite := (toBinary_eq_infinite_iff.mp hvalue).1
      exact ⟨⟨hsign, hinfinite.isNearest_iff.mpr hover⟩, hvalue⟩
    · intro hunder
      have hvalue := hread.symm.trans (narrow_round_of_underflow hunder)
      have hzero := (toBinary_eq_zero_iff.mp hvalue).1
      exact ⟨⟨hsign, (isNearest_zero_iff hzero).mpr hunder⟩, hvalue⟩

theorem readFloat_readsOnce_iff_near_overflow :
    Spells (Text.trim " -3.4028235677973366e+38f ".toList)
        (.number true (34028235677973366 * 10 ^ 22)) ∧
      ∃ d b, d.negative = true ∧ d.size = 34028235677973366 * 10 ^ 22 ∧ IsNumber b ∧
        b.msb = true ∧ readFloat " -3.4028235677973366e+38f " = .ok (toBinary b) ∧
        (ReadsOnce d b ↔ ¬ ∃ c, IsNumber c ∧ SlipsTo d b c) ∧
        (∀ c, IsNumber c → SlipsTo d b c → ReadsOnce d c) ∧
        ((2 ^ 128 - 2 ^ 103 : ℚ) ≤ 34028235677973366 * 10 ^ 22 →
          ReadsOnce d b ∧ toBinary b = .infinite true) ∧
        ((34028235677973366 * 10 ^ 22 : ℚ) ≤ 1 / 2 ^ 150 →
          ReadsOnce d b ∧ toBinary b = .finite true 0) := by
  have hparse : parse? (Text.trim " -3.4028235677973366e+38f ".toList) =
      some (.number ⟨true, 34028235677973366, 22⟩) := by
    decide +kernel
  have hsize : (⟨true, 34028235677973366, 22⟩ : Decimal).size = 34028235677973366 * 10 ^ 22 := by
    norm_num [Decimal.size]
  have hspells := spells_number hparse hsize
  exact ⟨hspells, readFloat_readsOnce_iff hspells⟩

/-- A number just above the middle between one and the next float, whose double is that middle: it
is read as one, but rounded at once it is the next float. -/
theorem readFloat_not_nearest :
    Spells (Text.trim "1.0000000596046447754".toList)
        (.number false (10000000596046447754 / 10 ^ 19)) ∧
      readFloat "1.0000000596046447754" = .ok (toBinary 0x3F800000) ∧
      ¬ IsNearest (10000000596046447754 / 10 ^ 19) 0x3F800000 ∧
      IsNearest (10000000596046447754 / 10 ^ 19) 0x3F800001 := by
  have hparse : parse? (Text.trim "1.0000000596046447754".toList) =
      some (.number ⟨false, 10000000596046447754, -19⟩) := by
    decide +kernel
  have hsize : (⟨false, 10000000596046447754, -19⟩ : Decimal).size =
      10000000596046447754 / 10 ^ 19 := by
    norm_num [Decimal.size]
  have hspells := spells_number hparse hsize
  have hone : IsFinite 0x3F800000 := by unfold IsFinite; decide +kernel
  have hnext : IsFinite 0x3F800001 := by unfold IsFinite; decide +kernel
  have hread : readFloat "1.0000000596046447754" = .ok (toBinary 0x3F800000) := by decide +kernel
  have hnot : ¬ ReadsOnce ⟨false, 10000000596046447754, -19⟩ 0x3F800000 := by
    rw [readsOnce_iff_round hone]
    decide +kernel
  have honce : ReadsOnce ⟨false, 10000000596046447754, -19⟩ 0x3F800001 := by
    rw [readsOnce_iff_round hnext]
    decide +kernel
  rw [ReadsOnce, hsize] at hnot honce
  exact ⟨hspells, hread, fun hnear => hnot ⟨rfl, hnear⟩, honce.2⟩

end PreferenceAccessors
