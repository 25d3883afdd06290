import PreferenceAccessors.Declaration
import PreferenceAccessors.Proofs.FloatLiteral
import PreferenceAccessors.Proofs.Number.Grammar

/-!
Reading float literals back. The digit count of a literal is the first that
reads back, and there always is one; the literal belongs to the grammar, and the
reader of preference defaults takes it to the float it was written for. So
writing and reading is the identity on finite floats, bit for bit.
-/

namespace PreferenceAccessors

theorem Binary.narrow_rung (negative : Bool) {k : ℕ} (hrange : single.rung k < single.limit) :
    (Binary.finite negative (single.rung k)).narrow = .finite negative (single.rung k) := by
  have hs := BinaryFormat.single_bounded
  obtain ⟨j, hj, hround⟩ := hs.round_spec negative (single.rung k) one_pos
  rw [Nat.cast_one, div_one] at hj
  rw [narrow, hround, hj.unique (hs.roundsTo_rung k) hs.toRegular, BinaryFormat.datum_eq_finite]
  exact ⟨rfl, rfl, hrange⟩

theorem Binary.narrow_narrow (x : Binary) : x.narrow.narrow = x.narrow := by
  cases h : x.narrow with
  | nan => rfl
  | infinite _ => rfl
  | finite negative units =>
    obtain ⟨k, rfl, hrange⟩ := exists_rung_of_narrow h
    exact narrow_rung negative hrange

namespace SinglePattern

theorem isFinite_of_toBinary {b : BitVec 32} {sign : Bool} {units : ℕ}
    (h : toBinary b = .finite sign units) : IsFinite b := by
  have hle := exponentField_le b
  have hne : exponentField b ≠ 255 := by
    intro hexp
    rw [toBinary, if_pos hexp] at h
    split_ifs at h
  unfold IsFinite
  omega

theorem eq_of_toBinary_eq {b c : BitVec 32} (hb : IsFinite b) (h : toBinary c = toBinary b) :
    c = b := by
  rw [toBinary_of_finite hb] at h
  have hc := isFinite_of_toBinary h
  rw [toBinary_of_finite hc, Binary.finite.injEq] at h
  obtain ⟨hsign, hrung⟩ := h
  have hindex : index c = index b := BinaryFormat.single_bounded.rung_strictMono.injective hrung
  rw [BitVec.msb_eq_decide, BitVec.msb_eq_decide, decide_eq_decide] at hsign
  apply BitVec.eq_of_toNat_eq
  unfold index at hindex
  omega

end SinglePattern

namespace FloatLiteral

/-- The digits of this count read back as the magnitude, and those of no count below it do. -/
structure IsFirstReadingBack (negative : Bool) (units n : ℕ) : Prop where
  mem : n ∈ List.range' 1 9
  readsBack : readsBack negative units (Binary.toDigits negative units n) = true
  first : ∀ m, 1 ≤ m → m < n →
    FloatLiteral.readsBack negative units (Binary.toDigits negative units m) = false

theorem isFirstReadingBack_digitCount (negative : Bool) {k : ℕ}
    (hrange : single.rung k < single.limit) :
    IsFirstReadingBack negative (single.rung k) (digitCount negative (single.rung k)) := by
  have hback := readsBack_digitCount negative hrange
  unfold digitCount at hback ⊢
  cases hfound : (List.range' 1 9).find? fun n =>
      readsBack negative (single.rung k) (Binary.toDigits negative (single.rung k) n) with
  | none =>
    rw [hfound] at hback
    exact absurd hback (List.find?_eq_none.mp hfound 9 (by simp))
  | some n =>
    obtain ⟨hn, hmem, hfirst⟩ := List.find?_range'_eq_some.mp hfound
    refine ⟨hmem, hn, fun m hone hlt => ?_⟩
    simpa using hfirst m hone hlt

theorem isLiteral_write (negative : Bool) (units : ℕ) :
    FloatText.IsLiteral (write (.finite negative units)).toList := by
  obtain ⟨d, hparse, -⟩ := exists_parse?_write negative units
  exact FloatText.isLiteral_of_parse? hparse

theorem readFloat_write (negative : Bool) {k : ℕ} (hrange : single.rung k < single.limit) :
    readFloat (write (.finite negative (single.rung k))) =
      .ok (.finite negative (single.rung k)) := by
  obtain ⟨d, hparse, hback⟩ := exists_readsBack_write negative hrange
  rw [FloatText.readFloat_of_parse? hparse]
  exact congrArg Except.ok hback

end FloatLiteral

namespace Kind

open SinglePattern

/-- Of a value whose float is finite the search for a digit count finds one, and the literal is in
the grammar and is read as the float and as no other pattern. In particular a finite float that is
a default is read back from its literal. -/
theorem readFloat_literal :
    (∀ (v : Value) (x : Binary) (negative : Bool) (units : ℕ),
      v.toDouble = .ok x → x.narrow = .finite negative units →
      ∃ text b, Kind.float.literal v = .ok text ∧
        FloatLiteral.IsFirstReadingBack negative units (FloatLiteral.digitCount negative units) ∧
        FloatText.IsLiteral text.toList ∧ IsFinite b ∧ toBinary b = x.narrow ∧
        readFloat text = .ok (toBinary b) ∧ ∀ c, readFloat text = .ok (toBinary c) → c = b) ∧
    ∀ b, IsFinite b → readFloat (Default.float (toBinary b)).literal = .ok (toBinary b) := by
  refine ⟨fun v x negative units hv hx => ?_, fun b hb => ?_⟩
  · obtain ⟨k, rfl, hrange⟩ := Binary.exists_rung_of_narrow hx
    obtain ⟨b, hb, -, -, hvalue⟩ := exists_toBinary_eq negative hrange
    have hread := FloatLiteral.readFloat_write negative hrange
    rw [← hvalue] at hread
    refine ⟨FloatLiteral.write (toBinary b), b, ?_,
      FloatLiteral.isFirstReadingBack_digitCount negative hrange, ?_, hb, hvalue.trans hx.symm,
      hread, fun c hc => ?_⟩
    · rw [literal, hv, hvalue, ← hx]
      rfl
    · rw [hvalue]
      exact FloatLiteral.isLiteral_write negative _
    · exact eq_of_toBinary_eq hb (Except.ok.inj (hc.symm.trans hread))
  · have hrange := rung_index_lt hb
    rw [Default.literal, toBinary_of_finite hb, Binary.narrow_rung b.msb hrange]
    exact FloatLiteral.readFloat_write b.msb hrange

theorem readFloat_literal_of_int :
    (Value.int 16777217).toDouble = .ok (.finite false (16777217 * unitsPerOne)) ∧
      (Binary.finite false (16777217 * unitsPerOne)).narrow =
        .finite false (16777216 * unitsPerOne) ∧
      ∃ text b, Kind.float.literal (.int 16777217) = .ok text ∧ toBinary b =
        .finite false (16777216 * unitsPerOne) ∧ readFloat text = .ok (toBinary b) := by
  have hvalue : (Value.int 16777217).toDouble = .ok (.finite false (16777217 * unitsPerOne)) := by
    decide +kernel
  have hnarrow : (Binary.finite false (16777217 * unitsPerOne)).narrow =
      .finite false (16777216 * unitsPerOne) := by
    decide +kernel
  obtain ⟨text, b, htext, -, -, -, hb, hread, -⟩ := readFloat_literal.1 _ _ _ _ hvalue hnarrow
  exact ⟨hvalue, hnarrow, text, b, htext, hb.trans hnarrow, hread⟩

end Kind

end PreferenceAccessors
