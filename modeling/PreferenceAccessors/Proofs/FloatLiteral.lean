import PreferenceAccessors.JavaLiteral
import PreferenceAccessors.Proofs.Number.Digits
import PreferenceAccessors.Proofs.Number.SinglePattern
import PreferenceAccessors.Proofs.Number.Spelling

/-!
Float literals against the floats they stand for. A literal always reads back as
its float through a double. Read at once, as a compiler reads it, it does too,
except where the decimal lies just beside the middle of two neighbouring floats
and the double nearest to it is that middle.
-/

namespace PreferenceAccessors

namespace FloatLiteral

theorem readsBack_zero (negative : Bool) (digits : ℕ) :
    readsBack negative 0 (Binary.toDigits negative 0 digits) = true := by
  have hround : (⟨negative, 0, 0⟩ : Decimal).round double = .finite negative 0 := by
    rw [Decimal.round, if_pos rfl]
  have hnarrow : (Binary.finite negative 0).narrow = .finite negative 0 :=
    single.round_zero negative 1 BinaryFormat.single_bounded.limit_pos
  rw [Binary.toDigits_zero, readsBack, hround, hnarrow, beq_self_eq_true]

theorem readsBack_digitCount (negative : Bool) {k : ℕ} (hrange : single.rung k < single.limit) :
    readsBack negative (single.rung k) (Binary.toDigits negative (single.rung k)
      (digitCount negative (single.rung k))) = true := by
  have hnine : readsBack negative (single.rung k)
      (Binary.toDigits negative (single.rung k) 9) = true := by
    by_cases hzero : single.rung k = 0
    · rw [hzero]
      exact readsBack_zero negative 9
    · have hpos : 0 < single.rung k := Nat.pos_of_ne_zero hzero
      rw [readsBack, Decimal.narrow_round_toDigits_nine negative hpos hrange, beq_self_eq_true]
  unfold digitCount
  cases hfound : (List.range' 1 9).find? fun n =>
      readsBack negative (single.rung k) (Binary.toDigits negative (single.rung k) n) with
  | none =>
    have hno := List.find?_eq_none.mp hfound 9 (by simp)
    exact absurd hnine hno
  | some n =>
    have hfits := List.find?_some hfound
    simpa using hfits

theorem exists_parse?_write (negative : Bool) (units : ℕ) :
    ∃ d, FloatText.parse? (write (.finite negative units)).toList = some (.number d) ∧
      d.negative = negative ∧
      d.size = (Binary.toDigits negative units (digitCount negative units)).size := by
  obtain ⟨d, hparse, hsign, hsize⟩ := Decimal.readAs_general
    (Binary.toDigits negative units (digitCount negative units)) (digitCount negative units)
    (FloatText.IsTail.suffix (c := 'f') rfl)
  rw [Binary.toDigits_negative] at hsign
  refine ⟨d, ?_, hsign, hsize⟩
  rw [write, String.toList_ofList]
  exact hparse

theorem exists_readsBack_write (negative : Bool) {k : ℕ} (hrange : single.rung k < single.limit) :
    ∃ d, FloatText.parse? (write (.finite negative (single.rung k))).toList = some (.number d) ∧
      (d.round double).narrow = .finite negative (single.rung k) := by
  obtain ⟨d, hparse, hsign, hsize⟩ := exists_parse?_write negative (single.rung k)
  have hback := readsBack_digitCount negative hrange
  rw [← Binary.toDigits_negative negative (single.rung k)
    (digitCount negative (single.rung k))] at hsign
  rw [readsBack, beq_iff_eq, ← Decimal.round_congr BinaryFormat.double_bounded hsign hsize] at hback
  exact ⟨d, hparse, hback⟩

end FloatLiteral

namespace Kind

open SinglePattern

/-- The literal of a value whose float is finite spells a decimal that is read at once as the
float, unless it slips to an adjacent one; and then it is read as that one. -/
theorem literal_readsOnce_iff {v : Value} {x : Binary} {negative : Bool} {units : ℕ}
    (hv : v.toDouble = .ok x) (hx : x.narrow = .finite negative units) :
    ∃ text d b, Kind.float.literal v = .ok text ∧
      FloatText.parse? text.toList = some (.number d) ∧ IsFinite b ∧ toBinary b = x.narrow ∧
      (d.round double).narrow = x.narrow ∧ (ReadsOnce d b ↔ ¬ ∃ c, SlipsTo d b c) ∧
      ∀ c, SlipsTo d b c → ReadsOnce d c := by
  obtain ⟨k, rfl, hrange⟩ := Binary.exists_rung_of_narrow hx
  obtain ⟨d, hparse, hback⟩ := FloatLiteral.exists_readsBack_write negative hrange
  obtain ⟨b, hfinite, -, -, hb⟩ := exists_toBinary_eq negative hrange
  have hread : (d.round double).narrow = toBinary b := hback.trans hb.symm
  refine ⟨FloatLiteral.write x.narrow, d, b, ?_, ?_, hfinite, hb.trans hx.symm,
    hback.trans hx.symm, readsOnce_iff_not_slipsTo hfinite hread, ?_⟩
  · rw [literal, hv, Except.map]
  · rw [hx]
    exact hparse
  · intro c hc
    exact hc.readsOnce hfinite hread

def slipping : Binary := .ofBits 0x3AB5C87FC0000000

theorem slipping_readsOnce_iff :
    (Value.float slipping).toDouble = .ok slipping ∧
      slipping.narrow = .finite false (0xAE43FE * 2 ^ 967) ∧
      ∃ text d b, Kind.float.literal (.float slipping) = .ok text ∧
        FloatText.parse? text.toList = some (.number d) ∧ IsFinite b ∧
        toBinary b = slipping.narrow ∧ (d.round double).narrow = slipping.narrow ∧
        (ReadsOnce d b ↔ ¬ ∃ c, SlipsTo d b c) ∧ ∀ c, SlipsTo d b c → ReadsOnce d c := by
  have hvalue : (Value.float slipping).toDouble = .ok slipping := rfl
  have hnarrow : slipping.narrow = .finite false (0xAE43FE * 2 ^ 967) := by decide +kernel
  exact ⟨hvalue, hnarrow, literal_readsOnce_iff hvalue hnarrow⟩

/-- It slips, and at once its literal is read as the float below. -/
theorem slipping_not_readsOnce :
    slipping.narrow = toBinary 0x15AE43FE ∧
      Kind.float.literal (.float slipping) = .ok "7.038531e-26f" ∧
      FloatText.parse? "7.038531e-26f".toList = some (.number ⟨false, 7038531, -32⟩) ∧
      ¬ ReadsOnce ⟨false, 7038531, -32⟩ 0x15AE43FE ∧ ReadsOnce ⟨false, 7038531, -32⟩ 0x15AE43FD := by
  have habove : IsFinite 0x15AE43FE := by unfold IsFinite; decide +kernel
  have hbelow : IsFinite 0x15AE43FD := by unfold IsFinite; decide +kernel
  rw [readsOnce_iff_round habove, readsOnce_iff_round hbelow]
  decide +kernel

end Kind

end PreferenceAccessors
