import Mathlib.Tactic
import PreferenceAccessors.Number.Binary

/-!
The magnitudes of a binary format in ascending order, as if its range had no
end. The number of a magnitude is its exponent field and its fraction field read
as one number, so the bit pattern of a finite value is its number and its sign,
and the significand is even where the number is. Magnitudes are in units.
-/

namespace PreferenceAccessors.BinaryFormat

/-- At least two bits of precision, and a least spacing that is a power of two. -/
structure Regular (f : BinaryFormat) : Prop where
  precision : 2 ≤ f.precision
  grain : ∃ t, f.grain = 2 ^ t

def binade (f : BinaryFormat) : ℕ := 2 ^ (f.precision - 1)

/-- The magnitude of a number: exponent field `k / f.binade`, where 0 and 1 share a spacing. -/
def rung (f : BinaryFormat) (k : ℕ) : ℕ :=
  (k - (k / f.binade - 1) * f.binade) * 2 ^ (k / f.binade - 1) * f.grain

variable {f : BinaryFormat}

theorem binade_pos (f : BinaryFormat) : 0 < f.binade := Nat.two_pow_pos _

theorem Regular.grain_pos (hf : f.Regular) : 0 < f.grain := by
  obtain ⟨t, ht⟩ := hf.grain
  rw [ht]
  exact Nat.two_pow_pos t

theorem Regular.two_mul_binade (hf : f.Regular) : 2 * f.binade = 2 ^ f.precision := by
  have hp : f.precision = f.precision - 1 + 1 := by
    have := hf.precision
    omega
  rw [binade, hp, Nat.pow_succ, Nat.mul_comm, Nat.add_sub_cancel]

theorem Regular.even_binade (hf : f.Regular) : Even f.binade := by
  have hp : f.precision - 1 ≠ 0 := by
    have := hf.precision
    omega
  exact (Nat.even_pow.mpr ⟨even_two, hp⟩)

@[simp]
theorem rung_zero (f : BinaryFormat) : f.rung 0 = 0 := by
  simp [rung]

theorem rung_index {e q : ℕ} (hq : q ≤ 2 * f.binade) (hlow : e = 0 ∨ f.binade ≤ q) :
    f.rung (e * f.binade + q) = q * 2 ^ e * f.grain := by
  have hpos := f.binade_pos
  unfold rung
  by_cases hsmall : q < f.binade
  · obtain rfl : e = 0 := by omega
    simp [Nat.div_eq_of_lt hsmall]
  · by_cases hlt : q < 2 * f.binade
    · have hdiv : (e * f.binade + q) / f.binade = e + 1 := by
        rw [Nat.mul_comm, Nat.mul_add_div hpos]
        congr 1
        exact Nat.div_eq_of_lt_le (by omega) (by omega)
      rw [hdiv, Nat.add_sub_cancel, Nat.add_sub_cancel_left]
    · obtain rfl : q = 2 * f.binade := by omega
      have hdiv : (e * f.binade + 2 * f.binade) / f.binade = e + 2 := by
        rw [← Nat.add_mul, Nat.mul_div_cancel _ hpos]
      have hrest : e * f.binade + 2 * f.binade - (e + 1) * f.binade = f.binade := by
        rw [← Nat.add_mul, ← Nat.sub_mul]
        simp
      rw [hdiv, Nat.add_sub_cancel_right (m := 1), hrest, Nat.pow_succ]
      ring

theorem exists_index (f : BinaryFormat) (k : ℕ) :
    ∃ e q, k = e * f.binade + q ∧ q < 2 * f.binade ∧ (e = 0 ∨ f.binade ≤ q) := by
  have hpos := f.binade_pos
  have hdiv := Nat.div_add_mod k f.binade
  have hmod := Nat.mod_lt k hpos
  by_cases hzero : k / f.binade = 0
  · refine ⟨0, k, by simp, ?_, .inl rfl⟩
    rw [hzero] at hdiv
    omega
  · obtain ⟨e, he⟩ := Nat.exists_eq_succ_of_ne_zero hzero
    refine ⟨e, f.binade + k % f.binade, ?_, by omega, .inr (by omega)⟩
    rw [he, Nat.succ_eq_add_one, Nat.mul_add, Nat.mul_comm] at hdiv
    omega

theorem rung_succ {e q : ℕ} (hq : q < 2 * f.binade) (hlow : e = 0 ∨ f.binade ≤ q) :
    f.rung (e * f.binade + q + 1) = f.rung (e * f.binade + q) + 2 ^ e * f.grain := by
  rw [Nat.add_assoc, rung_index (by omega) (by omega), rung_index hq.le hlow]
  ring

theorem rung_add_le_rung_succ {e q : ℕ} (hq : q ≤ 2 * f.binade) (hlow : e = 0 ∨ f.binade ≤ q) :
    f.rung (e * f.binade + q) + 2 ^ e * f.grain ≤ f.rung (e * f.binade + q + 1) := by
  by_cases hlt : q < 2 * f.binade
  · exact (rung_succ hlt hlow).ge
  · obtain rfl : q = 2 * f.binade := by omega
    have hpos := f.binade_pos
    have hcarry : e * f.binade + 2 * f.binade = (e + 1) * f.binade + f.binade := by ring
    have hdouble : 2 ^ e * f.grain ≤ 2 ^ (e + 1) * f.grain :=
      Nat.mul_le_mul_right _ (Nat.pow_le_pow_right (by decide) (by omega))
    rw [hcarry, rung_succ (by omega) (.inr le_rfl)]
    omega

theorem Regular.rung_strictMono (hf : f.Regular) : StrictMono f.rung := by
  refine strictMono_nat_of_lt_succ fun k => ?_
  obtain ⟨e, q, rfl, hq, hlow⟩ := f.exists_index k
  have hgap : 0 < 2 ^ e * f.grain := Nat.mul_pos (Nat.two_pow_pos e) hf.grain_pos
  rw [rung_succ hq hlow]
  omega

theorem Regular.rung_succ_le (hf : f.Regular) (k : ℕ) :
    f.rung (k + 1) + 2 ^ f.precision * f.rung k ≤ 2 ^ f.precision * f.rung (k + 1) := by
  obtain ⟨e, q, rfl, hq, hlow⟩ := f.exists_index k
  have hsucc := rung_succ hq hlow
  have hupper : f.rung (e * f.binade + q + 1) = (q + 1) * (2 ^ e * f.grain) := by
    rw [hsucc, rung_index hq.le hlow]
    ring
  have hbound : (q + 1) * (2 ^ e * f.grain) ≤ 2 ^ f.precision * (2 ^ e * f.grain) :=
    Nat.mul_le_mul_right _ (hf.two_mul_binade ▸ hq)
  calc f.rung (e * f.binade + q + 1) + 2 ^ f.precision * f.rung (e * f.binade + q)
      ≤ 2 ^ f.precision * (2 ^ e * f.grain) + 2 ^ f.precision * f.rung (e * f.binade + q) := by
        rw [hupper]
        exact Nat.add_le_add_right hbound _
    _ = 2 ^ f.precision * f.rung (e * f.binade + q + 1) := by
        rw [hsucc]
        ring

theorem Regular.exists_rung (hf : f.Regular) {q : ℕ} (e : ℕ) (hq : q ≤ 2 ^ f.precision) :
    ∃ k, f.rung k = q * 2 ^ e * f.grain := by
  rw [← hf.two_mul_binade] at hq
  induction e generalizing q with
  | zero => exact ⟨0 * f.binade + q, rung_index hq (.inl rfl)⟩
  | succ e ih =>
    by_cases hlarge : f.binade ≤ q
    · exact ⟨_, rung_index hq (.inr hlarge)⟩
    · obtain ⟨k, hk⟩ := ih (q := 2 * q) (by omega)
      refine ⟨k, ?_⟩
      rw [hk, Nat.pow_succ]
      ring

end PreferenceAccessors.BinaryFormat
