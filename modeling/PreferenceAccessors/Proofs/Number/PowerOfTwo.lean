import PreferenceAccessors.Proofs.Number.Mirror
import PreferenceAccessors.Proofs.Number.Significant

/-!
Powers of two among the floats. The next float above is twice as far as the one
below, so a point of a decimal grid above a power of two can be read as it while
the nearer point below it is not. How far the magnitudes read as it reach is
known up to one double on each side; that is enough to tell, for each power of
two and each digit count, whether this happens. It does for eight digits of
three powers, and nowhere else.
-/

namespace PreferenceAccessors

namespace BinaryFormat

variable {a : ℚ} {j k m t : ℕ}

theorem readsAs_double (hlow : single.middle j < double.rung m)
    (hhigh : double.rung m < single.middle (j + 1)) : ReadsAs (j + 1) (double.rung m) := by
  refine ⟨m, double_bounded.roundsTo_rung m, single_bounded.roundsTo_of_between hhigh ?_⟩
  intro i hi
  obtain rfl : i = j := by omega
  exact hlow

theorem not_readsAs_of_ge (hm : single.middle k < double.rung m) (ha : double.rung m ≤ a) :
    ¬ ReadsAs k a := by
  rintro ⟨n, hn, hk⟩
  have hle : (double.rung m : ℚ) ≤ double.rung n := by
    exact_mod_cast hn.rung_le double_bounded.toRegular ha
  exact absurd (hk.le_middle single_bounded.toRegular) (not_le.mpr (hm.trans_le hle))

theorem not_readsAs_of_le (hm : double.rung m < single.middle j) (ha : a ≤ double.rung m) :
    ¬ ReadsAs (j + 1) a := by
  rintro ⟨n, hn, hk⟩
  have hle : (double.rung n : ℚ) ≤ double.rung m := by
    exact_mod_cast hn.le_rung double_bounded.toRegular ha
  exact absurd (hk.middle_le single_bounded.toRegular) (not_le.mpr (hle.trans_lt hm))

def halfAbove (t : ℕ) : ℕ := 2 ^ max 924 (t - 24)

def halfBelow (t : ℕ) : ℕ := 2 ^ max 924 (t - 25)

def fineAbove (t : ℕ) : ℕ := 2 ^ (t - 52)

def fineBelow (t : ℕ) : ℕ := 2 ^ (t - 53)

theorem two_mul_halfAbove {e : ℕ} (h : max 925 (t - 23) = e + 925) :
    2 * halfAbove t = 2 ^ e * single.grain := by
  rw [halfAbove, ← Nat.pow_succ', single_grain, ← Nat.pow_add]
  congr 1
  omega

theorem two_mul_halfBelow {e : ℕ} (h : max 925 (t - 24) = e + 925) :
    2 * halfBelow t = 2 ^ e * single.grain := by
  rw [halfBelow, ← Nat.pow_succ', single_grain, ← Nat.pow_add]
  congr 1
  omega

theorem significand_of_power {e q : ℕ} (hq : q < 2 * single.binade)
    (hlow : e = 0 ∨ single.binade ≤ q) (h : q * 2 ^ e * single.grain = 2 ^ t) :
    ∃ l, q = 2 ^ l ∧ t = l + e + 925 ∧ l ≤ 23 ∧ (e = 0 ∨ l = 23) := by
  obtain ⟨l, -, rfl⟩ := (Nat.dvd_prime_pow Nat.prime_two).mp
    (Dvd.intro _ (by rw [← h, Nat.mul_assoc]) : q ∣ 2 ^ t)
  obtain ⟨g, hg, hgrain⟩ : ∃ g, g = 925 ∧ single.grain = 2 ^ g := ⟨925, rfl, single_grain⟩
  rw [hgrain, ← Nat.pow_add, ← Nat.pow_add] at h
  have ht := Nat.pow_right_injective le_rfl h
  rw [single_binade, ← Nat.pow_succ', Nat.pow_lt_pow_iff_right (by decide)] at hq
  rw [single_binade, Nat.pow_le_pow_iff_right (by decide)] at hlow
  exact ⟨l, rfl, hg ▸ ht.symm, by omega, by omega⟩

theorem exists_neighbours (hk : single.rung k = 2 ^ t) :
    ∃ j, k = j + 1 ∧ 925 ≤ t ∧ single.rung (k + 1) = 2 ^ t + 2 * halfAbove t ∧
      single.rung j + 2 * halfBelow t = 2 ^ t := by
  obtain ⟨e, q, rfl, hq, hlow⟩ := single.exists_index k
  have hrung := rung_index hq.le hlow
  obtain ⟨l, rfl, rfl, hl, hexp⟩ := significand_of_power hq hlow (hrung.symm.trans hk)
  have habove := rung_succ hq hlow
  have hpos := single.binade_pos
  have hone := Nat.two_pow_pos l
  rw [hk, ← two_mul_halfAbove (t := l + e + 925) (by omega)] at habove
  cases e with
  | zero =>
    have hbelow := rung_succ (f := single) (e := 0) (q := 2 ^ l - 1) (by omega) (.inl rfl)
    rw [Nat.add_assoc, Nat.sub_add_cancel hone, hk,
      ← two_mul_halfBelow (t := l + 0 + 925) (by omega)] at hbelow
    exact ⟨0 * single.binade + (2 ^ l - 1), by omega, by omega, habove, hbelow.symm⟩
  | succ e =>
    obtain rfl : l = 23 := by omega
    rw [← single_binade] at hq hk habove ⊢
    -- The float below has the largest significand of the binade below.
    have hindex : (e + 1) * single.binade + single.binade =
        e * single.binade + (2 * single.binade - 1) + 1 := by
      rw [Nat.succ_mul]
      omega
    have hbelow := rung_succ (f := single) (e := e) (q := 2 * single.binade - 1) (by omega)
      (.inr (by omega))
    rw [← hindex, hk, ← two_mul_halfBelow (t := 23 + (e + 1) + 925) (by omega)] at hbelow
    exact ⟨_, hindex, by omega, habove, hbelow.symm⟩

theorem exists_double_above {i : ℕ} (ht : 925 ≤ t) (hi : i ≤ 2 ^ 52) :
    ∃ m, (double.rung m : ℚ) = 2 ^ t + i * fineAbove t := by
  have hfits : 2 ^ 52 + i ≤ 2 ^ double.precision := by
    rw [double_precision]
    omega
  obtain ⟨m, hm⟩ := double_bounded.exists_rung (t - 52) hfits
  have hpower : 2 ^ 52 * 2 ^ (t - 52) = 2 ^ t := by rw [← Nat.pow_add, Nat.add_sub_of_le (by omega)]
  have hsum : double.rung m = 2 ^ t + i * fineAbove t := by
    rw [hm, double_grain, Nat.mul_one, Nat.add_mul, hpower, fineAbove]
  exact ⟨m, by exact_mod_cast hsum⟩

theorem exists_double_below {i : ℕ} (ht : 925 ≤ t) (hi : i ≤ 2 ^ 53) :
    ∃ m, (double.rung m : ℚ) = 2 ^ t - i * fineBelow t := by
  have hfits : 2 ^ 53 - i ≤ 2 ^ double.precision := by
    rw [double_precision]
    exact Nat.sub_le ..
  obtain ⟨m, hm⟩ := double_bounded.exists_rung (t - 53) hfits
  have hpower : 2 ^ 53 * 2 ^ (t - 53) = 2 ^ t := by rw [← Nat.pow_add, Nat.add_sub_of_le (by omega)]
  have hsum : double.rung m + i * fineBelow t = 2 ^ t := by
    rw [hm, double_grain, Nat.mul_one, fineBelow, ← Nat.add_mul, Nat.sub_add_cancel hi, hpower]
  exact ⟨m, eq_sub_of_add_eq (by exact_mod_cast hsum)⟩

theorem exists_multiple {s l n : ℕ} (hs : s ≤ l) (hl : l < s + n) :
    ∃ i, 0 < i ∧ i < 2 ^ n ∧ 2 ^ l = i * 2 ^ s := by
  refine ⟨2 ^ (l - s), Nat.two_pow_pos _, Nat.pow_lt_pow_right (by decide) (by omega), ?_⟩
  rw [← Nat.pow_add, Nat.sub_add_cancel hs]

theorem exists_around_above (ht : 925 ≤ t) :
    ∃ m n, (double.rung m : ℚ) = 2 ^ t + (halfAbove t - fineAbove t) ∧
      (double.rung n : ℚ) = 2 ^ t + (halfAbove t + fineAbove t) := by
  obtain ⟨i, hpos, hi, hhalf⟩ :=
    exists_multiple (s := t - 52) (l := max 924 (t - 24)) (n := 52) (by omega) (by omega)
  have hcast : (halfAbove t : ℚ) = i * fineAbove t := by exact_mod_cast hhalf
  obtain ⟨m, hm⟩ := exists_double_above (i := i - 1) ht (by omega)
  obtain ⟨n, hn⟩ := exists_double_above (i := i + 1) ht (by omega)
  rw [Nat.cast_pred hpos] at hm
  rw [Nat.cast_succ] at hn
  exact ⟨m, n, by rw [hm, hcast]; ring, by rw [hn, hcast]; ring⟩

theorem exists_around_below (ht : 925 ≤ t) :
    ∃ m n, (double.rung m : ℚ) = 2 ^ t - (halfBelow t - fineBelow t) ∧
      (double.rung n : ℚ) = 2 ^ t - (halfBelow t + fineBelow t) := by
  obtain ⟨i, hpos, hi, hhalf⟩ :=
    exists_multiple (s := t - 53) (l := max 924 (t - 25)) (n := 53) (by omega) (by omega)
  have hcast : (halfBelow t : ℚ) = i * fineBelow t := by exact_mod_cast hhalf
  obtain ⟨m, hm⟩ := exists_double_below (i := i - 1) ht (by omega)
  obtain ⟨n, hn⟩ := exists_double_below (i := i + 1) ht (by omega)
  rw [Nat.cast_pred hpos] at hm
  rw [Nat.cast_succ] at hn
  exact ⟨m, n, by rw [hm, hcast]; ring, by rw [hn, hcast]; ring⟩

theorem fineAbove_pos (t : ℕ) : (0 : ℚ) < fineAbove t := by
  exact_mod_cast Nat.two_pow_pos (t - 52)

theorem fineBelow_pos (t : ℕ) : (0 : ℚ) < fineBelow t := by
  exact_mod_cast Nat.two_pow_pos (t - 53)

theorem exists_middles (hk : single.rung k = 2 ^ t) :
    ∃ j, k = j + 1 ∧ 925 ≤ t ∧ single.middle k = 2 ^ t + halfAbove t ∧
      single.middle j = 2 ^ t - halfBelow t := by
  obtain ⟨j, rfl, ht, habove, hbelow⟩ := exists_neighbours hk
  have hbelowQ : (single.rung j + 2 * halfBelow t : ℚ) = 2 ^ t := by exact_mod_cast hbelow
  refine ⟨j, rfl, ht, ?_, ?_⟩
  · rw [middle, habove, hk]
    push_cast
    ring
  · rw [middle, hk]
    push_cast
    linarith

section

variable (hk : single.rung k = 2 ^ t) {gap : ℚ}
include hk

theorem cast_rung : (single.rung k : ℚ) = 2 ^ t := by
  exact_mod_cast hk

theorem readsAs_add (hgap : 0 ≤ gap) (h : gap + fineAbove t ≤ halfAbove t) :
    ReadsAs k (2 ^ t + gap) := by
  obtain ⟨j, rfl, ht, habove, -⟩ := exists_middles hk
  obtain ⟨m, -, hm, -⟩ := exists_around_above ht
  have hfine := fineAbove_pos t
  have hpower := cast_rung hk
  have hlast : ReadsAs (j + 1) (double.rung m) := by
    refine readsAs_double ((single_bounded.middle_lt_rung j).trans_le ?_) ?_
    · rw [hm, hpower]
      linarith
    · rw [hm, habove]
      linarith
  rw [hm] at hlast
  have hown := readsAs_rung (j + 1)
  rw [hpower] at hown
  exact hown.between hlast (by positivity) (by linarith) (by linarith)

theorem not_readsAs_add (h : halfAbove t + fineAbove t ≤ gap) : ¬ ReadsAs k (2 ^ t + gap) := by
  obtain ⟨j, rfl, ht, habove, -⟩ := exists_middles hk
  obtain ⟨-, n, -, hn⟩ := exists_around_above ht
  have hfine := fineAbove_pos t
  refine not_readsAs_of_ge (m := n) ?_ ?_
  · rw [hn, habove]
    linarith
  · rw [hn]
    linarith

theorem readsAs_sub (hgap : 0 ≤ gap) (h : gap + fineBelow t ≤ halfBelow t) :
    ReadsAs k (2 ^ t - gap) := by
  obtain ⟨j, rfl, ht, -, hbelow⟩ := exists_middles hk
  obtain ⟨m, -, hm, -⟩ := exists_around_below ht
  have hfine := fineBelow_pos t
  have hpower := cast_rung hk
  have hnonneg : (0 : ℚ) ≤ double.rung m := Nat.cast_nonneg _
  have hfirst : ReadsAs (j + 1) (double.rung m) := by
    refine readsAs_double ?_ (lt_of_le_of_lt ?_ (single_bounded.rung_lt_middle (j + 1)))
    · rw [hm, hbelow]
      linarith
    · rw [hm, hpower]
      linarith
  rw [hm] at hfirst hnonneg
  have hown := readsAs_rung (j + 1)
  rw [hpower] at hown
  exact hfirst.between hown (by linarith) (by linarith) (by linarith)

theorem not_readsAs_sub (h : halfBelow t + fineBelow t ≤ gap) : ¬ ReadsAs k (2 ^ t - gap) := by
  obtain ⟨j, rfl, ht, -, hbelow⟩ := exists_middles hk
  obtain ⟨-, n, -, hn⟩ := exists_around_below ht
  have hfine := fineBelow_pos t
  refine not_readsAs_of_le (m := n) ?_ ?_
  · rw [hn, hbelow]
    linarith
  · rw [hn]
    linarith

end

end BinaryFormat

open BinaryFormat

namespace Binary

/-- If one point is no further off than another, it is certainly read as the power, or the other is
certainly not. The gaps are counted in parts of which there are `num` in a unit; a point is read
up to half the distance of the floats on its side, give or take the distance of the doubles. -/
def Settles (near far num halfNear fineNear halfFar fineFar : ℕ) : Prop :=
  near ≤ far → near + fineNear * num ≤ halfNear * num ∨ (halfFar + fineFar) * num ≤ far

instance (near far num halfNear fineNear halfFar fineFar : ℕ) :
    Decidable (Settles near far num halfNear fineNear halfFar fineFar) :=
  inferInstanceAs (Decidable (_ → _))

theorem Settles.gaps {near far num halfNear fineNear halfFar fineFar : ℕ} {x y : ℚ}
    (h : Settles near far num halfNear fineNear halfFar fineFar) (hnum : (0 : ℚ) < num)
    (hx : x * num = near) (hy : y * num = far) (hle : x ≤ y) :
    x + fineNear ≤ halfNear ∨ halfFar + fineFar ≤ y := by
  have hscale : ∀ {a b : ℚ}, a * num ≤ b * num ↔ a ≤ b := mul_le_mul_iff_of_pos_right hnum
  rw [← hscale, hx, hy] at hle
  refine (h (by exact_mod_cast hle)).imp (fun hin => hscale.mp ?_) (fun hout => hscale.mp ?_)
  · rw [add_mul, hx]
    exact_mod_cast hin
  · rw [hy]
    exact_mod_cast hout

/-- On this grid it is settled which of the points around a power of two are read as it. -/
def Clear (t : ℕ) (exponent : ℤ) : Prop :=
  let num := (overTen (2 ^ t) exponent).1
  let den := (overTen (2 ^ t) exponent).2
  let below := num % den * 2 ^ t
  let above := (den - num % den) * 2 ^ t
  Settles below above num (halfBelow t) (fineBelow t) (halfAbove t) (fineAbove t) ∧
    Settles above below num (halfAbove t) (fineAbove t) (halfBelow t) (fineBelow t)

instance (t : ℕ) (exponent : ℤ) : Decidable (Clear t exponent) :=
  inferInstanceAs (Decidable (_ ∧ _))

/-- The exponents of 2^-96, 2^87 and 2^90, in units. -/
def lopsided : List ℕ := [978, 1161, 1164]

theorem clear_of_power : ∀ t ∈ List.range' 925 277, ∀ digits ∈ List.range' 1 8,
    (t ∈ lopsided ∧ digits = 8) ∨ Clear t (gridExponent (2 ^ t) digits) := by
  decide +kernel

variable {k t : ℕ} {exponent : ℤ}

/-- Where it is clear, the nearer point is read as the power if one of the two is. -/
theorem readsAs_gridNearest_of_clear (hk : single.rung k = 2 ^ t) (hclear : Clear t exponent)
    (h : ReadsAs k (gridFloor (2 ^ t) exponent * gridStep exponent) ∨
      ReadsAs k ((gridFloor (2 ^ t) exponent + 1) * gridStep exponent)) :
    ReadsAs k (gridNearest (2 ^ t) exponent * gridStep exponent) := by
  obtain ⟨hbelow, habove⟩ := hclear
  have hnum := overTen_num_pos (Nat.two_pow_pos t) exponent
  have hgapBelow := gap_mul_num (gapBelow_mul_den (2 ^ t) exponent)
  have hgapAbove := gap_mul_num (gapAbove_mul_den (2 ^ t) exponent)
  rw [← Nat.cast_mul] at hgapBelow hgapAbove
  have hfloor : (gridFloor (2 ^ t) exponent * gridStep exponent : ℚ) =
      2 ^ t - gapBelow (2 ^ t) exponent := by
    rw [gapBelow]
    push_cast
    ring
  have hceil : ((gridFloor (2 ^ t) exponent + 1) * gridStep exponent : ℚ) =
      2 ^ t + gapAbove (2 ^ t) exponent := by
    rw [gapAbove]
    push_cast
    ring
  rcases gridNearest_cases (2 ^ t) exponent with ⟨hnearest, hle⟩ | ⟨hnearest, hle⟩
  · rw [hnearest]
    rcases hbelow.gaps hnum hgapBelow hgapAbove hle with hin | hout
    · rw [hfloor]
      exact readsAs_sub hk (gapBelow_nonneg _ _) hin
    · rw [hceil] at h
      exact h.resolve_right (not_readsAs_add hk hout)
  · rw [hnearest, Nat.cast_succ]
    rcases habove.gaps hnum hgapAbove hgapBelow hle with hin | hout
    · rw [hceil]
      exact readsAs_add hk (gapAbove_pos _ _).le hin
    · rw [hfloor] at h
      exact h.resolve_left (not_readsAs_sub hk hout)

end Binary

end PreferenceAccessors
