import PreferenceAccessors.Proofs.Number.Rung

/-!
Rounding to the nearest magnitude, a tie going to the even one, for rational
magnitudes in units. Between two neighbours the choice turns at their middle, so
rounding is monotone, has one result and leaves the magnitudes of the format
alone. `BinaryFormat.round` is this rounding, cut at the limit of the range.
-/

namespace PreferenceAccessors

theorem divideToNearest_tie (num : ℕ) {den : ℕ} (hden : 0 < den)
    (htie : 2 * num = (2 * divideToNearest num den + 1) * den ∨
      2 * divideToNearest num den * den = 2 * num + den) : Even (divideToNearest num den) := by
  have hd := Nat.div_add_mod num den
  have hlt := Nat.mod_lt num hden
  have hcomm : den * (num / den) = num / den * den := Nat.mul_comm _ _
  unfold divideToNearest at htie ⊢
  simp only at htie ⊢
  generalize num / den = q at *
  generalize num % den = r at *
  split_ifs at htie ⊢ with hbelow habove
  · simp only [Nat.add_mul, Nat.mul_assoc] at htie
    omega
  · simp only [Nat.add_mul, Nat.mul_add, Nat.mul_assoc] at htie
    omega
  · rw [Nat.even_iff]
    omega

structure SpansNearest (a span : ℚ) (q : ℕ) : Prop where
  above : 2 * a ≤ (2 * q + 1) * span
  below : 2 * q * span ≤ 2 * a + span
  even : 2 * a = (2 * q + 1) * span ∨ 2 * q * span = 2 * a + span → Even q

theorem divideToNearest_span (num : ℕ) {den span : ℕ} (hden : 0 < den) (hspan : 0 < span) :
    SpansNearest (num / den) span (divideToNearest num (den * span)) := by
  have hcell : 0 < den * span := Nat.mul_pos hden hspan
  obtain ⟨habove, hbelow⟩ := divideToNearest_error num _ hcell
  have htie := divideToNearest_tie num hcell
  generalize divideToNearest num (den * span) = q at *
  have hdenQ : (0 : ℚ) < den := by exact_mod_cast hden
  have ha : (num / den : ℚ) * den = num := div_mul_cancel₀ _ hdenQ.ne'
  constructor
  · have hcast : (2 * num : ℚ) ≤ (2 * q + 1) * (den * span) := by exact_mod_cast habove
    refine le_of_mul_le_mul_right ?_ hdenQ
    linarith
  · have hcast : (2 * q * (den * span) : ℚ) ≤ 2 * num + den * span := by exact_mod_cast hbelow
    refine le_of_mul_le_mul_right ?_ hdenQ
    linarith
  · rintro (heq | heq)
    · have hcast : (2 * num : ℚ) = (2 * q + 1) * (den * span) := by
        rw [← ha]
        linear_combination (den : ℚ) * heq
      exact htie (.inl (by exact_mod_cast hcast))
    · have hcast : (2 * q * (den * span) : ℚ) = 2 * num + den * span := by
        rw [← ha]
        linear_combination (den : ℚ) * heq
      exact htie (.inr (by exact_mod_cast hcast))

namespace BinaryFormat

/-- `k` numbers the magnitude nearest to `a`; of two that are equally near it is the even one. -/
structure RoundsTo (f : BinaryFormat) (a : ℚ) (k : ℕ) : Prop where
  nearest : ∀ j, |a - f.rung k| ≤ |a - f.rung j|
  even : ∀ j, j ≠ k → |a - f.rung k| = |a - f.rung j| → Even k

def middle (f : BinaryFormat) (k : ℕ) : ℚ := (f.rung k + f.rung (k + 1)) / 2

variable {f : BinaryFormat}

theorem abs_sub_le_iff_le_mean {a r s : ℚ} (h : r < s) : |a - r| ≤ |a - s| ↔ a ≤ (r + s) / 2 := by
  rw [← sq_le_sq]
  constructor
  · intro hle
    by_contra hgt
    nlinarith
  · intro hle
    nlinarith

theorem abs_sub_eq_iff_eq_mean {a r s : ℚ} (h : r < s) : |a - r| = |a - s| ↔ a = (r + s) / 2 := by
  rw [← sq_eq_sq_iff_abs_eq_abs]
  constructor
  · intro heq
    have hprod : (s - r) * (a - (r + s) / 2) = 0 := by linarith
    rcases mul_eq_zero.mp hprod with hz | hz
    · linarith
    · linarith
  · rintro rfl
    ring

theorem abs_sub_lt_iff_lt_mean {a r s : ℚ} (h : r < s) : |a - r| < |a - s| ↔ a < (r + s) / 2 := by
  rw [lt_iff_le_and_ne, lt_iff_le_and_ne, abs_sub_le_iff_le_mean h, ne_eq,
    abs_sub_eq_iff_eq_mean h]

theorem Regular.rung_lt (hf : f.Regular) {j k : ℕ} (h : j < k) : (f.rung j : ℚ) < f.rung k := by
  exact_mod_cast hf.rung_strictMono h

theorem Regular.rung_le (hf : f.Regular) {j k : ℕ} (h : j ≤ k) : (f.rung j : ℚ) ≤ f.rung k := by
  exact_mod_cast hf.rung_strictMono.monotone h

theorem Regular.rung_lt_middle (hf : f.Regular) (k : ℕ) : (f.rung k : ℚ) < f.middle k := by
  have := hf.rung_lt (Nat.lt_add_one k)
  unfold middle
  linarith

theorem Regular.middle_lt_rung (hf : f.Regular) (k : ℕ) : f.middle k < f.rung (k + 1) := by
  have := hf.rung_lt (Nat.lt_add_one k)
  unfold middle
  linarith

theorem Regular.middle_strictMono (hf : f.Regular) : StrictMono f.middle :=
  strictMono_nat_of_lt_succ fun k => (hf.middle_lt_rung k).trans (hf.rung_lt_middle (k + 1))

def BeatsNeighbours (f : BinaryFormat) (a : ℚ) (k : ℕ) : Prop :=
  ∀ j, j = k + 1 ∨ j + 1 = k → |a - f.rung k| ≤ |a - f.rung j| ∧
    (|a - f.rung k| = |a - f.rung j| → Even k)

def BetweenMiddles (f : BinaryFormat) (a : ℚ) (k : ℕ) : Prop :=
  (a ≤ f.middle k ∧ (a = f.middle k → Even k)) ∧
    ∀ j, j + 1 = k → f.middle j ≤ a ∧ (a = f.middle j → Even k)

theorem RoundsTo.beatsNeighbours {a : ℚ} {k : ℕ} (h : f.RoundsTo a k) : f.BeatsNeighbours a k :=
  fun j hj => ⟨h.nearest j, h.even j (by omega)⟩

theorem BeatsNeighbours.betweenMiddles {a : ℚ} {k : ℕ} (h : f.BeatsNeighbours a k)
    (hf : f.Regular) : f.BetweenMiddles a k := by
  constructor
  · have hlt := hf.rung_lt (Nat.lt_add_one k)
    obtain ⟨hnear, heven⟩ := h (k + 1) (.inl rfl)
    refine ⟨(abs_sub_le_iff_le_mean hlt).mp hnear, fun ha => heven ?_⟩
    exact (abs_sub_eq_iff_eq_mean hlt).mpr ha
  · rintro j rfl
    have hlt := hf.rung_lt (Nat.lt_add_one j)
    obtain ⟨hnear, heven⟩ := h j (.inr rfl)
    refine ⟨?_, fun ha => heven ((abs_sub_eq_iff_eq_mean hlt).mpr ha).symm⟩
    by_contra hless
    have hle := (abs_sub_le_iff_le_mean hlt).mpr (not_le.mp hless).le
    exact hless ((abs_sub_eq_iff_eq_mean hlt).mp (le_antisymm hle hnear)).ge

theorem BetweenMiddles.roundsTo {a : ℚ} {k : ℕ} (h : f.BetweenMiddles a k) (hf : f.Regular) :
    f.RoundsTo a k := by
  obtain ⟨⟨habove, hevenAbove⟩, hbelow⟩ := h
  -- The mean with a magnitude further up or down lies beyond the middle, or on it.
  have hup : ∀ j, k < j → a ≤ (f.rung k + f.rung j) / 2 ∧
      (a = (f.rung k + f.rung j) / 2 → Even k) := by
    intro j hj
    have hle := hf.rung_le (Nat.succ_le_of_lt hj)
    have hmid : f.middle k ≤ (f.rung k + f.rung j) / 2 := by
      unfold middle
      linarith
    exact ⟨habove.trans hmid, fun ha => hevenAbove (le_antisymm habove (ha ▸ hmid))⟩
  have hdown : ∀ j, j < k → (f.rung j + f.rung k) / 2 ≤ a ∧
      (a = (f.rung j + f.rung k) / 2 → Even k) := by
    intro j hj
    obtain ⟨i, rfl⟩ : ∃ i, k = i + 1 := ⟨k - 1, by omega⟩
    obtain ⟨hmid, hevenBelow⟩ := hbelow i rfl
    have hle := hf.rung_le (Nat.le_of_lt_succ hj)
    have hlow : (f.rung j + f.rung (i + 1)) / 2 ≤ f.middle i := by
      unfold middle
      linarith
    exact ⟨hlow.trans hmid, fun ha => hevenBelow (le_antisymm (ha ▸ hlow) hmid)⟩
  constructor
  · intro j
    rcases lt_trichotomy j k with hj | rfl | hj
    · by_contra hfar
      have hle := (abs_sub_le_iff_le_mean (hf.rung_lt hj)).mp (not_le.mp hfar).le
      have heq := (abs_sub_eq_iff_eq_mean (hf.rung_lt hj)).mpr (le_antisymm hle (hdown j hj).1)
      exact hfar heq.ge
    · exact le_refl _
    · exact (abs_sub_le_iff_le_mean (hf.rung_lt hj)).mpr (hup j hj).1
  · intro j hne heq
    rcases Nat.lt_or_gt_of_ne hne with hj | hj
    · exact (hdown j hj).2 ((abs_sub_eq_iff_eq_mean (hf.rung_lt hj)).mp heq.symm)
    · exact (hup j hj).2 ((abs_sub_eq_iff_eq_mean (hf.rung_lt hj)).mp heq)

theorem Regular.roundsTo_of_between (hf : f.Regular) {a : ℚ} {k : ℕ} (habove : a < f.middle k)
    (hbelow : ∀ j, j + 1 = k → f.middle j < a) : f.RoundsTo a k := by
  have hbetween : f.BetweenMiddles a k := by
    refine ⟨⟨habove.le, fun ha => absurd ha habove.ne⟩, ?_⟩
    intro j hj
    exact ⟨(hbelow j hj).le, fun ha => absurd ha (hbelow j hj).ne'⟩
  exact hbetween.roundsTo hf

theorem RoundsTo.betweenMiddles {a : ℚ} {k : ℕ} (h : f.RoundsTo a k) (hf : f.Regular) :
    f.BetweenMiddles a k :=
  h.beatsNeighbours.betweenMiddles hf

namespace RoundsTo

variable {a b : ℚ} {j k : ℕ}

theorem le_middle (h : f.RoundsTo a k) (hf : f.Regular) : a ≤ f.middle k :=
  (h.betweenMiddles hf).1.1

theorem middle_le (h : f.RoundsTo a (j + 1)) (hf : f.Regular) : f.middle j ≤ a :=
  ((h.betweenMiddles hf).2 j rfl).1

theorem even_of_eq_middle (h : f.RoundsTo a k) (hf : f.Regular) (ha : a = f.middle k) : Even k :=
  (h.betweenMiddles hf).1.2 ha

theorem even_of_middle_eq (h : f.RoundsTo a (j + 1)) (hf : f.Regular) (ha : a = f.middle j) :
    Even (j + 1) :=
  ((h.betweenMiddles hf).2 j rfl).2 ha

theorem mono (ha : f.RoundsTo a j) (hb : f.RoundsTo b k) (hf : f.Regular) (hab : a ≤ b) :
    j ≤ k := by
  by_contra hlt
  obtain ⟨i, rfl⟩ : ∃ i, j = i + 1 := ⟨j - 1, by omega⟩
  have hki : k ≤ i := by omega
  have hchain : f.middle i ≤ f.middle k :=
    (ha.middle_le hf).trans (hab.trans (hb.le_middle hf))
  obtain rfl : k = i := le_antisymm hki (hf.middle_strictMono.le_iff_le.mp hchain)
  -- Both magnitudes sit on the middle, which belongs to one of them only.
  have hodd := ha.even_of_middle_eq hf (le_antisymm (hab.trans (hb.le_middle hf)) (ha.middle_le hf))
  have heven := hb.even_of_eq_middle hf
    (le_antisymm (hb.le_middle hf) ((ha.middle_le hf).trans hab))
  exact absurd heven (Nat.even_add_one.mp hodd)

theorem unique (hj : f.RoundsTo a j) (hk : f.RoundsTo a k) (hf : f.Regular) : j = k :=
  le_antisymm (hj.mono hk hf le_rfl) (hk.mono hj hf le_rfl)

theorem lt_iff_middle_le (h : f.RoundsTo a k) (hf : f.Regular) (hodd : ¬ Even j) :
    j < k ↔ f.middle j ≤ a := by
  constructor
  · intro hlt
    obtain ⟨i, rfl⟩ : ∃ i, k = i + 1 := ⟨k - 1, by omega⟩
    exact (hf.middle_strictMono.monotone (by omega)).trans (h.middle_le hf)
  · intro ha
    by_contra hge
    have hindex := hf.middle_strictMono.le_iff_le.mp (ha.trans (h.le_middle hf))
    obtain rfl : k = j := by omega
    exact hodd (h.even_of_eq_middle hf (le_antisymm (h.le_middle hf) ha))

end RoundsTo

theorem Regular.roundsTo_rung (hf : f.Regular) (k : ℕ) : f.RoundsTo (f.rung k) k := by
  refine hf.roundsTo_of_between (hf.rung_lt_middle k) ?_
  rintro j rfl
  exact hf.middle_lt_rung j

theorem Regular.spacing_index (hf : f.Regular) (units : ℕ) :
    ∃ e, f.spacing units = 2 ^ e * f.grain ∧ units < 2 * f.binade * f.spacing units ∧
      (e = 0 ∨ f.binade * f.spacing units ≤ units) := by
  obtain ⟨t, ht⟩ := hf.grain
  have hp := hf.precision
  have hlog : units < 2 ^ (units.log2 + 1) := Nat.lt_log2_self
  rw [hf.two_mul_binade, spacing, Nat.pow_eq, ht]
  by_cases hle : units.log2 + 1 - f.precision ≤ t
  · have hpow : 2 ^ (units.log2 + 1 - f.precision) ≤ 2 ^ t := Nat.pow_le_pow_right (by decide) hle
    rw [max_eq_left hpow]
    refine ⟨0, by simp, ?_, .inl rfl⟩
    calc units < 2 ^ (units.log2 + 1) := hlog
      _ ≤ 2 ^ (f.precision + t) := Nat.pow_le_pow_right (by decide) (by omega)
      _ = 2 ^ f.precision * 2 ^ t := Nat.pow_add ..
  · have hpow : 2 ^ t ≤ 2 ^ (units.log2 + 1 - f.precision) :=
      Nat.pow_le_pow_right (by decide) (by omega)
    rw [max_eq_right hpow]
    refine ⟨units.log2 + 1 - f.precision - t, ?_, ?_, ?_⟩
    · rw [← Nat.pow_add]
      congr 1
      omega
    · calc units < 2 ^ (units.log2 + 1) := hlog
        _ ≤ 2 ^ (f.precision + (units.log2 + 1 - f.precision)) :=
          Nat.pow_le_pow_right (by decide) (by omega)
        _ = 2 ^ f.precision * 2 ^ (units.log2 + 1 - f.precision) := Nat.pow_add ..
    · by_cases hzero : units.log2 + 1 - f.precision - t = 0
      · exact .inl hzero
      · have hne : units ≠ 0 := by
          rintro rfl
          simp at hzero
          omega
        right
        calc f.binade * 2 ^ (units.log2 + 1 - f.precision) = 2 ^ units.log2 := by
              rw [binade, ← Nat.pow_add]
              congr 1
              omega
          _ ≤ units := Nat.log2_self_le hne

/-- A quotient of a span by its spacing, rounded, numbers the magnitude nearest to the span. -/
theorem Regular.roundsTo_of_spansNearest (hf : f.Regular) {a : ℚ} {e q : ℕ} (hq : q ≤ 2 * f.binade)
    (hlow : e = 0 ∨ f.binade ≤ q) (hspan : e = 0 ∨ (f.binade * (2 ^ e * f.grain) : ℕ) ≤ a)
    (hnear : SpansNearest a (2 ^ e * f.grain : ℕ) q) : f.RoundsTo a (e * f.binade + q) := by
  obtain ⟨habove, hbelow, htie⟩ := hnear
  have hgap : (0 : ℚ) < (2 ^ e * f.grain : ℕ) := by
    exact_mod_cast Nat.mul_pos (Nat.two_pow_pos e) hf.grain_pos
  have hrung : (f.rung (e * f.binade + q) : ℚ) = q * (2 ^ e * f.grain : ℕ) := by
    rw [rung_index hq hlow]
    push_cast
    ring
  have heven : Even q → Even (e * f.binade + q) := fun h => (hf.even_binade.mul_left e).add h
  refine BetweenMiddles.roundsTo ⟨?_, ?_⟩ hf
  · have hnext : (f.rung (e * f.binade + q) + (2 ^ e * f.grain : ℕ) : ℚ) ≤
        f.rung (e * f.binade + q + 1) := by
      exact_mod_cast rung_add_le_rung_succ hq hlow
    have hmid : a ≤ f.middle (e * f.binade + q) := by
      unfold middle
      linarith
    refine ⟨hmid, fun ha => heven (htie (.inl (le_antisymm habove ?_)))⟩
    unfold middle at ha
    linarith
  · intro j hj
    have hcases : (e = 0 ∨ f.binade < q) ∨ (e ≠ 0 ∧ f.binade = q) := by omega
    rcases hcases with hstep | ⟨hexp, hpower⟩
    · have hpos := f.binade_pos
      obtain ⟨i, rfl⟩ : ∃ i, q = i + 1 := ⟨q - 1, by rcases hstep with rfl | _ <;> omega⟩
      obtain rfl : j = e * f.binade + i := by omega
      have hsucc : (f.rung (e * f.binade + (i + 1)) : ℚ) =
          f.rung (e * f.binade + i) + (2 ^ e * f.grain : ℕ) := by
        exact_mod_cast rung_succ (by omega) (by omega)
      have hmid : f.middle (e * f.binade + i) =
          f.rung (e * f.binade + (i + 1)) - (2 ^ e * f.grain : ℕ) / 2 := by
        rw [middle, Nat.add_assoc, hsucc]
        ring
      rw [hmid]
      refine ⟨by linarith, fun ha => heven (htie (.inr ?_))⟩
      linarith
    · -- Below a power of two the spacing is half, and the span is not below the power.
      have hle : (f.rung (j + 1) : ℚ) ≤ a := by
        rw [hj, hrung, ← hpower]
        exact_mod_cast hspan.resolve_left hexp
      have hlt : f.middle j < a := (hf.middle_lt_rung j).trans_le hle
      exact ⟨hlt.le, fun ha => absurd ha hlt.ne'⟩

theorem Regular.nearestUnits_spec (hf : f.Regular) (num : ℕ) {den : ℕ} (hden : 0 < den) :
    ∃ k, f.RoundsTo (num / den) k ∧ f.nearestUnits num den = f.rung k := by
  obtain ⟨e, hspacing, hlt, hge⟩ := hf.spacing_index (num / den)
  have hgap : 0 < 2 ^ e * f.grain := Nat.mul_pos (Nat.two_pow_pos e) hf.grain_pos
  rw [hspacing] at hlt hge
  have hlt := (Nat.div_lt_iff_lt_mul hden).mp hlt
  have hge := hge.imp_right (Nat.le_div_iff_mul_le hden).mp
  obtain ⟨habove, hbelow⟩ := divideToNearest_error num _ (Nat.mul_pos hden hgap)
  have hnear := divideToNearest_span num hden hgap
  have hunits : f.nearestUnits num den =
      divideToNearest num (den * (2 ^ e * f.grain)) * (2 ^ e * f.grain) := by
    rw [nearestUnits, hspacing]
  generalize divideToNearest num (den * (2 ^ e * f.grain)) = q at *
  have hhigh : q ≤ 2 * f.binade := by
    by_contra hbig
    nlinarith
  have hlow : e = 0 ∨ f.binade ≤ q := by
    refine hge.imp_right fun hle => ?_
    by_contra hsmall
    nlinarith
  refine ⟨e * f.binade + q, hf.roundsTo_of_spansNearest hhigh hlow ?_ hnear, ?_⟩
  · refine hge.imp_right fun hle => ?_
    rw [le_div_iff₀ (by exact_mod_cast hden)]
    exact_mod_cast hle
  · rw [hunits, rung_index hhigh hlow, Nat.mul_assoc]

/-- The datum of a magnitude of the format; from the limit on it is infinite. -/
def datum (f : BinaryFormat) (negative : Bool) (k : ℕ) : Binary :=
  if f.rung k < f.limit then .finite negative (f.rung k) else .infinite negative

theorem Regular.round_spec (hf : f.Regular) (negative : Bool) (num : ℕ) {den : ℕ}
    (hden : 0 < den) :
    ∃ k, f.RoundsTo (num / den) k ∧ f.round negative num den = f.datum negative k := by
  obtain ⟨k, hk, hunits⟩ := hf.nearestUnits_spec num hden
  exact ⟨k, hk, by rw [round, hunits, datum]⟩

theorem Regular.exists_roundsTo (hf : f.Regular) {a : ℚ} (ha : 0 ≤ a) : ∃ k, f.RoundsTo a k := by
  obtain ⟨k, hk, -⟩ := hf.nearestUnits_spec a.num.natAbs a.den_pos
  refine ⟨k, ?_⟩
  have hnum : ((a.num.natAbs : ℕ) : ℚ) = a.num := by
    rw [Nat.cast_natAbs, abs_of_nonneg (Rat.num_nonneg.mpr ha)]
  rwa [hnum, Rat.num_div_den] at hk

theorem RoundsTo.rung_le {a : ℚ} {j k : ℕ} (h : f.RoundsTo a k) (hf : f.Regular)
    (hle : f.rung j ≤ a) : f.rung j ≤ f.rung k :=
  hf.rung_strictMono.monotone ((hf.roundsTo_rung j).mono h hf hle)

theorem RoundsTo.le_rung {a : ℚ} {j k : ℕ} (h : f.RoundsTo a k) (hf : f.Regular)
    (hle : a ≤ f.rung j) : f.rung k ≤ f.rung j :=
  hf.rung_strictMono.monotone (h.mono (hf.roundsTo_rung j) hf hle)

end BinaryFormat

end PreferenceAccessors
