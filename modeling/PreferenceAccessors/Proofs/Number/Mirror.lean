import PreferenceAccessors.Proofs.Number.Digits

/-!
The magnitudes that are read as one float through a double. There are no gaps
between them. Around a float that is no power of two they lie mirrored, since
the floats next to it do and so do all the doubles up to these: whatever is
nearer to it than one of them is another. Magnitudes are in units.
-/

namespace PreferenceAccessors

namespace BinaryFormat

/-- The first magnitudes on both sides of one, so many of them, lie mirrored. -/
structure MirroredAt (f : BinaryFormat) (c n : ℕ) : Prop where
  le : n ≤ c
  sum : ∀ i ≤ n, f.rung (c + i) + f.rung (c - i) = 2 * f.rung c

variable {f : BinaryFormat} {a b : ℚ} {c j k m n : ℕ}

theorem MirroredAt.rung_mirror (h : f.MirroredAt c n) (hlow : c ≤ j + n) (hhigh : j ≤ c + n) :
    (f.rung (2 * c - j) : ℚ) = 2 * f.rung c - f.rung j := by
  have hle := h.le
  have hsum : f.rung (2 * c - j) + f.rung j = 2 * f.rung c := by
    rcases Nat.le_total j c with hj | hj
    · have hi := h.sum (c - j) (by omega)
      rwa [show c + (c - j) = 2 * c - j by omega, show c - (c - j) = j by omega] at hi
    · have hi := h.sum (j - c) (by omega)
      rwa [show c + (j - c) = j by omega, show c - (j - c) = 2 * c - j by omega, add_comm] at hi
  rw [eq_sub_iff_add_eq]
  exact_mod_cast hsum

theorem RoundsTo.mirror (ha : f.RoundsTo a j) (hf : f.Regular) (h : f.MirroredAt c n)
    (hlow : c < j + n) (hhigh : j < c + n) : f.RoundsTo (2 * f.rung c - a) (2 * c - j) := by
  have hle := h.le
  obtain ⟨i, rfl⟩ : ∃ i, j = i + 1 := ⟨j - 1, by omega⟩
  have hbelow := ha.middle_le hf
  have habove := ha.le_middle hf
  have hown := h.rung_mirror (j := i + 1) (by omega) (by omega)
  have hup := h.rung_mirror (j := i) (by omega) (by omega)
  have hdown := h.rung_mirror (j := i + 2) (by omega) (by omega)
  have hparity : Even (i + 1) → Even (2 * c - (i + 1)) := by
    rw [Nat.even_iff, Nat.even_iff]
    omega
  have hmiddleUp : f.middle (2 * c - (i + 1)) = 2 * f.rung c - f.middle i := by
    rw [middle, show 2 * c - (i + 1) + 1 = 2 * c - i by omega, hown, hup, middle]
    ring
  have hmiddleDown : f.middle (2 * c - (i + 2)) = 2 * f.rung c - f.middle (i + 1) := by
    rw [middle, show 2 * c - (i + 2) + 1 = 2 * c - (i + 1) by omega, hown, hdown, middle]
    ring
  refine BetweenMiddles.roundsTo ⟨⟨?_, fun heq => ?_⟩, fun l hl => ?_⟩ hf
  · rw [hmiddleUp]
    linarith
  · rw [hmiddleUp] at heq
    exact hparity (ha.even_of_middle_eq hf (by linarith))
  · obtain rfl : l = 2 * c - (i + 2) := by omega
    rw [hmiddleDown]
    exact ⟨by linarith, fun heq => hparity (ha.even_of_eq_middle hf (by linarith))⟩

/-- A magnitude that through a double is read as the float of this number. -/
def ReadsAs (k : ℕ) (a : ℚ) : Prop :=
  ∃ m, double.RoundsTo a m ∧ single.RoundsTo (double.rung m) k

theorem readsAs_rung (k : ℕ) : ReadsAs k (single.rung k) := by
  obtain ⟨m, hm⟩ := exists_double_quarter k (i := 0) (by decide)
  rw [quarter_zero] at hm
  rw [← hm]
  refine ⟨m, double_bounded.roundsTo_rung m, ?_⟩
  rw [hm]
  exact single_bounded.roundsTo_rung k

theorem ReadsAs.unique (hj : ReadsAs j a) (hk : ReadsAs k a) : j = k := by
  obtain ⟨m, hm, hmj⟩ := hj
  obtain ⟨n, hn, hnk⟩ := hk
  obtain rfl := hm.unique hn double_bounded.toRegular
  exact hmj.unique hnk single_bounded.toRegular

theorem ReadsAs.between (ha : ReadsAs k a) (hb : ReadsAs k b) {x : ℚ} (hx : 0 ≤ x) (hax : a ≤ x)
    (hxb : x ≤ b) : ReadsAs k x := by
  have hd := double_bounded.toRegular
  have hs := single_bounded.toRegular
  obtain ⟨i, hi, hik⟩ := ha
  obtain ⟨j, hj, hjk⟩ := hb
  obtain ⟨m, hm⟩ := hd.exists_roundsTo hx
  obtain ⟨l, hl⟩ := hs.exists_roundsTo (Nat.cast_nonneg (α := ℚ) (double.rung m))
  have hlow := hik.mono hl hs (hd.rung_le (hi.mono hm hd hax))
  have hhigh := hl.mono hjk hs (hd.rung_le (hm.mono hj hd hxb))
  obtain rfl : k = l := le_antisymm hlow hhigh
  exact ⟨m, hm, hl⟩

/-- Around a float, up to its neighbours, the doubles lie mirrored. -/
structure DoublesMirrored (k c n : ℕ) : Prop where
  floats : single.MirroredAt k 1
  doubles : double.MirroredAt c n
  centre : double.rung c = single.rung k
  above : double.rung (c + n) = single.rung (k + 1)

namespace DoublesMirrored

theorem below (h : DoublesMirrored k c n) : double.rung (c - n) = single.rung (k - 1) := by
  have hdoubles := h.doubles.sum n le_rfl
  have hfloats := h.floats.sum 1 le_rfl
  rw [h.above, h.centre] at hdoubles
  omega

theorem readsAs_mirror (h : DoublesMirrored k c n) (ha : ReadsAs k a) :
    ReadsAs k (2 * single.rung k - a) := by
  have hd := double_bounded.toRegular
  have hs := single_bounded.toRegular
  have hle := h.doubles.le
  have hone := h.floats.le
  obtain ⟨m, hm, hk⟩ := ha
  -- The double is nearer than the doubles that are the neighbouring floats.
  have hhigh : m < c + n := by
    by_contra hfar
    have hbeyond := hd.rung_le (not_lt.mp hfar)
    rw [h.above] at hbeyond
    have hle := (hs.roundsTo_rung (k + 1)).mono hk hs hbeyond
    omega
  have hlow : c < m + n := by
    by_contra hfar
    have hbeyond := hd.rung_le (show m ≤ c - n by omega)
    rw [h.below] at hbeyond
    have hle := hk.mono (hs.roundsTo_rung (k - 1)) hs hbeyond
    omega
  have hdouble := hm.mirror hd h.doubles hlow hhigh
  have hsingle := hk.mirror hs h.floats (by omega) (by omega)
  rw [h.centre] at hdouble
  refine ⟨2 * c - m, hdouble, ?_⟩
  rw [h.doubles.rung_mirror hlow.le hhigh.le, h.centre]
  rwa [show 2 * k - k = k by omega] at hsingle

theorem readsAs_of_abs_le (h : DoublesMirrored k c n) (ha : ReadsAs k a) {b : ℚ} (hb : 0 ≤ b)
    (hle : |b - single.rung k| ≤ |a - single.rung k|) : ReadsAs k b := by
  have hmirror := h.readsAs_mirror ha
  rcases le_total a (single.rung k) with hside | hside
  · rw [abs_of_nonpos (sub_nonpos.mpr hside), abs_le] at hle
    exact ha.between hmirror hb (by linarith) (by linarith)
  · rw [abs_of_nonneg (sub_nonneg.mpr hside), abs_le] at hle
    exact hmirror.between ha hb (by linarith) (by linarith)

end DoublesMirrored

theorem mirroredAt_of_index {e q : ℕ} (hq : q + n ≤ 2 * f.binade) (hn : n ≤ q)
    (hlow : e = 0 ∨ f.binade + n ≤ q) : f.MirroredAt (e * f.binade + q) n where
  le := by omega
  sum := by
    intro i hi
    rw [Nat.add_assoc, Nat.add_sub_assoc (by omega), rung_index (by omega) (by omega),
      rung_index (by omega) (by omega), rung_index (by omega) (by omega), ← Nat.add_mul,
      ← Nat.add_mul, show q + i + (q - i) = 2 * q by omega]
    ring

theorem rung_rescale {g : BinaryFormat} {e d q s : ℕ} (hq : q ≤ 2 * f.binade)
    (hlow : e = 0 ∨ f.binade ≤ q) (hqs : q * 2 ^ s ≤ 2 * g.binade)
    (hlows : d = 0 ∨ g.binade ≤ q * 2 ^ s) (hgrain : f.grain * 2 ^ e = g.grain * 2 ^ (d + s)) :
    g.rung (d * g.binade + q * 2 ^ s) = f.rung (e * f.binade + q) := by
  rw [rung_index hqs hlows, rung_index hq hlow, Nat.mul_assoc q (2 ^ e), Nat.mul_comm (2 ^ e),
    hgrain, Nat.pow_add]
  ring

/-- The doubles are mirrored around every float but zero and the powers of two. -/
theorem exists_doublesMirrored (hzero : single.rung k ≠ 0) (hpower : ∀ t, single.rung k ≠ 2 ^ t) :
    ∃ c n, DoublesMirrored k c n := by
  obtain ⟨e, q, rfl, hq, hlow⟩ := single.exists_index k
  have hrung := rung_index hq.le hlow
  rw [single_binade] at hq hlow
  have hqzero : q ≠ 0 := by
    rintro rfl
    exact hzero (by rw [hrung, Nat.zero_mul, Nat.zero_mul])
  have hqpower : ∀ l, q ≠ 2 ^ l := by
    rintro l rfl
    refine hpower (l + e + 925) ?_
    rw [hrung, single_grain, Nat.pow_add, Nat.pow_add]
  -- The significand lies strictly between two powers of two, so its neighbours do not pass them.
  obtain ⟨l, hl, hlarge, hsmall⟩ : ∃ l ≤ 23, 2 ^ l < q ∧ q < 2 ^ (l + 1) := by
    have hle := Nat.log2_self_le hqzero
    refine ⟨q.log2, ?_, lt_of_le_of_ne hle (hqpower q.log2).symm, Nat.lt_log2_self⟩
    have hlog := (Nat.pow_lt_pow_iff_right (by decide)).mp (hle.trans_lt (show q < 2 ^ 24 by omega))
    omega
  have hnormal := hqpower 23
  have hpow : 2 ^ l * 2 ^ (52 - l) = 2 ^ 52 := by
    rw [← Nat.pow_add, Nat.add_sub_of_le (by omega)]
  have hlower : 2 ^ 52 + 2 ^ (52 - l) ≤ q * 2 ^ (52 - l) := by
    rw [← hpow, ← Nat.succ_mul]
    exact Nat.mul_le_mul_right _ hlarge
  have hupper : (q + 1) * 2 ^ (52 - l) ≤ 2 * 2 ^ 52 := by
    rw [← hpow, ← Nat.mul_assoc, ← Nat.pow_succ']
    exact Nat.mul_le_mul_right _ hsmall
  have hstep : (q + 1) * 2 ^ (52 - l) = q * 2 ^ (52 - l) + 2 ^ (52 - l) := Nat.succ_mul ..
  have hpos := Nat.two_pow_pos (52 - l)
  have hgrain : single.grain * 2 ^ e = double.grain * 2 ^ (e + 873 + l + (52 - l)) := by
    rw [single_grain, double_grain, Nat.one_mul, ← Nat.pow_add]
    congr 1
    omega
  rw [← single_binade] at hq hlow hnormal
  rw [← double_binade] at hlower hupper
  refine ⟨(e + 873 + l) * double.binade + q * 2 ^ (52 - l), 2 ^ (52 - l), ?_, ?_, ?_, ?_⟩
  · exact mirroredAt_of_index (by omega) (by omega) (by omega)
  · exact mirroredAt_of_index (by omega) (by omega) (by omega)
  · exact rung_rescale (by omega) hlow (by omega) (by omega) hgrain
  · rw [Nat.add_assoc (_ * _), ← hstep, Nat.add_assoc (e * _)]
    exact rung_rescale (by omega) (by omega) hupper (by omega) hgrain

end BinaryFormat

open BinaryFormat

namespace Decimal

theorem narrow_round_eq_iff {d : Decimal} {negative : Bool} {k : ℕ}
    (hrange : single.rung k < single.limit) :
    (d.round double).narrow = .finite negative (single.rung k) ↔
      d.negative = negative ∧ ReadsAs k (d.size * unitsPerOne) := by
  obtain ⟨m, j, hm, -, hj, hnarrow⟩ := d.narrow_round_spec
  rw [hnarrow, datum_eq_finite]
  constructor
  · rintro ⟨hsign, hrung, -⟩
    obtain rfl := single_bounded.rung_strictMono.injective hrung
    exact ⟨hsign, m, hm, hj⟩
  · rintro ⟨hsign, hk⟩
    obtain rfl := ReadsAs.unique ⟨m, hm, hj⟩ hk
    exact ⟨hsign, rfl, hrange⟩

end Decimal

end PreferenceAccessors
