import PreferenceAccessors.Number.DecimalText
import PreferenceAccessors.Number.FloatText
import PreferenceAccessors.Proofs.Number.Formats

/-!
What a decimal is written as is read as a decimal of the same sign and size,
also with a suffix letter after it. Only a text without a point or an exponent
is read with another coefficient, since it gets a zero after the point.
-/

namespace PreferenceAccessors

namespace FloatText

theorem isDigit_eq (c : Char) : isDigit c = c.isDigit := by
  rw [Bool.eq_iff_iff, Char.isDigit_iff_toNat]
  simp [isDigit, Char.le_def, UInt32.le_iff_toNat_le]

theorem digitsValue_eq (ds : List Char) : digitsValue ds = Nat.ofDigitChars 10 ds 0 :=
  Nat.ofDigitChars_eq_foldl.symm

theorem digitsValue_append (as bs : List Char) :
    digitsValue (as ++ bs) = 10 ^ bs.length * digitsValue as + digitsValue bs := by
  rw [digitsValue_eq, digitsValue_eq, digitsValue_eq, Nat.ofDigitChars_append,
    Nat.ofDigitChars_eq_ofDigitChars_zero]

@[simp]
theorem digitsValue_zeros (n : ℕ) : digitsValue (List.replicate n '0') = 0 := by
  rw [digitsValue_eq, Nat.ofDigitChars_replicate_zero, Nat.mul_zero]

@[simp]
theorem digitsValue_toDigits (n : ℕ) : digitsValue (Nat.toDigits 10 n) = n := by
  rw [digitsValue_eq, Nat.ofDigitChars_ten_toDigits]

def AllDigits (ds : List Char) : Prop := ∀ c ∈ ds, isDigit c

theorem allDigits_toDigits (n : ℕ) : AllDigits (Nat.toDigits 10 n) := by
  intro c hc
  rw [isDigit_eq]
  exact Nat.isDigit_of_mem_toDigits (by decide) (by decide) hc

theorem allDigits_zeros (n : ℕ) : AllDigits (List.replicate n '0') := by
  intro c hc
  rw [List.eq_of_mem_replicate hc]
  rfl

theorem AllDigits.append {as bs : List Char} (ha : AllDigits as) (hb : AllDigits bs) :
    AllDigits (as ++ bs) := by
  intro c hc
  rcases List.mem_append.mp hc with h | h
  · exact ha c h
  · exact hb c h

def NoDigitNext (rest : List Char) : Prop := ∀ c ∈ rest.head?, isDigit c = false

theorem takeWhile_digits {ds rest : List Char} (hds : AllDigits ds) (hrest : NoDigitNext rest) :
    (ds ++ rest).takeWhile isDigit = ds ∧ (ds ++ rest).dropWhile isDigit = rest := by
  rw [List.takeWhile_append_of_pos hds, List.dropWhile_append_of_pos hds]
  cases rest with
  | nil => simp
  | cons c cs =>
    have hc : isDigit c = false := hrest c rfl
    simp [hc]

theorem mantissa?_point {whole places rest : List Char} (hwhole : AllDigits whole)
    (hplaces : AllDigits places) (hne : whole ≠ [] ∨ places ≠ []) (hrest : NoDigitNext rest) :
    mantissa? (whole ++ '.' :: (places ++ rest)) =
      some (digitsValue (whole ++ places), places.length, rest) := by
  have hpoint : NoDigitNext ('.' :: (places ++ rest)) := by simp [NoDigitNext, isDigit]
  obtain ⟨htake, hdrop⟩ := takeWhile_digits hwhole hpoint
  obtain ⟨htake', hdrop'⟩ := takeWhile_digits hplaces hrest
  have hsome : (whole.isEmpty && places.isEmpty) = false := by
    rcases hne with h | h <;> simp [h]
  simp only [mantissa?, htake, hdrop, htake', hdrop', hsome, Bool.false_eq_true, if_false]

theorem mantissa?_whole {whole rest : List Char} (hwhole : AllDigits whole) (hne : whole ≠ [])
    (hrest : NoDigitNext rest) (hpoint : rest.head? ≠ some '.') :
    mantissa? (whole ++ rest) = some (digitsValue whole, 0, rest) := by
  obtain ⟨htake, hdrop⟩ := takeWhile_digits hwhole hrest
  simp only [mantissa?, htake, hdrop]
  split
  · simp at hpoint
  · simp [hne]

inductive IsTail : List Char → Prop
  | none : IsTail []
  | suffix {c : Char} (h : isSuffix c) : IsTail [c]

theorem suffix_cases {c : Char} (h : isSuffix c) : c = 'f' ∨ c = 'F' ∨ c = 'd' ∨ c = 'D' := by
  simpa [isSuffix, or_assoc] using h

theorem IsTail.noDigitNext {tail : List Char} (h : IsTail tail) : NoDigitNext tail := by
  cases h with
  | none => simp [NoDigitNext]
  | suffix h => rcases suffix_cases h with rfl | rfl | rfl | rfl <;> simp [NoDigitNext, isDigit]

theorem IsTail.exponent? {tail : List Char} (h : IsTail tail) : exponent? tail = some (0, tail) := by
  cases h with
  | none => rfl
  | suffix h => rcases suffix_cases h with rfl | rfl | rfl | rfl <;> rfl

theorem IsTail.head?_ne_point {tail : List Char} (h : IsTail tail) : tail.head? ≠ some '.' := by
  cases h with
  | none => simp
  | suffix h => rcases suffix_cases h with rfl | rfl | rfl | rfl <;> simp

theorem exponent?_marked {c : Char} {cs ds tail : List Char} {negative : Bool}
    (hc : c = 'e' ∨ c = 'E') (hsign : splitSign cs = (negative, ds ++ tail)) (hds : AllDigits ds)
    (hne : ds ≠ []) (htail : IsTail tail) :
    exponent? (c :: cs) = some (Binary.signed negative (digitsValue ds), tail) := by
  obtain ⟨htake, hdrop⟩ := takeWhile_digits hds htail.noDigitNext
  have hmark : (decide (c = 'e') || decide (c = 'E')) = true := by simpa using hc
  rw [FloatText.exponent?, if_pos hmark, hsign]
  simp [htake, hdrop, hne]

theorem parse?_number {cs body rest tail : List Char} {negative : Bool} {c p : ℕ} {e : ℤ}
    (hsign : splitSign cs = (negative, body)) (hm : mantissa? body = some (c, p, rest))
    (he : exponent? rest = some (e, tail)) (htail : IsTail tail) :
    parse? cs = some (.number ⟨negative, c, e - p⟩) := by
  have hnan : body ≠ ['N', 'a', 'N'] := by
    rintro rfl
    simp [mantissa?, isDigit] at hm
  have hinf : body ≠ ['I', 'n', 'f', 'i', 'n', 'i', 't', 'y'] := by
    rintro rfl
    simp [mantissa?, isDigit] at hm
  unfold parse?
  rw [hsign]
  simp only [if_neg hnan, if_neg hinf, hm, Option.bind_eq_bind, Option.bind_some, he]
  cases htail with
  | none => rfl
  | suffix h => simp [h]

theorem ne_of_isDigit {c d : Char} (hc : isDigit c) (hd : isDigit d = false) : c ≠ d := by
  rintro rfl
  rw [hc] at hd
  exact Bool.noConfusion hd

def NoSignNext (rest : List Char) : Prop := ∀ c ∈ rest.head?, c ≠ '+' ∧ c ≠ '-'

theorem noSignNext_of_isDigit {c : Char} (hc : isDigit c) (rest : List Char) :
    NoSignNext (c :: rest) := by
  intro d hd
  obtain rfl : c = d := by simpa using hd
  exact ⟨ne_of_isDigit hc rfl, ne_of_isDigit hc rfl⟩

theorem splitSign_of_noSignNext {cs : List Char} (h : NoSignNext cs) :
    splitSign cs = (false, cs) := by
  unfold splitSign
  split
  · exact absurd rfl (h '+' rfl).1
  · exact absurd rfl (h '-' rfl).2
  · rfl

theorem splitSign_signText (d : Decimal) {c : Char} (rest : List Char) (hc : isDigit c) :
    splitSign (d.signText ++ c :: rest) = (d.negative, c :: rest) := by
  cases hd : d.negative with
  | false => simp [Decimal.signText, hd, splitSign_of_noSignNext (noSignNext_of_isDigit hc rest)]
  | true => simp [Decimal.signText, hd, splitSign]

theorem parse?_point (d : Decimal) {whole places tail : List Char} (hwhole : AllDigits whole)
    (hplaces : AllDigits places) (hne : whole ≠ []) (htail : IsTail tail) :
    parse? (d.signText ++ (whole ++ '.' :: (places ++ tail))) =
      some (.number ⟨d.negative, digitsValue (whole ++ places), 0 - places.length⟩) := by
  have hmantissa := mantissa?_point hwhole hplaces (.inl hne) htail.noDigitNext
  obtain ⟨c, cs, rfl⟩ := List.exists_cons_of_ne_nil hne
  have hsign := splitSign_signText d (cs ++ '.' :: (places ++ tail)) (hwhole c List.mem_cons_self)
  exact parse?_number hsign hmantissa htail.exponent? htail

end FloatText

namespace Decimal

open FloatText

theorem allDigits_coefficientDigits (d : Decimal) : AllDigits d.coefficientDigits :=
  allDigits_toDigits _

theorem coefficientDigits_ne_nil (d : Decimal) : d.coefficientDigits ≠ [] :=
  Nat.toDigits_ne_nil

theorem digitsValue_coefficientDigits (d : Decimal) :
    digitsValue d.coefficientDigits = d.coefficient :=
  digitsValue_toDigits _

theorem mantissa?_pointed {ds rest : List Char} (whole : ℕ) (hds : AllDigits ds) (hne : ds ≠ [])
    (hrest : NoDigitNext rest) (hpoint : rest.head? ≠ some '.') :
    mantissa? (pointed ds (whole + 1) ++ rest) =
      some (10 ^ (whole + 1 - ds.length) * digitsValue ds, ds.length - (whole + 1), rest) := by
  unfold pointed
  split_ifs with h
  · have htake : AllDigits (ds.take (whole + 1)) := fun c hc => hds c (List.mem_of_mem_take hc)
    have hdrop : AllDigits (ds.drop (whole + 1)) := fun c hc => hds c (List.mem_of_mem_drop hc)
    have hfirst : ds.take (whole + 1) ≠ [] := by
      simpa using hne
    have hzero : whole + 1 - ds.length = 0 := by omega
    rw [List.append_assoc, List.cons_append, mantissa?_point htake hdrop (.inl hfirst) hrest,
      List.take_append_drop, List.length_drop, hzero, pow_zero, Nat.one_mul]
  · have hzero : ds.length - (whole + 1) = 0 := by omega
    rw [mantissa?_whole (hds.append (allDigits_zeros _)) (by simp [hne]) hrest hpoint,
      digitsValue_append, digitsValue_zeros, List.length_replicate, Nat.add_zero, hzero]

theorem exists_pointed_eq_cons {ds : List Char} (whole : ℕ) (hds : AllDigits ds) (hne : ds ≠ []) :
    ∃ c rest, pointed ds (whole + 1) = c :: rest ∧ isDigit c := by
  obtain ⟨c, cs, rfl⟩ := List.exists_cons_of_ne_nil hne
  have hc : isDigit c = true := hds c List.mem_cons_self
  unfold pointed
  split_ifs with h
  · exact ⟨c, _, by rw [List.take_succ_cons, List.cons_append], hc⟩
  · exact ⟨c, _, by rw [List.cons_append], hc⟩

def exponentText (d : Decimal) : List Char :=
  'e' :: (if d.firstExponent < 0 then '-' else '+') ::
    (List.replicate (2 - (Nat.toDigits 10 d.firstExponent.natAbs).length) '0' ++
      Nat.toDigits 10 d.firstExponent.natAbs)

theorem scientific_eq (d : Decimal) :
    d.scientific = d.signText ++ (pointed d.coefficientDigits 1 ++ d.exponentText) := by
  simp [scientific, exponentText]

theorem exponent?_exponentText (d : Decimal) {tail : List Char} (htail : IsTail tail) :
    exponent? (d.exponentText ++ tail) = some (d.firstExponent, tail) := by
  have hdigits := (allDigits_zeros (2 - (Nat.toDigits 10 d.firstExponent.natAbs).length)).append
    (allDigits_toDigits d.firstExponent.natAbs)
  have hsign : ∀ rest, splitSign ((if d.firstExponent < 0 then '-' else '+') :: rest) =
      (decide (d.firstExponent < 0), rest) := by
    intro rest
    split_ifs with hneg <;> simp [splitSign, hneg]
  have hread := exponent?_marked (.inl rfl) (hsign _) hdigits (by simp [Nat.toDigits_ne_nil]) htail
  have hsigned : Binary.signed (decide (d.firstExponent < 0)) d.firstExponent.natAbs =
      d.firstExponent := by
    unfold Binary.signed
    split_ifs with hneg <;> simp at hneg <;> omega
  rw [digitsValue_append, digitsValue_zeros, Nat.mul_zero, Nat.zero_add, digitsValue_toDigits,
    hsigned] at hread
  simpa [exponentText] using hread

theorem firstExponent_eq (d : Decimal) :
    d.firstExponent = d.exponent + d.coefficientDigits.length - 1 := rfl

theorem length_coefficientDigits_pos (d : Decimal) : 0 < d.coefficientDigits.length :=
  List.length_pos_of_ne_nil d.coefficientDigits_ne_nil

theorem parse?_pointed (d : Decimal) (whole : ℕ) {rest tail : List Char} {e : ℤ}
    (hrest : NoDigitNext rest) (hpoint : rest.head? ≠ some '.')
    (hexp : exponent? rest = some (e, tail)) (htail : IsTail tail) :
    parse? (d.signText ++ (pointed d.coefficientDigits (whole + 1) ++ rest)) =
      some (.number ⟨d.negative,
        10 ^ (whole + 1 - d.coefficientDigits.length) * d.coefficient,
        e - (d.coefficientDigits.length - (whole + 1) : ℕ)⟩) := by
  have hds := d.allDigits_coefficientDigits
  have hne := d.coefficientDigits_ne_nil
  have hmantissa := mantissa?_pointed whole hds hne hrest hpoint
  rw [d.digitsValue_coefficientDigits] at hmantissa
  obtain ⟨c, cs, hcons, hc⟩ := exists_pointed_eq_cons whole hds hne
  have hsign := splitSign_signText d (cs ++ rest) hc
  rw [← List.cons_append, ← hcons] at hsign
  exact parse?_number hsign hmantissa hexp htail

theorem parse?_scientific (d : Decimal) {tail : List Char} (htail : IsTail tail) :
    parse? (d.scientific ++ tail) = some (.number d) := by
  have hlength := d.length_coefficientDigits_pos
  have hstop : NoDigitNext (d.exponentText ++ tail) := by
    simp [exponentText, NoDigitNext, isDigit]
  have hread := d.parse?_pointed 0 hstop (by simp [exponentText])
    (d.exponent?_exponentText htail) htail
  have hzero : 0 + 1 - d.coefficientDigits.length = 0 := by omega
  have hexp : d.firstExponent - (d.coefficientDigits.length - (0 + 1) : ℕ) = d.exponent := by
    rw [firstExponent_eq]
    omega
  rw [hzero, pow_zero, Nat.one_mul, hexp] at hread
  rw [scientific_eq, List.append_assoc, List.append_assoc]
  exact hread

theorem parse?_positional_of_neg (d : Decimal) (h : d.firstExponent < 0) {tail : List Char}
    (htail : IsTail tail) : parse? (d.positional ++ tail) = some (.number d) := by
  have hzeros := allDigits_zeros ((-d.firstExponent).toNat - 1)
  have hwhole : AllDigits ['0'] := allDigits_zeros 1
  have hread := parse?_point d hwhole (hzeros.append d.allDigits_coefficientDigits) (by simp) htail
  have hvalue : digitsValue (['0'] ++ (List.replicate ((-d.firstExponent).toNat - 1) '0' ++
      d.coefficientDigits)) = d.coefficient := by
    rw [← List.append_assoc, digitsValue_append, digitsValue_coefficientDigits,
      ← List.replicate_one, ← List.replicate_add, digitsValue_zeros, Nat.mul_zero, Nat.zero_add]
  have hexp : 0 - ((List.replicate ((-d.firstExponent).toNat - 1) '0' ++
      d.coefficientDigits).length : ℤ) = d.exponent := by
    rw [List.length_append, List.length_replicate]
    rw [firstExponent_eq] at h ⊢
    omega
  rw [hvalue, hexp] at hread
  unfold positional
  simp only [if_neg (not_le.mpr h)]
  simpa using hread

theorem withPoint_of_mem {cs : List Char} (h : '.' ∈ cs ∨ 'e' ∈ cs) : withPoint cs = cs := by
  have hcontains : (cs.contains '.' || cs.contains 'e') = true := by simpa using h
  rw [withPoint, if_pos hcontains]

theorem withPoint_of_digits (d : Decimal) {ds : List Char} (hds : AllDigits ds) :
    withPoint (d.signText ++ ds) = d.signText ++ (ds ++ ['.', '0']) := by
  have habsent : ∀ c, c = '.' ∨ c = 'e' → c ∉ d.signText ++ ds := by
    rintro c hc hmem
    rcases List.mem_append.mp hmem with hsign | hdigit
    · unfold signText at hsign
      split_ifs at hsign
      · rcases hc with rfl | rfl <;> simp at hsign
      · simp at hsign
    · have hdigit := hds c hdigit
      rcases hc with rfl | rfl <;> simp [isDigit] at hdigit
  have hpoint := habsent '.' (.inl rfl)
  have hexp := habsent 'e' (.inr rfl)
  have hcontains : ((d.signText ++ ds).contains '.' || (d.signText ++ ds).contains 'e') = false := by
    simp only [List.contains_eq_mem, hpoint, hexp, decide_false, Bool.or_false]
  rw [withPoint, hcontains, if_neg Bool.false_ne_true, List.append_assoc]

def ReadAs (cs : List Char) (d : Decimal) : Prop :=
  ∃ e, parse? cs = some (.number e) ∧ e.negative = d.negative ∧ e.size = d.size

theorem readAs_positional_of_neg (d : Decimal) (h : d.firstExponent < 0) {tail : List Char}
    (htail : IsTail tail) : ReadAs (withPoint d.positional ++ tail) d := by
  have hmem : '.' ∈ d.positional := by
    simp [positional, not_le.mpr h]
  rw [withPoint_of_mem (.inl hmem)]
  exact ⟨d, d.parse?_positional_of_neg h htail, rfl, rfl⟩

theorem positional_of_nonneg (d : Decimal) (h : 0 ≤ d.firstExponent) :
    d.positional = d.signText ++ pointed d.coefficientDigits (d.firstExponent.toNat + 1) := by
  simp [positional, h]

theorem readAs_positional_of_lt (d : Decimal) (h : 0 ≤ d.firstExponent)
    (hshort : d.firstExponent.toNat + 1 < d.coefficientDigits.length) {tail : List Char}
    (htail : IsTail tail) : ReadAs (withPoint d.positional ++ tail) d := by
  have hmem : '.' ∈ d.positional := by
    simp [d.positional_of_nonneg h, pointed, hshort]
  have hread := d.parse?_pointed d.firstExponent.toNat htail.noDigitNext htail.head?_ne_point
    htail.exponent? htail
  have hzero : d.firstExponent.toNat + 1 - d.coefficientDigits.length = 0 := by omega
  have hexp : 0 - (d.coefficientDigits.length - (d.firstExponent.toNat + 1) : ℕ) =
      d.exponent := by
    rw [firstExponent_eq] at hshort h ⊢
    omega
  rw [hzero, pow_zero, Nat.one_mul, hexp] at hread
  rw [withPoint_of_mem (.inl hmem), d.positional_of_nonneg h, List.append_assoc]
  exact ⟨d, hread, rfl, rfl⟩

theorem readAs_positional_of_le (d : Decimal) (h : 0 ≤ d.firstExponent)
    (hlong : d.coefficientDigits.length ≤ d.firstExponent.toNat + 1) {tail : List Char}
    (htail : IsTail tail) : ReadAs (withPoint d.positional ++ tail) d := by
  obtain ⟨n, hexp, hgap⟩ : ∃ n : ℕ, d.exponent = n ∧
      d.firstExponent.toNat + 1 - d.coefficientDigits.length = n := by
    refine ⟨d.exponent.toNat, ?_, ?_⟩ <;>
    · rw [firstExponent_eq] at *
      omega
  have hall := d.allDigits_coefficientDigits.append (allDigits_zeros n)
  have hpointed : pointed d.coefficientDigits (d.firstExponent.toNat + 1) =
      d.coefficientDigits ++ List.replicate n '0' := by
    rw [pointed, if_neg (not_lt.mpr hlong), hgap]
  have hread := parse?_point d hall (allDigits_zeros 1) (by simp [d.coefficientDigits_ne_nil]) htail
  rw [d.positional_of_nonneg h, hpointed, withPoint_of_digits d hall]
  refine ⟨⟨d.negative, digitsValue (d.coefficientDigits ++ List.replicate n '0' ++ ['0']), -1⟩,
    by simpa using hread, rfl, ?_⟩
  rw [size, size, List.append_assoc, ← List.replicate_one, ← List.replicate_add,
    digitsValue_append, digitsValue_coefficientDigits, digitsValue_zeros, hexp,
    List.length_replicate, pow_succ, Nat.add_zero, zpow_natCast, zpow_neg_one]
  push_cast
  ring

theorem readAs_positional (d : Decimal) {tail : List Char} (htail : IsTail tail) :
    ReadAs (withPoint d.positional ++ tail) d := by
  by_cases hneg : d.firstExponent < 0
  · exact d.readAs_positional_of_neg hneg htail
  · have hnonneg := not_lt.mp hneg
    by_cases hshort : d.firstExponent.toNat + 1 < d.coefficientDigits.length
    · exact d.readAs_positional_of_lt hnonneg hshort htail
    · exact d.readAs_positional_of_le hnonneg (not_lt.mp hshort) htail

theorem readAs_general (d : Decimal) (bound : ℤ) {tail : List Char} (htail : IsTail tail) :
    ReadAs (withPoint (d.general bound) ++ tail) d := by
  unfold general
  split_ifs
  · exact d.readAs_positional htail
  · have hmem : 'e' ∈ d.scientific := by
      simp [scientific_eq, exponentText]
    rw [withPoint_of_mem (.inr hmem)]
    exact ⟨d, d.parse?_scientific htail, rfl, rfl⟩

end Decimal

end PreferenceAccessors
