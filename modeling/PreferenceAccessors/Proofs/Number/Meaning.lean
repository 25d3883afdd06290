import PreferenceAccessors.Number.Numeral
import PreferenceAccessors.Proofs.Number.Grammar

/-!
What float literals stand for. Each part of a literal has an exact value by its
spelling: digits count by their places, also those behind the point, and an
exponent shifts by powers of ten; a suffix letter says nothing. The reader of
literals takes the whole grammar and reads it with these values. So does the
reader of numbers in free text, once the suffix letter is gone.
-/

namespace PreferenceAccessors

namespace FloatText

/-- What a literal stands for; the size of a number is exact. -/
inductive Meaning
  | nan
  | infinity (negative : Bool)
  | number (negative : Bool) (size : ℚ)

inductive SignSpells : List Char → Bool → Prop
  | none : SignSpells [] false
  | plus : SignSpells ['+'] false
  | minus : SignSpells ['-'] true

inductive MantissaSpells : List Char → ℚ → Prop
  | whole {ds : List Char} (h : AllDigits ds) (hne : ds ≠ []) : MantissaSpells ds (digitsValue ds)
  | pointed {ds places : List Char} (h : AllDigits ds) (hne : ds ≠ []) (hplaces : AllDigits places) :
      MantissaSpells (ds ++ '.' :: places) (digitsValue ds + digitsValue places / 10 ^ places.length)
  | fraction {places : List Char} (h : AllDigits places) (hne : places ≠ []) :
      MantissaSpells ('.' :: places) (digitsValue places / 10 ^ places.length)

inductive ExponentSpells : List Char → ℤ → Prop
  | none : ExponentSpells [] 0
  | marked {c : Char} {sign ds : List Char} {negative : Bool} (hc : c = 'e' ∨ c = 'E')
      (hsign : SignSpells sign negative) (h : AllDigits ds) (hne : ds ≠ []) :
      ExponentSpells (c :: (sign ++ ds)) (if negative then -digitsValue ds else digitsValue ds)

/-- The grammar of literals with the meaning of each. -/
inductive Spells : List Char → Meaning → Prop
  | nan {sign : List Char} {negative : Bool} (hsign : SignSpells sign negative) :
      Spells (sign ++ ['N', 'a', 'N']) .nan
  | infinity {sign : List Char} {negative : Bool} (hsign : SignSpells sign negative) :
      Spells (sign ++ ['I', 'n', 'f', 'i', 'n', 'i', 't', 'y']) (.infinity negative)
  | number {sign mantissa exponent tail : List Char} {negative : Bool} {m : ℚ} {e : ℤ}
      (hsign : SignSpells sign negative) (hmantissa : MantissaSpells mantissa m)
      (hexponent : ExponentSpells exponent e) (htail : IsTail tail) :
      Spells (sign ++ (mantissa ++ (exponent ++ tail))) (.number negative (m * 10 ^ e))

theorem IsSign.exists_spells {sign : List Char} (h : IsSign sign) :
    ∃ negative, SignSpells sign negative := by
  cases h with
  | none => exact ⟨_, .none⟩
  | plus => exact ⟨_, .plus⟩
  | minus => exact ⟨_, .minus⟩

theorem IsMantissa.exists_spells {cs : List Char} (h : IsMantissa cs) :
    ∃ m, MantissaSpells cs m := by
  cases h with
  | whole h hne => exact ⟨_, .whole h hne⟩
  | pointed h hne hplaces => exact ⟨_, .pointed h hne hplaces⟩
  | fraction h hne => exact ⟨_, .fraction h hne⟩

theorem IsExponent.exists_spells {cs : List Char} (h : IsExponent cs) :
    ∃ e, ExponentSpells cs e := by
  cases h with
  | none => exact ⟨_, .none⟩
  | marked hc hsign h hne =>
    obtain ⟨negative, hspells⟩ := hsign.exists_spells
    exact ⟨_, .marked hc hspells h hne⟩

theorem IsLiteral.exists_spells {cs : List Char} (h : IsLiteral cs) : ∃ v, Spells cs v := by
  cases h with
  | nan hsign =>
    obtain ⟨negative, hspells⟩ := hsign.exists_spells
    exact ⟨_, .nan hspells⟩
  | infinity hsign =>
    obtain ⟨negative, hspells⟩ := hsign.exists_spells
    exact ⟨_, .infinity hspells⟩
  | number hsign hmantissa hexponent htail =>
    obtain ⟨negative, hnegative⟩ := hsign.exists_spells
    obtain ⟨m, hm⟩ := hmantissa.exists_spells
    obtain ⟨e, he⟩ := hexponent.exists_spells
    exact ⟨_, .number hnegative hm he htail⟩

theorem SignSpells.splitSign {sign rest : List Char} {negative : Bool}
    (h : SignSpells sign negative) (hrest : NoSignNext rest) :
    splitSign (sign ++ rest) = (negative, rest) := by
  cases h with
  | none => exact splitSign_of_noSignNext hrest
  | plus => rfl
  | minus => rfl

theorem AllDigits.exists_cons {ds : List Char} (h : AllDigits ds) (hne : ds ≠ []) :
    ∃ c rest, ds = c :: rest ∧ isDigit c := by
  obtain ⟨c, rest, rfl⟩ := List.exists_cons_of_ne_nil hne
  exact ⟨c, rest, rfl, h c List.mem_cons_self⟩

theorem AllDigits.noSignNext {ds : List Char} (h : AllDigits ds) (hne : ds ≠ [])
    (rest : List Char) : NoSignNext (ds ++ rest) := by
  obtain ⟨c, tail, rfl, hc⟩ := h.exists_cons hne
  exact noSignNext_of_isDigit hc (tail ++ rest)

theorem MantissaSpells.exists_cons {cs : List Char} {m : ℚ} (h : MantissaSpells cs m) :
    ∃ c rest, cs = c :: rest ∧ (isDigit c ∨ c = '.') := by
  cases h with
  | whole h hne =>
    obtain ⟨c, rest, rfl, hc⟩ := h.exists_cons hne
    exact ⟨c, rest, rfl, .inl hc⟩
  | pointed h hne =>
    obtain ⟨c, rest, rfl, hc⟩ := h.exists_cons hne
    exact ⟨c, _, rfl, .inl hc⟩
  | fraction => exact ⟨'.', _, rfl, .inr rfl⟩

theorem MantissaSpells.noSignNext {cs : List Char} {m : ℚ} (h : MantissaSpells cs m)
    (rest : List Char) : NoSignNext (cs ++ rest) := by
  obtain ⟨c, tail, rfl, hc⟩ := h.exists_cons
  rcases hc with hc | rfl
  · exact noSignNext_of_isDigit hc (tail ++ rest)
  · simp [NoSignNext]

theorem MantissaSpells.mantissa? {cs rest : List Char} {m : ℚ} (h : MantissaSpells cs m)
    (hrest : NoDigitNext rest) (hpoint : rest.head? ≠ some '.') :
    ∃ c p : ℕ, mantissa? (cs ++ rest) = some (c, p, rest) ∧ m = c / 10 ^ p := by
  cases h with
  | whole h hne => exact ⟨_, 0, mantissa?_whole h hne hrest hpoint, by simp⟩
  | @pointed ds places h hne hplaces =>
    refine ⟨digitsValue (ds ++ places), places.length, ?_, ?_⟩
    · rw [List.append_assoc, List.cons_append, mantissa?_point h hplaces (.inl hne) hrest]
    · rw [digitsValue_append]
      push_cast
      field_simp
  | @fraction places h hne =>
    have hnone : AllDigits [] := by simp [AllDigits]
    exact ⟨_, places.length, mantissa?_point hnone h (.inr hne) hrest, by rw [List.nil_append]⟩

theorem ExponentSpells.exponent? {cs tail : List Char} {e : ℤ} (h : ExponentSpells cs e)
    (htail : IsTail tail) : exponent? (cs ++ tail) = some (e, tail) := by
  cases h with
  | none => exact htail.exponent?
  | @marked c sign ds negative hc hsign h hne =>
    have hsplit := hsign.splitSign (h.noSignNext hne tail)
    rw [List.cons_append, List.append_assoc, exponent?_marked hc hsplit h hne htail, Binary.signed]

theorem ExponentSpells.noDigitNext {cs tail : List Char} {e : ℤ} (h : ExponentSpells cs e)
    (htail : IsTail tail) :
    NoDigitNext (cs ++ tail) ∧ (cs ++ tail).head? ≠ some '.' := by
  cases h with
  | none => exact ⟨htail.noDigitNext, htail.head?_ne_point⟩
  | marked hc => rcases hc with rfl | rfl <;> simp [NoDigitNext, isDigit]

def meaning : FloatText → Meaning
  | nan => .nan
  | infinity negative => .infinity negative
  | number d => .number d.negative d.size

theorem size_of_parts {negative : Bool} {c p : ℕ} {m : ℚ} {e : ℤ} (hm : m = c / 10 ^ p) :
    (⟨negative, c, e - p⟩ : Decimal).size = m * 10 ^ e := by
  rw [Decimal.size, zpow_sub₀ (by norm_num), zpow_natCast, hm]
  ring

theorem Spells.exists_parse? {cs : List Char} {v : Meaning} (h : Spells cs v) :
    ∃ t, parse? cs = some t ∧ t.meaning = v := by
  cases h with
  | nan hsign => exact ⟨.nan, by cases hsign <;> decide, rfl⟩
  | infinity hsign => exact ⟨.infinity _, by cases hsign <;> decide, rfl⟩
  | @number sign mantissa exponent tail negative m e hsign hmantissa hexponent htail =>
    obtain ⟨hstop, hpoint⟩ := hexponent.noDigitNext htail
    obtain ⟨c, p, hread, hm⟩ := hmantissa.mantissa? hstop hpoint
    have hsplit := hsign.splitSign (hmantissa.noSignNext (exponent ++ tail))
    refine ⟨_, parse?_number hsplit hread (hexponent.exponent? htail) htail, ?_⟩
    rw [meaning, size_of_parts hm]

theorem Spells.isLiteral {cs : List Char} {v : Meaning} (h : Spells cs v) : IsLiteral cs := by
  obtain ⟨t, ht, -⟩ := h.exists_parse?
  exact isLiteral_of_parse? ht

theorem Spells.unique {cs : List Char} {v w : Meaning} (hv : Spells cs v) (hw : Spells cs w) :
    v = w := by
  obtain ⟨t, ht, rfl⟩ := hv.exists_parse?
  obtain ⟨u, hu, rfl⟩ := hw.exists_parse?
  rw [Option.some.inj (ht.symm.trans hu)]

theorem spells_of_parse? {cs : List Char} {t : FloatText} (h : parse? cs = some t) :
    Spells cs t.meaning := by
  obtain ⟨v, hv⟩ := (isLiteral_of_parse? h).exists_spells
  obtain ⟨u, hu, rfl⟩ := hv.exists_parse?
  rw [Option.some.inj (h.symm.trans hu)]
  exact hv

theorem spells_number {cs : List Char} {d : Decimal} {q : ℚ} (h : parse? cs = some (.number d))
    (hsize : d.size = q) : Spells cs (.number d.negative q) :=
  hsize ▸ spells_of_parse? h

/-- The grammar and its meanings agree on what a literal is. -/
theorem isLiteral_iff_existsUnique {cs : List Char} : IsLiteral cs ↔ ∃! v, Spells cs v := by
  constructor
  · intro h
    obtain ⟨v, hv⟩ := h.exists_spells
    exact ⟨v, hv, fun w hw => hw.unique hv⟩
  · rintro ⟨v, hv, -⟩
    exact hv.isLiteral

theorem parse?_eq_none_iff {cs : List Char} : parse? cs = none ↔ ¬ IsLiteral cs := by
  constructor
  · intro hnone h
    obtain ⟨v, hv⟩ := h.exists_spells
    obtain ⟨t, ht, -⟩ := hv.exists_parse?
    exact absurd (hnone.symm.trans ht) (Option.some_ne_none t).symm
  · intro h
    cases ht : parse? cs with
    | none => rfl
    | some t => exact absurd (isLiteral_of_parse? ht) h

def Meaning.RoundsTo (f : BinaryFormat) : Meaning → Binary → Prop
  | nan, x => x = .nan
  | infinity negative, x => x = .infinite negative
  | number negative size, x =>
    ∃ k, f.RoundsTo (size * unitsPerOne) k ∧ x = f.datum negative k

theorem Meaning.RoundsTo.unique {f : BinaryFormat} (hf : f.Regular) {v : Meaning} {x y : Binary}
    (hx : v.RoundsTo f x) (hy : v.RoundsTo f y) : x = y := by
  cases v with
  | nan => exact hx.trans hy.symm
  | infinity negative => exact hx.trans hy.symm
  | number negative size =>
    obtain ⟨j, hj, rfl⟩ := hx
    obtain ⟨k, hk, rfl⟩ := hy
    rw [hj.unique hk hf]

theorem meaning_roundsTo (t : FloatText) : t.meaning.RoundsTo double t.toDouble := by
  cases t with
  | nan => rfl
  | infinity negative => rfl
  | number d => exact d.round_spec BinaryFormat.double_bounded

def dropSuffix (cs : List Char) : List Char :=
  if cs.getLast?.any isSuffix then cs.dropLast else cs

theorem dropSuffix_append {cs tail : List Char} (hcs : ∀ c ∈ cs.getLast?, isSuffix c = false)
    (htail : IsTail tail) : dropSuffix (cs ++ tail) = cs := by
  cases htail with
  | none =>
    have hany : cs.getLast?.any isSuffix = false := by
      cases hlast : cs.getLast? with
      | none => rfl
      | some c => exact hcs c hlast
    rw [List.append_nil, dropSuffix, hany, if_neg Bool.false_ne_true]
  | suffix h => simp [dropSuffix, h]

theorem not_isSuffix_of_isDigit {c : Char} (h : isDigit c) : isSuffix c = false := by
  rw [Bool.eq_false_iff]
  intro hsuffix
  rcases suffix_cases hsuffix with rfl | rfl | rfl | rfl <;> simp [isDigit] at h

theorem MantissaSpells.not_isSuffix {cs : List Char} {m : ℚ} (h : MantissaSpells cs m) :
    ∀ c ∈ cs, isSuffix c = false := by
  have hpoint : isSuffix '.' = false := rfl
  cases h with
  | whole h => exact fun c hc => not_isSuffix_of_isDigit (h c hc)
  | pointed h _ hplaces =>
    simp only [List.mem_append, List.mem_cons]
    rintro c (hc | rfl | hc)
    · exact not_isSuffix_of_isDigit (h c hc)
    · exact hpoint
    · exact not_isSuffix_of_isDigit (hplaces c hc)
  | fraction h =>
    rintro c hc
    rcases List.mem_cons.mp hc with rfl | hc
    · exact hpoint
    · exact not_isSuffix_of_isDigit (h c hc)

theorem not_isSuffix_getLast? {sign mantissa exponent : List Char} {m : ℚ} {e : ℤ}
    (hmantissa : MantissaSpells mantissa m) (hexponent : ExponentSpells exponent e) :
    ∀ c ∈ (sign ++ (mantissa ++ exponent)).getLast?, isSuffix c = false := by
  obtain ⟨d, rest, hcons, -⟩ := hmantissa.exists_cons
  cases hexponent with
  | none =>
    rw [List.append_nil, List.getLast?_append_of_ne_nil sign (by simp [hcons])]
    exact fun c hc => hmantissa.not_isSuffix c (List.mem_of_mem_getLast? hc)
  | @marked mark sign' ds _ _ _ h hne =>
    have hlast : (sign ++ (mantissa ++ mark :: (sign' ++ ds))).getLast? = ds.getLast? := by
      rw [← List.append_assoc, ← List.cons_append, ← List.append_assoc,
        List.getLast?_append_of_ne_nil _ hne]
    rw [hlast]
    exact fun c hc => not_isSuffix_of_isDigit (h c (List.mem_of_mem_getLast? hc))

def digits : List Char := ['0', '1', '2', '3', '4', '5', '6', '7', '8', '9']

theorem mem_digits {c : Char} (h : isDigit c) : c ∈ digits := by
  obtain ⟨hlow, hhigh⟩ := toNat_of_isDigit h
  rw [← Char.ofNat_toNat c]
  generalize c.toNat = n at hlow hhigh
  interval_cases n <;> decide

theorem asciiDigit_of_spelled {cs : List Char} (h : Spelled cs) : cs.map Text.asciiDigit = cs := by
  have hdigits : digits.all fun c => Text.asciiDigit c == c := by decide +kernel
  have hletters : letters.all fun c => Text.asciiDigit c == c := by decide +kernel
  have hsame : ∀ c ∈ cs, Text.asciiDigit c = id c := by
    intro c hc
    rcases h c hc with hdigit | hletter
    · exact eq_of_beq (List.all_eq_true.mp hdigits c (mem_digits hdigit))
    · exact eq_of_beq (List.all_eq_true.mp hletters c hletter)
  rw [List.map_congr_left hsame, List.map_id]

theorem normalize_of_spelled {cs : List Char} (h : Spelled cs) :
    Numeral.normalize (String.ofList cs) = cs := by
  have hspace : ∀ c ∈ cs, Numeral.isSpace c = false := by
    intro c hc
    rw [Numeral.isSpace, h.not_isBlank c hc, Bool.false_and]
  rw [Numeral.normalize, String.toList_ofList, dropEnds_of_not hspace, asciiDigit_of_spelled h]

theorem dropUnderscores?_of_not_mem {p : Char → Bool} {cs : List Char} (h : '_' ∉ cs) :
    Numeral.dropUnderscores? p cs = some cs := by
  fun_induction Numeral.dropUnderscores? p cs with
  | case1 => simp at h
  | case2 => simp at h
  | case3 => simp at h
  | case4 => simp at h
  | case5 c rest _ _ _ ih =>
    rw [ih fun hmem => h (List.mem_cons_of_mem c hmem)]
    rfl
  | case6 => rfl

theorem Spelled.underscore_not_mem {cs : List Char} (h : Spelled cs) : '_' ∉ cs := by
  intro hmem
  rcases h '_' hmem with hdigit | hletter
  · exact Bool.noConfusion hdigit
  · exact absurd hletter (by decide)

theorem lower_ne_name {c : Char} (hc : isDigit c ∨ c = '.') (rest : List Char) {name : String}
    (hname : name ∈ ["inf", "infinity", "nan"]) :
    String.ofList ((c :: rest).map Numeral.lower) ≠ name := by
  have hstart : ('.' :: digits).all fun c => Numeral.lower c != 'i' && Numeral.lower c != 'n' := by
    decide
  have hmem : c ∈ '.' :: digits := by
    rcases hc with hdigit | rfl
    · exact List.mem_cons_of_mem '.' (mem_digits hdigit)
    · exact List.mem_cons_self
  have hc := List.all_eq_true.mp hstart c hmem
  rw [Bool.and_eq_true, bne_iff_ne, bne_iff_ne] at hc
  obtain ⟨hi, hn⟩ := hc
  intro heq
  have hchars := congrArg String.toList heq
  simp only [List.mem_cons, List.not_mem_nil, or_false] at hname
  rcases hname with rfl | rfl | rfl <;> simp [hi, hn] at hchars

theorem float?_number {sign mantissa exponent : List Char} {negative : Bool} {m : ℚ} {e : ℤ}
    (hsign : SignSpells sign negative) (hmantissa : MantissaSpells mantissa m)
    (hexponent : ExponentSpells exponent e) :
    ∃ d : Decimal, Numeral.float? (String.ofList (sign ++ (mantissa ++ exponent))) =
      some (d.round double) ∧ d.negative = negative ∧ d.size = m * 10 ^ e := by
  have hspelled : Spelled (sign ++ (mantissa ++ exponent)) := by
    have hspells := Spells.number hsign hmantissa hexponent .none
    rw [List.append_nil] at hspells
    exact hspells.isLiteral.spelled
  obtain ⟨hstop, hpoint⟩ := hexponent.noDigitNext .none
  have hread := hexponent.exponent? .none
  rw [List.append_nil] at hstop hpoint hread
  obtain ⟨c, p, hcoefficient, hm⟩ := hmantissa.mantissa? hstop hpoint
  have hunderscore : '_' ∉ mantissa ++ exponent := fun hmem =>
    hspelled.underscore_not_mem (List.mem_append_right sign hmem)
  obtain ⟨first, rest, hcons, hfirst⟩ := hmantissa.exists_cons
  have hname : ∀ name ∈ ["inf", "infinity", "nan"],
      String.ofList ((mantissa ++ exponent).map Numeral.lower) ≠ name := by
    intro name hmem
    rw [hcons]
    exact lower_ne_name hfirst (rest ++ exponent) hmem
  refine ⟨⟨negative, c, e - p⟩, ?_, rfl, size_of_parts hm⟩
  rw [Numeral.float?, normalize_of_spelled hspelled, hsign.splitSign (hmantissa.noSignNext exponent)]
  simp only [hname "inf" (by simp), hname "infinity" (by simp), hname "nan" (by simp), or_self,
    if_false, dropUnderscores?_of_not_mem hunderscore, hcoefficient, hread, Option.bind_eq_bind,
    Option.bind_some, List.isEmpty_nil, if_true]

theorem Spells.exists_float? {cs : List Char} {v : Meaning} (h : Spells cs v) :
    ∃ x, Numeral.float? (String.ofList (dropSuffix cs)) = some x ∧ v.RoundsTo double x := by
  cases h with
  | nan hsign => exact ⟨.nan, by cases hsign <;> decide +kernel, rfl⟩
  | infinity hsign => exact ⟨.infinite _, by cases hsign <;> decide +kernel, rfl⟩
  | @number sign mantissa exponent tail negative m e hsign hmantissa hexponent htail =>
    obtain ⟨d, hread, rfl, hsize⟩ := float?_number hsign hmantissa hexponent
    refine ⟨d.round double, ?_, ?_⟩
    · rw [← List.append_assoc mantissa, ← List.append_assoc sign,
        dropSuffix_append (not_isSuffix_getLast? hmantissa hexponent) htail, hread]
    · rw [← hsize]
      exact d.round_spec BinaryFormat.double_bounded

end FloatText

end PreferenceAccessors
