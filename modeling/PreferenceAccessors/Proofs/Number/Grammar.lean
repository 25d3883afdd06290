import Mathlib.Data.List.TakeWhile
import PreferenceAccessors.Proofs.Number.Spelling

/-!
The grammar of float literals: an optional sign, then a name or a number, and a
number is digits with at most one point, an optional exponent and an optional
suffix letter. What the reader takes belongs to it, and nothing in it is blank,
so a literal loses nothing when blanks around it are dropped.
-/

namespace PreferenceAccessors

namespace FloatText

inductive IsSign : List Char → Prop
  | none : IsSign []
  | plus : IsSign ['+']
  | minus : IsSign ['-']

inductive IsMantissa : List Char → Prop
  | whole {ds : List Char} (h : AllDigits ds) (hne : ds ≠ []) : IsMantissa ds
  | pointed {ds places : List Char} (h : AllDigits ds) (hne : ds ≠ [])
      (hplaces : AllDigits places) : IsMantissa (ds ++ '.' :: places)
  | fraction {places : List Char} (h : AllDigits places) (hne : places ≠ []) :
      IsMantissa ('.' :: places)

inductive IsExponent : List Char → Prop
  | none : IsExponent []
  | marked {c : Char} {sign ds : List Char} (hc : c = 'e' ∨ c = 'E') (hsign : IsSign sign)
      (h : AllDigits ds) (hne : ds ≠ []) : IsExponent (c :: (sign ++ ds))

/-- A float literal, by its spelling alone. -/
inductive IsLiteral : List Char → Prop
  | nan {sign : List Char} (hsign : IsSign sign) : IsLiteral (sign ++ ['N', 'a', 'N'])
  | infinity {sign : List Char} (hsign : IsSign sign) :
      IsLiteral (sign ++ ['I', 'n', 'f', 'i', 'n', 'i', 't', 'y'])
  | number {sign mantissa exponent tail : List Char} (hsign : IsSign sign)
      (hmantissa : IsMantissa mantissa) (hexponent : IsExponent exponent) (htail : IsTail tail) :
      IsLiteral (sign ++ (mantissa ++ (exponent ++ tail)))

theorem exists_sign (cs : List Char) :
    ∃ sign, IsSign sign ∧ cs = sign ++ (splitSign cs).2 := by
  unfold splitSign
  split
  · exact ⟨['+'], .plus, rfl⟩
  · exact ⟨['-'], .minus, rfl⟩
  · exact ⟨[], .none, rfl⟩

theorem allDigits_takeWhile (cs : List Char) : AllDigits (cs.takeWhile isDigit) :=
  fun _ hc => List.mem_takeWhile_imp hc

theorem exists_mantissa {cs rest : List Char} {c p : ℕ} (h : mantissa? cs = some (c, p, rest)) :
    ∃ mantissa, IsMantissa mantissa ∧ cs = mantissa ++ rest := by
  have hcut := List.takeWhile_append_dropWhile (p := isDigit) (l := cs)
  have hwhole := allDigits_takeWhile cs
  unfold mantissa? at h
  simp only at h
  split at h
  case h_1 after hdrop =>
    have hplaces := allDigits_takeWhile after
    have hafter := List.takeWhile_append_dropWhile (p := isDigit) (l := after)
    rw [hdrop] at hcut
    split_ifs at h with hempty
    simp only [Option.some.injEq, Prod.mk.injEq] at h
    obtain ⟨-, -, rfl⟩ := h
    by_cases hne : cs.takeWhile isDigit = []
    · refine ⟨'.' :: after.takeWhile isDigit, .fraction hplaces ?_, ?_⟩
      · simpa [hne] using hempty
      · rw [List.cons_append, hafter, ← hcut, hne]
        rfl
    · refine ⟨cs.takeWhile isDigit ++ '.' :: after.takeWhile isDigit,
        .pointed hwhole hne hplaces, ?_⟩
      rw [List.append_assoc, List.cons_append, hafter, hcut]
  case h_2 =>
    split_ifs at h with hempty
    simp only [Option.some.injEq, Prod.mk.injEq] at h
    obtain ⟨-, -, rfl⟩ := h
    exact ⟨cs.takeWhile isDigit, .whole hwhole (by simpa using hempty), hcut.symm⟩

theorem exists_exponent {cs rest : List Char} {e : ℤ} (h : exponent? cs = some (e, rest)) :
    ∃ exponent, IsExponent exponent ∧ cs = exponent ++ rest := by
  cases cs with
  | nil =>
    obtain ⟨-, rfl⟩ : 0 = e ∧ [] = rest := by simpa [exponent?] using h
    exact ⟨[], .none, rfl⟩
  | cons c cs =>
    simp only [exponent?, Bool.or_eq_true, decide_eq_true_eq] at h
    split_ifs at h with hc hempty
    · obtain ⟨sign, hsign, hcs⟩ := exists_sign cs
      have hcut := List.takeWhile_append_dropWhile (p := isDigit) (l := (splitSign cs).2)
      simp only [Option.some.injEq, Prod.mk.injEq] at h
      obtain ⟨-, rfl⟩ := h
      refine ⟨_, .marked hc hsign (allDigits_takeWhile (splitSign cs).2) (by simpa using hempty), ?_⟩
      rw [List.cons_append, List.append_assoc, hcut, ← hcs]
    · obtain ⟨-, rfl⟩ : 0 = e ∧ c :: cs = rest := by simpa using h
      exact ⟨[], .none, rfl⟩

theorem isLiteral_of_parse? {cs : List Char} {t : FloatText} (h : parse? cs = some t) :
    IsLiteral cs := by
  obtain ⟨sign, hsign, hcs⟩ := exists_sign cs
  rw [hcs]
  unfold parse? at h
  simp only at h
  split_ifs at h with hnan hinf
  · rw [hnan]
    exact .nan hsign
  · rw [hinf]
    exact .infinity hsign
  · obtain ⟨⟨c, p, rest⟩, hm, h⟩ := Option.bind_eq_some_iff.mp h
    obtain ⟨⟨e, tail⟩, he, h⟩ := Option.bind_eq_some_iff.mp h
    obtain ⟨mantissa, hmantissa, hbody⟩ := exists_mantissa hm
    obtain ⟨exponent, hexponent, hrest⟩ : ∃ exponent, IsExponent exponent ∧
        rest = exponent ++ tail := exists_exponent he
    have htail : IsTail tail := by
      simp only at h
      split at h
      · exact .none
      · split_ifs at h with hsuffix
        exact .suffix hsuffix
      · exact nomatch h
    rw [hbody, hrest]
    exact .number hsign hmantissa hexponent htail

def letters : List Char :=
  ['+', '-', '.', 'e', 'E', 'f', 'F', 'd', 'D', 'N', 'a', 'I', 'n', 'i', 't', 'y']

def Spelled (cs : List Char) : Prop := ∀ c ∈ cs, isDigit c ∨ c ∈ letters

theorem Spelled.append {as bs : List Char} (ha : Spelled as) (hb : Spelled bs) :
    Spelled (as ++ bs) := by
  intro c hc
  rcases List.mem_append.mp hc with h | h
  · exact ha c h
  · exact hb c h

theorem spelled_of_letters {cs : List Char} (h : cs ⊆ letters) : Spelled cs :=
  fun _ hc => .inr (h hc)

theorem AllDigits.spelled {ds : List Char} (h : AllDigits ds) : Spelled ds :=
  fun c hc => .inl (h c hc)

theorem IsSign.spelled {sign : List Char} (h : IsSign sign) : Spelled sign := by
  refine spelled_of_letters ?_
  cases h <;> decide

theorem IsMantissa.spelled {cs : List Char} (h : IsMantissa cs) : Spelled cs := by
  have hpoint : Spelled ['.'] := spelled_of_letters (by decide)
  cases h with
  | whole h => exact h.spelled
  | pointed h _ hplaces => exact h.spelled.append (hpoint.append hplaces.spelled)
  | fraction h => exact hpoint.append h.spelled

theorem IsExponent.spelled {cs : List Char} (h : IsExponent cs) : Spelled cs := by
  cases h with
  | none => exact spelled_of_letters (by decide)
  | @marked c _ _ hc hsign h =>
    have hmark : Spelled [c] := spelled_of_letters (by rcases hc with rfl | rfl <;> decide)
    exact hmark.append (hsign.spelled.append h.spelled)

theorem IsTail.spelled {tail : List Char} (h : IsTail tail) : Spelled tail := by
  refine spelled_of_letters ?_
  cases h with
  | none => decide
  | suffix h => rcases suffix_cases h with rfl | rfl | rfl | rfl <;> decide

theorem IsLiteral.spelled {cs : List Char} (h : IsLiteral cs) : Spelled cs := by
  cases h with
  | nan hsign => exact hsign.spelled.append (spelled_of_letters (by decide))
  | infinity hsign => exact hsign.spelled.append (spelled_of_letters (by decide))
  | number hsign hmantissa hexponent htail =>
    exact hsign.spelled.append (hmantissa.spelled.append (hexponent.spelled.append htail.spelled))

theorem toNat_of_isDigit {c : Char} (h : isDigit c) : 48 ≤ c.toNat ∧ c.toNat ≤ 57 := by
  simp only [isDigit, Bool.and_eq_true, decide_eq_true_eq, Char.le_def, UInt32.le_iff_toNat_le]
    at h
  exact h

theorem Spelled.not_isBlank {cs : List Char} (h : Spelled cs) :
    ∀ c ∈ cs, Text.isBlank c = false := by
  intro c hc
  rcases h c hc with hdigit | hletter
  · have hrange := toNat_of_isDigit hdigit
    simp only [Text.isBlank, Bool.or_eq_false_iff, Bool.and_eq_false_iff,
      decide_eq_false_iff_not, beq_eq_false_iff_ne]
    omega
  · have hletters : letters.all (!Text.isBlank ·) := by decide
    simpa using List.all_eq_true.mp hletters c hletter

theorem dropEnds_of_not {p : Char → Bool} {cs : List Char} (h : ∀ c ∈ cs, p c = false) :
    Text.dropEndWhile p (cs.dropWhile p) = cs := by
  have hback : Text.dropEndWhile p cs = cs := by
    induction cs with
    | nil => rfl
    | cons c rest ih =>
      rw [Text.dropEndWhile_cons, h c List.mem_cons_self, Bool.false_and,
        if_neg Bool.false_ne_true, ih fun d hd => h d (List.mem_cons_of_mem c hd)]
  have hfront : cs.dropWhile p = cs := by
    cases cs with
    | nil => rfl
    | cons c rest => simp [h c List.mem_cons_self]
  rw [hfront, hback]

theorem readFloat_of_parse? {s : String} {t : FloatText} (h : parse? s.toList = some t) :
    readFloat s = .ok t.toDouble.narrow := by
  rw [readFloat, Text.trim, dropEnds_of_not (isLiteral_of_parse? h).spelled.not_isBlank, h]

end FloatText

end PreferenceAccessors
