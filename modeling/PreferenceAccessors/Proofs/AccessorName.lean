import Mathlib
import PreferenceAccessors.AccessorName

/-!
Accessor names in one pass. Of a key only the ASCII letters and digits are kept,
and a kept letter is in upper case exactly when no other kept character stands
right before it. So whatever is not kept separates: the name of a key is made of
the names of its pieces, and a name is its own name. What is left of any key
may follow `get` and `set` in an identifier.
-/

namespace PreferenceAccessors

namespace AccessorName

/-- What a character leaves, by the one before it if there is one. -/
def converted (before : Option Char) (c : Char) : Option Char :=
  if c.isAlphanum then some (if before.any Char.isAlphanum then c else c.toUpper) else none

def onePass (before : Option Char) : List Char → List Char
  | [] => []
  | c :: rest => (converted before c).toList ++ onePass (some c) rest

theorem isWordChar_eq (c : Char) : isWordChar c = c.isAlphanum := by
  simp only [isWordChar, Char.isAlphanum, Char.isAlpha, Char.isUpper, Char.isLower, Char.isDigit,
    Bool.decide_and, ge_iff_le]
  exact (Bool.or_assoc _ _ _).trans (Bool.or_comm _ _)

theorem upper_eq (c : Char) : upper c = c.toUpper := by
  by_cases h : c.isLower
  · rw [Char.toUpper_eq_of_isLower h]
    exact if_pos (by simpa [Char.isLower, Char.le_def] using h)
  · rw [Char.toUpper_eq_of_not_isLower h]
    exact if_neg (by simpa [Char.isLower, Char.le_def] using h)

theorem isAlphanum_toUpper {c : Char} (h : c.isAlphanum) : c.toUpper.isAlphanum := by
  by_cases hlower : c.isLower
  · simp [Char.isAlphanum, Char.isAlpha, hlower]
  · rwa [Char.toUpper_eq_of_not_isLower hlower]

section OnePass
variable {b : Option Char} {c : Char} {cs rest : List Char}

theorem onePass_kept (hc : c.isAlphanum) :
    onePass b (c :: rest) =
      (if b.any Char.isAlphanum then c else c.toUpper) :: onePass (some c) rest := by
  simp [onePass, converted, hc]

theorem onePass_dropped (hc : c.isAlphanum = false) :
    onePass b (c :: rest) = onePass (some c) rest := by
  simp [onePass, converted, hc]

theorem onePass_of_dropped (hb : b.any Char.isAlphanum = false) (cs : List Char) :
    onePass b cs = onePass none cs := by
  cases cs with
  | nil => rfl
  | cons c rest => simp [onePass, converted, hb]

theorem isAlphanum_of_mem_onePass {d : Char} (hd : d ∈ onePass b cs) : d.isAlphanum := by
  induction cs generalizing b with
  | nil => simp [onePass] at hd
  | cons c rest ih =>
    cases hc : c.isAlphanum with
    | false =>
      rw [onePass_dropped hc] at hd
      exact ih hd
    | true =>
      rw [onePass_kept hc] at hd
      rcases List.mem_cons.mp hd with rfl | hd
      · split_ifs
        · exact hc
        · exact isAlphanum_toUpper hc
      · exact ih hd

theorem onePass_eq_nil : onePass b cs = [] ↔ ∀ c ∈ cs, c.isAlphanum = false := by
  induction cs generalizing b with
  | nil => simp [onePass]
  | cons c rest ih =>
    cases hc : c.isAlphanum with
    | false => simp [onePass_dropped hc, hc, ih]
    | true => simp [onePass_kept hc, hc]

theorem onePass_run (hb : b.any Char.isAlphanum) (cs : List Char) :
    onePass b cs =
      cs.takeWhile Char.isAlphanum ++ onePass none (cs.dropWhile Char.isAlphanum) := by
  induction cs generalizing b with
  | nil => rfl
  | cons c rest ih =>
    cases hc : c.isAlphanum with
    | false => simp [hc, onePass_dropped hc]
    | true => simp [hc, onePass_kept hc, hb, ih (b := some c) hc]

theorem onePass_separator_append {s : List Char} (hne : s ≠ [])
    (hs : ∀ c ∈ s, c.isAlphanum = false) (cs : List Char) :
    onePass b (s ++ cs) = onePass none cs := by
  induction s generalizing b with
  | nil => exact absurd rfl hne
  | cons c s ih =>
    obtain ⟨hc, hs⟩ := List.forall_mem_cons.mp hs
    rw [List.cons_append, onePass_dropped hc]
    cases s with
    | nil => exact onePass_of_dropped (b := some c) hc cs
    | cons d s => exact ih (List.cons_ne_nil d s) hs

theorem onePass_append_separator {s : List Char} (hne : s ≠ [])
    (hs : ∀ c ∈ s, c.isAlphanum = false) (as bs : List Char) :
    onePass b (as ++ (s ++ bs)) = onePass b as ++ onePass none bs := by
  induction as generalizing b with
  | nil => exact onePass_separator_append hne hs bs
  | cons c as ih => rw [List.cons_append, onePass, onePass, ih, List.append_assoc]

theorem toUpper_head_onePass {d : Char} (hb : b.any Char.isAlphanum = false)
    (hd : (onePass b cs).head? = some d) : d.toUpper = d := by
  induction cs generalizing b with
  | nil => simp [onePass] at hd
  | cons c rest ih =>
    cases hc : c.isAlphanum with
    | false =>
      rw [onePass_dropped hc] at hd
      exact ih (b := some c) hc hd
    | true =>
      rw [onePass_kept hc, hb] at hd
      obtain rfl : c.toUpper = d := by simpa using hd
      exact Char.toUpper_toUpper_eq_toUpper c

theorem onePass_onePass (cs : List Char) : onePass none (onePass none cs) = onePass none cs := by
  have hkept : ∀ d ∈ onePass none cs, d.isAlphanum := fun d => isAlphanum_of_mem_onePass
  cases hout : onePass none cs with
  | nil => rfl
  | cons d rest =>
    have hupper : d.toUpper = d := toUpper_head_onePass (b := none) rfl (by rw [hout]; rfl)
    rw [hout] at hkept
    obtain ⟨hd, hrest⟩ := List.forall_mem_cons.mp hkept
    have htake : rest.takeWhile Char.isAlphanum = rest := List.takeWhile_eq_self_iff.mpr hrest
    have hdrop : rest.dropWhile Char.isAlphanum = [] := List.dropWhile_eq_nil_iff.mpr hrest
    rw [onePass_kept hd, onePass_run (b := some d) hd, htake, hdrop]
    simp [onePass, hupper]

theorem onePass_word {before w after : List Char} (hbefore : ∀ d ∈ before, d.isAlphanum = false)
    (hc : c.isAlphanum) (hw : ∀ d ∈ w, d.isAlphanum) (hafter : ∀ d ∈ after, d.isAlphanum = false) :
    onePass none (before ++ c :: (w ++ after)) = c.toUpper :: w := by
  induction before with
  | nil =>
    have htake : after.takeWhile Char.isAlphanum = [] := by
      cases after with
      | nil => rfl
      | cons d after => exact List.takeWhile_cons_of_neg (by simp [hafter d])
    have hrest : onePass none (after.dropWhile Char.isAlphanum) = [] :=
      onePass_eq_nil.mpr fun d hd => hafter d (List.dropWhile_sublist _ |>.mem hd)
    rw [List.nil_append, onePass_kept hc, onePass_run (b := some c) hc,
      List.takeWhile_append_of_pos hw, List.dropWhile_append_of_pos hw, htake, hrest]
    simp
  | cons d before ih =>
    obtain ⟨hd, hbefore⟩ := List.forall_mem_cons.mp hbefore
    rw [List.cons_append, onePass_dropped hd, onePass_of_dropped (b := some d) hd, ih hbefore]

theorem onePass_eq_cons_iff {u : Char} {w : List Char}
    (hw : ∀ d ∈ w, d.isAlphanum ∧ d.toUpper ≠ d) :
    onePass none cs = u :: w ↔
      ∃ before c after, cs = before ++ c :: (w ++ after) ∧ c.isAlphanum ∧ c.toUpper = u ∧
        (∀ d ∈ before, d.isAlphanum = false) ∧ ∀ d ∈ after, d.isAlphanum = false := by
  constructor
  · intro h
    induction cs with
    | nil => simp [onePass] at h
    | cons c rest ih =>
      cases hc : c.isAlphanum with
      | false =>
        rw [onePass_dropped hc, onePass_of_dropped (b := some c) hc] at h
        obtain ⟨before, d, after, rfl, hd, hu, hbefore, hafter⟩ := ih h
        exact ⟨c :: before, d, after, rfl, hd, hu, List.forall_mem_cons.mpr ⟨hc, hbefore⟩, hafter⟩
      | true =>
        rw [onePass_kept hc, onePass_run (b := some c) hc] at h
        obtain ⟨hu, hrest⟩ := List.cons.inj h
        -- A second word would put another upper-case letter into `w`.
        have hone : onePass none (rest.dropWhile Char.isAlphanum) = [] := by
          cases hmore : onePass none (rest.dropWhile Char.isAlphanum) with
          | nil => rfl
          | cons d more =>
            have hupper : d.toUpper = d :=
              toUpper_head_onePass (b := none) rfl (by rw [hmore]; rfl)
            have hmem : d ∈ w := by
              rw [← hrest, hmore]
              exact List.mem_append_right _ List.mem_cons_self
            exact absurd hupper (hw d hmem).2
        rw [hone, List.append_nil] at hrest
        refine ⟨[], c, rest.dropWhile Char.isAlphanum, ?_, hc, hu, fun _ hd => ?_,
          onePass_eq_nil.mp hone⟩
        · rw [← hrest, List.takeWhile_append_dropWhile, List.nil_append]
        · exact absurd hd List.not_mem_nil
  · rintro ⟨before, c, after, rfl, hc, rfl, hbefore, hafter⟩
    exact onePass_word hbefore hc (fun d hd => (hw d hd).1) hafter

end OnePass

theorem words_of_not_isWordChar {c : Char} (hc : isWordChar c = false) (rest : List Char) :
    words (c :: rest) = words rest := by
  conv_lhs => unfold words
  rw [hc]
  rfl

theorem words_of_isWordChar {c : Char} (hc : isWordChar c) (rest : List Char) :
    words (c :: rest) = (c :: rest.takeWhile isWordChar) :: words (rest.dropWhile isWordChar) := by
  induction rest generalizing c with
  | nil => simp [words, hc]
  | cons d rest ih =>
    conv_lhs => unfold words
    rw [if_pos hc]
    cases hd : isWordChar d with
    | true => simp [ih hd, hd]
    | false =>
      rw [List.takeWhile_cons_of_neg (by simp [hd]), List.dropWhile_cons_of_neg (by simp [hd]),
        words_of_not_isWordChar hd]
      cases words rest <;> simp [hd]

/-- Cutting into words and joining them again is the one pass. -/
theorem ofChars_eq_onePass : (cs : List Char) → ofChars cs = onePass none cs
  | [] => rfl
  | c :: rest => by
    cases hc : c.isAlphanum with
    | false =>
      rw [ofChars, words_of_not_isWordChar ((isWordChar_eq c).trans hc), onePass_dropped hc,
        onePass_of_dropped (b := some c) hc]
      exact ofChars_eq_onePass rest
    | true =>
      have hpass := ofChars_eq_onePass (rest.dropWhile Char.isAlphanum)
      rw [ofChars, words_of_isWordChar ((isWordChar_eq c).trans hc), funext isWordChar_eq,
        List.flatMap_cons, capitalize, upper_eq, onePass_kept hc, onePass_run (b := some c) hc,
        ← hpass]
      rfl
termination_by cs => cs.length
decreasing_by
  · exact Nat.lt_succ_self _
  · exact Nat.lt_succ_of_le (List.length_dropWhile_le _ _)

end AccessorName

namespace Java

def reservedWords : List String :=
  ["abstract", "assert", "boolean", "break", "byte", "case", "catch", "char", "class", "const",
    "continue", "default", "do", "double", "else", "enum", "extends", "final", "finally", "float",
    "for", "goto", "if", "implements", "import", "instanceof", "int", "interface", "long",
    "native", "new", "package", "private", "protected", "public", "return", "short", "static",
    "strictfp", "super", "switch", "synchronized", "this", "throw", "throws", "transient", "try",
    "void", "volatile", "while", "_", "true", "false", "null"]

def IsLetter (c : Char) : Prop := c.isAlpha ∨ c = '_' ∨ c = '$'

/-- An identifier: a letter, letters and digits behind it, and no reserved word. -/
structure IsIdentifier (s : String) : Prop where
  spelled : ∃ c rest, s.toList = c :: rest ∧ IsLetter c ∧ ∀ d ∈ rest, IsLetter d ∨ d.isDigit
  unreserved : s ∉ reservedWords

theorem isIdentifier_append {front s : String} (hs : ∀ c ∈ s.toList, c.isAlphanum)
    (hfront : front ∈ ["get", "set"]) : IsIdentifier (front ++ s) := by
  have hspelled : ∃ c rest, front.toList = c :: rest ∧ IsLetter c ∧
      ∀ d ∈ rest, IsLetter d ∨ d.isDigit := by
    simp only [List.mem_cons, List.not_mem_nil, or_false] at hfront
    rcases hfront with rfl | rfl
    · exact ⟨'g', ['e', 't'], rfl, .inl (by decide), by simp [IsLetter]⟩
    · exact ⟨'s', ['e', 't'], rfl, .inl (by decide), by simp [IsLetter]⟩
  have hreserved : ∀ front ∈ ["get", "set"], ∀ word ∈ reservedWords,
      ¬ front.toList <+: word.toList := by decide +kernel
  obtain ⟨c, rest, hchars, hc, hrest⟩ := hspelled
  constructor
  · refine ⟨c, rest ++ s.toList, by rw [String.toList_append, hchars]; rfl, hc, fun d hd => ?_⟩
    rcases List.mem_append.mp hd with hd | hd
    · exact hrest d hd
    · have hkept := hs d hd
      rw [Char.isAlphanum, Bool.or_eq_true] at hkept
      exact hkept.imp_left .inl
  · intro hword
    apply hreserved front hfront _ hword
    rw [String.toList_append]
    exact List.prefix_append _ _

end Java

open AccessorName

theorem toList_accessorName (key : String) :
    (accessorName key).toList = onePass none key.toList := by
  rw [accessorName, String.toList_ofList, ofChars_eq_onePass]

theorem isAlphanum_of_mem_accessorName {key : String} {c : Char}
    (h : c ∈ (accessorName key).toList) : c.isAlphanum := by
  rw [toList_accessorName] at h
  exact isAlphanum_of_mem_onePass h

/-- The name of a key is what one pass leaves of it. A separator divides a key and is gone, a name
is its own name, only a key without ASCII letters and digits has the empty one, and the names of
the accessors are identifiers. -/
theorem accessorName_onePass :
    (∀ key, accessorName key = String.ofList (onePass none key.toList)) ∧
    (∀ a s b : String, s ≠ "" → (∀ c ∈ s.toList, c.isAlphanum = false) →
      accessorName (a ++ s ++ b) = accessorName a ++ accessorName b) ∧
    (∀ key, accessorName (accessorName key) = accessorName key) ∧
    (∀ key, accessorName key = "" ↔ ∀ c ∈ key.toList, c.isAlphanum = false) ∧
    ∀ key, Java.IsIdentifier ("get" ++ accessorName key) ∧
      Java.IsIdentifier ("set" ++ accessorName key) := by
  refine ⟨fun key => ?_, fun a s b hne hs => ?_, fun key => ?_, fun key => ?_, fun key => ?_⟩
  · rw [← toList_accessorName, String.ofList_toList]
  · have hchars : s.toList ≠ [] := fun h => hne (String.toList_eq_nil_iff.mp h)
    simp only [← String.toList_inj, String.toList_append, toList_accessorName, List.append_assoc,
      onePass_append_separator hchars hs]
  · simp only [← String.toList_inj, toList_accessorName, onePass_onePass]
  · rw [← String.toList_eq_nil_iff, toList_accessorName, onePass_eq_nil]
  · have hkept : ∀ c ∈ (accessorName key).toList, c.isAlphanum :=
      fun _ => isAlphanum_of_mem_accessorName
    exact ⟨Java.isIdentifier_append hkept (by simp), Java.isIdentifier_append hkept (by simp)⟩

theorem accessorName_onePass_mixed :
    " \u00e9-" ≠ "" ∧ (∀ c ∈ " \u00e9-".toList, c.isAlphanum = false) ∧
      accessorName ("ui.2nd" ++ " \u00e9-" ++ "x_Y") = "Ui2nd" ++ "XY" := by
  have hseparates : ∀ c ∈ " \u00e9-".toList, c.isAlphanum = false := by simp
  have hparts := accessorName_onePass.2.1 "ui.2nd" " \u00e9-" "x_Y" (by decide) hseparates
  have hleft : accessorName "ui.2nd" = "Ui2nd" := by decide
  have hright : accessorName "x_Y" = "XY" := by decide
  rw [hleft, hright] at hparts
  exact ⟨by decide, hseparates, hparts⟩

end PreferenceAccessors
