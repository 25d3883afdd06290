import Mathlib.Data.List.TakeWhile
import Mathlib.Tactic
import PreferenceAccessors.Proofs.Java.Source

/-!
What a reader makes of the literals that `JavaString` writes. Each escaped
character is taken by itself: it is translated in one piece, since no backslash
is left over at its end, and read as one escape sequence or as itself. So a
literal denotes the text it was written for, and what follows it is read as
though it stood alone.
-/

namespace PreferenceAccessors.Java

@[simp]
theorem unitsOf_nil : unitsOf [] = [] := rfl

@[simp]
theorem unitsOf_cons (c : Char) (cs : List Char) : unitsOf (c :: cs) = utf16 c ++ unitsOf cs :=
  List.flatMap_cons

@[simp]
theorem unitsOf_append (as bs : List Char) : unitsOf (as ++ bs) = unitsOf as ++ unitsOf bs :=
  List.flatMap_append

@[simp]
theorem units_append (s t : String) : units (s ++ t) = units s ++ units t := by
  simp [units]

theorem toNat_of_mem_utf16 {c : Char} {u : CodeUnit} (hu : u ∈ utf16 c) (hlow : u.toNat < 0xD800) :
    c.toNat = u.toNat := by
  unfold utf16 at hu
  split_ifs at hu with h
  · rw [List.mem_singleton.mp hu, BitVec.toNat_ofNat]
    omega
  · have hmax : c.toNat < 0x110000 := by
      rcases c.valid with hv | hv
      · exact lt_trans hv (by decide)
      · exact hv.2
    simp only [List.mem_cons, List.not_mem_nil, or_false] at hu
    rcases hu with rfl | rfl <;> rw [BitVec.toNat_ofNat] at hlow <;> omega

theorem not_mem_units {s : String} {c : Char} {u : CodeUnit} (hu : u.toNat = c.toNat)
    (hlow : u.toNat < 0xD800) (hc : c ∉ s.toList) : u ∉ units s := by
  intro hmem
  obtain ⟨d, hd, hdu⟩ := List.mem_flatMap.mp hmem
  obtain rfl : d = c := Char.toNat_inj.mp ((toNat_of_mem_utf16 hdu hlow).trans hu)
  exact hc hd

structure IsOrdinary (u : CodeUnit) : Prop where
  ne_backslash : u ≠ backslash
  ne_quote : u ≠ quote
  ne_lineFeed : u ≠ lineFeed
  ne_carriageReturn : u ≠ carriageReturn

theorem isOrdinary_of_mem_utf16 {c : Char} (hc : c ∉ ['\\', '"', '\n', '\r']) {u : CodeUnit}
    (hu : u ∈ utf16 c) : IsOrdinary u := by
  have hne : ∀ d ∈ ['\\', '"', '\n', '\r'], u ≠ .ofNat 16 d.toNat := by
    rintro d hd rfl
    have hlow : d.toNat < 0x80 := by
      simp only [List.mem_cons, List.not_mem_nil, or_false] at hd
      rcases hd with rfl | rfl | rfl | rfl <;> decide
    have hvalue : (BitVec.ofNat 16 d.toNat).toNat = d.toNat := by
      rw [BitVec.toNat_ofNat]
      omega
    have heq := toNat_of_mem_utf16 hu (by omega)
    rw [hvalue] at heq
    exact hc (Char.toNat_inj.mp heq ▸ hd)
  exact ⟨hne '\\' (by decide), hne '"' (by decide), hne '\n' (by decide), hne '\r' (by decide)⟩

theorem inputs_cons {u : CodeUnit} (h : u ≠ backslash) (r : List CodeUnit) :
    inputs (u :: r) = ⟨u, r⟩ :: inputs r := by
  simp [inputs, translate, h]

theorem readBody_cons {u : CodeUnit} (h : IsOrdinary u) (r : List CodeUnit) (cs : List Input) :
    readBody .text (⟨u, r⟩ :: cs) = (readBody .text cs).map (.cons u) := by
  simp [readBody, readText, h.ne_backslash, h.ne_quote, h.ne_lineFeed, h.ne_carriageReturn]

def Literal.prepend (us : List CodeUnit) (l : Literal) : Literal :=
  (us ++ l.1, l.2)

/-- What stands in front of a source is translated by itself to `text`, and within a literal it
denotes `value`. -/
def Denotes (front text value : List CodeUnit) : Prop :=
  ∀ r, ∃ is, inputs (front ++ r) = is ++ inputs r ∧ is.map Input.unit = text ∧
    ∀ cs, readBody .text (is ++ cs) = (readBody .text cs).map (.prepend value)

namespace Denotes

theorem nil : Denotes [] [] [] := by
  intro r
  refine ⟨[], rfl, rfl, fun cs => ?_⟩
  rw [List.nil_append]
  cases readBody .text cs <;> rfl

theorem append {f₁ f₂ t₁ t₂ v₁ v₂ : List CodeUnit} (h₁ : Denotes f₁ t₁ v₁) (h₂ : Denotes f₂ t₂ v₂) :
    Denotes (f₁ ++ f₂) (t₁ ++ t₂) (v₁ ++ v₂) := by
  intro r
  obtain ⟨is₁, hin₁, rfl, hread₁⟩ := h₁ (f₂ ++ r)
  obtain ⟨is₂, hin₂, rfl, hread₂⟩ := h₂ r
  refine ⟨is₁ ++ is₂, ?_, List.map_append, fun cs => ?_⟩
  · rw [List.append_assoc, hin₁, hin₂, List.append_assoc]
  · rw [List.append_assoc, hread₁, hread₂, Option.map_map]
    congr 1
    funext l
    simp [Literal.prepend]

theorem of_ordinary {us : List CodeUnit} (h : ∀ u ∈ us, IsOrdinary u) : Denotes us us us := by
  induction us with
  | nil => exact nil
  | cons u us ih =>
    have hu := h u List.mem_cons_self
    have hone : Denotes [u] [u] [u] := fun r =>
      ⟨[⟨u, r⟩], inputs_cons hu.ne_backslash r, rfl, fun cs => readBody_cons hu r cs⟩
    exact hone.append (ih fun w hw => h w (List.mem_cons_of_mem u hw))

end Denotes

def letters : List (Char × Char) :=
  [('\\', '\\'), ('"', '"'), ('\n', 'n'), ('\r', 'r'), ('\t', 't'), ('\x08', 'b'), ('\x0c', 'f')]

theorem denotes_letter {c x : Char} (h : (c, x) ∈ letters) :
    Denotes (unitsOf ['\\', x]) (unitsOf ['\\', x]) (utf16 c) := by
  intro r
  unfold letters at h
  fin_cases h <;> exact ⟨[⟨backslash, _ :: r⟩, ⟨_, r⟩], rfl, rfl, fun cs => rfl⟩

theorem inputs_hex {n : ℕ} (h : n < 0x20) (r : List CodeUnit) :
    inputs (unitsOf ('\\' :: 'u' :: Text.hexDigits 4 n) ++ r) = ⟨.ofNat 16 n, r⟩ :: inputs r := by
  interval_cases n <;> rfl

def backslashesAtEnd (us : List CodeUnit) : ℕ :=
  (us.reverse.takeWhile (· = backslash)).length

/-- What may stand between the quotes of a literal: no line ends in it, every quote in it has an
odd number of backslashes right before it, and it ends with an even number of them. -/
structure IsClosed (us : List CodeUnit) : Prop where
  inside : ∀ i, (h : i < us.length) → us[i] ≠ lineFeed ∧ us[i] ≠ carriageReturn ∧
    (us[i] = quote → Odd (backslashesAtEnd (us.take i)))
  atEnd : Even (backslashesAtEnd us)

theorem even_backslashesAtEnd_append {us vs : List CodeUnit} (h : Even (backslashesAtEnd us)) :
    Even (backslashesAtEnd (us ++ vs)) ↔ Even (backslashesAtEnd vs) := by
  unfold backslashesAtEnd at h ⊢
  rw [List.reverse_append, List.takeWhile_append]
  split_ifs with hall
  · rw [List.length_append, Nat.even_add, hall]
    exact iff_of_eq (by simp [h])
  · rfl

namespace IsClosed

theorem nil : IsClosed [] :=
  ⟨fun i h => absurd h (Nat.not_lt_zero i), by decide⟩

theorem append {us vs : List CodeUnit} (hus : IsClosed us) (hvs : IsClosed vs) :
    IsClosed (us ++ vs) := by
  refine ⟨fun i h => ?_, (even_backslashesAtEnd_append hus.atEnd).mpr hvs.atEnd⟩
  by_cases hi : i < us.length
  · rw [List.getElem_append_left hi, List.take_append_of_le_length hi.le]
    exact hus.inside i hi
  · have hle := not_lt.mp hi
    have hlt : i - us.length < vs.length := by
      rw [List.length_append] at h
      omega
    rw [List.getElem_append_right hle, List.take_append, List.take_of_length_le hle,
      ← Nat.not_even_iff_odd, even_backslashesAtEnd_append hus.atEnd, Nat.not_even_iff_odd]
    exact hvs.inside _ hlt

theorem of_ordinary {us : List CodeUnit} (h : ∀ u ∈ us, IsOrdinary u) : IsClosed us := by
  constructor
  · intro i hi
    have hu := h us[i] (List.getElem_mem hi)
    exact ⟨hu.ne_lineFeed, hu.ne_carriageReturn, fun heq => absurd heq hu.ne_quote⟩
  · have hnone : us.reverse.takeWhile (· = backslash) = [] := by
      rw [List.takeWhile_eq_nil_iff]
      intro hlen
      have hu := h _ (List.mem_reverse.mp (List.get_mem us.reverse ⟨0, hlen⟩))
      simpa using hu.ne_backslash
    rw [backslashesAtEnd, hnone]
    decide

theorem letter {c x : Char} (h : (c, x) ∈ letters) : IsClosed (unitsOf ['\\', x]) := by
  unfold letters at h
  fin_cases h <;> exact ⟨by decide, by decide⟩

theorem hex {n : ℕ} (h : n < 0x20) : IsClosed (unitsOf ('\\' :: 'u' :: Text.hexDigits 4 n)) := by
  interval_cases n <;> exact ⟨by decide, by decide⟩

end IsClosed

theorem escape_cases (c : Char) :
    (∃ x, (c, x) ∈ letters ∧ JavaString.escape c = ['\\', x]) ∨
    (c ∉ ['\\', '"', '\n', '\r'] ∧ (JavaString.escape c = [c] ∨
      c.toNat < 0x20 ∧ JavaString.escape c = '\\' :: 'u' :: Text.hexDigits 4 c.toNat)) := by
  unfold JavaString.escape
  split_ifs <;> simp_all [letters]

theorem exists_denotes_escape (c : Char) :
    ∃ text, Denotes (unitsOf (JavaString.escape c)) text (utf16 c) ∧
      IsClosed (unitsOf (JavaString.escape c)) ∧ IsClosed text := by
  rcases escape_cases c with ⟨x, hx, hescape⟩ | ⟨hc, hescape | ⟨hlow, hescape⟩⟩
  · rw [hescape]
    exact ⟨_, denotes_letter hx, .letter hx, .letter hx⟩
  · have hordinary : ∀ u ∈ utf16 c, IsOrdinary u := fun u hu => isOrdinary_of_mem_utf16 hc hu
    rw [hescape, unitsOf_cons, unitsOf_nil, List.append_nil]
    exact ⟨_, .of_ordinary hordinary, .of_ordinary hordinary, .of_ordinary hordinary⟩
  · have hone : utf16 c = [.ofNat 16 c.toNat] := if_pos (by omega)
    have hordinary : ∀ u ∈ utf16 c, IsOrdinary u := fun u hu => isOrdinary_of_mem_utf16 hc hu
    rw [hescape]
    refine ⟨utf16 c, fun r => ⟨[⟨.ofNat 16 c.toNat, r⟩], inputs_hex hlow r, ?_, fun cs => ?_⟩,
      .hex hlow, .of_ordinary hordinary⟩
    · rw [hone]
      rfl
    · rw [hone] at hordinary ⊢
      exact readBody_cons (hordinary _ List.mem_cons_self) r cs

theorem exists_denotes_escapes (cs : List Char) :
    ∃ text, Denotes (unitsOf (cs.flatMap JavaString.escape)) text (unitsOf cs) ∧
      IsClosed (unitsOf (cs.flatMap JavaString.escape)) ∧ IsClosed text := by
  induction cs with
  | nil => exact ⟨[], .nil, .nil, .nil⟩
  | cons c cs ih =>
    obtain ⟨text, hdenotes, hraw, htext⟩ := exists_denotes_escape c
    obtain ⟨more, hdenotes', hraw', hmore⟩ := ih
    rw [List.flatMap_cons, unitsOf_append, unitsOf_cons]
    exact ⟨text ++ more, hdenotes.append hdenotes', hraw.append hraw', htext.append hmore⟩

theorem units_literal (s : String) :
    units (JavaString.literal s) =
      quote :: (unitsOf (s.toList.flatMap JavaString.escape) ++ [quote]) := by
  rw [units, JavaString.literal, String.toList_ofList, JavaString.literalChars]
  simp only [List.cons_append, unitsOf_cons, unitsOf_append, unitsOf_nil, List.append_nil]
  rfl

/-- A literal is taken as a whole, whatever the source goes on with, and denotes its text. -/
theorem readLiteral_literal_append (s : String) (r : List CodeUnit) :
    readLiteral (units (JavaString.literal s) ++ r) = some (units s, r) := by
  obtain ⟨text, hdenotes, -, -⟩ := exists_denotes_escapes s.toList
  obtain ⟨is, hin, -, hread⟩ := hdenotes (quote :: r)
  have hopen : quote ≠ backslash := by decide
  rw [units_literal, List.cons_append, List.append_assoc, readLiteral, inputs_cons hopen]
  simp only [if_pos]
  rw [List.singleton_append, hin, hread, inputs_cons hopen]
  simp [readBody, readText, Literal.prepend, units]

theorem exists_closed_literal (s : String) :
    ∃ raw text, units (JavaString.literal s) = quote :: (raw ++ [quote]) ∧
      (inputs (units (JavaString.literal s))).map Input.unit = quote :: (text ++ [quote]) ∧
      IsClosed raw ∧ IsClosed text := by
  obtain ⟨text, hdenotes, hraw, htext⟩ := exists_denotes_escapes s.toList
  obtain ⟨is, hin, rfl, -⟩ := hdenotes [quote]
  have hopen : quote ≠ backslash := by decide
  refine ⟨_, is.map Input.unit, units_literal s, ?_, hraw, htext⟩
  rw [units_literal, inputs_cons hopen, hin, inputs_cons hopen, List.map_cons, List.map_append]
  rfl

end PreferenceAccessors.Java
