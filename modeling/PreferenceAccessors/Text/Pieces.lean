/-!
Cutting a text at every occurrence of a separator. There is always one piece
more than there are separators, so an empty text has one empty piece.
-/

namespace PreferenceAccessors.Text

def pieces (separator : Char) : List Char → List (List Char)
  | [] => [[]]
  | c :: rest =>
    if c = separator then [] :: pieces separator rest
    else match pieces separator rest with
      | [] => [[c]]
      | piece :: others => (c :: piece) :: others

theorem pieces_ne_nil (separator : Char) (cs : List Char) : pieces separator cs ≠ [] := by
  cases cs with
  | nil => simp [pieces]
  | cons c rest =>
    simp only [pieces]
    split
    · simp
    · split <;> simp

theorem intercalate_pieces (separator : Char) (cs : List Char) :
    [separator].intercalate (pieces separator cs) = cs := by
  induction cs with
  | nil => simp [pieces, List.intercalate]
  | cons c rest ih =>
    simp only [pieces]
    cases hp : pieces separator rest with
    | nil => exact absurd hp (pieces_ne_nil separator rest)
    | cons piece others =>
      rw [hp] at ih
      by_cases h : c = separator
      · subst h
        simp only [if_true]
        cases others <;> simp_all [List.intercalate, List.intersperse]
      · simp only [h, if_false]
        cases others <;> simp_all [List.intercalate, List.intersperse]

def splitAt (separator : Char) (s : String) : List String :=
  (pieces separator s.toList).map String.ofList

end PreferenceAccessors.Text
