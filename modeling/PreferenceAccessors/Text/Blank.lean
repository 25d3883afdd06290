/-!
Blank characters and trimming. Blank means: the tab-to-return controls, the
four information separators, the space, the next-line control and the Unicode
space, line and paragraph separators. The zero-width space, the byte order mark
and U+180E are not blank.
-/

namespace PreferenceAccessors.Text

def isBlank (c : Char) : Bool :=
  let n := c.toNat
  (9 ≤ n && n ≤ 13) || (28 ≤ n && n ≤ 32) || n == 0x85 || n == 0xA0 || n == 0x1680 ||
    (0x2000 ≤ n && n ≤ 0x200A) || n == 0x2028 || n == 0x2029 || n == 0x202F ||
    n == 0x205F || n == 0x3000

def dropEndWhile {α : Type} (p : α → Bool) (xs : List α) : List α :=
  xs.foldr (fun x rest => if p x && rest.isEmpty then [] else x :: rest) []

theorem dropEndWhile_nil {α : Type} (p : α → Bool) : dropEndWhile p [] = [] := rfl

theorem dropEndWhile_cons {α : Type} (p : α → Bool) (x : α) (xs : List α) :
    dropEndWhile p (x :: xs) =
      if p x && (dropEndWhile p xs).isEmpty then [] else x :: dropEndWhile p xs := rfl

theorem dropEndWhile_append_of_all {α : Type} (p : α → Bool) (xs ys : List α)
    (h : ys.all p = true) : dropEndWhile p (xs ++ ys) = dropEndWhile p xs := by
  induction xs with
  | nil =>
    induction ys with
    | nil => rfl
    | cons y ys ih =>
      simp only [List.all_cons, Bool.and_eq_true] at h
      have := ih h.2
      simp only [List.nil_append, dropEndWhile_nil] at this ⊢
      simp [dropEndWhile_cons, h.1, this]
  | cons x xs ih => simp [dropEndWhile_cons, ih]

def trim (cs : List Char) : List Char :=
  dropEndWhile isBlank (cs.dropWhile isBlank)

def strip (s : String) : String :=
  String.ofList (trim s.toList)

def isBlankText (s : String) : Bool :=
  s.toList.all isBlank

end PreferenceAccessors.Text
