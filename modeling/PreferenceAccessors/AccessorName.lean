/-!
Accessor names. A key is cut at every run of characters other than ASCII
letters and digits; the name is the words with their first letters in upper
case, joined.
-/

namespace PreferenceAccessors

namespace AccessorName

def isWordChar (c : Char) : Bool :=
  ('0' ≤ c && c ≤ '9') || ('A' ≤ c && c ≤ 'Z') || ('a' ≤ c && c ≤ 'z')

def upper (c : Char) : Char :=
  if 'a' ≤ c ∧ c ≤ 'z' then Char.ofNat (c.toNat - 32) else c

def words : List Char → List (List Char)
  | [] => []
  | c :: rest =>
    if isWordChar c then
      match rest, words rest with
      | d :: _, word :: others => if isWordChar d then (c :: word) :: others else [c] :: word :: others
      | _, others => [c] :: others
    else words rest

def capitalize : List Char → List Char
  | [] => []
  | c :: rest => upper c :: rest

def ofChars (cs : List Char) : List Char :=
  (words cs).flatMap capitalize

end AccessorName

/-- The accessor name of a key; empty when the key has no ASCII letter or digit. -/
def accessorName (key : String) : String :=
  String.ofList (AccessorName.ofChars key.toList)

end PreferenceAccessors
