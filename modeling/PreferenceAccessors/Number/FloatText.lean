import PreferenceAccessors.Number.Decimal
import PreferenceAccessors.Text.Blank
import PreferenceAccessors.Text.Quoted

/-!
Float literals as they stand in preference defaults: an optional sign, then
`NaN`, `Infinity`, or a decimal with an optional exponent and an optional
suffix letter f, F, d or D. Digits are ASCII. Blanks around the literal are
dropped. The value is the nearest double of the decimal, narrowed to a float;
so a decimal is rounded twice.
-/

namespace PreferenceAccessors

inductive FloatText
  | nan
  | infinity (negative : Bool)
  | number (value : Decimal)
deriving DecidableEq, Repr

namespace FloatText

def isDigit (c : Char) : Bool :=
  '0' ≤ c && c ≤ '9'

def digitValue (c : Char) : Nat :=
  c.toNat - '0'.toNat

def digitsValue (ds : List Char) : Nat :=
  ds.foldl (fun n c => 10 * n + digitValue c) 0

def splitSign : List Char → Bool × List Char
  | '+' :: rest => (false, rest)
  | '-' :: rest => (true, rest)
  | cs => (false, cs)

/-- Digits with at most one point and at least one digit: coefficient, places after the point, rest. -/
def mantissa? (cs : List Char) : Option (Nat × Nat × List Char) :=
  let whole := cs.takeWhile isDigit
  match cs.dropWhile isDigit with
  | '.' :: rest =>
    let places := rest.takeWhile isDigit
    if whole.isEmpty && places.isEmpty then none
    else some (digitsValue (whole ++ places), places.length, rest.dropWhile isDigit)
  | rest => if whole.isEmpty then none else some (digitsValue whole, 0, rest)

def exponent? : List Char → Option (Int × List Char)
  | c :: cs =>
    if c = 'e' || c = 'E' then
      let (negative, rest) := splitSign cs
      let ds := rest.takeWhile isDigit
      if ds.isEmpty then none
      else some (Binary.signed negative (digitsValue ds), rest.dropWhile isDigit)
    else some (0, c :: cs)
  | [] => some (0, [])

def isSuffix (c : Char) : Bool :=
  c == 'f' || c == 'F' || c == 'd' || c == 'D'

def parse? (cs : List Char) : Option FloatText :=
  let (negative, rest) := splitSign cs
  if rest = ['N', 'a', 'N'] then some nan
  else if rest = ['I', 'n', 'f', 'i', 'n', 'i', 't', 'y'] then some (infinity negative)
  else do
    let (coefficient, places, rest) ← mantissa? rest
    let (exponent, rest) ← exponent? rest
    match rest with
    | [] => some (number ⟨negative, coefficient, exponent - places⟩)
    | [c] =>
      if isSuffix c then some (number ⟨negative, coefficient, exponent - places⟩) else none
    | _ => none

def toDouble : FloatText → Binary
  | nan => .nan
  | infinity negative => .infinite negative
  | number value => value.round double

end FloatText

structure NotFloatLiteral where
  text : String
deriving DecidableEq, Repr

def NotFloatLiteral.message (e : NotFloatLiteral) : String :=
  "Not a float literal: " ++ Text.quoted e.text

def readFloat (s : String) : Except NotFloatLiteral Binary :=
  match FloatText.parse? (Text.trim s.toList) with
  | some t => .ok t.toDouble.narrow
  | none => .error ⟨Text.strip s⟩

end PreferenceAccessors
