import PreferenceAccessors.Number.FloatText
import PreferenceAccessors.Text.Digit

/-!
Numbers in free text, as a conversion from text to a number reads them: blanks
around them are dropped (but not the information separators), digits may be of
any script, and single underscores may stand between digits. An integer may
carry the marker of its base when the base is 2, 8 or 16; a decimal integer has
at most 4300 digits.
-/

namespace PreferenceAccessors.Numeral

def isSpace (c : Char) : Bool :=
  Text.isBlank c && !(28 ≤ c.toNat && c.toNat ≤ 31)

def normalize (s : String) : List Char :=
  (Text.dropEndWhile isSpace (s.toList.dropWhile isSpace)).map Text.asciiDigit

def digit? (base : Nat) (c : Char) : Option Nat :=
  let value :=
    if FloatText.isDigit c then some (FloatText.digitValue c)
    else if 'a' ≤ c ∧ c ≤ 'z' then some (c.toNat - 'a'.toNat + 10)
    else if 'A' ≤ c ∧ c ≤ 'Z' then some (c.toNat - 'A'.toNat + 10)
    else none
  value.filter (· < base)

def dropUnderscores? (isDigit : Char → Bool) : List Char → Option (List Char)
  | a :: '_' :: b :: rest =>
    if isDigit a && isDigit b then (dropUnderscores? isDigit (b :: rest)).map (a :: ·) else none
  | '_' :: _ => none
  | [_, '_'] => none
  | c :: rest => (dropUnderscores? isDigit rest).map (c :: ·)
  | [] => some []

inductive IntegerFault
  | malformed
  | tooLong (digits : Nat)
deriving DecidableEq, Repr

def digitLimit : Nat := 4300

/-- How the limit is told: with the digits of a text that was read, and without any where an integer
was to be written. -/
def limitMessage (count : Option Nat) : String :=
  "Exceeds the limit (" ++ toString digitLimit ++ " digits) for integer string conversion" ++
    (match count with
    | none => ""
    | some n => ": value has " ++ toString n ++ " digits") ++
    "; use sys.set_int_max_str_digits() to increase the limit"

/-- The value of digits. Their number is looked at before what follows them. -/
def readDigits (base : Nat) (cs : List Char) : Except IntegerFault Nat :=
  let (run, rest) := cs.span fun c => (digit? base c).isSome || c == '_'
  match dropUnderscores? (fun c => (digit? base c).isSome) run with
  | none => .error .malformed
  | some ds =>
    if base = 10 ∧ digitLimit < ds.length then .error (.tooLong ds.length)
    else if ds.isEmpty || !rest.isEmpty then .error .malformed
    else .ok (ds.foldl (fun n c => base * n + (digit? base c).getD 0) 0)

def dropMarker (base : Nat) : List Char → List Char
  | '0' :: c :: rest =>
    let marked := match base with
      | 2 => c == 'b' || c == 'B'
      | 8 => c == 'o' || c == 'O'
      | 16 => c == 'x' || c == 'X'
      | _ => false
    if marked then (if rest.head? = some '_' then rest.drop 1 else rest) else '0' :: c :: rest
  | cs => cs

def readInteger (base : Nat) (s : String) : Except IntegerFault Int :=
  let (negative, rest) := FloatText.splitSign (normalize s)
  (readDigits base (dropMarker base rest)).map (Binary.signed negative)

def integer? (base : Nat) (s : String) : Option Int :=
  (readInteger base s).toOption

def lower (c : Char) : Char :=
  if 'A' ≤ c ∧ c ≤ 'Z' then Char.ofNat (c.toNat + 32) else c

def float? (s : String) : Option Binary := do
  let (negative, rest) := FloatText.splitSign (normalize s)
  let name := String.ofList (rest.map lower)
  if name = "inf" ∨ name = "infinity" then some (.infinite negative)
  else if name = "nan" then some .nan
  else
    let rest ← dropUnderscores? FloatText.isDigit rest
    let (coefficient, places, rest) ← FloatText.mantissa? rest
    let (exponent, rest) ← FloatText.exponent? rest
    if rest.isEmpty then
      some ((⟨negative, coefficient, exponent - places⟩ : Decimal).round double)
    else none

end PreferenceAccessors.Numeral
