import PreferenceAccessors.Number.Numeral
import PreferenceAccessors.Text.Base64
import PreferenceAccessors.Yaml.Tag

/-!
The values of scalars, by tag. A garbled text has no form but that of a string,
so under any other tag than that of strings and null it has no value.
-/

namespace PreferenceAccessors.Yaml.Scalar

def withoutLines (text : String) : String :=
  String.ofList (text.toList.filter (· ≠ '_'))

def splitSign? : List Char → Option (Bool × List Char)
  | [] => none
  | c :: rest => some (if c = '-' then (true, rest) else if c = '+' then (false, rest) else (false, c :: rest))

def sexagesimalInt? (text : String) : Option Int := do
  let digits ← (Text.splitAt ':' text).mapM (Numeral.integer? 10)
  some (digits.foldl (fun n d => 60 * n + d) 0)

def int? (text : String) : Option Int := do
  let (negative, cs) ← splitSign? (withoutLines text).toList
  let magnitude ← match cs with
    | [] => none
    | ['0'] => some 0
    | '0' :: 'b' :: ds => Numeral.integer? 2 (String.ofList ds)
    | '0' :: 'x' :: ds => Numeral.integer? 16 (String.ofList ds)
    | '0' :: ds => Numeral.integer? 8 (String.ofList ('0' :: ds))
    | cs =>
      let text := String.ofList cs
      if cs.contains ':' then sexagesimalInt? text else Numeral.integer? 10 text
  some (if negative then -magnitude else magnitude)

/-- Digits to the base sixty are weighed and added from the last one on, each step rounded. -/
def sexagesimalFloat? (text : String) : Option Binary := do
  let digits ← (Text.splitAt ':' text).mapM Numeral.float?
  let (sum, _) ← digits.reverse.foldlM (fun (sum, (weight : Int)) d => do
    some (sum.add (d.mul (← Binary.ofInt? weight)), 60 * weight)) (Binary.finite false 0, 1)
  some sum

def splitFloat? (text : String) : Option (Bool × String) :=
  (splitSign? ((withoutLines text).toList.map Numeral.lower)).map fun (negative, cs) =>
    (negative, String.ofList cs)

/-- Whether a text names NaN. All that do have one NaN in common. -/
def isNaNName (text : String) : Bool :=
  match splitFloat? text with
  | some (_, word) => word == ".nan"
  | none => false

def float? (text : String) : Option Binary := do
  let (negative, word) ← splitFloat? text
  let magnitude ←
    if word = "" then none
    else if word = ".inf" then some (.infinite false)
    else if word = ".nan" then some .nan
    else if word.toList.contains ':' then sexagesimalFloat? word
    else Numeral.float? word
  some (if negative then magnitude.negate else magnitude)

def bool? (text : String) : Option Bool :=
  let word := String.ofList (text.toList.map Numeral.lower)
  if ["yes", "true", "on"].contains word then some true
  else if ["no", "false", "off"].contains word then some false
  else none

def binary? (text : String) : Option ByteArray :=
  let cs := text.toList
  if cs.all fun c => c.toNat < 0x80 then Text.Base64.decode? cs else none

def value? (tag : Tag) (text : String) (garbled : Bool) : Option Value :=
  match tag with
  | .null => some .null
  | .str => some (if garbled then .garbled text else .text text)
  | .bool => (bool? text).map .bool
  | .int => (int? text).map .int
  | .float => (float? text).map .float
  | .binary => (binary? text).map .bytes
  | .timestamp => do (← Timestamp.parse? text.toList).toValue?
  | _ => none

end PreferenceAccessors.Yaml.Scalar
