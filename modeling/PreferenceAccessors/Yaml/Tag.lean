import PreferenceAccessors.Text.Pieces
import PreferenceAccessors.Yaml.Timestamp

/-!
Tags, and the tag that a plain scalar has by its form alone. The forms are
tried in a fixed order; a text of no form is a string. A line feed at the end
does not change the form, but one alone is a string. Merge and value are the
tags of the plain scalars `<<` and `=`, which no value has.
-/

namespace PreferenceAccessors.Yaml

inductive Tag
  | null
  | bool
  | int
  | float
  | timestamp
  | merge
  | value
  | str
  | binary
  | seq
  | map
  | set
  | omap
  | pairs
  | unknown
deriving DecidableEq, Repr

namespace Tag

def coreLeader : String := "tag:yaml.org,2002:"

def core : List (String × Tag) :=
  [("null", null), ("bool", bool), ("int", int), ("float", float), ("timestamp", timestamp),
    ("merge", merge), ("value", value), ("str", str), ("binary", binary),
    ("seq", seq), ("map", map), ("set", set), ("omap", omap), ("pairs", pairs)]

def ofUri (uri : String) : Tag :=
  match core.find? fun e => coreLeader ++ e.1 == uri with
  | some (_, tag) => tag
  | none => unknown

def isDigit (c : Char) : Bool :=
  '0' ≤ c && c ≤ '9'

def isDigitOrLine (c : Char) : Bool :=
  isDigit c || c == '_'

def boolWords : List String :=
  ["yes", "Yes", "YES", "no", "No", "NO", "true", "True", "TRUE", "false", "False", "FALSE",
    "on", "On", "ON", "off", "Off", "OFF"]

def nullWords : List String := ["", "~", "null", "Null", "NULL"]

def dropSign : List Char → List Char
  | c :: rest => if c = '+' ∨ c = '-' then rest else c :: rest
  | [] => []

def isSixtieth : List Char → Bool
  | [a] => isDigit a
  | [a, b] => isDigit a && a ≤ '5' && isDigit b
  | _ => false

def isExponent : List Char → Bool
  | [] => true
  | e :: sign :: ds =>
    (e == 'e' || e == 'E') && (sign == '+' || sign == '-') && !ds.isEmpty && ds.all isDigit
  | _ => false

def startsWithDigit (cs : List Char) : Bool :=
  isDigit (cs.headD ' ')

def isPointed (cs : List Char) : Bool :=
  startsWithDigit cs &&
    match cs.dropWhile isDigitOrLine with
    | '.' :: rest => isExponent (rest.dropWhile isDigitOrLine)
    | _ => false

def isFraction : List Char → Bool
  | '.' :: rest => startsWithDigit rest && isExponent (rest.dropWhile isDigitOrLine)
  | _ => false

def isSexagesimal (cs : List Char) : Bool :=
  match Text.pieces ':' cs with
  | first :: rest =>
    startsWithDigit first && first.all isDigitOrLine && !rest.isEmpty && rest.all isSixtieth
  | [] => false

def isFloat (cs : List Char) : Bool :=
  let unsigned := dropSign cs
  let (whole, rest) := unsigned.span (· != '.')
  isPointed unsigned || isFraction cs ||
    (isSexagesimal whole && !rest.isEmpty && (rest.drop 1).all isDigitOrLine) ||
    [".inf", ".Inf", ".INF"].contains (String.ofList unsigned) ||
    [".nan", ".NaN", ".NAN"].contains (String.ofList cs)

def isHexDigit (c : Char) : Bool :=
  isDigit c || ('a' ≤ c && c ≤ 'f') || ('A' ≤ c && c ≤ 'F')

def isInt (cs : List Char) : Bool :=
  match dropSign cs with
  | ['0'] => true
  | '0' :: 'b' :: ds => !ds.isEmpty && ds.all fun c => c == '0' || c == '1' || c == '_'
  | '0' :: 'x' :: ds => !ds.isEmpty && ds.all fun c => isHexDigit c || c == '_'
  | '0' :: ds => ds.all fun c => ('0' ≤ c && c ≤ '7') || c == '_'
  | unsigned => startsWithDigit unsigned && (unsigned.all isDigitOrLine || isSexagesimal unsigned)

def ofPlain (text : String) : Tag :=
  if text = "\n" then str
  else
    let cs := Text.dropFinalNewline text.toList
    let word := String.ofList cs
    if boolWords.contains word then bool
    else if isFloat cs then float
    else if isInt cs then int
    else if word = "<<" then merge
    else if nullWords.contains word then null
    else if Timestamp.isPlain text.toList then timestamp
    else if word = "=" then value
    else if word = "!" ∨ word = "&" ∨ word = "*" then unknown
    else str

end Tag

end PreferenceAccessors.Yaml
