import PreferenceAccessors.JavaString
import PreferenceAccessors.Kind
import PreferenceAccessors.Number.Numeral
import PreferenceAccessors.Value

/-!
Java literals of default values. A float is narrowed and then written with the
first digit count from one to nine that reads back as the same float; reading
rounds to a double and narrows. An integer literal takes the whole part of a
float. Numbers are also read from texts and bytes. A boolean literal takes the
truth of any value, a string literal the text of any value that can be written.
-/

namespace PreferenceAccessors

inductive LiteralError
  | nanToInteger
  | infinityToInteger
  | integerTooLarge
  | integerTooLong
  | noInteger (shown : String)
  | tooManyDigits (count : Nat)
  | noFloat (shown : String)
  | notNumeric (kind : Kind) (shape : String)
deriving DecidableEq, Repr

namespace LiteralError

def shownLength : Nat := 200

def message : LiteralError → String
  | nanToInteger => "cannot convert float NaN to integer"
  | infinityToInteger => "cannot convert float infinity to integer"
  | integerTooLarge => "int too large to convert to float"
  | integerTooLong => Numeral.limitMessage none
  | noInteger shown =>
    "invalid literal for int() with base 10: " ++ String.ofList (shown.toList.take shownLength)
  | tooManyDigits count => Numeral.limitMessage (some count)
  | noFloat shown => "could not convert string to float: " ++ shown
  | notNumeric .float shape =>
    "float() argument must be a string or a real number, not '" ++ shape ++ "'"
  | notNumeric _ shape =>
    "int() argument must be a string, a bytes-like object or a real number, not '" ++ shape ++ "'"

end LiteralError

namespace Value

def shape : Value → String
  | null => "NoneType"
  | bool _ => "bool"
  | int _ => "int"
  | float _ => "float"
  | text _ => "str"
  | garbled _ => "str"
  | bytes _ => "bytes"
  | date _ => "datetime.date"
  | moment _ => "datetime.datetime"
  | pair _ _ => "tuple"
  | list _ => "list"
  | set _ => "set"
  | map _ => "dict"
  | itself isMapping => if isMapping then "dict" else "list"

/-- The text of which a number is read. A byte beyond ASCII is in no number, nor is a half of a
surrogate pair. -/
def numeral? : Value → Option String
  | text s => some s
  | garbled s => some s
  | bytes b =>
    some (String.ofList (b.toList.map fun b => if b < 0x80 then Char.ofNat b.toNat else '?'))
  | _ => none

/-- Of bytes that are no integer only the first are shown. -/
def shownForInteger : Value → String
  | bytes b => (bytes (b.extract 0 LiteralError.shownLength)).repr
  | v => v.repr

def toInteger : Value → Except LiteralError Int
  | bool b => .ok (if b then 1 else 0)
  | int i => .ok i
  | float .nan => .error .nanToInteger
  | float (.infinite _) => .error .infinityToInteger
  | float (.finite negative units) => .ok (Binary.truncate negative units)
  | v => match v.numeral? with
    | some s => (Numeral.readInteger 10 s).mapError fun
      | .malformed => .noInteger v.shownForInteger
      | .tooLong digits => .tooManyDigits digits
    | none => .error (.notNumeric .int v.shape)

def toDouble : Value → Except LiteralError Binary
  | bool b => .ok (.finite false (if b then unitsPerOne else 0))
  | int i => match Binary.ofInt? i with
    | some x => .ok x
    | none => .error .integerTooLarge
  | float x => .ok x
  | v => match v.numeral? with
    | some s => match Numeral.float? s with
      | some x => .ok x
      | none => .error (.noFloat v.repr)
    | none => .error (.notNumeric .float v.shape)

def written (v : Value) : Except LiteralError String :=
  if v.isShown then .ok v.toText else .error .integerTooLong

theorem written_int_of_lt {i : Int} (h : i.natAbs < 0x10000000000000000) :
    (int i).written = .ok (toString i) :=
  if_pos (decide_eq_true (lt_shownBound h))

def integerText (v : Value) : Except LiteralError String :=
  v.toInteger.bind fun i => (int i).written

end Value

namespace FloatLiteral

def readsBack (negative : Bool) (units : Nat) (d : Decimal) : Bool :=
  (d.round double).narrow == .finite negative units

def digitCount (negative : Bool) (units : Nat) : Nat :=
  ((List.range' 1 9).find? fun n =>
    readsBack negative units (Binary.toDigits negative units n)).getD 9

def digits (negative : Bool) (units : Nat) : List Char :=
  let n := digitCount negative units
  withPoint ((Binary.toDigits negative units n).general n)

def write : Binary → String
  | .nan => "Float.NaN"
  | .infinite false => "Float.POSITIVE_INFINITY"
  | .infinite true => "Float.NEGATIVE_INFINITY"
  | .finite negative units => String.ofList (digits negative units ++ ['f'])

end FloatLiteral

namespace Kind

def literal : Kind → Value → Except LiteralError String
  | boolean, v => .ok (if v.isTrue then "true" else "false")
  | float, v => v.toDouble.map fun x => FloatLiteral.write x.narrow
  | int, v => v.integerText
  | long, v => v.integerText.map (· ++ "L")
  | string, v => v.written.map JavaString.literal

theorem literal_int_of_lt {i : Int} (h : i.natAbs < 0x10000000000000000) :
    int.literal (.int i) = .ok (toString i) :=
  Value.written_int_of_lt h

theorem literal_long_of_lt {i : Int} (h : i.natAbs < 0x10000000000000000) :
    long.literal (.int i) = .ok (toString i ++ "L") :=
  congrArg (Except.map (· ++ "L")) (Value.written_int_of_lt h)

end Kind

end PreferenceAccessors
