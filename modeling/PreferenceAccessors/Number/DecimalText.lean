import PreferenceAccessors.Number.Decimal

/-!
Decimals as text. Between two powers of ten a decimal is written with a point
and without an exponent; outside them with one digit before the point and a
signed exponent of at least two digits.
-/

namespace PreferenceAccessors

namespace Decimal

def coefficientDigits (d : Decimal) : List Char :=
  Nat.toDigits 10 d.coefficient

def firstExponent (d : Decimal) : Int :=
  d.exponent + d.coefficientDigits.length - 1

def signText (d : Decimal) : List Char :=
  if d.negative then ['-'] else []

def pointed (ds : List Char) (whole : Nat) : List Char :=
  if whole < ds.length then ds.take whole ++ '.' :: ds.drop whole
  else ds ++ List.replicate (whole - ds.length) '0'

def positional (d : Decimal) : List Char :=
  let first := d.firstExponent
  d.signText ++
    if 0 ≤ first then pointed d.coefficientDigits (first.toNat + 1)
    else '0' :: '.' :: List.replicate ((-first).toNat - 1) '0' ++ d.coefficientDigits

def scientific (d : Decimal) : List Char :=
  let first := d.firstExponent
  let exponent := Nat.toDigits 10 first.natAbs
  d.signText ++ pointed d.coefficientDigits 1 ++
    ['e', if first < 0 then '-' else '+'] ++
    List.replicate (2 - exponent.length) '0' ++ exponent

/-- Positional from 10^-4 up to, and without, 10^bound. -/
def general (bound : Int) (d : Decimal) : List Char :=
  if -4 ≤ d.firstExponent ∧ d.firstExponent < bound then d.positional else d.scientific

end Decimal

def withPoint (cs : List Char) : List Char :=
  if cs.contains '.' || cs.contains 'e' then cs else cs ++ ['.', '0']

/-- The fewest digits that read back as the same double, positional below 10^16. -/
def Binary.text : Binary → String
  | .nan => "nan"
  | .infinite false => "inf"
  | .infinite true => "-inf"
  | .finite negative units =>
    String.ofList (withPoint ((Binary.shortest negative units).general 16))

end PreferenceAccessors
