/-!
Binary floating-point data in exact arithmetic. A finite magnitude is a natural
number of units, one unit being 2^-1074, the least positive double; so every
double and every float is a whole number of units, equality of data is equality
of bit patterns (all NaNs are one), and rounding is division of naturals.

A format gives the precision in bits, the least spacing of its values and the
first power of two beyond its range. Rounding goes to the nearest value, a tie
to the one with the even significand; what rounds to the limit or beyond is
infinite. Nothing here uses machine floats.
-/

namespace PreferenceAccessors

inductive Binary
  | nan
  | infinite (negative : Bool)
  | finite (negative : Bool) (units : Nat)
deriving DecidableEq, Repr

@[irreducible] def unitsPerOne : Nat := Nat.pow 2 1074

/-- `grain` and `limit` are counted in units. -/
structure BinaryFormat where
  precision : Nat
  grain : Nat
  limit : Nat
deriving DecidableEq, Repr

/-- 24 bits, least value 2^-149, finite below 2^128. -/
@[irreducible] def single : BinaryFormat := ⟨24, Nat.pow 2 925, Nat.pow 2 1202⟩

/-- 53 bits, least value one unit, finite below 2^1024. -/
@[irreducible] def double : BinaryFormat := ⟨53, 1, Nat.pow 2 2098⟩

def divideToNearest (num den : Nat) : Nat :=
  let q := num / den
  let r := num % den
  if 2 * r < den then q
  else if den < 2 * r then q + 1
  else q + q % 2

theorem divideToNearest_error (num den : Nat) (h : 0 < den) :
    2 * num ≤ (2 * divideToNearest num den + 1) * den ∧
      2 * divideToNearest num den * den ≤ 2 * num + den := by
  have hd := Nat.div_add_mod num den
  have hlt := Nat.mod_lt num h
  generalize hq : num / den = q at hd
  generalize hr : num % den = r at hd hlt
  have hqd : den * q = q * den := Nat.mul_comm den q
  simp only [divideToNearest, hq, hr]
  split
  · constructor <;> simp only [Nat.add_mul, Nat.mul_assoc] <;> omega
  · split
    · constructor <;> simp only [Nat.add_mul, Nat.mul_add, Nat.mul_assoc] <;> omega
    · have he : den = 2 * r := by omega
      have hp : q % 2 < 2 := Nat.mod_lt q (by decide)
      generalize q % 2 = p at hp
      have hpd : p * den ≤ den := by
        calc p * den ≤ 1 * den := Nat.mul_le_mul_right den (by omega)
          _ = den := Nat.one_mul den
      constructor <;> simp only [Nat.add_mul, Nat.mul_add, Nat.mul_assoc] <;> omega

namespace BinaryFormat

/-- The distance between neighbouring values at a magnitude whose whole part is `units`. -/
def spacing (f : BinaryFormat) (units : Nat) : Nat :=
  max f.grain (Nat.pow 2 (units.log2 + 1 - f.precision))

/-- The rounded magnitude of `num / den` units, as if the range had no end. -/
def nearestUnits (f : BinaryFormat) (num den : Nat) : Nat :=
  let s := f.spacing (num / den)
  divideToNearest num (den * s) * s

def round (f : BinaryFormat) (negative : Bool) (num den : Nat) : Binary :=
  let units := f.nearestUnits num den
  if units < f.limit then .finite negative units else .infinite negative

theorem round_zero (f : BinaryFormat) (negative : Bool) (den : Nat) (h : 0 < f.limit) :
    f.round negative 0 den = .finite negative 0 := by
  simp [round, nearestUnits, divideToNearest, h]

end BinaryFormat

namespace Binary

def isNegative : Binary → Bool
  | nan => false
  | infinite negative => negative
  | finite negative _ => negative

def isZero : Binary → Bool
  | finite _ units => units == 0
  | _ => false

/-- The nearest float. Beyond the float range it is infinite, below it zero; the sign stays. -/
def narrow : Binary → Binary
  | nan => nan
  | infinite negative => infinite negative
  | finite negative units => single.round negative units 1

def ofInt? (i : Int) : Option Binary :=
  match double.round (i < 0) (unitsPerOne * i.natAbs) 1 with
  | finite negative units => some (finite negative units)
  | _ => none

def signed (negative : Bool) (n : Nat) : Int :=
  if negative then -(n : Int) else n

def truncate (negative : Bool) (units : Nat) : Int :=
  signed negative (units / unitsPerOne)

def signBit : Nat := 0x8000000000000000

def exponentUnit : Nat := 0x10000000000000

def ofBits (bits : Nat) : Binary :=
  let negative := decide (signBit ≤ bits)
  let exponent := bits / exponentUnit % 2048
  let fraction := bits % exponentUnit
  if exponent = 2047 then
    if fraction = 0 then infinite negative else nan
  else if exponent = 0 then finite negative fraction
  else finite negative ((exponentUnit + fraction) * Nat.pow 2 (exponent - 1))

def toBits : Binary → Nat
  | nan => 0x7FF8000000000000
  | infinite negative => sign negative + 2047 * exponentUnit
  | finite negative units =>
    let shift := units.log2 - 52
    if units < exponentUnit then sign negative + units
    else sign negative + shift * exponentUnit + units / Nat.pow 2 shift
where
  sign (negative : Bool) : Nat := if negative then signBit else 0

/-- Sum of two doubles, rounded once. A sum of opposite values is positive zero. -/
def add : Binary → Binary → Binary
  | nan, _ => nan
  | _, nan => nan
  | infinite a, infinite b => if a = b then infinite a else nan
  | infinite a, finite _ _ => infinite a
  | finite _ _, infinite b => infinite b
  | finite a x, finite b y =>
    if a = b then double.round a (x + y) 1
    else if y < x then double.round a (x - y) 1
    else if x < y then double.round b (y - x) 1
    else finite false 0

def mul : Binary → Binary → Binary
  | nan, _ => nan
  | _, nan => nan
  | infinite a, infinite b => infinite (a != b)
  | infinite a, finite b y => if y = 0 then nan else infinite (a != b)
  | finite a x, infinite b => if x = 0 then nan else infinite (a != b)
  | finite a x, finite b y => double.round (a != b) (x * y) unitsPerOne

def negate : Binary → Binary
  | nan => nan
  | infinite negative => infinite !negative
  | finite negative units => finite (!negative) units

end Binary

end PreferenceAccessors
