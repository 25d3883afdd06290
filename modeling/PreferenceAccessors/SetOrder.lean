import PreferenceAccessors.Value

/-!
The order in which a set of numbers is shown. The places of a set are numbered
from zero; their number is a power of two, at least eight, and more than twice
that of the members as soon as there are five. A number goes to the place that
its key gives, the key being its value modulo a prime; when that place is taken,
to a free one among the places next to it, and after that to places that the
upper bits of the key scatter. The members are shown place by place.

Sets of anything else keep the order in which their members came.
-/

namespace PreferenceAccessors.SetOrder

def prime : Nat := 0x1FFFFFFFFFFFFFFF

/-- What a unit counts for: the prime is one less than the 61st power of two. -/
def unitKey : Nat := 0x1000000

/-- The key of a number; minus one is no key. -/
def key? : Value → Option Int
  | .float (.infinite negative) => some (Binary.signed negative 314159)
  | v => v.units?.map fun units =>
    let key := Binary.signed (units < 0) (unitKey * units.natAbs % prime)
    if key = -1 then -2 else key

def bits (key : Int) : Nat :=
  (key % 0x10000000000000000).toNat

def size (count : Nat) : Nat :=
  if count < 5 then 8 else Nat.pow 2 ((2 * count).log2 + 1)

def reach : Nat := 9

def freePlace (places : Array (Option Value)) : Nat → (place left : Nat) → Nat
  | 0, place, _ => place
  | fuel + 1, place, left =>
    let tried := if place + reach < places.size then reach + 1 else 1
    match (List.range' place tried).find? fun i => (places.getD i none).isNone with
    | some i => i
    | none =>
      let left := left / 32
      freePlace places fuel ((5 * place + 1 + left) % places.size) left

def settle (places : Array (Option Value)) (member : Int × Value) : Array (Option Value) :=
  let key := bits member.1
  places.setIfInBounds (freePlace places (places.size + 13) (key % places.size) key)
    (some member.2)

def arrange (members : List Value) : List Value :=
  match members.mapM fun v => (key? v).map fun key => (key, v) with
  | none => members
  | some keyed =>
    let places := Array.replicate (size members.length) none
    (keyed.foldl settle places).toList.filterMap id

end PreferenceAccessors.SetOrder
