import PreferenceAccessors.Number.DecimalText
import PreferenceAccessors.Number.Numeral
import PreferenceAccessors.Text.Surrogate

/-!
Untyped data: what an element file or an annotation holds before it is
validated. A mapping is a list of entries in order with no key twice; equal
numbers are one key, whatever their type, and so are moments with an offset that
are the same instant. A garbled text is kept apart from texts. A collection that
holds itself holds in its own place only that it is one. `repr` is the form in
which messages and collections show a value, `toText` the text of a value that
stands by itself; integers of too many digits have neither.
-/

namespace PreferenceAccessors

structure Date where
  year : Nat
  month : Nat
  day : Nat
deriving DecidableEq, Repr

structure Moment where
  date : Date
  hour : Nat
  minute : Nat
  second : Nat
  microsecond : Nat
  offset : Option Int
deriving DecidableEq, Repr

/-- Sets, like mappings, hold nothing twice. A pair is an item of a list of pairs. -/
inductive Value
  | null
  | bool (value : Bool)
  | int (value : Int)
  | float (value : Binary)
  | text (value : String)
  | garbled (standIns : String)
  | bytes (value : ByteArray)
  | date (value : Date)
  | moment (value : Moment)
  | pair (first second : Value)
  | list (items : List Value)
  | set (members : List Value)
  | map (entries : List (Value × Value))
  | itself (isMapping : Bool)

def commaSeparated (items : List String) : String :=
  ", ".intercalate items

def zeroPadded (width n : Nat) : String :=
  "".pushn '0' (width - (toString n).length) ++ toString n

namespace Date

def isLeap (year : Nat) : Bool :=
  year % 4 == 0 && (year % 100 != 0 || year % 400 == 0)

def daysIn (year month : Nat) : Nat :=
  if month = 2 then (if isLeap year then 29 else 28)
  else if month = 4 ∨ month = 6 ∨ month = 9 ∨ month = 11 then 30
  else 31

def ordinal (d : Date) : Nat :=
  let years := d.year - 1
  let inYears := 365 * years + years / 4 - years / 100 + years / 400
  (List.range' 1 (d.month - 1)).foldl (fun days month => days + daysIn d.year month)
    (inYears + d.day)

def fields (d : Date) : List String :=
  [d.year, d.month, d.day].map toString

def repr (d : Date) : String :=
  "datetime.date(" ++ commaSeparated d.fields ++ ")"

def iso (d : Date) : String :=
  "-".intercalate [zeroPadded 4 d.year, zeroPadded 2 d.month, zeroPadded 2 d.day]

end Date

namespace Moment

/-- Days and seconds, the seconds never negative. -/
def offsetRepr (offset : Int) : String :=
  if offset = 0 then "datetime.timezone.utc"
  else
    let days := offset.fdiv 86400
    let seconds := offset.fmod 86400
    let parts :=
      (if days = 0 then [] else ["days=" ++ toString days]) ++
        (if seconds = 0 then [] else ["seconds=" ++ toString seconds])
    "datetime.timezone(datetime.timedelta(" ++ commaSeparated parts ++ "))"

/-- Seconds and microseconds are left out when nothing but zeros would follow. -/
def timeFields (m : Moment) : List Nat :=
  if m.microsecond ≠ 0 then [m.hour, m.minute, m.second, m.microsecond]
  else if m.second ≠ 0 then [m.hour, m.minute, m.second]
  else [m.hour, m.minute]

def repr (m : Moment) : String :=
  let zone := match m.offset with
    | none => []
    | some offset => ["tzinfo=" ++ offsetRepr offset]
  "datetime.datetime(" ++
    commaSeparated (m.date.fields ++ m.timeFields.map toString ++ zone) ++ ")"

def clock (fields : List Nat) : String :=
  ":".intercalate (fields.map (zeroPadded 2))

/-- Hours and minutes behind a sign, and seconds when there are any. -/
def offsetIso (offset : Int) : String :=
  let seconds := offset.natAbs
  let whole := [seconds / 3600, seconds / 60 % 60]
  (if offset < 0 then "-" else "+") ++
    clock (if seconds % 60 = 0 then whole else whole ++ [seconds % 60])

def iso (m : Moment) : String :=
  let fraction := if m.microsecond = 0 then "" else "." ++ zeroPadded 6 m.microsecond
  let zone := match m.offset with
    | none => ""
    | some offset => offsetIso offset
  m.date.iso ++ " " ++ clock [m.hour, m.minute, m.second] ++ fraction ++ zone

def seconds (m : Moment) (offset : Int) : Int :=
  (((m.date.ordinal * 24 + m.hour) * 60 + m.minute) * 60 + m.second : Nat) - offset

/-- The same instant, or, when no offset is known, the same date and time. -/
def isSame (m n : Moment) : Bool :=
  match m.offset, n.offset with
  | some a, some b => m.seconds a == n.seconds b && m.microsecond == n.microsecond
  | _, _ => m == n

end Moment

namespace Value

mutual

def repr : Value → String
  | null => "None"
  | bool true => "True"
  | bool false => "False"
  | int i => toString i
  | float x => x.text
  | text s => Text.quoted s
  | garbled s => Text.quotedGarbled s
  | bytes b => Text.quotedBytes b
  | date d => d.repr
  | moment m => m.repr
  | pair a b => "(" ++ a.repr ++ ", " ++ b.repr ++ ")"
  | list items => "[" ++ commaSeparated (reprItems items) ++ "]"
  | set [] => "set()"
  | set members => "\x7b" ++ commaSeparated (reprItems members) ++ "\x7d"
  | map entries => "\x7b" ++ commaSeparated (reprEntries entries) ++ "\x7d"
  | itself false => "[...]"
  | itself true => "\x7b...\x7d"

def reprItems : List Value → List String
  | [] => []
  | v :: rest => v.repr :: reprItems rest

def reprEntries : List (Value × Value) → List String
  | [] => []
  | (k, v) :: rest => (k.repr ++ ": " ++ v.repr) :: reprEntries rest

end

/-- The first power of ten with so many digits that it is never written. -/
@[irreducible] def shownBound : Nat := Nat.pow 10 Numeral.digitLimit

theorem lt_shownBound {n : Nat} (h : n < 0x10000000000000000) : n < shownBound := by
  have hlimit : 20 ≤ Numeral.digitLimit := by decide
  unfold shownBound
  -- As a variable the exponent keeps the power from being computed.
  generalize Numeral.digitLimit = limit at hlimit ⊢
  have hpow : Nat.pow 10 20 ≤ Nat.pow 10 limit := Nat.pow_le_pow_right (by decide) hlimit
  exact Nat.lt_of_lt_of_le h (Nat.le_trans (by decide) hpow)

mutual

/-- Whether a value can be shown or written: integers of too many digits cannot. -/
def isShown : Value → Bool
  | int i => i.natAbs < shownBound
  | pair a b => a.isShown && b.isShown
  | list items => areShown items
  | set members => areShown members
  | map entries => areEntriesShown entries
  | _ => true

def areShown : List Value → Bool
  | [] => true
  | v :: rest => v.isShown && areShown rest

def areEntriesShown : List (Value × Value) → Bool
  | [] => true
  | (k, v) :: rest => k.isShown && v.isShown && areEntriesShown rest

end

def toText : Value → String
  | text s => s
  | garbled s => s
  | date d => d.iso
  | moment m => m.iso
  | v => v.repr

/-- False, zero of either sign, the empty text and empty collections are false. -/
def isTrue : Value → Bool
  | null => false
  | bool b => b
  | int i => i ≠ 0
  | float x => !x.isZero
  | text s => s ≠ ""
  | bytes b => !b.isEmpty
  | list items => !items.isEmpty
  | set members => !members.isEmpty
  | map entries => !entries.isEmpty
  | _ => true

def units? : Value → Option Int
  | bool b => some (if b then unitsPerOne else 0)
  | int i => some (unitsPerOne * i)
  | float (.finite negative units) => some (Binary.signed negative units)
  | _ => none

/-- Equality of scalars as keys. Collections are no keys, and NaN equals nothing. -/
def sameKey : Value → Value → Bool
  | null, null => true
  | int i, int j => i == j
  | text s, text t => s == t
  | garbled s, garbled t => s == t
  | bytes a, bytes b => a == b
  | date d, date e => d == e
  | moment m, moment n => m.isSame n
  | float (.infinite a), float (.infinite b) => a == b
  | v, w => match v.units?, w.units? with
    | some x, some y => x == y
    | _, _ => false

/-- Adds an entry; a key that is there keeps its place and takes the new value. -/
def insertEntry {κ α : Type} (same : κ → κ → Bool) (entries : List (κ × α)) (key : κ) (value : α) :
    List (κ × α) :=
  if entries.any fun e => same e.1 key then
    entries.map fun e => if same e.1 key then (e.1, value) else e
  else entries ++ [(key, value)]

def mapOf (entries : List (Value × Value)) : Value :=
  map (entries.foldl (fun acc e => insertEntry sameKey acc e.1 e.2) [])

def lookup (entries : List (Value × Value)) (key : String) : Option Value :=
  (entries.find? fun e => e.1.sameKey (text key)).map (·.2)

end Value

end PreferenceAccessors
