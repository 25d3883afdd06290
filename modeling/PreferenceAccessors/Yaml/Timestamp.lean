import PreferenceAccessors.Text.Line
import PreferenceAccessors.Value

/-!
Dates and moments in scalars. Month and day have one digit or two, but a date
alone is only known as one when both have two. The time is set off by a T or by
white space and may have a fraction, of which six digits count, and a zone. A
line feed may end the text. A text that has the form may still name a day or a
time that does not exist.
-/

namespace PreferenceAccessors.Yaml

inductive Zone
  | universal
  | offset (negative : Bool) (hours minutes : Nat)
deriving DecidableEq, Repr

structure TimeText where
  hour : Nat
  minute : Nat
  second : Nat
  fraction : List Char
  zone : Option Zone
deriving DecidableEq, Repr

structure Timestamp where
  year : Nat
  month : Nat
  day : Nat
  time : Option TimeText
deriving DecidableEq, Repr

namespace Timestamp

def isDigit (c : Char) : Bool :=
  '0' ≤ c && c ≤ '9'

def number (ds : List Char) : Nat :=
  ds.foldl (fun n d => 10 * n + (d.toNat - '0'.toNat)) 0

def digits? (least most : Nat) (cs : List Char) : Option (Nat × List Char) :=
  let ds := (cs.take most).takeWhile isDigit
  if least ≤ ds.length then some (number ds, cs.drop ds.length) else none

def expect? (c : Char) : List Char → Option (List Char)
  | d :: rest => if d = c then some rest else none
  | [] => none

def isWhite (c : Char) : Bool :=
  c == ' ' || c == '\t'

def zone? (cs : List Char) : Option (Option Zone) :=
  match cs.dropWhile isWhite with
  | [] => if cs.isEmpty then some none else none
  | ['Z'] => some (some .universal)
  | sign :: rest =>
    if sign = '+' ∨ sign = '-' then do
      let (hours, rest) ← digits? 1 2 rest
      if rest.isEmpty then some (some (.offset (sign = '-') hours 0))
      else
        let (minutes, rest) ← digits? 2 2 (← expect? ':' rest)
        if rest.isEmpty then some (some (.offset (sign = '-') hours minutes)) else none
    else none

def time? (cs : List Char) : Option TimeText := do
  let (hour, cs) ← digits? 1 2 cs
  let (minute, cs) ← digits? 2 2 (← expect? ':' cs)
  let (second, cs) ← digits? 2 2 (← expect? ':' cs)
  match cs with
  | '.' :: rest =>
    some ⟨hour, minute, second, rest.takeWhile isDigit, ← zone? (rest.dropWhile isDigit)⟩
  | _ => some ⟨hour, minute, second, [], ← zone? cs⟩

def separator? : List Char → Option (List Char)
  | c :: rest =>
    if c = 'T' ∨ c = 't' then some rest
    else if isWhite c then some (rest.dropWhile isWhite)
    else none
  | [] => none

def parse? (text : List Char) : Option Timestamp := do
  let (year, rest) ← digits? 4 4 (Text.dropFinalNewline text)
  let (month, rest) ← digits? 1 2 (← expect? '-' rest)
  let (day, rest) ← digits? 1 2 (← expect? '-' rest)
  if rest.isEmpty then some ⟨year, month, day, none⟩
  else some ⟨year, month, day, some (← time? (← separator? rest))⟩

/-- Whether a plain scalar is a timestamp without being called one. -/
def isPlain (text : List Char) : Bool :=
  match parse? text with
  | some t => t.time.isSome || (Text.dropFinalNewline text).length == 10
  | none => false

def date? (t : Timestamp) : Option Date :=
  if 1 ≤ t.year ∧ 1 ≤ t.month ∧ t.month ≤ 12 ∧ 1 ≤ t.day ∧ t.day ≤ Date.daysIn t.year t.month then
    some ⟨t.year, t.month, t.day⟩
  else none

def microseconds (fraction : List Char) : Nat :=
  let ds := fraction.take 6
  number ds * Nat.pow 10 (6 - ds.length)

def offset? : Zone → Option Int
  | .universal => some 0
  | .offset negative hours minutes =>
    let seconds := 3600 * hours + 60 * minutes
    if seconds < 86400 then some (Binary.signed negative seconds) else none

def toValue? (t : Timestamp) : Option Value := do
  let date ← t.date?
  match t.time with
  | none => some (.date date)
  | some time =>
    if time.hour < 24 ∧ time.minute < 60 ∧ time.second < 60 then
      let offset ← match time.zone with
        | none => some none
        | some zone => (offset? zone).map some
      some (.moment ⟨date, time.hour, time.minute, time.second, microseconds time.fraction, offset⟩)
    else none

end Timestamp

end PreferenceAccessors.Yaml
