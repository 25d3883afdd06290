import PreferenceAccessors.JavaString

/-!
Java source text and its string literals. A source is a list of UTF-16 code
units. Unicode escapes are translated first: a backslash begins one when a `u`
follows and an even number of backslashes stands right before it; any number of
further `u` and then four hexadecimal digits belong to it, and what it stands
for begins no other. The text breaks off at an escape without its digits.

A string literal is then read from quote to quote with its escape sequences,
the octal ones included; a line does not end within it. Text blocks and
comments are not read here.
-/

namespace PreferenceAccessors.Java

abbrev CodeUnit := BitVec 16

def utf16 (c : Char) : List CodeUnit :=
  if c.toNat < 0x10000 then [.ofNat 16 c.toNat]
  else
    [.ofNat 16 (0xD800 + (c.toNat - 0x10000) / 0x400),
      .ofNat 16 (0xDC00 + (c.toNat - 0x10000) % 0x400)]

def unitsOf (cs : List Char) : List CodeUnit :=
  cs.flatMap utf16

def units (s : String) : List CodeUnit :=
  unitsOf s.toList

def backslash : CodeUnit := 0x5C#16

def quote : CodeUnit := 0x22#16

def lineFeed : CodeUnit := 0x0A#16

def carriageReturn : CodeUnit := 0x0D#16

def marker : CodeUnit := 0x75#16

def hexValue? (u : CodeUnit) : Option CodeUnit :=
  if 0x30#16 ≤ u ∧ u ≤ 0x39#16 then some (u - 0x30#16)
  else if 0x41#16 ≤ u ∧ u ≤ 0x46#16 then some (u - 0x37#16)
  else if 0x61#16 ≤ u ∧ u ≤ 0x66#16 then some (u - 0x57#16)
  else none

structure Input where
  unit : CodeUnit
  rest : List CodeUnit
deriving DecidableEq, Repr

/-- Outside of an escape, `odd` when an odd number of backslashes stands right before; among its
markers; or after some of its digits. -/
inductive Translating
  | text (odd : Bool)
  | markers
  | digits (count : Nat) (value : CodeUnit)

def translate : Translating → List CodeUnit → List Input
  | _, [] => []
  | .text odd, c :: cs =>
    if c = backslash ∧ odd = false ∧ cs.head? = some marker then translate .markers cs
    else ⟨c, cs⟩ :: translate (.text (c = backslash ∧ odd = false)) cs
  | .markers, c :: cs =>
    if c = marker then translate .markers cs
    else match hexValue? c with
      | some value => translate (.digits 1 value) cs
      | none => []
  | .digits count value, c :: cs =>
    match hexValue? c with
    | some digit =>
      if count = 3 then ⟨16 * value + digit, cs⟩ :: translate (.text false) cs
      else translate (.digits (count + 1) (16 * value + digit)) cs
    | none => []

def inputs (source : List CodeUnit) : List Input :=
  translate (.text false) source

def simpleEscape? (u : CodeUnit) : Option CodeUnit :=
  if u = 0x62#16 then some 0x08#16
  else if u = 0x73#16 then some 0x20#16
  else if u = 0x74#16 then some 0x09#16
  else if u = 0x6E#16 then some 0x0A#16
  else if u = 0x66#16 then some 0x0C#16
  else if u = 0x72#16 then some 0x0D#16
  else if u = quote ∨ u = 0x27#16 ∨ u = backslash then some u
  else none

def octalValue? (u : CodeUnit) : Option CodeUnit :=
  if 0x30#16 ≤ u ∧ u ≤ 0x37#16 then some (u - 0x30#16) else none

/-- Within a literal: outside of an escape sequence; behind its backslash; or after octal digits,
of which `more` may follow. -/
inductive Reading
  | text
  | escape
  | octal (value : CodeUnit) (more : Nat)

abbrev Literal := List CodeUnit × List CodeUnit

def Literal.cons (u : CodeUnit) (l : Literal) : Literal :=
  (u :: l.1, l.2)

def readText (go : Reading → Option Literal) (c : Input) : Option Literal :=
  if c.unit = quote then some ([], c.rest)
  else if c.unit = lineFeed ∨ c.unit = carriageReturn then none
  else if c.unit = backslash then go .escape
  else (go .text).map (.cons c.unit)

def readBody : Reading → List Input → Option Literal
  | _, [] => none
  | .text, c :: cs => readText (fun next => readBody next cs) c
  | .escape, c :: cs =>
    match simpleEscape? c.unit with
    | some value => (readBody .text cs).map (.cons value)
    | none => match octalValue? c.unit with
      | some digit => readBody (.octal digit (if digit ≤ 3#16 then 2 else 1)) cs
      | none => none
  | .octal value (more + 1), c :: cs =>
    match octalValue? c.unit with
    | some digit => readBody (.octal (8 * value + digit) more) cs
    | none => (readText (fun next => readBody next cs) c).map (.cons value)
  | .octal value 0, c :: cs => (readText (fun next => readBody next cs) c).map (.cons value)

def readLiteral (source : List CodeUnit) : Option Literal :=
  match inputs source with
  | c :: cs => if c.unit = quote then readBody .text cs else none
  | [] => none

/-- Escapes of both layers; the second backslash of two begins no unicode escape. -/
example : readLiteral (units "\"\\u0061\\\\u\\uu005c\\u005c\\101\\0z\" + x") =
    some (units "a\\u\\A\x00z", units " + x") := by decide

end PreferenceAccessors.Java
