import PreferenceAccessors.Text.Printable

/-!
Quoted text for messages. The quote is single unless the text holds a single
quote and no double one. Unprintable characters are written by code point in
the shortest of three hexadecimal widths; everything printable stands for
itself. Quoted bytes show ASCII characters and write every other byte by its
number.
-/

namespace PreferenceAccessors.Text

def hexDigits : (width : Nat) → Nat → List Char
  | 0, _ => []
  | width + 1, n => hexDigits width (n / 16) ++ [Nat.digitChar (n % 16)]

def quoteFor (cs : List Char) : Char :=
  if cs.contains '\'' && !cs.contains '"' then '"' else '\''

def quotedChar (quote c : Char) : List Char :=
  if c = quote || c = '\\' then ['\\', c]
  else if c = '\n' then ['\\', 'n']
  else if c = '\r' then ['\\', 'r']
  else if c = '\t' then ['\\', 't']
  else if c.toNat < 0x7F && 0x20 ≤ c.toNat || isPrintable c then [c]
  else if c.toNat < 0x100 then '\\' :: 'x' :: hexDigits 2 c.toNat
  else if c.toNat < 0x10000 then '\\' :: 'u' :: hexDigits 4 c.toNat
  else '\\' :: 'U' :: hexDigits 8 c.toNat

def quotedBytes (bytes : ByteArray) : String :=
  let cs := bytes.toList.map fun b => Char.ofNat b.toNat
  let quote := quoteFor cs
  let part (c : Char) : List Char :=
    if c.toNat < 0x7F then quotedChar quote c else '\\' :: 'x' :: hexDigits 2 c.toNat
  String.ofList ('b' :: quote :: cs.flatMap part ++ [quote])

def quoted (s : String) : String :=
  let quote := quoteFor s.toList
  String.ofList (quote :: s.toList.flatMap (quotedChar quote) ++ [quote])

end PreferenceAccessors.Text
