import PreferenceAccessors.Text.Quoted

/-!
Java string literals. A backslash and a double quote are escaped, five controls
have letters of their own, every other character below the space is written by
code point, and all else stands for itself.
-/

namespace PreferenceAccessors.JavaString

def escape (c : Char) : List Char :=
  if c = '\\' then ['\\', '\\']
  else if c = '"' then ['\\', '"']
  else if c = '\n' then ['\\', 'n']
  else if c = '\r' then ['\\', 'r']
  else if c = '\t' then ['\\', 't']
  else if c = '\x08' then ['\\', 'b']
  else if c = '\x0c' then ['\\', 'f']
  else if c.toNat < 0x20 then '\\' :: 'u' :: Text.hexDigits 4 c.toNat
  else [c]

def literalChars (cs : List Char) : List Char :=
  '"' :: cs.flatMap escape ++ ['"']

def literal (s : String) : String :=
  String.ofList (literalChars s.toList)

end PreferenceAccessors.JavaString
