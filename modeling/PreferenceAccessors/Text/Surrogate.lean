import PreferenceAccessors.Text.Quoted

/-!
Garbled texts. A code point may be half of a surrogate pair, which is no
character; a text with such code points is garbled. It is held as a string in
which a private character stands in for each half. A stand-in means a half only
in a text that is known to be garbled, elsewhere it is the character that it is.

No encoding has bytes for a half. What cannot be encoded is the first run of
halves, by its position.
-/

namespace PreferenceAccessors.Text

def isHalf (code : Nat) : Bool :=
  0xD800 ≤ code && code < 0xE000

def standIn (code : Nat) : Char :=
  Char.ofNat (0x100000 + code)

def half? (c : Char) : Option Nat :=
  let code := c.toNat - 0x100000
  if isHalf code then some code else none

def ofCode (code : Nat) : Char :=
  if isHalf code then standIn code else Char.ofNat code

def quotedGarbled (s : String) : String :=
  let quote := quoteFor s.toList
  let part (c : Char) : List Char := match half? c with
    | some code => '\\' :: 'u' :: hexDigits 4 code
    | none => quotedChar quote c
  String.ofList (quote :: s.toList.flatMap part ++ [quote])

/-- Three replacement characters for each half, one for each byte that it would have had. -/
def withReplacements (s : String) : String :=
  String.ofList (s.toList.flatMap fun c =>
    if (half? c).isSome then List.replicate 3 '\uFFFD' else [c])

structure Unencodable where
  position : Nat
  code : Nat
  others : Nat
deriving DecidableEq, Repr

namespace Unencodable

def find? (isBorne : Nat → Bool) (position : Nat) : List Char → Option Unencodable
  | [] => none
  | c :: rest => match half? c with
    | some code =>
      if isBorne code then find? isBorne (position + 1) rest
      else some ⟨position, code, (rest.takeWhile fun c => (half? c).isSome).length⟩
    | none => find? isBorne (position + 1) rest

def ofText? (s : String) : Option Unencodable :=
  find? (fun _ => false) 0 s.toList

/-- A path may hold halves that stand for single bytes. -/
def ofPath? (path : String) : Option Unencodable :=
  find? (fun code => 0xDC80 ≤ code && code < 0xDD00) 0 path.toList

def message (u : Unencodable) : String :=
  "'utf-8' codec can't encode character" ++
    (if u.others = 0 then
      " '\\u" ++ String.ofList (hexDigits 4 u.code) ++ "' in position " ++ toString u.position
    else
      "s in position " ++ toString u.position ++ "-" ++ toString (u.position + u.others)) ++
    ": surrogates not allowed"

end Unencodable

end PreferenceAccessors.Text
