/-!
A place in a YAML text: what is left of it and how much that is, the line and
the column. Lines end at a line feed, a next-line control, a line separator
or a paragraph separator; the text holds no carriage return and no NUL, so NUL
stands for the end. A byte order mark takes no column.
-/

namespace PreferenceAccessors.Yaml

def isBreak (c : Char) : Bool :=
  c == '\n' || c == '\x85' || c == '\u2028' || c == '\u2029'

def isLineEnd (c : Char) : Bool :=
  isBreak c || c == '\x00'

def isSpaceOrEnd (c : Char) : Bool :=
  isLineEnd c || c == ' '

def isGap (c : Char) : Bool :=
  isSpaceOrEnd c || c == '\t'

def isWhite (c : Char) : Bool :=
  c == ' ' || c == '\t'

def isNameChar (c : Char) : Bool :=
  ('0' ≤ c && c ≤ '9') || ('A' ≤ c && c ≤ 'Z') || ('a' ≤ c && c ≤ 'z') || c == '-' || c == '_'

def isAllowed (c : Char) : Bool :=
  let n := c.toNat
  n == 9 || n == 10 || n == 13 || (0x20 ≤ n && n ≤ 0x7E) || n == 0x85 ||
    (0xA0 ≤ n && n ≤ 0xD7FF) || (0xE000 ≤ n && n ≤ 0xFFFD) || 0x10000 ≤ n

structure Cursor where
  rest : List Char
  left : Nat
  line : Nat
  column : Nat

namespace Cursor

def start (cs : List Char) : Cursor := ⟨cs, cs.length, 0, 0⟩

def peek (c : Cursor) : Char :=
  c.rest.headD '\x00'

def peekAt (c : Cursor) (n : Nat) : Char :=
  (c.rest.drop n).headD '\x00'

def next (c : Cursor) : Cursor :=
  match c.rest with
  | [] => c
  | ch :: rest =>
    if isBreak ch then ⟨rest, c.left - 1, c.line + 1, 0⟩
    else ⟨rest, c.left - 1, c.line, if ch = '\uFEFF' then c.column else c.column + 1⟩

def skip (c : Cursor) : Nat → Cursor
  | 0 => c
  | n + 1 => c.next.skip n

def takeWhile (p : Char → Bool) (c : Cursor) : List Char × Cursor :=
  let run := c.rest.takeWhile p
  (run, c.skip run.length)

def dropWhile (p : Char → Bool) (c : Cursor) : Cursor :=
  (c.takeWhile p).2

def lineBreak? (c : Cursor) : Option (Char × Cursor) :=
  if c.rest.isEmpty || !isBreak c.peek then none
  else some (if c.peek = '\x85' then '\n' else c.peek, c.next)

/-- Past the rest of a line that may hold only spaces and a comment. -/
def ignoredLine? (c : Cursor) : Option Cursor :=
  let c := c.dropWhile (· == ' ')
  let c := if c.peek = '#' then c.dropWhile (!isLineEnd ·) else c
  if isLineEnd c.peek then some c.next else none

def isMarker (c : Cursor) (mark : Char) : Bool :=
  c.rest.take 3 == [mark, mark, mark] && isGap (c.peekAt 3)

def isDocumentMarker (c : Cursor) : Bool :=
  c.isMarker '-' || c.isMarker '.'

end Cursor

end PreferenceAccessors.Yaml
