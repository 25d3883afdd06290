import PreferenceAccessors.Text.Surrogate
import PreferenceAccessors.Yaml.ScalarText

/-!
Tokens of a YAML text. Indentation shows as block starts and ends, and a key
that is only known by the colon after it gets its token before the one it
begins with. Such a key must stand on one line, begin where a key may, and be
at most 1024 characters before its colon.

`Token.scan?` gives the tokens of a whole text, or nothing when some part of it
begins no token.
-/

namespace PreferenceAccessors.Yaml

/-- A tag as it is written: a declared handle and a rest, or a rest alone. -/
structure TagText where
  handle : Option String
  rest : String
deriving DecidableEq, Repr

/-- How a scalar is written. Only a quoted one can be garbled. -/
inductive ScalarStyle
  | plain
  | quoted
  | garbled
deriving DecidableEq, Repr

inductive Directive
  | version (major : Nat)
  | tag (handle leader : String)
  | other
deriving DecidableEq, Repr

inductive Token
  | directive (value : Directive)
  | documentStart
  | documentEnd
  | blockSequenceStart
  | blockMappingStart
  | blockEnd
  | flowSequenceStart
  | flowSequenceEnd
  | flowMappingStart
  | flowMappingEnd
  | flowEntry
  | blockEntry
  | key
  | value
  | aliasOf (name : String)
  | anchor (name : String)
  | tag (text : TagText)
  | scalar (style : ScalarStyle) (text : String)
deriving DecidableEq, Repr

/-- A token that turns out to begin a key when a colon follows. -/
structure PendingKey where
  position : Nat
  required : Bool
  left : Nat
  line : Nat
  column : Nat

/-- How far scanning has come. `pending` has at most one key for each depth of flow. -/
structure Scan where
  cursor : Cursor
  tokens : Array Token
  flow : Nat
  indent : Int
  outer : List Int
  keyAllowed : Bool
  pending : List (Nat × PendingKey)

namespace Scan

def start (cs : List Char) : Scan :=
  ⟨.start cs, #[], 0, -1, [], true, []⟩

def push (s : Scan) (t : Token) : Scan :=
  { s with tokens := s.tokens.push t }

def moveTo (s : Scan) (c : Cursor) : Scan :=
  { s with cursor := c }

def allowKey (s : Scan) (allowed : Bool) : Scan :=
  { s with keyAllowed := allowed }

/-- Past spaces, comments and breaks. A break outside flow makes keys possible again. -/
def toNextToken : Nat → Scan → Scan
  | 0, s => s
  | fuel + 1, s =>
    let c := s.cursor.dropWhile (· == ' ')
    let c := if c.peek = '#' then c.dropWhile (!isLineEnd ·) else c
    match c.lineBreak? with
    | some (_, c) => toNextToken fuel ((s.moveTo c).allowKey (s.keyAllowed || s.flow = 0))
    | none => s.moveTo c

/-- Keys that have been left behind are given up; a required one may not be. -/
def dropStale? (s : Scan) : Option Scan :=
  let isStale (k : PendingKey) : Bool :=
    k.line != s.cursor.line || k.left - s.cursor.left > 1024
  if s.pending.any fun p => isStale p.2 && p.2.required then none
  else some { s with pending := s.pending.filter fun p => !isStale p.2 }

def dropKey? (s : Scan) : Option Scan :=
  if s.pending.any fun p => p.1 == s.flow && p.2.required then none
  else some { s with pending := s.pending.filter fun p => p.1 != s.flow }

def saveKey? (s : Scan) : Option Scan :=
  if s.keyAllowed then
    (dropKey? s).map fun s =>
      let key : PendingKey :=
        ⟨s.tokens.size, s.flow = 0 && s.indent = s.cursor.column, s.cursor.left, s.cursor.line,
          s.cursor.column⟩
      { s with pending := (s.flow, key) :: s.pending }
  else some s

def unwind (column : Int) (s : Scan) : Scan :=
  if s.flow = 0 then go s.outer s else s
where
  go : List Int → Scan → Scan
    | [], s => s
    | i :: rest, s =>
      if column < s.indent then go rest { s.push .blockEnd with indent := i, outer := rest }
      else s

def deepen (column : Int) (s : Scan) : Bool × Scan :=
  if s.indent < column then (true, { s with indent := column, outer := s.indent :: s.outer })
  else (false, s)

def marker? (t : Token) (s : Scan) : Option Scan := do
  let s ← dropKey? (s.unwind (-1))
  some (((s.push t).moveTo (s.cursor.skip 3)).allowKey false)

def flowStart? (t : Token) (s : Scan) : Option Scan := do
  let s ← s.saveKey?
  some (({ s with flow := s.flow + 1 }.push t |>.moveTo s.cursor.next).allowKey true)

def flowEnd? (t : Token) (s : Scan) : Option Scan := do
  let s ← s.dropKey?
  some (({ s with flow := s.flow - 1 }.push t |>.moveTo s.cursor.next).allowKey false)

def flowEntry? (s : Scan) : Option Scan := do
  let s ← (s.allowKey true).dropKey?
  some ((s.push .flowEntry).moveTo s.cursor.next)

def openBlock? (t : Token) (s : Scan) : Option Scan :=
  if s.flow = 0 then
    if s.keyAllowed then
      match s.deepen s.cursor.column with
      | (true, s) => some (s.push t)
      | (false, s) => some s
    else none
  else some s

def blockEntry? (s : Scan) : Option Scan := do
  let s ← s.openBlock? .blockSequenceStart
  let s ← (s.allowKey true).dropKey?
  some ((s.push .blockEntry).moveTo s.cursor.next)

def key? (s : Scan) : Option Scan := do
  let s ← s.openBlock? .blockMappingStart
  let s ← (s.allowKey (s.flow = 0)).dropKey?
  some ((s.push .key).moveTo s.cursor.next)

/-- Puts the token of a pending key in its place, and a block before it if it opens one. -/
def resolveKey (k : PendingKey) (s : Scan) : Scan :=
  let s := { s with pending := s.pending.filter fun p => p.1 != s.flow }
  let insert (t : Token) (s : Scan) : Scan :=
    { s with tokens := s.tokens.insertIdxIfInBounds k.position t }
  let s := insert .key s
  let s :=
    if s.flow = 0 then
      match s.deepen k.column with
      | (true, s) => insert .blockMappingStart s
      | (false, s) => s
    else s
  s.allowKey false

def value? (s : Scan) : Option Scan := do
  let s ← match s.pending.find? (·.1 == s.flow) with
    | some (_, k) => some (resolveKey k s)
    | none => do
      let s ← s.openBlock? .blockMappingStart
      (s.allowKey (s.flow = 0)).dropKey?
  some ((s.push .value).moveTo s.cursor.next)

/-- A token that may begin a key and after which none may begin. -/
def withKey? (s : Scan) (read : Cursor → Option (Token × Cursor)) : Option Scan := do
  let s ← s.saveKey?
  let (t, c) ← read s.cursor
  some ((((s.allowKey false).push t)).moveTo c)

def name? (c : Cursor) : Option (String × Cursor) :=
  let (name, c) := c.next.takeWhile isNameChar
  let follows := isGap c.peek || ['?', ':', ',', ']', '\x7d', '%', '@', '\x60'].contains c.peek
  if name.isEmpty || !follows then none else some (String.ofList name, c)

def tagHandle? (c : Cursor) : Option (String × Cursor) :=
  if c.peek ≠ '!' then none
  else if c.peekAt 1 = ' ' then some ("!", c.next)
  else
    let (name, behind) := c.next.takeWhile isNameChar
    if behind.peek = '!' then some (String.ofList ('!' :: name ++ ['!']), behind.next) else none

def isUriChar (c : Char) : Bool :=
  isNameChar c || ";/?:@&=+$,.!~*'()[]".toList.contains c

def uriBytes : Nat → Cursor → Option (List UInt8) × Cursor
  | 0, c => (some [], c)
  | fuel + 1, c =>
    if c.peek = '%' then
      match ScalarText.hexValue? (c.peekAt 1), ScalarText.hexValue? (c.peekAt 2) with
      | some a, some b =>
        let (bytes, c) := uriBytes fuel (c.skip 3)
        (bytes.map (UInt8.ofNat (16 * a + b) :: ·), c)
      | _, _ => (none, c)
    else (some [], c)

def uriChars? : Nat → Cursor → Option (List Char × Cursor)
  | 0, _ => none
  | fuel + 1, c =>
    if c.peek = '%' then
      match uriBytes c.left c with
      | (some bytes, c) => do
        let part ← String.fromUTF8? ⟨bytes.toArray⟩
        let (others, c) ← uriChars? fuel c
        some (part.toList ++ others, c)
      | (none, _) => none
    else if isUriChar c.peek then
      (uriChars? fuel c.next).map fun (others, behind) => (c.peek :: others, behind)
    else some ([], c)

def uri? (c : Cursor) : Option (String × Cursor) := do
  let (cs, c) ← uriChars? (c.left + 1) c
  if cs.isEmpty then none else some (String.ofList cs, c)

def tag? (c : Cursor) : Option (Token × Cursor) := do
  let (text, c) ← (
    if c.peekAt 1 = '<' then do
      let (rest, c) ← uri? (c.skip 2)
      if c.peek = '>' then some (⟨none, rest⟩, c.next) else none
    else if isGap (c.peekAt 1) then some (⟨none, "!"⟩, c.next)
    else do
      let word := c.next.rest.takeWhile (!isSpaceOrEnd ·)
      let (handle, c) ← if word.contains '!' then tagHandle? c else some ("!", c.next)
      let (rest, c) ← uri? c
      some (⟨some handle, rest⟩, c) : Option (TagText × Cursor))
  if isSpaceOrEnd c.peek then some (.tag text, c) else none

def number? (c : Cursor) : Option (Nat × Cursor) :=
  let (ds, c) := c.takeWhile fun ch => '0' ≤ ch && ch ≤ '9'
  if ds.isEmpty then none
  else some (ds.foldl (fun n d => 10 * n + (d.toNat - '0'.toNat)) 0, c)

def versionDirective? (c : Cursor) : Option (Directive × Cursor) := do
  let (major, c) ← number? (c.dropWhile (· == ' '))
  if c.peek ≠ '.' then none
  else
    let (_, c) ← number? c.next
    if isSpaceOrEnd c.peek then some (.version major, c) else none

def tagDirective? (c : Cursor) : Option (Directive × Cursor) := do
  let (handle, c) ← tagHandle? (c.dropWhile (· == ' '))
  if c.peek ≠ ' ' then none
  else
    let (leader, c) ← uri? (c.dropWhile (· == ' '))
    if isSpaceOrEnd c.peek then some (.tag handle leader, c) else none

def directive? (s : Scan) : Option Scan := do
  let s ← dropKey? (s.unwind (-1))
  let (name, c) := s.cursor.next.takeWhile isNameChar
  if name.isEmpty || !isSpaceOrEnd c.peek then none
  else
    let (d, c) ←
      if name = ['Y', 'A', 'M', 'L'] then versionDirective? c
      else if name = ['T', 'A', 'G'] then tagDirective? c
      else some (.other, c.dropWhile (!isLineEnd ·))
    let c ← c.ignoredLine?
    some (((s.push (.directive d)).moveTo c).allowKey false)

def blockScalar? (folded : Bool) (s : Scan) : Option Scan := do
  let s ← (s.allowKey true).dropKey?
  let (text, c) ← ScalarText.block? folded s.indent s.cursor
  some ((s.push (.scalar .quoted (String.ofList text))).moveTo c)

def quotedScalar? (double : Bool) (s : Scan) : Option Scan :=
  s.withKey? fun c => (ScalarText.quoted? double c).map fun (codes, c) =>
    let style := if codes.any Text.isHalf then ScalarStyle.garbled else .quoted
    (.scalar style (String.ofList (codes.map Text.ofCode)), c)

/-- A plain scalar. Behind one that ended its line a key may begin. -/
def plainScalar? (s : Scan) : Option Scan := do
  let s ← s.saveKey?
  let (text, lineEnded, c) := ScalarText.plain (s.flow ≠ 0) s.indent s.cursor
  some (((s.push (.scalar .plain (String.ofList text))).moveTo c).allowKey lineEnded)

/-- A plain scalar begins with no indicator; a dash, a question mark and a colon will do
when something follows them. -/
def startsPlain (s : Scan) : Bool :=
  let ch := s.cursor.peek
  let indicators := "-?:,[]\x7b\x7d#&*!|>'\"%@\x60".toList
  !(isGap ch || indicators.contains ch) ||
    (!isGap (s.cursor.peekAt 1) && (ch == '-' || (s.flow = 0 && (ch == '?' || ch == ':'))))

def token? (s : Scan) : Option Scan :=
  let c := s.cursor
  let ch := c.peek
  let alone := isGap (c.peekAt 1)
  if ch = '%' && c.column = 0 then s.directive?
  else if c.column = 0 && c.isMarker '-' then s.marker? .documentStart
  else if c.column = 0 && c.isMarker '.' then s.marker? .documentEnd
  else if ch = '[' then s.flowStart? .flowSequenceStart
  else if ch = '\x7b' then s.flowStart? .flowMappingStart
  else if ch = ']' then s.flowEnd? .flowSequenceEnd
  else if ch = '\x7d' then s.flowEnd? .flowMappingEnd
  else if ch = ',' then s.flowEntry?
  else if ch = '-' && alone then s.blockEntry?
  else if ch = '?' && (s.flow ≠ 0 || alone) then s.key?
  else if ch = ':' && (s.flow ≠ 0 || alone) then s.value?
  else if ch = '*' then s.withKey? fun c => (name? c).map fun (n, c) => (.aliasOf n, c)
  else if ch = '&' then s.withKey? fun c => (name? c).map fun (n, c) => (.anchor n, c)
  else if ch = '!' then s.withKey? tag?
  else if ch = '|' && s.flow = 0 then s.blockScalar? false
  else if ch = '>' && s.flow = 0 then s.blockScalar? true
  else if ch = '\'' then s.quotedScalar? false
  else if ch = '"' then s.quotedScalar? true
  else if s.startsPlain then s.plainScalar?
  else none

/-- Every token takes at least one character. -/
def run? : Nat → Scan → Option (Array Token)
  | 0, _ => none
  | fuel + 1, s => do
    let s ← (toNextToken (s.cursor.left + 1) s).dropStale?
    let s := s.unwind s.cursor.column
    if s.cursor.rest.isEmpty then
      let s ← dropKey? (s.unwind (-1))
      some s.tokens
    else
      let s ← s.token?
      run? fuel s

end Scan

/-- The tokens of a text; a byte order mark at its front is dropped. -/
def Token.scan? (cs : List Char) : Option (Array Token) :=
  if cs.all isAllowed then
    let s := Scan.start cs
    let s := if s.cursor.peek = '\uFEFF' then s.moveTo s.cursor.next else s
    s.run? (cs.length + 1)
  else none

end PreferenceAccessors.Yaml
