import PreferenceAccessors.Yaml.Cursor

/-!
The texts of scalars. Quoted and plain scalars fold a single break into a space
and keep the breaks after it; a block scalar keeps its lines or folds them, and
its end is chomped, clipped or kept. Each reader gives the text and the place
behind it, or nothing when the scalar is malformed.

An escape may name any code point, so quoted scalars are read as code points.

Loops run on a count of characters left, which no loop uses up.
-/

namespace PreferenceAccessors.Yaml.ScalarText

/-- Blank lines and the white space before the next text; a document marker is refused. -/
def foldedBreaks? : Nat → Cursor → Option (List Char × Cursor)
  | 0, _ => none
  | fuel + 1, c =>
    if c.isDocumentMarker then none
    else
      let c := c.dropWhile isWhite
      match c.lineBreak? with
      | some (b, c) => (foldedBreaks? fuel c).map fun (bs, c) => (b :: bs, c)
      | none => some ([], c)

def fold (first : Char) (others : List Char) : List Char :=
  if first ≠ '\n' then first :: others
  else if others.isEmpty then [' ']
  else others

def quotedSpaces? (c : Cursor) : Option (List Char × Cursor) :=
  let (spaces, c) := c.takeWhile isWhite
  if c.rest.isEmpty then none
  else match c.lineBreak? with
    | none => some (spaces, c)
    | some (b, c) => do
      let (bs, c) ← foldedBreaks? (c.left + 1) c
      some (fold b bs, c)

def simpleEscape? : Char → Option Char
  | '0' => some '\x00'
  | 'a' => some '\x07'
  | 'b' => some '\x08'
  | 't' => some '\t'
  | '\t' => some '\t'
  | 'n' => some '\n'
  | 'v' => some '\x0b'
  | 'f' => some '\x0c'
  | 'r' => some '\r'
  | 'e' => some '\x1b'
  | ' ' => some ' '
  | '"' => some '"'
  | '\\' => some '\\'
  | '/' => some '/'
  | 'N' => some '\x85'
  | '_' => some '\xa0'
  | 'L' => some '\u2028'
  | 'P' => some '\u2029'
  | _ => none

def codeLength? : Char → Option Nat
  | 'x' => some 2
  | 'u' => some 4
  | 'U' => some 8
  | _ => none

def hexValue? (c : Char) : Option Nat :=
  if '0' ≤ c ∧ c ≤ '9' then some (c.toNat - '0'.toNat)
  else if 'a' ≤ c ∧ c ≤ 'f' then some (c.toNat - 'a'.toNat + 10)
  else if 'A' ≤ c ∧ c ≤ 'F' then some (c.toNat - 'A'.toNat + 10)
  else none

def codeOfHex? (n : Nat) (ds : List Char) : Option Nat := do
  let code ← ds.foldlM (fun acc d => (hexValue? d).map (16 * acc + ·)) 0
  if ds.length = n ∧ code < 0x110000 then some code else none

def codes (cs : List Char) : List Nat :=
  cs.map Char.toNat

def escape? (c : Cursor) : Option (List Nat × Cursor) :=
  match simpleEscape? c.peek, codeLength? c.peek, c.lineBreak? with
  | some ch, _, _ => some ([ch.toNat], c.next)
  | none, some n, _ => (codeOfHex? n (c.next.rest.take n)).map fun code => ([code], c.next.skip n)
  | none, none, some (_, c) => (foldedBreaks? (c.left + 1) c).map fun (bs, c) => (codes bs, c)
  | none, none, none => none

def quotedRest? (double : Bool) : Nat → Cursor → Option (List Nat × Cursor)
  | 0, _ => none
  | fuel + 1, c =>
    if c.rest.isEmpty then none
    else
      let ch := c.peek
      let go (part : List Nat × Cursor) : Option (List Nat × Cursor) :=
        (quotedRest? double fuel part.2).map fun (text, c) => (part.1 ++ text, c)
      if ch = (if double then '"' else '\'') then
        if !double && c.peekAt 1 = '\'' then go ([ch.toNat], c.skip 2) else some ([], c.next)
      else if double && ch = '\\' then (escape? c.next).bind go
      else if isWhite ch || isBreak ch then
        (quotedSpaces? c).bind fun (spaces, c) => go (codes spaces, c)
      else go ([ch.toNat], c.next)

def quoted? (double : Bool) (c : Cursor) : Option (List Nat × Cursor) :=
  quotedRest? double c.left c.next

def plainRun (inFlow : Bool) : List Char → List Char
  | [] => []
  | ch :: rest =>
    let after := rest.headD '\x00'
    let ends :=
      isGap ch ||
      (ch == ':' && (isGap after || (inFlow && [',', '[', ']', '\x7b', '\x7d'].contains after))) ||
      (inFlow && [',', '?', '[', ']', '\x7b', '\x7d'].contains ch)
    if ends then [] else ch :: plainRun inFlow rest

/-- Breaks and spaces between the lines of a plain scalar; nothing before a document marker. -/
def plainBreaks? : Nat → Cursor → Option (List Char) × Cursor
  | 0, c => (some [], c)
  | fuel + 1, c =>
    if c.isDocumentMarker then (none, c)
    else
      let c := c.dropWhile (· == ' ')
      match c.lineBreak? with
      | some (b, c) =>
        let (bs, c) := plainBreaks? fuel c
        (bs.map (b :: ·), c)
      | none => (some [], c)

def plainSpaces (c : Cursor) : List Char × Bool × Cursor :=
  let (spaces, c) := c.takeWhile (· == ' ')
  match c.lineBreak? with
  | none => (spaces, false, c)
  | some (b, c) =>
    match plainBreaks? (c.left + 1) c with
    | (some bs, c) => (fold b bs, true, c)
    | (none, c) => ([], true, c)

/-- The runs of a plain scalar from here on, and whether its end begins a line. -/
def plainRuns (inFlow : Bool) (indent : Int) :
    Nat → (spaces : List Char) → (lineEnded : Bool) → Cursor → List Char × Bool × Cursor
  | 0, _, lineEnded, c => ([], lineEnded, c)
  | fuel + 1, spaces, lineEnded, c =>
    let run := if c.peek = '#' then [] else plainRun inFlow c.rest
    if run.isEmpty then ([], lineEnded, c)
    else
      let (gap, ended, c) := plainSpaces (c.skip run.length)
      if gap.isEmpty || c.peek = '#' || (!inFlow && (c.column : Int) < indent) then
        (spaces ++ run, ended, c)
      else
        let (text, ended, c) := plainRuns inFlow indent fuel gap ended c
        (spaces ++ run ++ text, ended, c)

def plain (inFlow : Bool) (indent : Int) (c : Cursor) : List Char × Bool × Cursor :=
  plainRuns inFlow (indent + 1) (c.left + 1) [] false c

inductive Chomping
  | strip
  | clip
  | keep
deriving DecidableEq, Repr

def chomping? : Char → Option Chomping
  | '+' => some .keep
  | '-' => some .strip
  | _ => none

def increment? (c : Char) : Option Nat :=
  if '0' ≤ c ∧ c ≤ '9' then some (c.toNat - '0'.toNat) else none

/-- The indicators of a block scalar, in either order; an increment is never zero. -/
def blockHeader? (c : Cursor) : Option (Chomping × Option Nat × Cursor) :=
  let header : Chomping × Option Nat × Cursor :=
    match chomping? c.peek with
    | some chomping => match increment? c.next.peek with
      | some n => (chomping, some n, c.skip 2)
      | none => (chomping, none, c.next)
    | none => match increment? c.peek with
      | some n => match chomping? c.next.peek with
        | some chomping => (chomping, some n, c.skip 2)
        | none => (.clip, some n, c.next)
      | none => (.clip, none, c)
  let (chomping, increment, c) := header
  if increment = some 0 || !isSpaceOrEnd c.peek then none
  else c.ignoredLine?.map fun c => (chomping, increment, c)

/-- Blank lines before the first text line, and the widest run of spaces among them. -/
def leadingBlank : Nat → Nat → Cursor → List Char × Nat × Cursor
  | 0, widest, c => ([], widest, c)
  | fuel + 1, widest, c =>
    let c := c.dropWhile (· == ' ')
    let widest := max widest c.column
    match c.lineBreak? with
    | some (b, c) =>
      let (bs, widest, c) := leadingBlank fuel widest c
      (b :: bs, widest, c)
    | none => ([], widest, c)

def dropIndent (indent : Nat) (c : Cursor) : Cursor :=
  c.skip (min (indent - c.column) (c.rest.takeWhile (· == ' ')).length)

def blockBreaks (indent : Nat) : Nat → Cursor → List Char × Cursor
  | 0, c => ([], c)
  | fuel + 1, c =>
    let c := dropIndent indent c
    match c.lineBreak? with
    | some (b, c) =>
      let (bs, c) := blockBreaks indent fuel c
      (b :: bs, c)
    | none => ([], c)

def blockLines (folded : Bool) (chomping : Chomping) (indent : Nat) :
    Nat → (before : List Char) → Cursor → List Char × Cursor
  | 0, _, c => ([], c)
  | fuel + 1, before, c =>
    let isText (c : Cursor) : Bool := !isWhite c.peek
    let (line, behind) := c.takeWhile (!isLineEnd ·)
    let (lineBreak, behind) := match behind.lineBreak? with
      | some (b, behind) => ([b], behind)
      | none => ([], behind)
    let (breaks, behind) := blockBreaks indent (behind.left + 1) behind
    let text := before ++ line
    if behind.column = indent && !behind.rest.isEmpty then
      let joint :=
        if folded && lineBreak == ['\n'] && isText c && isText behind then
          if breaks.isEmpty then [' '] else []
        else lineBreak
      let (others, behind) := blockLines folded chomping indent fuel (joint ++ breaks) behind
      (text ++ others, behind)
    else
      match chomping with
      | .strip => (text, behind)
      | .clip => (text ++ lineBreak, behind)
      | .keep => (text ++ lineBreak ++ breaks, behind)

def block? (folded : Bool) (outer : Int) (c : Cursor) : Option (List Char × Cursor) := do
  let (chomping, increment, c) ← blockHeader? c.next
  let least := max 1 (outer + 1).toNat
  let fuel := c.left + 1
  let (breaks, indent, c) := match increment with
    | some n =>
      let indent := least + n - 1
      let (breaks, c) := blockBreaks indent fuel c
      (breaks, indent, c)
    | none =>
      let (breaks, widest, c) := leadingBlank fuel 0 c
      (breaks, max least widest, c)
  if c.column = indent && !c.rest.isEmpty then
    some (blockLines folded chomping indent fuel breaks c)
  else if chomping = .keep then some (breaks, c)
  else some ([], c)

end PreferenceAccessors.Yaml.ScalarText
