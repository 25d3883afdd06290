/-!
Lines of a text. Only a line feed ends a line; it is kept at the end of the
line it closes, and a text that ends without one still has its last line.
Reading a file first turns every CR LF and every other CR into a line feed.
-/

namespace PreferenceAccessors.Text

/-- The lines of a text, each with the line feed that closes it. -/
def splitLines : List Char → List (List Char)
  | [] => []
  | c :: rest =>
    if c = '\n' then [c] :: splitLines rest
    else match splitLines rest with
      | [] => [[c]]
      | line :: lines => (c :: line) :: lines

theorem flatten_splitLines (cs : List Char) : (splitLines cs).flatten = cs := by
  induction cs with
  | nil => rfl
  | cons c rest ih =>
    by_cases h : c = '\n'
    · simp [splitLines, h, ih]
    · cases hl : splitLines rest with
      | nil => simp_all [splitLines]
      | cons line lines => simp_all [splitLines]

/-- Every CR LF and every other CR becomes a line feed. -/
def unifyNewlines : List Char → List Char
  | [] => []
  | '\r' :: '\n' :: rest => '\n' :: unifyNewlines rest
  | c :: rest => (if c = '\r' then '\n' else c) :: unifyNewlines rest

def dropFinalNewline (cs : List Char) : List Char :=
  if cs.getLast? = some '\n' then cs.dropLast else cs

def lines (s : String) : List String :=
  (splitLines s.toList).map String.ofList

def ofBytes? (bytes : ByteArray) : Option String :=
  (String.fromUTF8? bytes).map fun s => String.ofList (unifyNewlines s.toList)

/-- Some continuation bytes make one character of these bytes, or would make half of a surrogate
pair. -/
def isUnfinishedChar (bytes : ByteArray) : Bool :=
  match bytes.toList with
  | [0xED, b] => 0x80 ≤ b && b ≤ 0xBF
  | _ => [1, 2, 3].any fun count => [0x80, 0xBF].any fun filler =>
    match String.fromUTF8? (bytes ++ ⟨(List.replicate count filler).toArray⟩) with
    | some s => s.length == 1
    | none => false

def beforeUnfinished? (bytes : ByteArray) : Option (List Char) :=
  [1, 2, 3].findSome? fun count =>
    let start := bytes.size - count
    if count ≤ bytes.size && isUnfinishedChar (bytes.extract start bytes.size) then
      (String.fromUTF8? (bytes.extract 0 start)).map String.toList
    else none

/-- The characters of bytes that more may follow; nothing when no bytes can mend them. -/
def charsSoFar? (bytes : ByteArray) : Option (List Char) :=
  match String.fromUTF8? bytes with
  | some s => some s.toList
  | none => beforeUnfinished? bytes

def blockSize : Nat := 8192

/-- The characters delivered before reading fails: bytes are decoded a block at a time, and a block
that cannot be decoded delivers nothing. -/
def charsDelivered (bytes : ByteArray) : List Char :=
  let ends := (List.range (bytes.size / blockSize)).map fun i => (i + 1) * blockSize
  let blocks := (ends ++ [bytes.size]).map fun count => charsSoFar? (bytes.extract 0 count)
  ((blocks.takeWhile Option.isSome).getLast?.join).getD []

/-- The lines that are closed for certain: a CR at the end may still be half of a CR LF. -/
def closedLines (cs : List Char) : List String :=
  let settled := if cs.getLast? = some '\r' then cs.dropLast else cs
  ((splitLines (unifyNewlines settled)).filter (·.getLast? = some '\n')).map String.ofList

end PreferenceAccessors.Text
