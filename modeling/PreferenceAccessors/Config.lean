import PreferenceAccessors.Declaration
import PreferenceAccessors.Log
import PreferenceAccessors.Text.Line
import PreferenceAccessors.Text.Pieces

/-!
The preference config: a text with an optional package directive on its first
line that is not blank, and one declaration a line. A data line has four fields
with commas between them: group, key, default and kind; only booleans and
floats can be given. A line that is anything else is skipped.

A reading is the lines that were delivered, and the reason why no more came, if
reading broke off. What was read before that is kept.
-/

namespace PreferenceAccessors

def defaultConfigName : String := "pref-annotation-config.conf"

/-- Lines in order, each with the line feed that closed it. -/
structure Reading where
  lines : List String
  failure : Option String
deriving DecidableEq, Repr

namespace Reading

def ofText (text : String) : Reading :=
  ⟨Text.lines text, none⟩

/-- Reading the line after the first `n` fails, also when there is none. -/
def failingAfter (n : Nat) (reason : String) (text : String) : Reading :=
  let lines := Text.lines text
  if n ≤ lines.length then ⟨lines.take n, some reason⟩ else ⟨lines, none⟩

def undecodable : String :=
  "'utf-8' codec can't decode bytes: invalid data"

/-- A file that is not UTF-8 fails once its lines before the bad bytes have been delivered. -/
def ofBytes (bytes : ByteArray) : Reading :=
  match Text.ofBytes? bytes with
  | some text => ofText text
  | none => ⟨Text.closedLines (Text.charsDelivered bytes), some undecodable⟩

end Reading

def readBoolean (s : String) : Bool :=
  s.toList.map Numeral.lower == ['t', 'r', 'u', 'e']

structure Config where
  package : Option String
  declarations : List Declaration
deriving DecidableEq

namespace Config

def empty : Config := ⟨none, []⟩

def readDefault? (kind text : String) : Option (Kind × Value) :=
  if kind = Kind.boolean.name then some (.boolean, .bool (readBoolean text))
  else if kind = Kind.float.name then
    match readFloat text with
    | .ok x => some (.float, .float x)
    | .error _ => none
  else none

def readLine? (line : String) : Option Declaration :=
  match Text.splitAt ',' line with
  | [group, key, text, kindName] => do
    let (kind, value) ← readDefault? kindName text
    (Declaration.make kind group ⟨key, false⟩ value none).toOption
  | _ => none

def dropLineEnd (line : String) : String :=
  String.ofList (Text.dropEndWhile (fun c => c == '\r' || c == '\n') line.toList)

def directive? (line : String) : Option (Option String) :=
  let cs := Text.trim line.toList
  let word := "package:".toList
  if word.isPrefixOf cs then
    let package := Text.strip (String.ofList (cs.drop word.length))
    some (if package = "" then none else some package)
  else none

/-- Reads on from a line; `started` is false until a line that is not blank has come. -/
def readLines : (started : Bool) → Config → List String → Logged Config
  | _, c, [] => pure c
  | started, c, raw :: rest => do
    let line := dropLineEnd raw
    if !started && Text.isBlankText line then readLines false c rest
    else match if started then none else directive? line with
      | some package =>
        Logged.tell (.packageRead package)
        readLines true ⟨package, c.declarations⟩ rest
      | none =>
        readLines true ⟨c.package, c.declarations ++ (readLine? line).toList⟩ rest

def ofReading (r : Reading) : Logged Config := do
  let c ← readLines false empty r.lines
  match r.failure with
  | some reason =>
    Logged.tell (.configUnreadable reason)
    pure c
  | none => pure c

end Config

end PreferenceAccessors
