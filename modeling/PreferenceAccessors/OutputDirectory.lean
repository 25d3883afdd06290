import PreferenceAccessors.FileTree
import PreferenceAccessors.Sink

/-!
Files of qualified names in a directory: `a.b.Name` goes to `a/b/Name` and the
extension below it. The directory itself is made on first use, and only inside
a directory that is there; the directories below it are made as needed. A path
with a NUL character cannot be put to the system at all.

Names and texts may be garbled. A garbled name is no path, and of a garbled text
nothing is written, but its file is there by then.
-/

namespace PreferenceAccessors

structure OutputDirectory where
  path : Path
  extension : String
deriving DecidableEq, Repr

inductive OutputError
  | parentAbsent (parent : Path)
  | parentNoDirectory (parent : Path)
  | system (error : SystemError) (path : Path)
  | malformed (cause : Malformation)
deriving DecidableEq, Repr

namespace OutputError

def message : OutputError → String
  | parentAbsent parent => "Output directory " ++ parent.text ++ " does not exist"
  | parentNoDirectory parent => "Output directory " ++ parent.text ++ " is not a directory"
  | system error path => error.message path
  | malformed cause => cause.message

def toPutError (e : OutputError) : PutError :=
  match e with
  | malformed cause => .malformed cause
  | _ => .refused e.message

end OutputError

def Path.hasNul (p : Path) : Bool :=
  p.parts.any fun part => part.toList.contains '\x00'

namespace OutputDirectory

def defaultExtension : String := ".java"

/-- The path is resolved once; a NUL character in it is refused at once. -/
def open? (cwd path : Path) (extension : String) : Except OutputError OutputDirectory :=
  if path.hasNul then .error (.malformed .nulInPath) else .ok ⟨Path.resolve cwd path, extension⟩

def pathFor (d : OutputDirectory) (qualified : String) : Path :=
  let names := Text.splitAt '.' qualified
  (names.dropLast ++ [names.getLast?.getD "" ++ d.extension]).foldl
    (fun p name => p.join (Path.ofText name)) d.path

def root : Path := ⟨.absolute, []⟩

def ensure (d : OutputDirectory) (t : FileTree) : Logged (Except OutputError Path × FileTree) :=
  let parent := d.path.parent
  match t.status root parent with
  | .error e => pure (.error (.system e parent), t)
  | .ok none => pure (.error (.parentAbsent parent), t)
  | .ok (some (.file _)) => pure (.error (.parentNoDirectory parent), t)
  | .ok (some (.directory _)) => match t.status root d.path with
    | .error e => pure (.error (.system e d.path), t)
    | .ok (some _) => pure (.ok d.path, t)
    | .ok none => do
      Logged.tell (.directoryCreated d.path.text)
      match t.makeDirectory d.path.parts with
      | .ok t => pure (.ok d.path, t)
      | .error e => pure (.error (.system e d.path), t)

/-- Why a path cannot be put to the system; stand-ins count when it may be garbled. -/
def malformation? (garbled : Bool) (p : Path) : Option Malformation :=
  match if garbled then Text.Unencodable.ofPath? p.text else none with
  | some halves => some (.unencodable halves)
  | none => if p.hasNul then some .nulInPath else none

def prepare (t : FileTree) (target : Path) (garbled : Bool) :
    Except OutputError Unit × FileTree :=
  match malformation? garbled target.parent with
  | some cause => (.error (.malformed cause), t)
  | none =>
    if FileTree.isPathTooLong target.parent then
      (.error (.system .nameTooLong target.parent), t)
    else match t.makeDirectories [] target.parent.parts with
      | (.error e, t) => (.error (.system e target.parent), t)
      | (.ok (), t) => (.ok (), t)

def write (t : FileTree) (target : Path) (text : String) (garbled : Bool) :
    Except OutputError Unit × FileTree :=
  match malformation? garbled target with
  | some cause => (.error (.malformed cause), t)
  | none =>
    if FileTree.isPathTooLong target then (.error (.system .nameTooLong target), t)
    else
      let halves := if garbled then Text.Unencodable.ofText? text else none
      let bytes := if halves.isSome then .empty else text.toUTF8
      match t.write target.parts bytes with
      | .error e => (.error (.system e target), t)
      | .ok t => match halves with
        | some halves => (.error (.malformed (.unencodable halves)), t)
        | none => (.ok (), t)

def create (d : OutputDirectory) (t : FileTree) (qualified text : String) (garbled : Bool) :
    Logged (Except OutputError Unit × FileTree) := do
  match ← d.ensure t with
  | (.error e, t) => pure (.error e, t)
  | (.ok _, t) =>
    let target := d.pathFor qualified
    match prepare t target garbled with
    | (.error e, t) => pure (.error e, t)
    | (.ok (), t) =>
      Logged.tell (.fileOpened qualified target.text)
      pure (write t target text garbled)

def sink (d : OutputDirectory) (garbled : Bool) : Sink FileTree where
  put t qualified text := do
    let (outcome, t) ← d.create t qualified text garbled
    pure (outcome.mapError OutputError.toPutError, t)

end OutputDirectory

end PreferenceAccessors
