import PreferenceAccessors.Element
import PreferenceAccessors.OutputDirectory
import PreferenceAccessors.Text.Line
import PreferenceAccessors.Yaml.Document

/-!
Element files: YAML files that describe the classes of a build. A file has to
be there, be a regular file, and have one of two suffixes; anything wrong
with its bytes or its YAML is one error, a wrong shape another. A document that
counts as false is an empty description. In what a garbled file describes, any
text may have stand-ins.
-/

namespace PreferenceAccessors

inductive ElementFileError
  | absent (path : Path)
  | noFile (path : Path)
  | noYaml (path : Path)
  | unreadable
  | refused (file : String) (refusal : Refusal)
  | system (error : SystemError) (path : Path)
  | nulInPath
deriving DecidableEq

namespace ElementFileError

def message : ElementFileError → String
  | absent path => "Input file " ++ path.text ++ " does not exist"
  | noFile path => "Input file " ++ path.text ++ " is not a file"
  | noYaml path => "Input file " ++ path.text ++ " is not a YAML file"
  | unreadable => "Failed to load YAML file"
  | refused file _ => "Failed to validate " ++ file
  | system error path => error.message path
  | nulInPath => Malformation.nulInPath.message

end ElementFileError

structure ElementFile where
  elements : Elements
  isGarbled : Bool

namespace ElementFile

def suffixes : List String := [".yml", ".yaml"]

def find (cwd : Path) (t : FileTree) (path : Path) :
    Except ElementFileError (Path × ByteArray) := do
  let resolved := Path.resolve cwd path
  if path.hasNul then .error .nulInPath
  match t.status cwd resolved with
  | .error e => .error (.system e resolved)
  | .ok none => .error (.absent resolved)
  | .ok (some (.directory _)) => .error (.noFile resolved)
  | .ok (some (.file bytes)) =>
    if suffixes.contains resolved.suffix then .ok (resolved, bytes) else .error (.noYaml resolved)

def load (cwd : Path) (t : FileTree) (path : Path) :
    Logged (Except ElementFileError ElementFile) :=
  match find cwd t path with
  | .error e => pure (.error e)
  | .ok (path, bytes) => do
    Logged.tell (.elementsLoading path.text)
    match (Text.ofBytes? bytes).bind Yaml.Document.ofText? with
    | none => pure (.error .unreadable)
    | some d =>
      match Elements.ofValue (if d.value.isTrue then d.value else .map []) with
      | .ok elements => pure (.ok ⟨elements, d.isGarbled⟩)
      | .error refusal =>
        Logged.tell (.elementsRefused path.name refusal.summary)
        pure (.error (.refused path.name refusal))

end ElementFile

end PreferenceAccessors
