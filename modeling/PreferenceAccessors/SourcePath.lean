import PreferenceAccessors.OutputDirectory
import PreferenceAccessors.Session

/-!
The source path: directories in which resources are looked up by name, in
order. The first regular file of the name is read; directories and anything
that is not there are passed over.
-/

namespace PreferenceAccessors

structure SourcePath where
  paths : List Path
deriving DecidableEq, Repr

namespace SourcePath

/-- Directories with colons between them. Empty ones are left out; with none left it is the
working directory. -/
def ofText (cwd : Path) (s : String) : SourcePath :=
  match (Text.splitAt ':' s).filter (· ≠ "") with
  | [] => ⟨[cwd]⟩
  | items => ⟨items.map Path.ofText⟩

def find? (cwd : Path) (t : FileTree) (name : String) :
    List Path → Except (SystemError × Path) (Option ByteArray)
  | [] => .ok none
  | path :: rest =>
    let candidate := path.join (Path.ofText name)
    if candidate.hasNul then find? cwd t name rest
    else match t.status cwd candidate with
      | .error e => .error (e, candidate)
      | .ok (some (.file bytes)) => .ok (some bytes)
      | .ok _ => find? cwd t name rest

def resources (s : SourcePath) (cwd : Path) (t : FileTree) : Resources := fun name =>
  match find? cwd t name s.paths with
  | .error (e, path) => .refused (e.message path)
  | .ok none => .absent
  | .ok (some bytes) => .handed (Reading.ofBytes bytes)

end SourcePath

end PreferenceAccessors
