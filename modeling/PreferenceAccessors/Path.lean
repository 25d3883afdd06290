import PreferenceAccessors.Text.Pieces

/-!
Posix paths. A path is a root and a list of parts, none of them empty or a
single dot; two dots stay as a part until the path is resolved. Exactly two
slashes at the front are a root of their own. Joining starts again at a path
that has a root.
-/

namespace PreferenceAccessors

inductive PathRoot
  | relative
  | absolute
  | doubled
deriving DecidableEq, Repr

structure Path where
  root : PathRoot
  parts : List String
deriving DecidableEq, Repr

namespace Path

def rootOf : List Char → PathRoot
  | '/' :: '/' :: '/' :: _ => .absolute
  | '/' :: '/' :: _ => .doubled
  | '/' :: _ => .absolute
  | _ => .relative

def ofText (s : String) : Path :=
  ⟨rootOf s.toList, (Text.splitAt '/' s).filter fun part => part ≠ "" ∧ part ≠ "."⟩

def text (p : Path) : String :=
  let parts := "/".intercalate p.parts
  match p.root with
  | .relative => if p.parts = [] then "." else parts
  | .absolute => "/" ++ parts
  | .doubled => "//" ++ parts

def join (p q : Path) : Path :=
  match q.root with
  | .relative => ⟨p.root, p.parts ++ q.parts⟩
  | _ => q

def parent (p : Path) : Path :=
  ⟨p.root, p.parts.dropLast⟩

def name (p : Path) : String :=
  p.parts.getLast?.getD ""

def suffix (p : Path) : String :=
  let cs := p.name.toList
  let ending := (cs.reverse.takeWhile (· ≠ '.')).reverse
  let before := cs.length - ending.length
  if 1 < before ∧ ending ≠ [] then String.ofList ('.' :: ending) else ""

/-- Two dots take back the part before them; at the root they are dropped. -/
def collapse (parts : List String) : List String :=
  parts.foldl (fun done part => if part = ".." then done.dropLast else done ++ [part]) []

def resolve (cwd p : Path) : Path :=
  ⟨.absolute, collapse (cwd.join p).parts⟩

end Path

end PreferenceAccessors
