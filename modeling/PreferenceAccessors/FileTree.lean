import PreferenceAccessors.Path

/-!
A tree of directories and files, without links. Names lead down from the root;
two dots lead up again, but only out of a directory that is there. A name may
have 255 bytes, a path, as it is put to the system, 4095. A file may be written
over; a directory never becomes a file nor a file a directory.
-/

namespace PreferenceAccessors

inductive FileTree
  | file (bytes : ByteArray)
  | directory (entries : List (String × FileTree))

inductive SystemError
  | absent
  | present
  | notDirectory
  | isDirectory
  | nameTooLong
deriving DecidableEq, Repr

def SystemError.message (e : SystemError) (path : Path) : String :=
  let cause := match e with
    | absent => "[Errno 2] No such file or directory"
    | present => "[Errno 17] File exists"
    | notDirectory => "[Errno 20] Not a directory"
    | isDirectory => "[Errno 21] Is a directory"
    | nameTooLong => "[Errno 36] File name too long"
  cause ++ ": '" ++ path.text ++ "'"

namespace FileTree

def empty : FileTree := directory []

def isDirectory : FileTree → Bool
  | directory _ => true
  | file _ => false

def entry? (entries : List (String × FileTree)) (name : String) : Option FileTree :=
  (entries.find? (·.1 == name)).map (·.2)

def setEntry (entries : List (String × FileTree)) (name : String) (t : FileTree) :
    List (String × FileTree) :=
  if entries.any (·.1 == name) then entries.map fun e => if e.1 == name then (name, t) else e
  else entries ++ [(name, t)]

def isTooLong (name : String) : Bool :=
  255 < name.utf8ByteSize

def isPathTooLong (p : Path) : Bool :=
  4095 < p.text.utf8ByteSize

def find? (t : FileTree) : List String → Option FileTree
  | [] => some t
  | name :: rest => match t with
    | directory entries => match entry? entries name with
      | some child => child.find? rest
      | none => none
    | file _ => none

def put (t : FileTree) : List String → FileTree → FileTree
  | [], new => new
  | name :: rest, new => match t with
    | directory entries => match entry? entries name with
      | some child => directory (setEntry entries name (child.put rest new))
      | none => if rest = [] then directory (setEntry entries name new) else t
    | file _ => t

def follow (t : FileTree) : List String → List String → Except SystemError (List String)
  | done, [] => .ok done
  | done, name :: rest => match t.find? done with
    | some (directory _) =>
      if name = ".." then t.follow done.dropLast rest
      else if isTooLong name then .error .nameTooLong
      else t.follow (done ++ [name]) rest
    | some (file _) => .error .notDirectory
    | none => .error .absent

def status (t : FileTree) (cwd p : Path) : Except SystemError (Option FileTree) :=
  if isPathTooLong p then .error .nameTooLong
  else match t.follow [] (cwd.join p).parts with
    | .ok names => .ok (t.find? names)
    | .error .nameTooLong => .error .nameTooLong
    | .error _ => .ok none

def makeDirectory (t : FileTree) (names : List String) : Except SystemError FileTree := do
  let names ← t.follow [] names
  match t.find? names with
  | some _ => .error .present
  | none => .ok (t.put names empty)

def makeDirectories (t : FileTree) (done : List String) :
    List String → Except SystemError Unit × FileTree
  | [] => (.ok (), t)
  | name :: rest => match t.follow [] (done ++ [name]) with
    | .error e => (.error e, t)
    | .ok names => match t.find? names with
      | some (directory _) => t.makeDirectories (done ++ [name]) rest
      | some (file _) => (.error (if rest = [] then .present else .notDirectory), t)
      | none => (t.put names empty).makeDirectories (done ++ [name]) rest

def write (t : FileTree) (names : List String) (bytes : ByteArray) : Except SystemError FileTree := do
  let names ← t.follow [] names
  match t.find? names with
  | some (directory _) => .error .isDirectory
  | _ => .ok (t.put names (file bytes))

mutual

def list (above : List String) : FileTree → List (List String × Option ByteArray)
  | file bytes => [(above, some bytes)]
  | directory entries => (above, none) :: listEntries above entries

def listEntries (above : List String) :
    List (String × FileTree) → List (List String × Option ByteArray)
  | [] => []
  | (name, t) :: rest => t.list (above ++ [name]) ++ listEntries above rest

end

def changes (before after : FileTree) : List (List String × Option ByteArray) :=
  (after.list []).filter fun (names, content) =>
    match before.find? names, content with
    | some (file old), some new => old != new
    | some (directory _), none => false
    | _, _ => true

end FileTree

end PreferenceAccessors
