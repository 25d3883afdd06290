import PreferenceAccessors.CommandLine
import PreferenceAccessors.ElementFile
import PreferenceAccessors.SourcePath

/-!
The program over a file tree: a command line, a working directory and perhaps a
source path from the environment give an exit, a log and a new tree. Resources
are looked up in the directories of the command line, else in those of the
environment, else beside the input. With debugging on every notice is logged
and an error is passed on instead of ending in an exit code.

A flag that was left without a value fails where the value is wanted. Only the
package is not missed: there is none then.
-/

namespace PreferenceAccessors

inductive PathFlag
  | path
  | name
deriving DecidableEq, Repr

inductive ProgramError
  | elements (error : ElementFileError)
  | output (error : OutputError)
  | run (error : RunError)
  | valueMissing (flag : PathFlag)
deriving DecidableEq

def ProgramError.message : ProgramError → String
  | elements error => error.message
  | output error => error.message
  | run error => error.message
  | valueMissing .path => "expected str, bytes or os.PathLike object, not list"
  | valueMissing .name => "unsupported operand type(s) for /: 'PosixPath' and 'list'"

inductive Exit
  | help
  | usage (error : UsageError)
  | code (value : Nat)
  | raised (error : ProgramError)
deriving DecidableEq

namespace Program

structure Surroundings where
  cwd : Path
  sourcePath : Option String
  tree : FileTree

def pathOf : FlagValue → Except ProgramError Path
  | .text path => .ok (Path.ofText path)
  | .missing => .error (.valueMissing .path)

def outputPath (s : Surroundings) (o : Options) : Except ProgramError Path :=
  match o.output with
  | some path => pathOf path
  | none => .ok (s.cwd.join (Path.ofText "generated"))

def sourcePath (s : Surroundings) (input : Path) (o : Options) : Except ProgramError SourcePath :=
  if o.sourcePath ≠ [] then (o.sourcePath.mapM pathOf).map SourcePath.mk
  else match s.sourcePath with
    | some text => .ok (SourcePath.ofText s.cwd text)
    | none =>
      if input.hasNul then .error (.elements .nulInPath)
      else .ok ⟨[(Path.resolve s.cwd input).parent]⟩

def outputDirectory (s : Surroundings) (o : Options) : Except ProgramError OutputDirectory := do
  let path ← outputPath s o
  (OutputDirectory.open? s.cwd path OutputDirectory.defaultExtension).mapError .output

def session (o : Options) : Except ProgramError Session :=
  match o.configName with
  | .missing => .error (.valueMissing .name)
  | .text configName => .ok (match o.package with
    | .text package => .new package configName
    | .missing => .new "" configName)

/-- Without a package there is none to name, unless the config names one. -/
def packageNotice (o : Options) (n : Notice) : Notice :=
  match o.package, n with
  | .missing, .writing groups "" => .writingUnpackaged groups
  | _, n => n

def generate (s : Surroundings) (sources : SourcePath) (input : Path) (o : Options) :
    Logged (Except ProgramError (List String) × FileTree) := do
  match ← ElementFile.load s.cwd s.tree input with
  | .error e => pure (.error (.elements e), s.tree)
  | .ok file =>
    let ready := do
      let directory ← outputDirectory s o
      pure (directory, ← session o)
    match ready with
    | .error e => pure (.error e, s.tree)
    | .ok (directory, session) =>
      let ran ← session.run file.elements.toSource (some (sources.resources s.cwd s.tree))
        (directory.sink file.isGarbled) s.tree
      pure (ran.outcome.mapError .run, ran.sink)

def isLogged (debug : Bool) (n : Notice) : Bool :=
  match n.level? with
  | none => false
  | some .debug => debug
  | some _ => true

def run (s : Surroundings) (words : List String) : Logged (Exit × FileTree) :=
  match Request.parse words with
  | .error e => pure (.usage e, s.tree)
  | .ok .help => pure (.help, s.tree)
  | .ok (.generate input o) =>
    let path := Path.ofText input
    match sourcePath s path o with
    | .error e => pure (.raised e, s.tree)
    | .ok sources =>
      let r : Logged (Exit × FileTree) := do
        let (outcome, tree) ← generate s sources path o
        match outcome with
        | .ok names =>
          Logged.tell (.filesWritten names)
          Logged.tell (.finished 0)
          pure (.code 0, tree)
        | .error e =>
          Logged.tell (.generationFailed e.message)
          pure (if o.debug then .raised e else .code 1, tree)
      ⟨r.value, (r.log.map (packageNotice o)).filter (isLogged o.debug)⟩

end Program

end PreferenceAccessors
