import PreferenceAccessors.Config
import PreferenceAccessors.Element
import PreferenceAccessors.Sink

/-!
A generation session. It runs one pass: the config is read, every annotated
field and then every config line becomes a declaration, each declaration is
routed to its group, and the groups are written. A field is resolved only when
all before it have been routed. A refused declaration ends the pass with an
empty table; the pass may then be tried again. Once a pass has been written the
session is complete and a further run does nothing.
-/

namespace PreferenceAccessors

def defaultPackage : String := "com"

structure SourceRoot where
  name : String
  kind : ElementKind
  fields : List (Option Field)

abbrev ElementSource := List (Option SourceRoot)

def Elements.toSource (e : Elements) : ElementSource :=
  e.roots.map fun r => some ⟨r.name, r.kind, r.fields.map some⟩

inductive PassError
  | invalid (kind : Kind) (source : SourceField) (refusal : Refusal)
  | unsupported (source : SourceField) (tags : List String)
  | unnamed (key : String) (source : Option SourceField)
  | duplicate (key : String) (source : Option SourceField) (accessor group : String)
  | stated (message : String)
deriving DecidableEq

namespace PassError

def origin (source : Option SourceField) : String :=
  match source with
  | some s => s.text
  | none => "config"

def message : PassError → String
  | invalid kind source refusal =>
    "Invalid " ++ kind.name ++ " preference on " ++ source.text ++ ": " ++ refusal.summary
  | unsupported source tags =>
    "No supported preference annotation on " ++ source.text ++ " (found: " ++
      ", ".intercalate tags ++ "; supported: " ++ ", ".intercalate (Kind.all.map Kind.name) ++ ")"
  | unnamed key source =>
    "Key '" ++ key ++ "' (" ++ origin source ++ ") has no usable accessor name"
  | duplicate key source accessor group =>
    "Key '" ++ key ++ "' (" ++ origin source ++ ") duplicates accessor get" ++ accessor ++
      "() in " ++ group
  | stated message => message

end PassError

def Field.firstAnnotation? (f : Field) : Option (Kind × Annotation) :=
  Kind.all.findSome? fun k => (f.annotation? k.name).map fun a => (k, a)

def Annotation.keyOr (a : Annotation) (name : Label) : Label :=
  match a.key with
  | some k => if k.text = "" then name else k
  | none => name

def Annotation.valueFor (a : Annotation) (kind : Kind) : Value :=
  match a.default with
  | .null => (Default.zeroOf kind).toValue
  | v => v

def SourceRoot.sourceField (root : SourceRoot) (f : Field) : SourceField :=
  ⟨root.name, f.name.text⟩

def SourceRoot.validate (root : SourceRoot) (f : Field) (kind : Kind) (a : Annotation) :
    Except Refusal Declaration :=
  Declaration.make kind a.group (a.keyOr f.name) (a.valueFor kind) (some (root.sourceField f))

def SourceRoot.resolve (root : SourceRoot) (f : Field) : Except PassError Declaration :=
  match f.firstAnnotation? with
  | none => .error (.unsupported (root.sourceField f) f.tags)
  | some (kind, a) => (root.validate f kind a).mapError (.invalid kind (root.sourceField f))

/-- The declaration of a field; none when it has no annotation at all. -/
def SourceRoot.declare (root : SourceRoot) (f : Field) : Option (Except PassError Declaration) :=
  if f.annotations.isEmpty then none else some (root.resolve f)

def ElementSource.outcomes (source : ElementSource) : List (Except PassError Declaration) :=
  source.flatMap fun
    | some root =>
      if root.kind = .classElement then
        root.fields.filterMap fun
          | some f => if f.kind = .fieldElement then root.declare f else none
          | none => none
      else []
    | none => []

def collect : List (Except PassError Declaration) → Logged (List Declaration × Option PassError)
  | [] => pure ([], none)
  | .error e :: _ => do
    Logged.tell (.passRefused e.message)
    pure ([], some e)
  | .ok d :: rest => do
    let (ds, e) ← collect rest
    pure (d :: ds, e)

namespace GroupTable

def refuse (t : GroupTable) (e : PassError) : Logged (GroupTable × Option PassError) := do
  Logged.tell (.passRefused e.message)
  pure (t, some e)

def route (t : GroupTable) (d : Declaration) : Logged (GroupTable × Option PassError) := do
  let (group, t) ← t.ensure d.group
  let accessor := accessorName d.key
  if accessor = "" then t.refuse (.unnamed d.key d.source)
  else if group.hasAccessor accessor then
    t.refuse (.duplicate d.key d.source accessor group.name)
  else pure (t.append group.name d.fragment (some accessor), none)

def routeAll (t : GroupTable) :
    List (Except PassError Declaration) → Logged (GroupTable × Option PassError)
  | [] => pure (t, none)
  | .error e :: _ => t.refuse e
  | .ok d :: rest => do
    let (t, e) ← t.route d
    match e with
    | some e => pure (t, some e)
    | none => t.routeAll rest

end GroupTable

inductive Resource
  | refused (reason : String)
  | absent
  | handed (reading : Reading)

abbrev Resources := String → Resource

structure Session where
  configName : String
  package : String
  groups : GroupTable
  completed : Bool
deriving DecidableEq, Repr

inductive RunError
  | refused (error : PassError)
  | malformed (cause : Malformation)
deriving DecidableEq

def RunError.message : RunError → String
  | refused error => error.message
  | malformed cause => cause.message

structure Ran (σ : Type) where
  session : Session
  sink : σ
  outcome : Except RunError (List String)

namespace Session

def new (package configName : String) : Session :=
  ⟨configName, package, .empty, false⟩

/-- The config; one that cannot be opened is as good as absent. -/
def loadConfig (s : Session) : Option Resources → Logged Config
  | none => pure .empty
  | some resources => do
    Logged.tell (.resourceAsked s.configName)
    match resources s.configName with
    | .refused reason =>
      Logged.tell (.configRefused s.configName reason)
      pure .empty
    | .absent =>
      Logged.tell (.configAbsent s.configName)
      pure .empty
    | .handed reading =>
      Logged.tell (.resourceHanded s.configName)
      let config ← Config.ofReading reading
      Logged.tell (.resourceClosed s.configName)
      pure config

def route (s : Session) (d : Declaration) : Logged (Session × Option PassError) := do
  let (groups, e) ← s.groups.route d
  pure ({ s with groups }, e)

def run {σ : Type} (s : Session) (source : ElementSource) (resources : Option Resources)
    (sink : Sink σ) (state : σ) : Logged (Ran σ) := do
  if s.completed then
    Logged.tell .passSkipped
    pure ⟨s, state, .ok []⟩
  else
    let config ← s.loadConfig resources
    let package := config.package.getD s.package
    let (groups, e) ← GroupTable.empty.routeAll
      (source.outcomes ++ config.declarations.map .ok)
    match e with
    | some e => pure ⟨{ s with groups := .empty }, state, .error (.refused e)⟩
    | none =>
      Logged.tell (.writing groups.groups.length package)
      let (outcome, state) ← sink.writeGroups groups package state
      match outcome with
      | .ok names => pure ⟨⟨s.configName, package, groups, true⟩, state, .ok names⟩
      | .error cause =>
        pure ⟨⟨s.configName, package, groups, false⟩, state, .error (.malformed cause)⟩

end Session

end PreferenceAccessors
