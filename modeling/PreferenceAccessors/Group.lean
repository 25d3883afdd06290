import PreferenceAccessors.Accessor
import PreferenceAccessors.Log
import PreferenceAccessors.Text.Blank

/-!
Preference groups. A group becomes one Java class: a preamble bound to its name
and the fragments in the order in which they came. A table keeps the groups of
a pass in the order in which they were first asked for; a blank name asks for
the default group.
-/

namespace PreferenceAccessors

def defaultGroupName : String := "DefaultPrefHelper"

structure Group where
  name : String
  fragments : List String
  accessors : List String
deriving DecidableEq, Repr

namespace Group

def new (name : String) : Group := ⟨name, [], []⟩

def preamble (g : Group) : String :=
  "public final class " ++ g.name ++ " \x7b\n" ++
  "  private static final SharedPreferences sPreferences = " ++
    "(SharedPreferences) ProviderContext.getInstance().get(" ++ JavaString.literal g.name ++ ");"

def hasAccessor (g : Group) (accessor : String) : Bool :=
  g.accessors.contains accessor

/-- Adds a fragment; an empty accessor name is not recorded. -/
def append (g : Group) (fragment : String) (accessor : Option String) : Group :=
  ⟨g.name, g.fragments ++ [fragment], match accessor with
    | some a => if a = "" ∨ a ∈ g.accessors then g.accessors else g.accessors ++ [a]
    | none => g.accessors⟩

def render (g : Group) (package : String) : String :=
  (if package = "" then "" else "package " ++ package ++ ";\n\n") ++
  g.preamble ++ "\n" ++
  String.join (g.fragments.map fun fragment => "\n" ++ fragment ++ "\n") ++
  "\x7d\n"

def repr (g : Group) : String :=
  "PreferenceGroup(" ++ Text.quoted g.name ++ ", " ++ toString g.fragments.length ++ " fragments)"

end Group

def qualifiedName (package group : String) : String :=
  if package = "" then group else package ++ "." ++ group

structure GroupTable where
  groups : List Group
deriving DecidableEq, Repr

namespace GroupTable

def empty : GroupTable := ⟨[]⟩

def resolve (name : String) : String :=
  if Text.isBlankText name then defaultGroupName else name

def names (t : GroupTable) : List String :=
  t.groups.map Group.name

def find? (t : GroupTable) (name : String) : Option Group :=
  t.groups.find? (·.name == name)

def contains (t : GroupTable) (name : String) : Bool :=
  t.names.contains name

def ensure (t : GroupTable) (name : String) : Logged (Group × GroupTable) :=
  match t.find? (resolve name) with
  | some g => pure (g, t)
  | none => do
    let g := Group.new (resolve name)
    Logged.tell (.groupCreated g.name)
    pure (g, ⟨t.groups ++ [g]⟩)

def modify (t : GroupTable) (name : String) (f : Group → Group) : GroupTable :=
  ⟨t.groups.map fun g => if g.name = name then f g else g⟩

def append (t : GroupTable) (name fragment : String) (accessor : Option String) : GroupTable :=
  t.modify name (·.append fragment accessor)

theorem names_append (t : GroupTable) (name fragment : String) (accessor : Option String) :
    (t.append name fragment accessor).names = t.names := by
  simp only [append, modify, names, List.map_map]
  apply List.map_congr_left
  intro g _
  simp only [Function.comp]
  split <;> rfl

end GroupTable

end PreferenceAccessors
