import PreferenceAccessors.AccessorName
import PreferenceAccessors.Declaration

/-!
The Java getter and setter of one preference, with a comment line naming the
field they stand for when there is one. The text ends without a line feed.
-/

namespace PreferenceAccessors

structure Accessor where
  kind : Kind
  key : String
  literal : String
  source : Option SourceField

namespace Accessor

def comment (a : Accessor) : String :=
  match a.source with
  | some s => "  // " ++ s.text ++ "\n"
  | none => ""

def getter (a : Accessor) : String :=
  "  public static " ++ a.kind.javaType ++ " get" ++ accessorName a.key ++ "() \x7b\n" ++
  "    return sPreferences.get" ++ a.kind.storeMethod ++ "(" ++ JavaString.literal a.key ++
    ", " ++ a.literal ++ ");\n" ++
  "  \x7d"

def setter (a : Accessor) : String :=
  "  public static void set" ++ accessorName a.key ++ "(" ++ a.kind.javaType ++ " value) \x7b\n" ++
  "    sPreferences.edit().put" ++ a.kind.storeMethod ++ "(" ++ JavaString.literal a.key ++
    ", value).apply();\n" ++
  "  \x7d"

def text (a : Accessor) : String :=
  a.comment ++ a.getter ++ "\n\n" ++ a.setter

end Accessor

/-- The accessors of a declaration as another kind would write them. A source that is
given takes the place of the one declared. -/
def Kind.emit (k : Kind) (d : Declaration) (source : Option SourceField) :
    Except LiteralError String :=
  (k.literal d.default.toValue).map fun literal =>
    (⟨k, d.key, literal, source <|> d.source⟩ : Accessor).text

def Declaration.fragment (d : Declaration) : String :=
  (⟨d.kind, d.key, d.default.literal, d.source⟩ : Accessor).text

theorem Kind.emit_kind (d : Declaration) : d.kind.emit d none = .ok d.fragment := by
  simp [Kind.emit, Declaration.fragment, Declaration.kind, Default.literal_toValue, Except.map]

end PreferenceAccessors
