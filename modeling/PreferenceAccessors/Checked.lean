import PreferenceAccessors.Kind
import PreferenceAccessors.Number.Numeral
import PreferenceAccessors.Value

/-!
Checking untyped data against records. A check gives a value or every problem
found, in the order of the fields and depth first; a problem names its place by
field names, positions and keys. Bytes pass for the text that they are UTF-8 of
and sets for lists; there is no other conversion between types. Unknown entries
are ignored, and a field is checked only when it is there.
-/

namespace PreferenceAccessors

inductive RecordType
  | sourceField
  | declaration
  | annotationValues
  | field
  | root
  | elements
deriving DecidableEq, Repr

def RecordType.name : RecordType → String
  | sourceField => "SourceField"
  | declaration => "PreferenceDeclaration"
  | annotationValues => "PreferenceAnnotation"
  | field => "FieldElement"
  | root => "RootElement"
  | elements => "ElementsConfig"

inductive Place
  | named (name : String)
  | at (index : Int)
deriving DecidableEq, Repr

inductive Cause
  | missing
  | noText
  | notUnicode
  | emptyText
  | noKind
  | noElementKind
  | noList
  | noMapping
  | noRecord (type : RecordType)
  | badDefault (shown : String) (kind : Kind)
  | defaultNotShown
  | floatOutOfRange
deriving DecidableEq, Repr

namespace Cause

def code : Cause → String
  | missing => "missing"
  | noText => "string_type"
  | notUnicode => "string_unicode"
  | emptyText => "string_too_short"
  | noKind => "enum"
  | noElementKind => "enum"
  | noList => "list_type"
  | noMapping => "dict_type"
  | noRecord _ => "model_type"
  | badDefault _ _ => "value_error"
  | defaultNotShown => "value_error"
  | floatOutOfRange => "value_error"

def message : Cause → String
  | missing => "Field required"
  | noText => "Input should be a valid string"
  | notUnicode =>
    "Input should be a valid string, unable to parse raw data as a unicode string"
  | emptyText => "String should have at least 1 character"
  | noKind => "Input should be 'boolean', 'float', 'int', 'long' or 'string'"
  | noElementKind => "Input should be 'class', 'interface', 'field' or 'method'"
  | noList => "Input should be a valid list"
  | noMapping => "Input should be a valid dictionary"
  | noRecord type => "Input should be a valid dictionary or instance of " ++ type.name
  | badDefault shown kind =>
    "Value error, " ++ shown ++ " is not a valid " ++ kind.name ++ " default"
  | defaultNotShown => "Value error, " ++ Numeral.limitMessage none
  | floatOutOfRange => "Value error, default is out of range for a float"

end Cause

/-- A text, which as a name may also be a key; garbled, it can be no key. -/
structure Label where
  text : String
  isGarbled : Bool
deriving DecidableEq, Repr

structure Problem where
  path : List Place
  cause : Cause
deriving DecidableEq, Repr

abbrev Checked (α : Type) := Except (List Problem) α

namespace Checked

def refuse {α : Type} (cause : Cause) : Checked α :=
  .error [⟨[], cause⟩]

def below {α : Type} (place : Place) : Checked α → Checked α
  | .ok a => .ok a
  | .error problems => .error (problems.map fun p => ⟨place :: p.path, p.cause⟩)

def both {α β : Type} : Checked α → Checked β → Checked (α × β)
  | .ok a, .ok b => .ok (a, b)
  | .ok _, .error q => .error q
  | .error p, .ok _ => .error p
  | .error p, .error q => .error (p ++ q)

theorem both_eq_ok {α β : Type} {x : Checked α} {y : Checked β} {a : α} {b : β} :
    both x y = .ok (a, b) ↔ x = .ok a ∧ y = .ok b := by
  cases x <;> cases y <;> simp [both]

/-- Every element, or the problems of all; the place of an element is given by its position. -/
def each {α β : Type} (place : Nat → Place) (check : α → Checked β) :
    Nat → List α → Checked (List β)
  | _, [] => .ok []
  | i, a :: rest =>
    (both (below (place i) (check a)) (each place check (i + 1) rest)).map fun (b, bs) => b :: bs

def required {α : Type} (entries : List (Value × Value)) (name : String)
    (check : Value → Checked α) : Checked α :=
  below (.named name) (match Value.lookup entries name with
    | some v => check v
    | none => refuse .missing)

def optional {α : Type} (entries : List (Value × Value)) (name : String) (absent : α)
    (check : Value → Checked α) : Checked α :=
  below (.named name) (match Value.lookup entries name with
    | some v => check v
    | none => .ok absent)

def label : Value → Checked Label
  | .text s => .ok ⟨s, false⟩
  | .garbled s => .ok ⟨s, true⟩
  | .bytes b => match String.fromUTF8? b with
    | some s => .ok ⟨s, false⟩
    | none => refuse .notUnicode
  | _ => refuse .noText

def text (v : Value) : Checked String :=
  (label v).map Label.text

def oneOf {α : Type} (ofName? : String → Option α) (otherwise : Cause) (v : Value) : Checked α :=
  match v with
  | .garbled _ => refuse .notUnicode
  | _ => match label v with
    | .ok s => match ofName? s.text with
      | some a => .ok a
      | none => refuse otherwise
    | .error _ => refuse otherwise

def nullable {α : Type} (check : Value → Checked α) : Value → Checked (Option α)
  | .null => .ok none
  | v => (check v).map some

def list {α : Type} (check : Value → Checked α) : Value → Checked (List α)
  | .list items => each (fun i => .at i) check 0 items
  | .set members => each (fun i => .at i) check 0 members
  | _ => refuse .noList

def entriesOf (type : RecordType) : Value → Checked (List (Value × Value))
  | .map entries => .ok entries
  | _ => refuse (.noRecord type)

end Checked

structure Refusal where
  type : RecordType
  problems : List Problem
deriving DecidableEq, Repr

def Refusal.summary (r : Refusal) : String :=
  toString r.problems.length ++
    (if r.problems.length = 1 then " validation error for " else " validation errors for ") ++
    r.type.name

end PreferenceAccessors
