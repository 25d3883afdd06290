import PreferenceAccessors.Checked

/-!
Program elements with preference annotations: what an element file describes.
Only the shape is checked here. The default of an annotation stays untyped
until a declaration is made of it, and its kind is a free tag.
-/

namespace PreferenceAccessors

structure Annotation where
  group : String
  key : Option Label
  default : Value

/-- A member of a class; its annotations are in order, no tag twice. -/
structure Field where
  name : Label
  kind : ElementKind
  annotations : List (String × Annotation)

structure Root where
  name : String
  kind : ElementKind
  fields : List Field

structure Elements where
  roots : List Root

namespace Annotation

def check (v : Value) : Checked Annotation := do
  let entries ← Checked.entriesOf .annotationValues v
  let fields :=
    Checked.both (Checked.optional entries "pref_name" "" Checked.text) <|
    Checked.both (Checked.optional entries "key" none (Checked.nullable Checked.label)) <|
    Checked.optional entries "default" .null .ok
  fields.map fun (group, key, value) => ⟨group, key, value⟩

/-- How a key is named on the way to a problem: integers of 64 bits as they are, other keys
as shown, when they can be. -/
def placeOf : Value → Place
  | .text s => .named s
  | .garbled s => .named (Text.withReplacements s)
  | .int i =>
    if -0x8000000000000000 ≤ i ∧ i < 0x8000000000000000 then .at i
    else if (Value.int i).isShown then .named (toString i)
    else .named "<unprintable int object>"
  | .bool b => .at (if b then 1 else 0)
  | v => .named v.repr

/-- Two keys may be one tag; the last annotation then stands in the place of the first. -/
def insert (entry : String × Annotation) (entries : List (String × Annotation)) :
    List (String × Annotation) :=
  match entries.find? (·.1 == entry.1) with
  | some last => last :: entries.filter (·.1 != entry.1)
  | none => entry :: entries

def checkEntries : List (Value × Value) → Checked (List (String × Annotation))
  | [] => .ok []
  | (k, v) :: rest =>
    let tag := Checked.below (.named "[key]") (Checked.text k)
    let entry := Checked.below (placeOf k) (Checked.both tag (check v))
    (Checked.both entry (checkEntries rest)).map fun (e, es) => insert e es

def checkMapping : Value → Checked (List (String × Annotation))
  | .map entries => checkEntries entries
  | _ => Checked.refuse .noMapping

end Annotation

def ElementKind.check : Value → Checked ElementKind :=
  Checked.oneOf ElementKind.ofName? .noElementKind

namespace Field

def check (v : Value) : Checked Field := do
  let entries ← Checked.entriesOf .field v
  let fields :=
    Checked.both (Checked.required entries "name" Checked.label) <|
    Checked.both (Checked.optional entries "kind" .fieldElement ElementKind.check) <|
    Checked.optional entries "annotations" [] Annotation.checkMapping
  fields.map fun (name, kind, annotations) => ⟨name, kind, annotations⟩

def annotation? (f : Field) (tag : String) : Option Annotation :=
  (f.annotations.find? fun a => a.1 == tag).map (·.2)

def tags (f : Field) : List String :=
  f.annotations.map (·.1)

end Field

def Root.check (v : Value) : Checked Root := do
  let entries ← Checked.entriesOf .root v
  let fields :=
    Checked.both (Checked.required entries "name" Checked.text) <|
    Checked.both (Checked.optional entries "kind" .classElement ElementKind.check) <|
    Checked.optional entries "fields" [] (Checked.list Field.check)
  fields.map fun (name, kind, members) => ⟨name, kind, members⟩

namespace Elements

def check (v : Value) : Checked Elements := do
  let entries ← Checked.entriesOf .elements v
  (Checked.optional entries "roots" [] (Checked.list Root.check)).map fun roots => ⟨roots⟩

def ofValue (v : Value) : Except Refusal Elements :=
  (check v).mapError fun problems => ⟨.elements, problems⟩

end Elements

end PreferenceAccessors
