import PreferenceAccessors.Yaml.Content
import PreferenceAccessors.Yaml.Cycle

/-!
The values of documents. A collection that holds itself has no value that ends.
Where a document is looked into, down to `lookedInto` levels, it is unrolled;
below that a collection stands for itself inside itself.
-/

namespace PreferenceAccessors.Yaml

namespace Content

def value (part : NodeId → Value) : Content → Value
  | scalar key => key.value
  | list items => .list (items.map part)
  | set members => .set members
  | pairs items => .list (items.map fun (a, b) => .pair (part a) (part b))
  -- No two of these keys are the same value, so every entry keeps its place.
  | map entries => .mapOf (entries.map fun (k, v) => (k, part v))

def isMapping : Content → Bool
  | map _ => true
  | _ => false

def parts : Content → List NodeId
  | list items => items
  | pairs items => items.flatMap fun (a, b) => [a, b]
  | map entries => entries.map (·.2)
  | _ => []

end Content

abbrev Contents := Array (Option Content)

namespace Contents

abbrev Known := Array (Option Value)

def unknown (g : Contents) : Known :=
  Array.replicate g.size none

def valueWith (known : Known) (c : Content) : Value :=
  c.value fun part => ((known[part]?).join).getD .null

/-- Makes known the value of a node inside some collections, each of which stands for itself.
What is known is known inside these very collections; only a collection that `mayRecur` need
ever be among them. -/
def learn (g : Contents) (mayRecur : Array Bool) :
    Nat → (around : List NodeId) → Known → NodeId → Known
  | 0, _, known, _ => known
  | fuel + 1, around, known, id =>
    match (known[id]?).join, (g[id]?).join with
    | none, some c =>
      let parts (around : List NodeId) (known : Known) : Known :=
        c.parts.foldl (g.learn mayRecur fuel around) known
      if around.contains id then known.setIfInBounds id (some (.itself c.isMapping))
      else if mayRecur.getD id false then
        known.setIfInBounds id (some (valueWith (parts (id :: around) g.unknown) c))
      else
        let known := parts around known
        known.setIfInBounds id (some (valueWith known c))
    | _, _ => known

def unroll (g : Contents) (known : Known) : Known :=
  g.map fun c => c.map (valueWith known)

/-- From the root of an element file down to the defaults of annotations. -/
def lookedInto : Nat := 7

/-- The value of a node. A way down meets no node twice before it ends. -/
def value? (g : Contents) (id : NodeId) : Option Value :=
  let mayRecur := Cycle.unending (g.map fun c => (c.map Content.parts).getD [])
  let learn := g.learn mayRecur (g.size + 2) []
  let known :=
    if mayRecur.contains true then
      Nat.repeat g.unroll lookedInto ((List.range g.size).foldl learn g.unknown)
    else learn g.unknown id
  (known[id]?).join

end Contents

structure Document where
  value : Value
  isGarbled : Bool

/-- The one document of a text; a text without a document is null. -/
def Document.ofText? (text : String) : Option Document := do
  let tokens ← Token.scan? text.toList
  match ← Graph.read? tokens.toList with
  | some g => some ⟨← Contents.value? (← g.contents?) g.root, g.nodes.any Node.isGarbled⟩
  | none => some ⟨.null, false⟩

end PreferenceAccessors.Yaml
