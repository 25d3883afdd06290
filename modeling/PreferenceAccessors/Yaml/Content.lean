import PreferenceAccessors.SetOrder
import PreferenceAccessors.Yaml.Merge
import PreferenceAccessors.Yaml.Scalar

/-!
The contents of nodes. A scalar has a value; a collection has the numbers of
what it holds, but keys and members by value. Collections are filled in the
order in which they are met, one after the other, so a collection may hold
itself. A node that is not reached from the root has no content, and need have
none.

Collections are no keys. Equal keys are one; NaN is not equal to itself, but a
node is the key that it is, and all NaNs that are named are one.
-/

namespace PreferenceAccessors.Yaml

/-- What makes a key, apart from its value, the same as another. -/
inductive KeyIdentity
  | node (id : NodeId)
  | namedNaN
deriving DecidableEq, Repr

structure Key where
  value : Value
  identity : KeyIdentity

namespace Key

def same (a b : Key) : Bool :=
  a.identity == b.identity || a.value.sameKey b.value

end Key

inductive Content
  | scalar (key : Key)
  | list (items : List NodeId)
  | set (members : List Value)
  | pairs (items : List (NodeId × NodeId))
  | map (entries : List (Value × NodeId))

/-- How far reading has come: the nodes as they are now, how deep merging may go, the contents
known, and the collections still to be filled. -/
structure Filling where
  nodes : Nodes
  mergeDepth : Nat
  contents : Array (Option Content)
  waiting : List NodeId

abbrev Fill := StateT Filling Option

namespace Fill

def refuse {α : Type} : Fill α := fun _ => none

def node (id : NodeId) : Fill Node := fun s => (s.nodes[id]?).map (·, s)

def setContent (id : NodeId) (c : Content) : Fill Unit := fun s =>
  some ((), { s with contents := s.contents.setIfInBounds id (some c) })

def content? (id : NodeId) : Fill (Option Content) := fun s =>
  some ((s.contents[id]?).join, s)

/-- The text of a scalar. A mapping stands for the scalar under its first value key. -/
def scalarText (nodes : Nodes) : Nat → NodeId → Option (String × Bool)
  | 0, _ => none
  | fuel + 1, id => match nodes[id]? with
    | some (.scalar _ text garbled) => some (text, garbled)
    | some (.mapping _ entries) =>
      (entries.find? fun e => nodes.tag e.1 = .value).bind fun e => scalarText nodes fuel e.2
    | _ => none

def scalar (id : NodeId) : Fill Key := fun s => do
  let n ← s.nodes[id]?
  let (text, garbled) ← scalarText s.nodes (s.nodes.size + 1) id
  match n.tag, n with
  | .timestamp, .mapping _ _ => none
  | tag, _ =>
    let value ← Scalar.value? tag text garbled
    let isNamed := tag = .float ∧ Scalar.isNaNName text
    some (⟨value, if isNamed then .namedNaN else .node id⟩, s)

def hollow? : Tag → Option Content
  | .seq => some (.list [])
  | .map => some (.map [])
  | .set => some (.set [])
  | .omap => some (.pairs [])
  | .pairs => some (.pairs [])
  | _ => none

/-- Meets a node: a scalar is read at once, a collection waits to be filled. -/
def meet (id : NodeId) : Fill Content := do
  match ← content? id with
  | some c => pure c
  | none =>
    let n ← node id
    match hollow? n.tag with
    | some c =>
      setContent id c
      modify fun s => { s with waiting := id :: s.waiting }
      pure c
    | none =>
      let c := Content.scalar (← scalar id)
      setContent id c
      pure c

def meetAll : List NodeId → Fill Unit
  | [] => pure ()
  | id :: rest => do
    let _ ← meet id
    meetAll rest

def meetPair (entry : NodeId × NodeId) : Fill Unit := do
  let _ ← meet entry.1
  let _ ← meet entry.2

def meetKey (id : NodeId) : Fill Key := do
  match ← meet id with
  | .scalar key => pure key
  | _ => refuse

def entries (sofar : List (Key × NodeId)) :
    List (NodeId × NodeId) → Fill (List (Key × NodeId))
  | [] => pure sofar
  | (k, v) :: rest => do
    let key ← meetKey k
    let _ ← meet v
    entries (Value.insertEntry Key.same sofar key v) rest

def mapping (id : NodeId) : Fill (List (Key × NodeId)) := do
  match ← node id with
  | .mapping _ _ =>
    let s ← get
    match s.nodes.resolve? s.mergeDepth id with
    | some nodes =>
      modify fun s => { s with nodes }
      entries [] (nodes.entries id)
    | none => refuse
  | _ => refuse

def pairs : List NodeId → Fill (List (NodeId × NodeId))
  | [] => pure []
  | id :: rest => do
    match ← node id with
    | .mapping _ [entry] =>
      meetPair entry
      pure (entry :: (← pairs rest))
    | _ => refuse

def fill (id : NodeId) : Fill Unit := do
  let n ← node id
  match n.tag, n with
  | .seq, .sequence _ items =>
    meetAll items
    setContent id (.list items)
  | .map, .mapping _ _ => do
    let entries ← mapping id
    setContent id (.map (entries.map fun (key, value) => (key.value, value)))
  | .set, .mapping _ _ => do
    let entries ← mapping id
    setContent id (.set (SetOrder.arrange (entries.map (·.1.value))))
  | .omap, .sequence _ items | .pairs, .sequence _ items => do
    setContent id (.pairs (← pairs items))
  | _, _ => refuse

def fillAll : Nat → List NodeId → Fill Unit
  | 0, _ => refuse
  | fuel + 1, [] => do
    let met := (← get).waiting.reverse
    if met.isEmpty then pure ()
    else
      modify fun s => { s with waiting := [] }
      fillAll fuel met
  | fuel + 1, id :: rest => do
    fill id
    fillAll fuel rest

end Fill

def Graph.contents? (g : Graph) : Option (Array (Option Content)) := do
  let count := g.nodes.size
  let start : Filling := ⟨g.nodes, Nodes.entryCount g.nodes + 1, Array.replicate count none, []⟩
  let run : Fill Unit := do
    let _ ← Fill.meet g.root
    Fill.fillAll (2 * count + 2) []
  let (_, s) ← run start
  some s.contents

end PreferenceAccessors.Yaml
