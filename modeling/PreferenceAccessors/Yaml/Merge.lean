import PreferenceAccessors.Yaml.Node

/-!
Merge keys. The entry of a merge key is taken out of its mapping, and the
entries of what it names come to stand in front: those of a mapping, or those of
the mappings of a sequence from the last one on. What is merged has its own
merge keys resolved first. A value key becomes a text key, in every mapping that
has it.

Resolving a mapping changes the graph. When mappings merge one another, the
entries taken over are those that the other has at that moment; an entry taken
out is not seen again, so resolving comes to an end.
-/

namespace PreferenceAccessors.Yaml

abbrev Nodes := Array Node

namespace Nodes

def entries (nodes : Nodes) (id : NodeId) : List (NodeId × NodeId) :=
  match nodes[id]? with
  | some (.mapping _ entries) => entries
  | _ => []

def setEntries (nodes : Nodes) (id : NodeId) (entries : List (NodeId × NodeId)) : Nodes :=
  nodes.modify id fun
    | .mapping tag _ => .mapping tag entries
    | n => n

def tag (nodes : Nodes) (id : NodeId) : Tag :=
  match nodes[id]? with
  | some n => n.tag
  | none => .unknown

def retag (nodes : Nodes) (id : NodeId) (tag : Tag) : Nodes :=
  nodes.modify id fun
    | .scalar _ text garbled => .scalar tag text garbled
    | .sequence _ items => .sequence tag items
    | .mapping _ entries => .mapping tag entries

abbrev Resolve := Nodes → NodeId → Option Nodes

/-- The entries of mappings, resolved one after the other, those of the last one first. -/
def mergedItems? (resolve : Resolve) :
    List NodeId → Nodes → Option (List (NodeId × NodeId) × Nodes)
  | [], nodes => some ([], nodes)
  | item :: rest, nodes => match nodes[item]? with
    | some (.mapping _ _) => do
      let nodes ← resolve nodes item
      let own := nodes.entries item
      let (others, nodes) ← mergedItems? resolve rest nodes
      some (others ++ own, nodes)
    | _ => none

def merged? (resolve : Resolve) (nodes : Nodes) (id : NodeId) :
    Option (List (NodeId × NodeId) × Nodes) :=
  match nodes[id]? with
  | some (.mapping _ _) => (resolve nodes id).map fun nodes => (nodes.entries id, nodes)
  | some (.sequence _ items) => mergedItems? resolve items nodes
  | _ => none

def resolveFrom? (resolve : Resolve) (id : NodeId) :
    (count : Nat) → (index : Nat) → (front : List (NodeId × NodeId)) → Nodes → Option Nodes
  | 0, _, front, nodes => some (nodes.setEntries id (front ++ nodes.entries id))
  | count + 1, index, front, nodes =>
    let entries := nodes.entries id
    match entries[index]? with
    | none => resolveFrom? resolve id count index front nodes
    | some (k, v) => match nodes.tag k with
      | .merge => do
        let (own, nodes) ← merged? resolve (nodes.setEntries id (entries.eraseIdx index)) v
        resolveFrom? resolve id count index (front ++ own) nodes
      | .value => resolveFrom? resolve id count (index + 1) front (nodes.retag k .str)
      | _ => resolveFrom? resolve id count (index + 1) front nodes

/-- Resolves a mapping; every level of merging takes out an entry. -/
def resolve? : Nat → Resolve
  | 0, _, _ => none
  | fuel + 1, nodes, id =>
    let entries := nodes.entries id
    if entries.any fun e => nodes.tag e.1 = .merge ∨ nodes.tag e.1 = .value then
      resolveFrom? (resolve? fuel) id entries.length 0 [] nodes
    else some nodes

def entryCount (nodes : Nodes) : Nat :=
  nodes.foldl (fun count n => match n with
    | .mapping _ entries => count + entries.length
    | _ => count) 0

end Nodes

end PreferenceAccessors.Yaml
