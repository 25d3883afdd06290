/-!
Ways without end in a finite graph, which is given by the neighbours of each
node. Nodes without neighbours are taken away, and then those that have none
left, until every node that remains has a neighbour that remains. From these a
way leads on without end, and from no other.
-/

namespace PreferenceAccessors.Yaml.Cycle

abbrev Neighbours := Array (List Nat)

def reversed (next : Neighbours) : Neighbours :=
  (List.range next.size).foldl (fun before id =>
    (next.getD id []).foldl (fun before other => before.modify other (id :: ·)) before)
    (Array.replicate next.size [])

/-- How many edges to nodes that remain each node has, once the nodes of a list are taken away
and all that follows from it. -/
def peel (before : Neighbours) : Nat → Array Nat → List Nat → Array Nat
  | 0, left, _ => left
  | _, left, [] => left
  | fuel + 1, left, id :: rest =>
    let (left, freed) := (before.getD id []).foldl (fun (left, freed) other =>
      match left.getD other 0 with
      | 1 => (left.setIfInBounds other 0, other :: freed)
      | n => (left.setIfInBounds other (n - 1), freed)) (left, [])
    peel before fuel left (freed ++ rest)

def isEndless (next before : Neighbours) : Array Bool :=
  let isolated := (List.range next.size).filter fun id => (next.getD id []).isEmpty
  (peel before (next.size + 1) (next.map List.length) isolated).map (0 < ·)

/-- The nodes on a way that has no end in either direction. Every cycle is made of such nodes. -/
def unending (next : Neighbours) : Array Bool :=
  let before := reversed next
  Array.zipWith (· && ·) (isEndless next before) (isEndless before next)

end PreferenceAccessors.Yaml.Cycle
