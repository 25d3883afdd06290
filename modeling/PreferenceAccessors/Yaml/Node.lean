import PreferenceAccessors.Yaml.Tag
import PreferenceAccessors.Yaml.Token

/-!
The nodes of a document, a graph: a node refers to others by number, and an
alias is the number of the node that its anchor names. Every node has a tag,
given or found by its form. A collection has its number before what it holds
is read, so it may come to hold itself.

`Graph.read?` gives the one document of a token sequence, or no document when
there is none; a second document, an unknown anchor, an anchor used twice and
collections nested too deeply are refused.
-/

namespace PreferenceAccessors.Yaml

abbrev NodeId := Nat

inductive Node
  | scalar (tag : Tag) (text : String) (garbled : Bool)
  | sequence (tag : Tag) (items : List NodeId)
  | mapping (tag : Tag) (entries : List (NodeId × NodeId))
deriving DecidableEq, Repr

namespace Node

def tag : Node → Tag
  | scalar tag _ _ => tag
  | sequence tag _ => tag
  | mapping tag _ => tag

def isGarbled : Node → Bool
  | scalar _ _ garbled => garbled
  | _ => false

end Node

structure Graph where
  nodes : Array Node
  root : NodeId

/-- Tokens still to be read, the tag handles of the document, the nodes so far, and the anchors
seen. -/
structure Source where
  tokens : List Token
  handles : List (String × String)
  nodes : Array Node
  anchors : List (String × NodeId)

abbrev Build := StateT Source Option

namespace Build

def refuse {α : Type} : Build α := fun _ => none

def peek : Build (Option Token) := fun s => some (s.tokens.head?, s)

def advance : Build Unit := fun s => some ((), { s with tokens := s.tokens.drop 1 })

def accept (t : Token) : Build Bool := fun s =>
  if s.tokens.head? = some t then some (true, { s with tokens := s.tokens.drop 1 })
  else some (false, s)

def expect (t : Token) : Build Unit := do
  if ← accept t then pure () else refuse

def sees (ts : List Token) : Build Bool := fun s =>
  some (match s.tokens.head? with
    | some t => ts.contains t
    | none => false, s)

def anchorName? : Build (Option String) := fun s =>
  match s.tokens with
  | .anchor name :: rest => some (some name, { s with tokens := rest })
  | _ => some (none, s)

def tagText? : Build (Option TagText) := fun s =>
  match s.tokens with
  | .tag text :: rest => some (some text, { s with tokens := rest })
  | _ => some (none, s)

def properties : Build (Option String × Option TagText) := do
  match ← anchorName? with
  | some name => pure (some name, ← tagText?)
  | none => match ← tagText? with
    | some text => pure (← anchorName?, some text)
    | none => pure (none, none)

/-- A tag that says something; the lone exclamation mark leaves it to the form. -/
def givenTag (text : Option TagText) : Build (Option String) := fun s =>
  match text with
  | none => some (none, s)
  | some ⟨none, rest⟩ => some (some rest, s)
  | some ⟨some handle, rest⟩ =>
    (s.handles.find? (·.1 == handle)).map fun e => (some (e.2 ++ rest), s)

def aliased (name : String) : Build NodeId := fun s =>
  (s.anchors.find? (·.1 == name)).map fun (_, id) => (id, s)

/-- A new node, named by its anchor. An anchor is declared once. -/
def add (anchor : Option String) (n : Node) : Build NodeId := fun s =>
  let id := s.nodes.size
  let nodes := s.nodes.push n
  match anchor with
  | none => some (id, { s with nodes })
  | some name =>
    if s.anchors.any (·.1 == name) then none
    else some (id, { s with nodes, anchors := (name, id) :: s.anchors })

def finish (id : NodeId) (n : Node) : Build Unit := fun s =>
  some ((), { s with nodes := s.nodes.setIfInBounds id n })

def empty : Build NodeId :=
  add none (.scalar .null "" false)

def collectionTag (given : Option String) (absent : Tag) : Tag :=
  match given with
  | none => absent
  | some uri => if uri = "!" then absent else .ofUri uri

def scalarNode (given : Option String) (style : ScalarStyle) (text : String) : Node :=
  let tag := match given with
    | none => if style = .plain then Tag.ofPlain text else .str
    | some uri => if uri = "!" then .ofPlain text else .ofUri uri
  .scalar tag text (style = .garbled)

def collection {α : Type} (anchor : Option String) (make : List α → Node)
    (read : Build (List α)) : Build NodeId := do
  let id ← add anchor (make [])
  finish id (make (← read))
  pure id

def nodeUnless (ts : List Token) (read : Build NodeId) : Build NodeId := do
  if ← sees ts then empty else read

def valueUnless (ts : List Token) (read : Build NodeId) : Build NodeId := do
  if ← accept .value then nodeUnless ts read else empty

mutual

/-- A node. Outside flow it may be a block, and after a key also a sequence that is not
indented. -/
def node (block indentless : Bool) (depth : Nat) : Nat → Build NodeId
  | 0 => refuse
  | fuel + 1 => do
    match ← peek with
    | some (.aliasOf name) =>
      advance
      aliased name
    | _ =>
      let (anchor, text) ← properties
      content block indentless depth anchor text.isSome (← givenTag text) fuel
termination_by structural fuel => fuel

def content (block indentless : Bool) (depth : Nat) (anchor : Option String) (tagged : Bool)
    (given : Option String) : Nat → Build NodeId
  | 0 => refuse
  | fuel + 1 => do
    let inner := depth - 1
    let sequence := collection anchor (Node.sequence (collectionTag given .seq))
    let mapping := collection anchor (Node.mapping (collectionTag given .map))
    match ← peek with
    | some (.scalar style text) =>
      advance
      add anchor (scalarNode given style text)
    | next =>
      let opens (t : Token) : Bool := next == some t && depth ≠ 0
      if indentless && opens .blockEntry then sequence (indentlessItems inner fuel)
      else if opens .flowSequenceStart then
        advance
        sequence (flowItems true inner fuel)
      else if opens .flowMappingStart then
        advance
        mapping (flowEntries true inner fuel)
      else if block && opens .blockSequenceStart then
        advance
        sequence (blockItems inner fuel)
      else if block && opens .blockMappingStart then
        advance
        mapping (blockEntries inner fuel)
      else if (tagged || anchor.isSome) && depth ≠ 0 then add anchor (scalarNode given .plain "")
      else refuse
termination_by structural fuel => fuel

def blockItems (depth : Nat) : Nat → Build (List NodeId)
  | 0 => refuse
  | fuel + 1 => do
    if ← accept .blockEntry then
      let item ← nodeUnless [.blockEntry, .blockEnd] (node true false depth fuel)
      pure (item :: (← blockItems depth fuel))
    else
      expect .blockEnd
      pure []
termination_by structural fuel => fuel

def indentlessItems (depth : Nat) : Nat → Build (List NodeId)
  | 0 => refuse
  | fuel + 1 => do
    if ← accept .blockEntry then
      let item ← nodeUnless [.blockEntry, .key, .value, .blockEnd] (node true false depth fuel)
      pure (item :: (← indentlessItems depth fuel))
    else pure []
termination_by structural fuel => fuel

def blockEntries (depth : Nat) : Nat → Build (List (NodeId × NodeId))
  | 0 => refuse
  | fuel + 1 => do
    if ← accept .key then
      let ends := [Token.key, .value, .blockEnd]
      let k ← nodeUnless ends (node true true depth fuel)
      let v ← valueUnless ends (node true true depth fuel)
      pure ((k, v) :: (← blockEntries depth fuel))
    else
      expect .blockEnd
      pure []
termination_by structural fuel => fuel

/-- Items up to the closing bracket. A key among them makes a mapping of one entry. -/
def flowItems (first : Bool) (depth : Nat) : Nat → Build (List NodeId)
  | 0 => refuse
  | fuel + 1 => do
    if ← accept .flowSequenceEnd then pure []
    else
      if first then pure () else expect .flowEntry
      if ← accept .key then
        let ends := [Token.flowEntry, .flowSequenceEnd]
        let item ← collection none (Node.mapping .map) do
          if depth = 0 then refuse
          else
            let k ← nodeUnless (.value :: ends) (node false false (depth - 1) fuel)
            let v ← valueUnless ends (node false false (depth - 1) fuel)
            pure [(k, v)]
        pure (item :: (← flowItems false depth fuel))
      else if ← accept .flowSequenceEnd then pure []
      else
        let item ← node false false depth fuel
        pure (item :: (← flowItems false depth fuel))
termination_by structural fuel => fuel

/-- Entries up to the closing brace. One without a key indicator has no value. -/
def flowEntries (first : Bool) (depth : Nat) : Nat → Build (List (NodeId × NodeId))
  | 0 => refuse
  | fuel + 1 => do
    if ← accept .flowMappingEnd then pure []
    else
      if first then pure () else expect .flowEntry
      if ← accept .key then
        let ends := [Token.flowEntry, .flowMappingEnd]
        let k ← nodeUnless (.value :: ends) (node false false depth fuel)
        let v ← valueUnless ends (node false false depth fuel)
        pure ((k, v) :: (← flowEntries false depth fuel))
      else if ← accept .flowMappingEnd then pure []
      else
        let k ← node false false depth fuel
        let v ← empty
        pure ((k, v) :: (← flowEntries false depth fuel))
termination_by structural fuel => fuel

end

/-- Reading gives up at collections nested this deeply. -/
def deepest : Nat := 488

def defaultHandles : List (String × String) :=
  [("!", "!"), ("!!", Tag.coreLeader)]

/-- The directives of a document: at most one version, of the first major number, and no tag
handle twice. -/
def directives? (seenVersion : Bool) (handles : List (String × String)) :
    List Token → Option (List (String × String) × List Token)
  | .directive (.version major) :: rest =>
    if seenVersion || major ≠ 1 then none else directives? true handles rest
  | .directive (.tag handle leader) :: rest =>
    if handles.any (·.1 == handle) then none
    else directives? seenVersion (handles ++ [(handle, leader)]) rest
  | .directive .other :: rest => directives? seenVersion handles rest
  | rest => some (handles ++ defaultHandles, rest)

def isContentless : Option Token → Bool
  | none => true
  | some (.directive _) => true
  | some .documentStart => true
  | some .documentEnd => true
  | _ => false

def document? (handles : List (String × String)) (tokens : List Token) :
    Option (Graph × List Token) :=
  (node true false deepest (4 * tokens.length + 4) ⟨tokens, handles, #[], []⟩).map
    fun (root, s) => (⟨s.nodes, root⟩, s.tokens)

end Build

namespace Graph

def empty : Graph := ⟨#[.scalar .null "" false], 0⟩

def read? (tokens : List Token) : Option (Option Graph) := do
  let (g, rest) ← match tokens with
    | [] => some (none, [])
    | .directive _ :: _ | .documentStart :: _ => do
      let (handles, rest) ← Build.directives? false [] tokens
      match rest with
      | .documentStart :: rest =>
        if Build.isContentless rest.head? then some (some empty, rest)
        else (Build.document? handles rest).map fun (g, rest) => (some g, rest)
      | _ => none
    | _ => (Build.document? Build.defaultHandles tokens).map fun (g, rest) => (some g, rest)
  if rest.all (· == .documentEnd) then some g else none

end Graph

end PreferenceAccessors.Yaml
