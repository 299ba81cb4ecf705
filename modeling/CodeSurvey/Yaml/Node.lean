import CodeSurvey.Yaml.Schema

/-!
# Nodes

A document consists of nodes: scalars, sequences and mappings, each with its tag. A node may stand
in several places, even within itself. Therefore nodes are numbered, and a collection holds the
numbers of its members; a `Graph` gives the node of each number.

In a mapping, the entries of other mappings may be merged. `Graph.flatten` puts them in.
-/

namespace CodeSurvey.Yaml

/-- The number of a node. -/
abbrev Ref := Nat

/-- A key and its value. -/
abbrev Entry := Ref × Ref

inductive Content where
  | scalar (text : Text)
  | sequence (items : List Ref)
  | mapping (entries : List Entry)

structure Node where
  tag : Tag
  content : Content

/-- What stands where a node is left out. -/
def Node.missing : Node := ⟨.null, .scalar []⟩

structure Graph where
  nodes : Array Node

namespace Graph

def empty : Graph := ⟨#[]⟩

def size (g : Graph) : Nat := g.nodes.size

/-- Adds a node, whose number is the number of the nodes before. -/
def add (g : Graph) (node : Node) : Ref × Graph := (g.size, ⟨g.nodes.push node⟩)

def node? (g : Graph) (r : Ref) : Option Node := g.nodes[r]?

/-- Puts a node in the place of another one. -/
def replace (g : Graph) (r : Ref) (node : Node) : Graph := ⟨g.nodes.setIfInBounds r node⟩

def tag? (g : Graph) (r : Ref) : Option Tag := (g.node? r).map (·.tag)

def hasTag (g : Graph) (tag : Tag) (r : Ref) : Bool := g.tag? r = some tag

/-- The entries of a mapping; what is no mapping has none. -/
def entries? (g : Graph) (r : Ref) : Option (List Entry) :=
  match g.node? r with
  | some ⟨_, .mapping entries⟩ => some entries
  | _ => none

def entries (g : Graph) (r : Ref) : List Entry := (g.entries? r).getD []

def setEntries (g : Graph) (r : Ref) (entries : List Entry) : Graph :=
  match g.node? r with
  | some node => g.replace r { node with content := .mapping entries }
  | none => g

/-- Gives a node another tag. -/
def retag (g : Graph) (r : Ref) (tag : Tag) : Graph :=
  match g.node? r with
  | some node => g.replace r { node with tag }
  | none => g

/-- The number of entries of all mappings. -/
def entryCount (g : Graph) : Nat :=
  g.nodes.foldl (fun n node =>
    match node.content with
    | .mapping entries => n + entries.length
    | _ => n) 0

/-! ## Merged mappings -/

/-- The value of the first key that asks for a merge, and the other entries. -/
def takeMerge (g : Graph) : List Entry → Option (Ref × List Entry)
  | [] => none
  | (key, value) :: rest =>
    if g.hasTag .merge key then some (value, rest)
    else (takeMerge g rest).map fun (found, others) => (found, (key, value) :: others)

/-- The mappings that are merged by naming a node: a mapping itself, or all items of a sequence. -/
def mergeSources (g : Graph) (r : Ref) : Option (List Ref) :=
  match g.node? r with
  | some ⟨_, .mapping _⟩ => some [r]
  | some ⟨_, .sequence items⟩ =>
    if items.all fun i => (g.entries? i).isSome then some items else none
  | _ => none

/-- Lets the keys of a mapping that could stand for its value stand for themselves. -/
def plainKeys (g : Graph) (r : Ref) : Graph :=
  (g.entries r).foldl (fun g (key, _) => if g.hasTag .value key then g.retag key .str else g) g

/-- Puts the entries of merged mappings before those of a mapping, so that its own count more. Of
several mappings under one key the last comes first. At most `n` merges are asked for; `merged` are
the entries found so far. A merge is no longer asked for once it is begun, so a mapping may be
merged into itself. -/
def flattenWith : (n : Nat) → Graph → Ref → (merged : List Entry) → Except Fault Graph
  | 0, _, _, _ => .error .tooDeep
  | n + 1, g, r, merged =>
    match g.takeMerge (g.entries r) with
    | none =>
      let g := g.plainKeys r
      .ok (g.setEntries r (merged ++ g.entries r))
    | some (source, others) =>
      let g := g.setEntries r others
      match g.mergeSources source with
      | none => .error .malformed
      | some sources => do
        let (g, found) ← sources.foldlM
          (fun (g, found) i => do
            let g ← flattenWith n g i []
            return (g, g.entries i :: found)) (g, ([] : List (List Entry)))
        flattenWith n g r (merged ++ found.flatten)

/-- Puts the entries of merged mappings into a mapping. -/
def flatten (g : Graph) (r : Ref) : Except Fault Graph := flattenWith (g.entryCount + 1) g r []

/-! ## Scalars -/

/-- The text that a node stands for as a scalar, which a mapping has under a key of its own. -/
def textWithin (g : Graph) : (n : Nat) → Ref → Except Fault Text
  | 0, _ => .error .tooDeep
  | n + 1, r =>
    match g.node? r with
    | some ⟨_, .scalar text⟩ => .ok text
    | some ⟨_, .mapping entries⟩ =>
      match entries.find? fun (key, _) => g.hasTag .value key with
      | some (_, value) => textWithin g n value
      | none => .error .malformed
    | _ => .error .malformed

/-- The text that a node stands for as a scalar. A mapping that leads back to itself has none. -/
def text (g : Graph) (r : Ref) : Except Fault Text := g.textWithin (g.size + 1) r

end Graph

end CodeSurvey.Yaml
