import CodeSurvey.Yaml.Atom
import CodeSurvey.Yaml.Draft

/-!
# Values of documents

A document is read in two steps: its text becomes a graph of nodes, and the nodes get values. A
`Making` holds the values that are known. Collections are filled in the order in which they came up,
so the first fault in this order counts, and a collection may be a member of itself. Keys that are
no strings are left out of the maps.
-/

namespace CodeSurvey.Yaml

/-! ## Messages -/

/-- What is said of a fault that lies in the text of a scalar. -/
def Fault.message : Fault → String
  | noCharacter _ => "chr() arg not in range(0x110000)"
  | noInteger text base =>
    "invalid literal for int() with base " ++ toString base ++ ": " ++
      String.ofList ((Text.shown text).take 200)
  | tooLong digits => Text.tooLongMessage digits
  | noNumber text => "could not convert string to float: " ++ String.ofList (Text.shown text)
  | wrongTime problem => problem.message
  | _ => ""

/-! ## Scalars -/

/-- The value of a node with a tag that is none of collections. A time has to be a scalar, other
values may have their text in a mapping. -/
def Graph.atom (g : Graph) (tag : Tag) (r : Ref) : Except Fault Value :=
  match tag with
  | .merge | .value | .unknown => .error .malformed
  | .timestamp =>
    match g.text r with
    | .error fault => .error fault
    | .ok text => if (g.entries? r).isSome then .error .timeInMapping else Yaml.atom .timestamp text
  | _ =>
    match g.text r with
    | .error fault => .error fault
    | .ok text => Yaml.atom tag text

/-! ## Collections -/

/-- Whether the tag is one of collections, which cannot be keys. -/
def Tag.isCollection : Tag → Bool
  | omap | pairs | set | seq | map => true
  | _ => false

/-- The value of a node, in which other nodes are named by their numbers. -/
inductive Made where
  | atom (value : Value)
  | list (items : List Ref)
  | map (entries : List Entry)
  | set (isEmpty : Bool)
  /-- A list of pairs of values. -/
  | pairs (count : Nat)

structure Making where
  graph : Graph
  made : Array (Option Made)
  /-- The collections that are still to be filled, the last one first. -/
  waiting : List Ref

namespace Making

def start (graph : Graph) : Making := ⟨graph, Array.replicate graph.size none, []⟩

def made? (m : Making) (r : Ref) : Option Made := (m.made[r]?).join

def settle (m : Making) (r : Ref) (value : Made) : Making :=
  { m with made := m.made.setIfInBounds r (some value) }

/-- Gives a node its value, unless it has one. A collection is empty at first. -/
def make (m : Making) (r : Ref) : Except Fault Making :=
  match m.made? r, m.graph.node? r with
  | some _, _ => .ok m
  | none, none => .error .malformed
  | none, some node =>
    if node.tag.isCollection then
      .ok { m.settle r (.list []) with waiting := r :: m.waiting }
    else (m.graph.atom node.tag r).map fun value => m.settle r (.atom value)

/-- Gives the key and the value of a map their values. -/
def makeEntry (m : Making) (entry : Entry) : Except Fault Making :=
  match m.make entry.1 with
  | .error fault => .error fault
  | .ok m =>
    if (m.graph.tag? entry.1).any Tag.isCollection then .error .malformed
    else m.make entry.2

/-- Gives the members of a pair their values. A pair is written as a mapping with one entry. -/
def makePair (m : Making) (r : Ref) : Except Fault Making :=
  match m.graph.entries? r with
  | some [(key, value)] =>
    match m.make key with
    | .error fault => .error fault
    | .ok m => m.make value
  | _ => .error .malformed

/-- The items of a sequence. -/
def items (m : Making) (r : Ref) : Except Fault (List Ref) :=
  match m.graph.node? r with
  | some ⟨_, .sequence items⟩ => .ok items
  | _ => .error .malformed

/-- Gives the members of a mapping their values. -/
def makeEntries (m : Making) (r : Ref) : Except Fault (List Entry × Making) := do
  if (m.graph.entries? r).isNone then .error .malformed
  else
    let graph ← m.graph.flatten r
    let m ← (graph.entries r).foldlM makeEntry { m with graph }
    return (graph.entries r, m)

/-- Fills a collection. -/
def fill (m : Making) (r : Ref) : Except Fault Making :=
  match m.graph.tag? r with
  | some .map => (m.makeEntries r).map fun (entries, m) => m.settle r (.map entries)
  | some .set => (m.makeEntries r).map fun (entries, m) => m.settle r (.set entries.isEmpty)
  | some .seq => do
    let items ← m.items r
    let m ← items.foldlM make m
    return m.settle r (.list items)
  | _ => do
    let items ← m.items r
    let m ← items.foldlM makePair m
    return m.settle r (.pairs items.length)

/-- Fills the given collections, and those that come up, in at most `n` steps. -/
def fillAll : (n : Nat) → Making → List Ref → Except Fault Making
  | 0, m, _ => .ok m
  | n + 1, m, r :: rest =>
    match m.fill r with
    | .ok m => fillAll n m rest
    | .error fault => .error fault
  | n + 1, m, [] =>
    if m.waiting.isEmpty then .ok m
    else fillAll n { m with waiting := [] } m.waiting.reverse

/-- The string that a key is. -/
def name? (m : Making) (key : Ref) : Option String :=
  match m.made? key with
  | some (.atom (.str name)) => some name
  | _ => none

/-- The value of a node, with collections up to `depth` deep in each other. -/
def value (m : Making) : (depth : Nat) → Ref → Value
  | depth, r =>
    match m.made? r, depth with
    | none, _ => .null
    | some (.atom value), _ => value
    | some (.set isEmpty), _ => .other isEmpty
    | some (.pairs count), _ => .list (List.replicate count (.other false))
    | some (.list items), 0 => .other items.isEmpty
    | some (.map entries), 0 => .other entries.isEmpty
    | some (.list items), depth + 1 => .list (items.map (value m depth))
    | some (.map entries), depth + 1 =>
      .map (lastEntries (entries.filterMap fun (key, v) =>
        (m.name? key).map fun name => (name, value m depth v)))

end Making

/-- The value of the document that a text is, with collections up to `depth` deep in each other. A
document may be a member of itself, so that its value has no end. As they are written, sequences and
mappings may stand in each other `nesting` deep. -/
def read (nesting depth : Nat) (text : Text) : Except Fault Value :=
  if !text.all isAllowed then .error .malformed
  else do
    let (root, graph) ← Draft.only nesting (Token.ofText text)
    let m ← (Making.start graph).make root
    let m ← Making.fillAll (2 * graph.size + 2) m []
    return m.value depth root

end CodeSurvey.Yaml
