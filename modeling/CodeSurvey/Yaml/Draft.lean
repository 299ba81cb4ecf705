import CodeSurvey.Yaml.Node
import CodeSurvey.Yaml.Token

/-!
# Documents

A `Draft` is a document that is being read: the tokens that are left, and the nodes made so far. A
node may be given a name by an anchor and stand in other places under that name. The name of a
collection is known within it.
-/

namespace CodeSurvey.Yaml

structure Draft where
  tokens : List Token
  /-- What the handles of tags stand for. -/
  handles : List (String × String)
  /-- The nodes with anchors. -/
  anchors : List (String × Ref)
  graph : Graph

namespace Draft

def defaultHandles : List (String × String) := [("!", "!"), ("!!", tagNamespace)]

/-- Why the next token cannot stand where it does. -/
def fault (s : Draft) : Fault :=
  match s.tokens with
  | .broken fault :: _ => fault
  | _ => .malformed

def sees (s : Draft) (ok : Token → Bool) : Bool := s.tokens.head?.any ok

def next (s : Draft) : Draft := { s with tokens := s.tokens.tail }

/-- The draft, unless the text cannot be read any further. -/
def readable (s : Draft) : Except Fault Draft :=
  match s.tokens with
  | .broken fault :: _ => .error fault
  | _ => .ok s

/-! ## Properties of nodes -/

structure Properties where
  anchor : Option String
  tag : Option String

def readAnchor (s : Draft) : Except Fault (Option String × Draft) :=
  match s.tokens with
  | .anchor name :: tokens => .ok (some name, { s with tokens })
  | _ => s.readable.map fun s => (none, s)

def readTag (s : Draft) : Except Fault (Option TagText × Draft) :=
  match s.tokens with
  | .tag tag :: tokens => .ok (some tag, { s with tokens })
  | _ => s.readable.map fun s => (none, s)

/-- The full name of a tag. -/
def tagName (s : Draft) (tag : TagText) : Except Fault String :=
  match tag.handle with
  | none => .ok tag.suffix
  | some handle =>
    match s.handles.lookup handle with
    | some start => .ok (start ++ tag.suffix)
    | none => .error .malformed

/-- Reads an anchor and a tag, in either order. After them the text must go on, and an anchor must
be new. -/
def readProperties (s : Draft) : Except Fault (Properties × Draft) := do
  let (anchor, s) ← s.readAnchor
  let (tag, s) ← s.readTag
  let (anchor, s) ← if anchor.isNone then s.readAnchor else .ok (anchor, s)
  let tag ← match tag with
    | some tag => (s.tagName tag).map some
    | none => .ok none
  let s ← s.readable
  if anchor.any fun name => (s.anchors.lookup name).isSome then .error .malformed
  else .ok (⟨anchor, tag⟩, s)

namespace Properties

def isEmpty (p : Properties) : Bool := p.anchor.isNone && p.tag.isNone

/-- The tag of a collection, which has `default` unless another one is stated. -/
def tagOr (p : Properties) (default : Tag) : Tag :=
  match p.tag with
  | none => default
  | some name => if name = "!" then default else Tag.ofName name

/-- The tag of a scalar: the one stated, or that of its look if it is plain or only marked. -/
def scalarTag (p : Properties) (text : Text) (isPlain : Bool) : Tag :=
  match p.tag with
  | none => if isPlain then Tag.ofPlain text else .str
  | some name => if name = "!" then Tag.ofPlain text else Tag.ofName name

end Properties

/-! ## Nodes -/

/-- Adds a node without properties. -/
def addPlain (s : Draft) (node : Node) : Ref × Draft :=
  let (r, graph) := s.graph.add node
  (r, { s with graph })

/-- Adds a node, which its anchor stands for from here on. -/
def add (s : Draft) (p : Properties) (node : Node) : Ref × Draft :=
  let (r, s) := s.addPlain node
  match p.anchor with
  | some name => (r, { s with anchors := (name, r) :: s.anchors })
  | none => (r, s)

/-- Gives a collection its members. -/
def setContent (s : Draft) (r : Ref) (content : Content) : Draft :=
  match s.graph.node? r with
  | some node => { s with graph := s.graph.replace r { node with content } }
  | none => s

abbrev Drafted (α : Type) := Except Fault (α × Draft)

/-- How a collection that starts with the next token is written. -/
inductive Style where
  | blockItems
  /-- The entries of a sequence that is indented no more than the mapping it belongs to. -/
  | plainItems
  | blockEntries
  | flowItems
  | flowEntries

/-- The way in which a collection is written that may start with the next token. -/
def style? (s : Draft) (inBlock mayBePlain : Bool) : Option Style :=
  match s.tokens with
  | .blockEntry :: _ => if mayBePlain then some .plainItems else none
  | .flowSequenceStart :: _ => some .flowItems
  | .flowMappingStart :: _ => some .flowEntries
  | .blockSequenceStart :: _ => if inBlock then some .blockItems else none
  | .blockMappingStart :: _ => if inBlock then some .blockEntries else none
  | _ => none

/-- A collection without its members yet. -/
def Style.node (style : Style) (p : Properties) : Node :=
  match style with
  | .blockItems | .plainItems | .flowItems => ⟨p.tagOr .seq, .sequence []⟩
  | .blockEntries | .flowEntries => ⟨p.tagOr .map, .mapping []⟩

def endsBlockItem : Token → Bool
  | .blockEntry => true
  | .blockEnd => true
  | _ => false

def endsPlainItem : Token → Bool
  | .blockEntry => true
  | .key => true
  | .value => true
  | .blockEnd => true
  | _ => false

def endsBlockEntry : Token → Bool
  | .key => true
  | .value => true
  | .blockEnd => true
  | _ => false

def endsFlowItem : Token → Bool
  | .flowEntry => true
  | .flowSequenceEnd => true
  | _ => false

def endsFlowEntry : Token → Bool
  | .flowEntry => true
  | .flowMappingEnd => true
  | _ => false

def isValue : Token → Bool
  | .value => true
  | _ => false

/-- The position after the comma before an item; the first one has none. -/
def skipComma (s : Draft) (isFirst : Bool) : Except Fault Draft :=
  if isFirst then .ok s
  else match s.tokens with
    | .flowEntry :: tokens => .ok { s with tokens }
    | _ => .error s.fault

mutual

/-- Reads a node. `n` bounds the number of steps, and `depth` collections may still stand in each
other. -/
def node (inBlock mayBePlain : Bool) : (n depth : Nat) → Draft → Drafted Ref
  | 0, _, s => .error s.fault
  | n + 1, depth, s =>
    match s.tokens with
    | .alias name :: tokens =>
      match s.anchors.lookup name with
      | some r => .ok (r, { s with tokens })
      | none => .error .malformed
    | _ =>
      match s.readProperties with
      | .error fault => .error fault
      | .ok (p, s) =>
        match s.tokens, s.style? inBlock mayBePlain with
        | .scalar text isPlain :: tokens, _ =>
          .ok ({ s with tokens }.add p ⟨p.scalarTag text isPlain, .scalar text⟩)
        | _, some style =>
          match depth with
          | 0 => .error .tooDeep
          | depth + 1 =>
            let (r, s) := s.add p (style.node p)
            (members style n depth s).map fun (content, s) => (r, s.setContent r content)
        | _, none =>
          if p.isEmpty then .error s.fault
          else .ok (s.add p ⟨p.scalarTag [] true, .scalar []⟩)
termination_by structural n => n

/-- Reads the members of a collection. -/
def members (style : Style) : (n depth : Nat) → Draft → Drafted Content
  | 0, _, s => .error s.fault
  | n + 1, depth, s =>
    let sequence (found : List Ref × Draft) := (Content.sequence found.1, found.2)
    let mapping (found : List Entry × Draft) := (Content.mapping found.1, found.2)
    match style with
    | .plainItems => (plainItems n depth s []).map sequence
    | .blockItems => (blockItems n depth s.next []).map sequence
    | .flowItems => (flowItems true n depth s.next []).map sequence
    | .blockEntries => (blockEntries n depth s.next []).map mapping
    | .flowEntries => (flowEntries true n depth s.next []).map mapping
termination_by structural n => n

/-- Reads a node unless it is left out before one of the tokens in `stops`. -/
def nodeUnless (stops : Token → Bool) (inBlock mayBePlain : Bool) :
    (n depth : Nat) → Draft → Drafted Ref
  | 0, _, s => .error s.fault
  | n + 1, depth, s =>
    if s.sees stops then .ok (s.addPlain .missing) else node inBlock mayBePlain n depth s
termination_by structural n => n

/-- Reads the value of an entry, which may be left out together with its colon. -/
def valueUnless (stops : Token → Bool) (inBlock : Bool) : (n depth : Nat) → Draft → Drafted Ref
  | 0, _, s => .error s.fault
  | n + 1, depth, s =>
    if s.sees isValue then nodeUnless stops inBlock inBlock n depth s.next
    else s.readable.map fun s => s.addPlain .missing
termination_by structural n => n

def plainItems : (n depth : Nat) → Draft → List Ref → Drafted (List Ref)
  | 0, _, s, _ => .error s.fault
  | n + 1, depth, s, done =>
    match s.tokens with
    | .blockEntry :: _ =>
      match nodeUnless endsPlainItem true false n depth s.next with
      | .ok (item, s) => plainItems n depth s (item :: done)
      | .error fault => .error fault
    | _ => s.readable.map fun s => (done.reverse, s)
termination_by structural n => n

def blockItems : (n depth : Nat) → Draft → List Ref → Drafted (List Ref)
  | 0, _, s, _ => .error s.fault
  | n + 1, depth, s, done =>
    match s.tokens with
    | .blockEntry :: _ =>
      match nodeUnless endsBlockItem true false n depth s.next with
      | .ok (item, s) => blockItems n depth s (item :: done)
      | .error fault => .error fault
    | .blockEnd :: _ => .ok (done.reverse, s.next)
    | _ => .error s.fault
termination_by structural n => n

def blockEntries : (n depth : Nat) → Draft → List Entry → Drafted (List Entry)
  | 0, _, s, _ => .error s.fault
  | n + 1, depth, s, done =>
    match s.tokens with
    | .key :: _ =>
      match nodeUnless endsBlockEntry true true n depth s.next with
      | .error fault => .error fault
      | .ok (key, s) =>
        match valueUnless endsBlockEntry true n depth s with
        | .ok (value, s) => blockEntries n depth s ((key, value) :: done)
        | .error fault => .error fault
    | .blockEnd :: _ => .ok (done.reverse, s.next)
    | _ => .error s.fault
termination_by structural n => n

/-- Reads the items of a sequence in brackets. An item may be a mapping with a single entry. -/
def flowItems (isFirst : Bool) : (n depth : Nat) → Draft → List Ref → Drafted (List Ref)
  | 0, _, s, _ => .error s.fault
  | n + 1, depth, s, done =>
    match s.tokens, s.skipComma isFirst with
    | .flowSequenceEnd :: _, _ => .ok (done.reverse, s.next)
    | _, .error fault => .error fault
    | _, .ok s =>
      match s.tokens with
      | .flowSequenceEnd :: _ => .ok (done.reverse, s.next)
      | .key :: _ =>
        match nodeUnless (fun t => isValue t || endsFlowItem t) false false n depth s.next with
        | .error fault => .error fault
        | .ok (key, s) =>
          match valueUnless endsFlowItem false n depth s with
          | .error fault => .error fault
          | .ok (value, s) =>
            let (item, s) := s.addPlain ⟨.map, .mapping [(key, value)]⟩
            flowItems false n depth s (item :: done)
      | _ =>
        match node false false n depth s with
        | .ok (item, s) => flowItems false n depth s (item :: done)
        | .error fault => .error fault
termination_by structural n => n

def flowEntries (isFirst : Bool) : (n depth : Nat) → Draft → List Entry → Drafted (List Entry)
  | 0, _, s, _ => .error s.fault
  | n + 1, depth, s, done =>
    match s.tokens, s.skipComma isFirst with
    | .flowMappingEnd :: _, _ => .ok (done.reverse, s.next)
    | _, .error fault => .error fault
    | _, .ok s =>
      match s.tokens with
      | .flowMappingEnd :: _ => .ok (done.reverse, s.next)
      | .key :: _ =>
        match nodeUnless (fun t => isValue t || endsFlowEntry t) false false n depth s.next with
        | .error fault => .error fault
        | .ok (key, s) =>
          match valueUnless endsFlowEntry false n depth s with
          | .ok (value, s) => flowEntries false n depth s ((key, value) :: done)
          | .error fault => .error fault
      | _ =>
        match node false false n depth s with
        | .ok (key, s) =>
          let (value, s) := s.addPlain .missing
          flowEntries false n depth s ((key, value) :: done)
        | .error fault => .error fault
termination_by structural n => n

end

/-! ## Documents -/

/-- Reads the directives before a document. Only version 1 is known, and a version and each handle
may be set once. -/
def directives : List Token → (hasVersion : Bool) → (handles : List (String × String)) →
    Except Fault (List (String × String) × List Token)
  | .directive (.version major) :: tokens, hasVersion, handles =>
    if hasVersion || major != 1 then .error .malformed else directives tokens true handles
  | .directive (.tag handle start) :: tokens, hasVersion, handles =>
    if (handles.lookup handle).isSome then .error .malformed
    else directives tokens hasVersion ((handle, start) :: handles)
  | .directive .other :: tokens, hasVersion, handles => directives tokens hasVersion handles
  | tokens, _, handles => .ok (handles ++ defaultHandles, tokens)

def startsDocument : Token → Bool
  | .directive _ => true
  | .documentStart => true
  | _ => false

def isDocumentEnd : Token → Bool
  | .documentEnd => true
  | _ => false

/-- More steps than reading the tokens takes. -/
def steps (tokens : List Token) : Nat := 8 * tokens.length + 8

/-- Reads a document that starts with directives or a marker. It may be empty. -/
def markedDocument (depth : Nat) (tokens : List Token) : Except Fault (Ref × Draft) := do
  let (handles, tokens) ← directives tokens false []
  let s : Draft := ⟨tokens, handles, [], .empty⟩
  match tokens with
  | .documentStart :: _ =>
    let s := s.next
    if s.tokens.isEmpty || s.sees (fun t => startsDocument t || isDocumentEnd t) then
      .ok (s.addPlain .missing)
    else node true false (steps s.tokens) depth s
  | _ => .error s.fault

def document (depth : Nat) (tokens : List Token) : Drafted Ref :=
  if tokens.head?.any startsDocument then markedDocument depth tokens
  else node true false (steps tokens) depth ⟨tokens, defaultHandles, [], .empty⟩

/-- Why tokens may not follow a document. -/
def excess (tokens : List Token) : Fault :=
  match directives tokens false [] with
  | .error fault => fault
  | .ok (_, .broken fault :: _) => fault
  | .ok _ => .malformed

/-- The nodes of the only document that the tokens make up, and the node that it is. Sequences and
mappings may stand in each other `depth` deep. -/
def only (depth : Nat) (tokens : List Token) : Except Fault (Ref × Graph) :=
  if tokens.isEmpty then .ok (Graph.empty.add .missing)
  else do
    let (root, s) ← document depth tokens
    match s.tokens.dropWhile isDocumentEnd with
    | [] => .ok (root, s.graph)
    | tokens => .error (excess tokens)

end Draft

end CodeSurvey.Yaml
