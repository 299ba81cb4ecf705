import CodeSurvey.Yaml.Scalar
import CodeSurvey.Yaml.Tag

/-!
# Tokens

A token is a mark, a name or a scalar of a document. The indentation of lines becomes tokens, too:
a block starts where a line is indented more than the one it belongs to, and ends where one is
indented less. The key of an entry is known as such only by the colon after it; therefore a
`Scanner` remembers for each level of brackets which token may turn out to be the start of a key.
-/

namespace CodeSurvey.Yaml

inductive Token where
  | directive (directive : Directive)
  | documentStart
  | documentEnd
  | blockSequenceStart
  | blockMappingStart
  | blockEnd
  | flowSequenceStart
  | flowMappingStart
  | flowSequenceEnd
  | flowMappingEnd
  | blockEntry
  | flowEntry
  | key
  | value
  | alias (name : String)
  | anchor (name : String)
  | tag (tag : TagText)
  | scalar (text : Text) (isPlain : Bool)
  /-- The text cannot be read any further. -/
  | broken (fault : Fault)

/-- A token that may be the start of a key, which has to end on its line. -/
structure PossibleKey where
  /-- The number of tokens before it. -/
  number : Nat
  /-- Whether the line can only be read with a key here. -/
  isRequired : Bool
  index : Nat
  line : Nat
  column : Nat

structure Scanner where
  cursor : Cursor
  /-- The tokens read so far, the last one first. -/
  tokens : List Token
  /-- The number of these tokens. -/
  count : Nat
  /-- The indentation of the innermost block. -/
  indent : Int
  /-- The indentations of the blocks around it. -/
  outer : List Int
  /-- The number of open brackets. -/
  depth : Nat
  /-- Whether a key may start here. -/
  allowsKey : Bool
  /-- The possible keys by the number of brackets around them. -/
  keys : List (Nat × PossibleKey)
  isDone : Bool

/-- How many characters the key of an entry on one line may have. -/
def maxKeyLength : Nat := 1024

namespace Scanner

def start (text : Text) : Scanner := ⟨.start text, [], 0, -1, [], 0, true, [], false⟩

def push (s : Scanner) (t : Token) : Scanner :=
  { s with tokens := t :: s.tokens, count := s.count + 1 }

/-- Puts a token before all tokens from the given number on. -/
def insert (s : Scanner) (number : Nat) (t : Token) : Scanner :=
  let later := s.count - number
  { s with tokens := s.tokens.take later ++ t :: s.tokens.drop later, count := s.count + 1 }

/-- Adds a token that was read up to a position. -/
def pushAt (s : Scanner) (k : Cursor) (t : Token) : Scanner := { s.push t with cursor := k }

/-! ## Possible keys -/

/-- Forgets the possible key at the present level. -/
def dropKey (s : Scanner) : Except Fault Scanner :=
  match s.keys.lookup s.depth with
  | some key =>
    if key.isRequired then .error .malformed
    else .ok { s with keys := s.keys.filter (·.1 != s.depth) }
  | none => .ok s

/-- Remembers the next token as a possible key. -/
def saveKey (s : Scanner) : Except Fault Scanner :=
  if s.allowsKey then
    let k := s.cursor
    s.dropKey.map fun s =>
      let isRequired := s.depth == 0 && s.indent == (k.column : Int)
      { s with keys := (s.depth, ⟨s.count, isRequired, k.index, k.line, k.column⟩) :: s.keys }
  else .ok s

/-- Whether a possible key has not ended in time. -/
def isStale (s : Scanner) (key : PossibleKey) : Bool :=
  key.line != s.cursor.line || s.cursor.index - key.index > maxKeyLength

/-- Forgets the possible keys that have not ended in time. -/
def dropStale (s : Scanner) : Except Fault Scanner :=
  if s.keys.any fun (_, key) => s.isStale key && key.isRequired then .error .malformed
  else .ok { s with keys := s.keys.filter fun (_, key) => !s.isStale key }

/-- The number of tokens before which none will be put any more: those before the first one that may
still turn out to be the start of a key. -/
def settled (s : Scanner) : Nat :=
  s.keys.foldl
    (fun n (_, key) => if key.isRequired || !s.isStale key then min n key.number else n) s.count

/-! ## Indentation -/

/-- Ends the blocks that are indented more than a column. -/
def unwindBlocks (column : Int) : List Int → Scanner → Scanner
  | outer, s =>
    if s.indent > column then
      match outer with
      | indent :: outer => unwindBlocks column outer { s.push .blockEnd with indent, outer }
      | [] => s
    else s

/-- Ends the blocks that are indented more than a column. Between brackets indentation is free. -/
def unwind (s : Scanner) (column : Int) : Scanner :=
  if s.depth = 0 then unwindBlocks column s.outer s else s

/-- Starts a block at a column if it is indented more than the present one. -/
def indentTo (s : Scanner) (column : Nat) (number : Nat) (t : Token) : Scanner :=
  if s.indent < (column : Int) then
    { s.insert number t with indent := (column : Int), outer := s.indent :: s.outer }
  else s

/-! ## Between tokens -/

/-- Skips spaces, comments and line ends, of at most `n` lines. -/
def skipLines : (n : Nat) → Scanner → Scanner
  | 0, s => s
  | n + 1, s =>
    let k := (s.cursor.skipWhile isSpace).skipComment
    match k.lineEnd? with
    | some (_, k) => skipLines n { s with cursor := k, allowsKey := s.allowsKey || s.depth == 0 }
    | none => { s with cursor := k }

/-- Skips what stands before the next token. A byte order mark is skipped at the start only. -/
def toNext (s : Scanner) : Scanner :=
  let s := if s.cursor.index = 0 ∧ s.cursor.head? = some byteOrderMark then
      { s with cursor := s.cursor.next }
    else s
  skipLines (s.cursor.rest.length + 1) s

/-! ## Tokens of each kind -/

def fetchEnd (s : Scanner) : Except Fault Scanner :=
  (s.unwind (-1)).dropKey.map fun s => { s with isDone := true }

def fetchDirective (s : Scanner) : Except Fault Scanner := do
  let s ← (s.unwind (-1)).dropKey
  let (directive, k) ← readDirective s.cursor
  return { s.pushAt k (.directive directive) with allowsKey := false }

/-- Adds the marker before or after a document. -/
def fetchMarker (t : Token) (s : Scanner) : Except Fault Scanner :=
  (s.unwind (-1)).dropKey.map fun s => { s.pushAt (s.cursor.skip 3) t with allowsKey := false }

def fetchFlowStart (t : Token) (s : Scanner) : Except Fault Scanner :=
  s.saveKey.map fun s =>
    { s.pushAt s.cursor.next t with depth := s.depth + 1, allowsKey := true }

/-- Adds a closing bracket. One without an opening bracket ends the reading. -/
def fetchFlowEnd (t : Token) (s : Scanner) : Except Fault Scanner :=
  if s.depth = 0 then .error .malformed
  else s.dropKey.map fun s =>
    { s.pushAt s.cursor.next t with depth := s.depth - 1, allowsKey := false }

def fetchFlowEntry (s : Scanner) : Except Fault Scanner :=
  s.dropKey.map fun s => { s.pushAt s.cursor.next .flowEntry with allowsKey := true }

/-- Outside brackets an entry or a key may only stand where a key may start, and may start a
block. -/
def openBlock (t : Token) (s : Scanner) : Except Fault Scanner :=
  if s.depth != 0 then .ok s
  else if s.allowsKey then .ok (s.indentTo s.cursor.column s.count t)
  else .error .malformed

def fetchBlockEntry (s : Scanner) : Except Fault Scanner := do
  let s ← s.openBlock .blockSequenceStart
  let s ← s.dropKey
  return { s.pushAt s.cursor.next .blockEntry with allowsKey := true }

def fetchKey (s : Scanner) : Except Fault Scanner := do
  let s ← s.openBlock .blockMappingStart
  let s ← s.dropKey
  return { s.pushAt s.cursor.next .key with allowsKey := s.depth == 0 }

/-- Adds a colon. If there is a possible key, it is one, and may start a block. -/
def fetchValue (s : Scanner) : Except Fault Scanner :=
  match s.keys.lookup s.depth with
  | some key =>
    let s := { s with keys := s.keys.filter (·.1 != s.depth) }.insert key.number .key
    let s := if s.depth = 0 then s.indentTo key.column key.number .blockMappingStart else s
    .ok { s.pushAt s.cursor.next .value with allowsKey := false }
  | none => do
    let s ← s.openBlock .blockMappingStart
    let s ← s.dropKey
    return { s.pushAt s.cursor.next .value with allowsKey := s.depth == 0 }

/-- Adds a token that may be the start of a key and does not end at a place for a key. -/
def fetchWith {α : Type} (read : Reader α) (token : α → Token) (s : Scanner) :
    Except Fault Scanner := do
  let s ← s.saveKey
  let (a, k) ← read s.cursor
  return { s.pushAt k (token a) with allowsKey := false }

def fetchBlock (s : Scanner) : Except Fault Scanner := do
  let s ← s.dropKey
  let (text, k) ← readBlock s.indent s.cursor
  return { s.pushAt k (.scalar text false) with allowsKey := true }

def fetchPlain (s : Scanner) : Except Fault Scanner :=
  s.saveKey.map fun s =>
    let (text, hasBreak, k) :=
      readPlain (s.depth != 0) (s.indent + 1) (s.cursor.rest.length + 1) s.cursor [] [] false
    { s.pushAt k (.scalar text true) with allowsKey := hasBreak }

/-! ## The next token -/

/-- Whether a mark stands alone: before a blank, a line end or the end, or anywhere in brackets. -/
def marksAlone (s : Scanner) : Bool := s.depth != 0 || s.cursor.endsOrAfter 1 isGapOrBreak

/-- The characters that start no plain scalar. -/
def isIndicator (c : Char) : Bool :=
  isGapOrBreak c || "-?:,[]\x7b\x7d#&*!|>'\"%@".toList.contains c || c == Char.ofNat 0x60

/-- Whether a plain scalar starts with the next character. -/
def startsPlain (s : Scanner) (c : Char) : Bool :=
  !isIndicator c ||
    (!s.cursor.endsOrAfter 1 isGapOrBreak &&
      (c == '-' || (s.depth == 0 && (c == '?' || c == ':'))))

/-- Adds the token that starts with a character. -/
def fetchAt (s : Scanner) (c : Char) : Except Fault Scanner :=
  let atLineStart := s.cursor.column == 0
  if c == '%' && atLineStart then s.fetchDirective
  else if c == '-' && atLineStart && s.cursor.isMarker then s.fetchMarker .documentStart
  else if c == '.' && atLineStart && s.cursor.isMarker then s.fetchMarker .documentEnd
  else if c == '[' then s.fetchFlowStart .flowSequenceStart
  else if c == '{' then s.fetchFlowStart .flowMappingStart
  else if c == ']' then s.fetchFlowEnd .flowSequenceEnd
  else if c == '}' then s.fetchFlowEnd .flowMappingEnd
  else if c == ',' then s.fetchFlowEntry
  else if c == '-' && s.cursor.endsOrAfter 1 isGapOrBreak then s.fetchBlockEntry
  else if c == '?' && s.marksAlone then s.fetchKey
  else if c == ':' && s.marksAlone then s.fetchValue
  else if c == '*' then s.fetchWith readName .alias
  else if c == '&' then s.fetchWith readName .anchor
  else if c == '!' then s.fetchWith readTag .tag
  else if (c == '|' || c == '>') && s.depth == 0 then s.fetchBlock
  else if c == '\'' || c == '"' then s.fetchWith readQuoted fun text => .scalar text false
  else if s.startsPlain c then s.fetchPlain
  else .error .malformed

def fetch (s : Scanner) : Except Fault Scanner := do
  let s ← s.toNext.dropStale
  let s := s.unwind s.cursor.column
  match s.cursor.head? with
  | none => s.fetchEnd
  | some c => s.fetchAt c

/-- The tokens up to the end of the text, of which at most `n` are still to be read. Where the text
cannot be read any further, only the settled ones count. -/
def run : (n : Nat) → Scanner → List Token
  | 0, s => s.tokens.reverse
  | n + 1, s =>
    match s.fetch with
    | .error fault => s.tokens.reverse.take s.settled ++ [.broken fault]
    | .ok s => if s.isDone then s.tokens.reverse else run n s

end Scanner

/-- The tokens of a text. -/
def Token.ofText (text : Text) : List Token :=
  (Scanner.start text).run (text.length + 2)

end CodeSurvey.Yaml
