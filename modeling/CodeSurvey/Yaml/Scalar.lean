import CodeSurvey.Yaml.Cursor

/-!
# Scalars

A scalar is written plainly, between quotes, or as a block of lines. Where it covers several lines,
a single line end stands for a space and of several line ends all but the first count; in a literal
block all count.
-/

namespace CodeSurvey.Yaml

/-- What the line ends between two pieces of text stand for. -/
def foldedBreaks (first : Char) (others : Text) : Text :=
  if first != '\n' then first :: others else if others.isEmpty then [' '] else others

/-! ## Quoted scalars -/

/-- What a backslash with one character stands for between double quotes. -/
def simpleEscape? (c : Char) : Option Char :=
  [('0', 0), ('a', 7), ('b', 8), ('t', 9), ('\t', 9), ('n', 10), ('v', 11), ('f', 12), ('r', 13),
    ('e', 0x1B), (' ', 0x20), ('"', 0x22), ('\\', 0x5C), ('/', 0x2F), ('N', 0x85), ('_', 0xA0),
    ('L', 0x2028), ('P', 0x2029)].lookup c |>.map Char.ofNat

/-- The number of hexadecimal digits after a backslash with one of these characters. -/
def escapeSize? (c : Char) : Option Nat := [('x', 2), ('u', 4), ('U', 8)].lookup c

/-- Reads the character named by `size` hexadecimal digits. -/
def readCode (size : Nat) : Reader Char := fun k =>
  let digits := (k.rest.take size).filterMap Json.hexDigit?
  if digits.length < size then .error .malformed
  else
    let code := digits.foldl (fun n d => 16 * n + d) 0
    if 0x110000 ≤ code then .error (.noCharacter (0x80000000 ≤ code))
    else .ok (Text.charOf code, k.skip size)

/-- The line ends at the front, with the blanks before and between them skipped. A marker of
documents must not stand at the start of a line. -/
def readBreaks : (n : Nat) → Cursor → Text → Except Fault (Text × Cursor)
  | 0, k, done => .ok (done.reverse, k)
  | n + 1, k, done =>
    if k.isMarker then .error .malformed
    else
      let k := k.skipWhile isGap
      match k.lineEnd? with
      | some (c, k) => readBreaks n k (c :: done)
      | none => .ok (done.reverse, k)

/-- Reads the blanks or line ends at the front of what stands between quotes. -/
def readQuotedGap : Reader Text := fun k =>
  let (gap, k) := k.span isGap
  match k.lineEnd? with
  | some (first, k) =>
    (readBreaks (k.rest.length + 1) k []).map fun (others, k) => (foldedBreaks first others, k)
  | none => if k.rest.isEmpty then .error .malformed else .ok (gap, k)

/-- Reads an escape after its backslash. -/
def readEscape : Reader Text := fun k =>
  match k.head? with
  | none => .error .malformed
  | some c =>
    match simpleEscape? c, escapeSize? c with
    | some c, _ => .ok ([c], k.next)
    | none, some size => (readCode size k.next).map fun (c, k) => ([c], k)
    | none, none =>
      match k.lineEnd? with
      | some (_, k) => readBreaks (k.rest.length + 1) k []
      | none => .error .malformed

/-- Reads the rest of a scalar between double quotes, in at most `n` pieces. `done` holds the
characters read so far, the last one first. -/
def readDouble : (n : Nat) → Cursor → Text → Except Fault (Text × Cursor)
  | 0, _, _ => .error .malformed
  | n + 1, k, done =>
    match k.head? with
    | none => .error .malformed
    | some '"' => .ok (done.reverse, k.next)
    | some '\\' =>
      match readEscape k.next with
      | .ok (piece, k) => readDouble n k (piece.reverse ++ done)
      | .error fault => .error fault
    | some c =>
      if isGapOrBreak c then
        match readQuotedGap k with
        | .ok (piece, k) => readDouble n k (piece.reverse ++ done)
        | .error fault => .error fault
      else readDouble n k.next (c :: done)

/-- Reads the rest of a scalar between single quotes; two of them stand for one. -/
def readSingle : (n : Nat) → Cursor → Text → Except Fault (Text × Cursor)
  | 0, _, _ => .error .malformed
  | n + 1, k, done =>
    match k.head? with
    | none => .error .malformed
    | some '\'' =>
      if k.next.head? = some '\'' then readSingle n (k.skip 2) ('\'' :: done)
      else .ok (done.reverse, k.next)
    | some c =>
      if isGapOrBreak c then
        match readQuotedGap k with
        | .ok (piece, k) => readSingle n k (piece.reverse ++ done)
        | .error fault => .error fault
      else readSingle n k.next (c :: done)

/-- Reads a scalar between quotes from its first quote on. -/
def readQuoted : Reader Text := fun k =>
  let size := k.rest.length + 1
  if k.sees (· == '"') then readDouble size k.next [] else readSingle size k.next []

/-! ## Blocks -/

/-- What becomes of the line ends after the last line of a block. -/
inductive Chomping where
  | clip
  | strip
  | keep

/-- The header of a block: what becomes of its last line ends, and how much more than its parent
the block is indented, if that is stated. -/
structure BlockHeader where
  chomping : Chomping
  increment : Option Nat

def readChomping (k : Cursor) : Chomping × Cursor :=
  match k.head? with
  | some '+' => (.keep, k.next)
  | some '-' => (.strip, k.next)
  | _ => (.clip, k)

def readIncrement (k : Cursor) : Except Fault (Option Nat × Cursor) :=
  match k.head? with
  | some c =>
    if c == '0' then .error .malformed
    else if Json.isDigit c then .ok (some (c.toNat - 48), k.next)
    else .ok (none, k)
  | none => .ok (none, k)

/-- Reads the header of a block and the rest of its line. -/
def readBlockHeader : Reader BlockHeader := fun k => do
  let (header, k) ←
    if k.sees fun c => c == '+' || c == '-' then
      let (chomping, k) := readChomping k
      (readIncrement k).map fun (increment, k) => ((⟨chomping, increment⟩ : BlockHeader), k)
    else
      (readIncrement k).map fun (increment, k) =>
        if increment.isSome then
          let (chomping, k) := readChomping k
          (⟨chomping, increment⟩, k)
        else (⟨.clip, none⟩, k)
  if !k.endsOr fun c => c == ' ' || isBreak c then .error .malformed
  else match k.skipLineRest? with
    | some k => .ok (header, k)
    | none => .error .malformed

/-- Skips spaces up to a column. -/
def skipIndent (column : Nat) : (n : Nat) → Cursor → Cursor
  | 0, k => k
  | n + 1, k => if k.column < column && k.sees isSpace then skipIndent column n k.next else k

/-- The line ends at the front, where lines may be indented up to a column. -/
def blockBreaks (column : Nat) : (n : Nat) → Cursor → Text → Text × Cursor
  | 0, k, done => (done.reverse, k)
  | n + 1, k, done =>
    let k := skipIndent column column k
    match k.lineEnd? with
    | some (c, k) => blockBreaks column n k (c :: done)
    | none => (done.reverse, k)

/-- The line ends at the front with the spaces between them, and the highest column that the spaces
reach. -/
def leadingBreaks : (n : Nat) → Cursor → Text → Nat → Text × Nat × Cursor
  | 0, k, done, column => (done.reverse, column, k)
  | n + 1, k, done, column =>
    if k.sees isSpace then
      let k := k.skipWhile isSpace
      leadingBreaks n k done (max column k.column)
    else match k.lineEnd? with
      | some (c, k) => leadingBreaks n k (c :: done) column
      | none => (done.reverse, column, k)

/-- Reads the lines of a block with the given indentation. `breaks` are the line ends before the
next line; `done` holds the characters before them, the last one first. The result is the text with
its last line end and the empty lines at its end apart. -/
def readBlockLines (isFolded : Bool) (column : Nat) :
    (n : Nat) → Cursor → (breaks done : Text) → Text × Text × Text × Cursor
  | 0, k, breaks, done => (done.reverse, [], breaks, k)
  | n + 1, k, breaks, done =>
    if k.column != column || k.rest.isEmpty then (done.reverse, [], breaks, k)
    else
      let startsWithText := !k.sees isGap
      let (line, k) := k.span (!isBreak ·)
      let done := line.reverse ++ (breaks.reverse ++ done)
      match k.lineEnd? with
      | none => (done.reverse, [], [], k)
      | some (lineEnd, k) =>
        let (breaks, k) := blockBreaks column (k.rest.length + 1) k []
        if k.column != column || k.rest.isEmpty then (done.reverse, [lineEnd], breaks, k)
        else if isFolded && lineEnd == '\n' && startsWithText && !k.sees isGap then
          readBlockLines isFolded column n k breaks (if breaks.isEmpty then ' ' :: done else done)
        else readBlockLines isFolded column n k breaks (lineEnd :: done)

/-- Reads a block from its indicator on. `indent` is the indentation of what it belongs to. -/
def readBlock (indent : Int) : Reader Text := fun k => do
  let isFolded := k.sees (· == '>')
  let (header, k) ← readBlockHeader k.next
  let least := (max (indent + 1) 1).toNat
  let size := k.rest.length + 1
  let (breaks, column, k) := match header.increment with
    | none =>
      let (breaks, column, k) := leadingBreaks size k [] 0
      (breaks, max least column, k)
    | some increment =>
      let column := least + increment - 1
      let (breaks, k) := blockBreaks column size k []
      (breaks, column, k)
  let (text, lineEnd, breaks, k) := readBlockLines isFolded column size k breaks []
  return (match header.chomping with
    | .strip => text
    | .clip => text ++ lineEnd
    | .keep => text ++ lineEnd ++ breaks, k)

/-! ## Plain scalars -/

/-- Characters with a meaning of their own between brackets. -/
def isFlowMark (c : Char) : Bool := c == ',' || c == '[' || c == ']' || c == '{' || c == '}'

/-- Whether a plain scalar ends before the next character. -/
def endsPlain (inFlow : Bool) (c : Char) (rest : Text) : Bool :=
  isGapOrBreak c ||
    (c == ':' && rest.head?.all fun d => isGapOrBreak d || (inFlow && isFlowMark d)) ||
    (inFlow && (isFlowMark c || c == '?'))

/-- The characters of a plain scalar up to a blank or its end. -/
def plainWord (inFlow : Bool) (k : Cursor) : Text × Cursor :=
  go k.rest k []
where
  go : Text → Cursor → Text → Text × Cursor
    | [], k, done => (done.reverse, k)
    | c :: rest, k, done =>
      if endsPlain inFlow c rest then (done.reverse, k) else go rest k.next (c :: done)

/-- What stands between two words of a plain scalar. -/
structure PlainGap where
  /-- What it stands for in the text; nothing if the scalar has to end. -/
  text : Option Text
  hasBreak : Bool

/-- The line ends at the front with the spaces between them; none if a marker of documents starts a
line. -/
def plainBreaks : (n : Nat) → Cursor → Text → Option Text × Cursor
  | 0, k, done => (some done.reverse, k)
  | n + 1, k, done =>
    if k.isMarker then (none, k)
    else
      let k := k.skipWhile isSpace
      match k.lineEnd? with
      | some (c, k) => plainBreaks n k (c :: done)
      | none => (some done.reverse, k)

/-- Reads what stands between two words of a plain scalar. -/
def plainGap (k : Cursor) : PlainGap × Cursor :=
  let (spaces, k) := k.span isSpace
  match k.lineEnd? with
  | some (first, k) =>
    let (others, k) := plainBreaks (k.rest.length + 1) k []
    (⟨others.map (foldedBreaks first), true⟩, k)
  | none => (⟨if spaces.isEmpty then none else some spaces, false⟩, k)

/-- Reads a plain scalar that goes on on lines from column `indent` on. `gap` stands before its
next word. The result tells whether the last thing read is a line end. -/
def readPlain (inFlow : Bool) (indent : Int) :
    (n : Nat) → Cursor → (gap done : Text) → (hasBreak : Bool) → Text × Bool × Cursor
  | 0, k, _, done, hasBreak => (done.reverse, hasBreak, k)
  | n + 1, k, gap, done, hasBreak =>
    if k.sees (· == '#') then (done.reverse, hasBreak, k)
    else
      let (word, k) := plainWord inFlow k
      if word.isEmpty then (done.reverse, hasBreak, k)
      else
        let done := word.reverse ++ (gap.reverse ++ done)
        let (gap, k) := plainGap k
        match gap.text with
        | none => (done.reverse, gap.hasBreak, k)
        | some text =>
          if !inFlow && (k.column : Int) < indent then (done.reverse, gap.hasBreak, k)
          else readPlain inFlow indent n k text done gap.hasBreak

end CodeSurvey.Yaml
