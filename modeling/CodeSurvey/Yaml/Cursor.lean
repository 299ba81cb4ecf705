import CodeSurvey.Calendar
import CodeSurvey.Json.Read

/-!
# Positions in YAML

The structure of a document depends on lines and columns, so a `Cursor` keeps both. Line ends are
line feeds, U+0085, U+2028 and U+2029; carriage returns have been turned into line feeds before.
-/

namespace CodeSurvey.Yaml

/-- Why a text is not read. -/
inductive Fault where
  /-- The text is no document, or a value has a tag that it does not suit. -/
  | malformed
  /-- Values stand in each other more deeply than they may. -/
  | tooDeep
  /-- A character is named by a number above the last one; `isHuge` tells that it takes 32 bits. -/
  | noCharacter (isHuge : Bool)
  /-- A text that stands for an integer has none in it. -/
  | noInteger (text : Text) (base : Nat)
  | tooLong (digits : Nat)
  /-- A text that stands for a number has none in it. -/
  | noNumber (text : Text)
  /-- A number is written without any character. -/
  | emptyNumber
  /-- A digit in base sixty stands too far to the left. -/
  | tooLarge
  /-- A text that stands for a truth value has none in it. -/
  | noTruth (text : Text)
  /-- A text that stands for a time has none in it. -/
  | noTime
  /-- A time has its text under a key of a mapping. -/
  | timeInMapping
  | wrongTime (problem : TimeProblem)

/-! ## Characters -/

def isBreak (c : Char) : Bool :=
  c == '\n' || c == '\x85' || c == Char.ofNat 0x2028 || c == Char.ofNat 0x2029

def isSpace (c : Char) : Bool := c == ' '

/-- A space or a tab. -/
def isGap (c : Char) : Bool := c == ' ' || c == '\t'

def isGapOrBreak (c : Char) : Bool := isGap c || isBreak c

/-- Characters of the names of anchors, tags and directives. -/
def isNameChar (c : Char) : Bool :=
  ('0' ≤ c && c ≤ '9') || ('A' ≤ c && c ≤ 'Z') || ('a' ≤ c && c ≤ 'z') || c == '-' || c == '_'

def byteOrderMark : Char := Char.ofNat 0xFEFF

/-- The characters that a document may hold. -/
def isAllowed (c : Char) : Bool :=
  let n := c.toNat
  n == 9 || n == 10 || (0x20 ≤ n && n ≤ 0x7E) || n == 0x85 || (0xA0 ≤ n && n ≤ 0xD7FF) ||
    (0xE000 ≤ n && n ≤ 0xFFFD) || 0x10000 ≤ n

/-! ## Cursors -/

structure Cursor where
  rest : Text
  /-- The number of characters passed. -/
  index : Nat
  line : Nat
  column : Nat

namespace Cursor

def start (text : Text) : Cursor := ⟨text, 0, 0, 0⟩

/-- The position after the next character. -/
def next (k : Cursor) : Cursor :=
  match k.rest with
  | [] => k
  | c :: rest =>
    if isBreak c then ⟨rest, k.index + 1, k.line + 1, 0⟩
    else ⟨rest, k.index + 1, k.line, if c = byteOrderMark then k.column else k.column + 1⟩

def skip (k : Cursor) : Nat → Cursor
  | 0 => k
  | n + 1 => k.next.skip n

def head? (k : Cursor) : Option Char := k.rest.head?

/-- The character after the next `n`. -/
def after? (k : Cursor) (n : Nat) : Option Char := k.rest[n]?

/-- Whether the next character is of the class. -/
def sees (k : Cursor) (ok : Char → Bool) : Bool := k.head?.any ok

/-- Whether the text ends here or goes on with a character of the class. -/
def endsOr (k : Cursor) (ok : Char → Bool) : Bool := k.head?.all ok

/-- Whether the text ends after `n` characters or goes on with one of the class. -/
def endsOrAfter (k : Cursor) (n : Nat) (ok : Char → Bool) : Bool := (k.after? n).all ok

/-- The characters of the class at the front, and the position after them. -/
def span (k : Cursor) (ok : Char → Bool) : Text × Cursor :=
  go k.rest k []
where
  go : Text → Cursor → Text → Text × Cursor
    | [], k, done => (done.reverse, k)
    | c :: rest, k, done => if ok c then go rest k.next (c :: done) else (done.reverse, k)

def skipWhile (k : Cursor) (ok : Char → Bool) : Cursor := (k.span ok).2

/-- Skips a comment, up to the end of its line. -/
def skipComment (k : Cursor) : Cursor :=
  if k.sees (· == '#') then k.skipWhile (!isBreak ·) else k

/-- The line end at the front, if there is one: what it stands for in a text, and the position
after it. -/
def lineEnd? (k : Cursor) : Option (Char × Cursor) :=
  match k.head? with
  | some c => if isBreak c then some (if c == '\x85' then '\n' else c, k.next) else none
  | none => none

/-- Whether a line of three equal characters, as between documents, starts here. -/
def isMarker (k : Cursor) : Bool :=
  ((k.rest.take 3 == ['-', '-', '-']) || (k.rest.take 3 == ['.', '.', '.'])) &&
    k.endsOrAfter 3 isGapOrBreak

/-- The position after the rest of a line that holds only spaces and perhaps a comment. -/
def skipLineRest? (k : Cursor) : Option Cursor :=
  let k := (k.skipWhile isSpace).skipComment
  match k.rest with
  | [] => some k
  | _ => k.lineEnd?.map (·.2)

end Cursor

/-- What reads a piece of a text. -/
abbrev Reader (α : Type) := Cursor → Except Fault (α × Cursor)

end CodeSurvey.Yaml
