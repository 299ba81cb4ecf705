import CodeSurvey.Pattern.Basic

/-!
# Words for patterns

The pieces that the patterns of this library are put together from. Patterns are joined by `++`,
and a string stands for the pattern that reads it.
-/

namespace CodeSurvey.Pattern

instance : Append Pattern := ⟨seq⟩

instance : Coe String Pattern := ⟨fun word => lit word.toList⟩

/-! ## Classes of characters -/

/-- Word characters and the characters listed. -/
def wordOr (extra : Text) : Char → Bool := fun c => isWord c || extra.contains c

/-- All characters but those listed. -/
def noneOf (chars : Text) : Char → Bool := fun c => !chars.contains c

def isLetter (c : Char) : Bool := ('a' ≤ c && c ≤ 'z') || ('A' ≤ c && c ≤ 'Z')

def isQuote (c : Char) : Bool := c == '\'' || c == '"'

/-- A blank that does not end a line: a space or a tab. -/
def isSpace (c : Char) : Bool := c == ' ' || c == '\t'

/-! ## Repetitions -/

def some0 (ok : Char → Bool) : Pattern := many ok 0 false

def some1 (ok : Char → Bool) : Pattern := many ok 1 false

/-- As few characters as possible, and no line feed. -/
def shortest : Pattern := many (· != '\n') 0 true

/-- As few characters as possible, line feeds included. -/
def shortestText : Pattern := many (fun _ => true) 0 true

def blanks : Pattern := some0 isBlank

def blanks1 : Pattern := some1 isBlank

def word : Pattern := some1 isWord

def quote : Pattern := one isQuote

def opt (x : Pattern) : Pattern := alt x empty

def plus (x : Pattern) : Pattern := seq x (star x)

/-! ## Alternatives -/

/-- Reads nothing anywhere. -/
def never : Pattern := test fun _ => false

def choice : List Pattern → Pattern
  | [] => never
  | [x] => x
  | x :: rest => alt x (choice rest)

def oneOf (words : List String) : Pattern := choice (words.map fun word => lit word.toList)

/-! ## Positions -/

def isTextStart (p : Place) : Bool := p.previous.isNone

def isLineStart (p : Place) : Bool :=
  match p.previous with
  | none => true
  | some c => c == '\n'

def isLineEnd (p : Place) : Bool :=
  match p.rest with
  | [] => true
  | c :: _ => c == '\n'

/-- At the end of the text, or before a line feed that ends it. -/
def isTextEnd (p : Place) : Bool :=
  match p.rest with
  | [] => true
  | [c] => c == '\n'
  | _ => false

def isAfterWord (p : Place) : Bool := p.previous.any isWord

def isBeforeWord (p : Place) : Bool := p.rest.head?.any isWord

def textStart : Pattern := test isTextStart

def textEnd : Pattern := test isTextEnd

def lineStart : Pattern := test isLineStart

def lineEnd : Pattern := test isLineEnd

/-- Between a word character and one that is none, or an end of the text. -/
def wordEdge : Pattern := test fun p => isAfterWord p != isBeforeWord p

def notAfterWord : Pattern := test fun p => !isAfterWord p

end CodeSurvey.Pattern
