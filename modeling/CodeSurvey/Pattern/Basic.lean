import CodeSurvey.Text.Blank
import CodeSurvey.Text.Word

/-!
# Patterns

A `Pattern` describes pieces of text by what they are made of: literals, classes of characters,
repetitions, alternatives and recorded groups. Where several pieces fit at a place the pattern
ranks them: the first alternative before the second, the longer repetition before the shorter one
(the other way round for a `lazy` one). `Pattern.run` tries them in that order and hands each to a
continuation, which accepts it or asks for the next.

`Place` is a position in a text. It knows the character before it, because word edges and line
starts depend on it, and the number of characters after it, which bounds every repetition.
-/

namespace CodeSurvey

/-- A position between two characters of a text. -/
structure Place where
  /-- The character before the position, if it is not the start of the text. -/
  previous : Option Char
  rest : Text
  size : Nat
  size_eq : size = rest.length

namespace Place

/-- The position before the first character. -/
def start (text : Text) : Place := ⟨none, text, text.length, rfl⟩

/-- The position one character on, after `c` and before `rest`. -/
def step (p : Place) (c : Char) (rest : Text) (h : p.rest = c :: rest) : Place :=
  ⟨some c, rest, p.size - 1, by simp [p.size_eq, h]⟩

def next? (p : Place) : Option Place :=
  match h : p.rest with
  | [] => none
  | c :: rest => some (p.step c rest h)

/-- The same position in a text that ends after `n` more characters. -/
def within (p : Place) (n : Nat) : Place :=
  ⟨p.previous, p.rest.take n, min n p.size, by simp [p.size_eq, List.length_take]⟩

/-- The position after the first `word.length` characters, if they are `word`. -/
def after? (p : Place) (word : Text) : Option Place :=
  match word with
  | [] => some p
  | w :: word =>
    match h : p.rest with
    | [] => none
    | c :: rest => if c = w then (p.step c rest h).after? word else none

/-- The text between two positions of one text, the second not before the first. -/
def upTo (p q : Place) : Text := p.rest.take (p.size - q.size)

/-- The positions reached by reading characters of the class, the farthest first. -/
def reach (ok : Char → Bool) (p : Place) : List Place :=
  go p.rest p rfl []
where
  go : (rest : Text) → (p : Place) → p.rest = rest → List Place → List Place
    | [], p, _, passed => p :: passed
    | c :: rest, p, h, passed =>
      if ok c then go rest (p.step c rest h) rfl (p :: passed) else p :: passed

end Place

/-- A piece of text that a pattern recorded. -/
structure Span where
  first : Place
  last : Place

def Span.text (s : Span) : Text := s.first.upTo s.last

/-- The recorded groups by number, the last recorded first. -/
abbrev Groups := List (Nat × Span)

inductive Pattern where
  /-- Reads nothing. -/
  | empty
  /-- Reads exactly this text. -/
  | lit (word : Text)
  /-- Reads one character of the class. -/
  | one (ok : Char → Bool)
  /-- Reads at least `least` characters of the class, as many as possible, or as few as possible if
  `isLazy`. -/
  | many (ok : Char → Bool) (least : Nat) (isLazy : Bool)
  | seq (p q : Pattern)
  | alt (p q : Pattern)
  /-- Reads `p` as often as possible; every repetition reads at least one character. -/
  | star (p : Pattern)
  /-- Records what `p` reads as group `n`. -/
  | group (n : Nat) (p : Pattern)
  /-- Reads once more what group `n` has recorded. -/
  | same (n : Nat)
  /-- Reads nothing and holds at the positions that pass the test. -/
  | test (holds : Place → Bool)

namespace Pattern

/-- What accepts or refuses a reading that has reached a place. -/
abbrev Accept (α : Type) := Place → Groups → Option α

/-- Offers the places reached by reading at least `least` characters of the class, the nearest
first. -/
def runLazy {α : Type} (ok : Char → Bool) (accept : Place → Option α) :
    (rest : Text) → (p : Place) → p.rest = rest → (least : Nat) → Option α
  | [], p, _, 0 => accept p
  | [], _, _, _ + 1 => none
  | c :: rest, p, h, 0 =>
    match accept p with
    | some a => some a
    | none => if ok c then runLazy ok accept rest (p.step c rest h) rfl 0 else none
  | c :: rest, p, h, least + 1 =>
    if ok c then runLazy ok accept rest (p.step c rest h) rfl least else none

/-- Offers the ends of as many readings of a pattern as there are, up to `n`, the most first. -/
def runStar {α : Type} (once : Place → Groups → Accept α → Option α) :
    (n : Nat) → Place → Groups → Accept α → Option α
  | 0, p, g, accept => accept p g
  | n + 1, p, g, accept =>
    match once p g fun q g => if q.size < p.size then runStar once n q g accept else none with
    | some a => some a
    | none => accept p g

/-- Offers the ends of all readings from a place, in the order of their rank, until one is
accepted. -/
def run {α : Type} : Pattern → Place → Groups → Accept α → Option α
  | empty, p, g, accept => accept p g
  | lit word, p, g, accept =>
    match p.after? word with
    | some q => accept q g
    | none => none
  | one ok, p, g, accept =>
    match h : p.rest with
    | c :: rest => if ok c then accept (p.step c rest h) g else none
    | [] => none
  | many ok least isLazy, p, g, accept =>
    if isLazy then runLazy ok (accept · g) p.rest p rfl least
    else ((p.reach ok).takeWhile fun q => q.size + least ≤ p.size).findSome? (accept · g)
  | seq x y, p, g, accept => x.run p g fun p g => y.run p g accept
  | alt x y, p, g, accept =>
    match x.run p g accept with
    | some a => some a
    | none => y.run p g accept
  | star x, p, g, accept => runStar x.run p.size p g accept
  | group n x, p, g, accept => x.run p g fun q g => accept q ((n, ⟨p, q⟩) :: g)
  | same n, p, g, accept =>
    match g.lookup n with
    | some span =>
      match p.after? span.text with
      | some q => accept q g
      | none => none
    | none => none
  | test holds, p, g, accept => if holds p then accept p g else none

end Pattern

/-- A piece of text that fits a pattern, with the groups recorded in it. -/
structure Match where
  first : Place
  last : Place
  groups : Groups

namespace Match

def text (m : Match) : Text := m.first.upTo m.last

/-- What group `n` recorded, if it took part. -/
def group? (m : Match) (n : Nat) : Option Text := (m.groups.lookup n).map Span.text

/-- What group `n` recorded; empty if it took no part. -/
def group (m : Match) (n : Nat) : Text := (m.group? n).getD []

def string? (m : Match) (n : Nat) : Option String := (m.group? n).map String.ofList

def string (m : Match) (n : Nat) : String := String.ofList (m.group n)

end Match

namespace Pattern

/-- The best reading that starts at the place. -/
def matchAt? (x : Pattern) (p : Place) : Option Match :=
  x.run p [] fun q g => some ⟨p, q, g⟩

/-- The best reading at the first place, from `p` on, that has one. -/
def find? (x : Pattern) (p : Place) : Option Match :=
  go p.rest p rfl
where
  go : (rest : Text) → (p : Place) → p.rest = rest → Option Match
    | [], p, _ => x.matchAt? p
    | c :: rest, p, h =>
      match x.matchAt? p with
      | some m => some m
      | none => go rest (p.step c rest h) rfl

/-- The readings from left to right that do not overlap. -/
def findAll (x : Pattern) (p : Place) : List Match :=
  go p.size p []
where
  /-- At most `n` more characters are left, so at most `n` readings that are not empty. -/
  go : Nat → Place → List Match → List Match
    | 0, p, found => ((x.matchAt? p).toList ++ found).reverse
    | n + 1, p, found =>
      match x.find? p with
      | none => found.reverse
      | some m =>
        if m.last.size < m.first.size then go n m.last (m :: found)
        else match m.last.next? with
          | none => (m :: found).reverse
          | some q => go n q (m :: found)

/-- How far after a marker the name that belongs to it is looked for. -/
def nameWindow : Nat := 800

def find (x : Pattern) (text : Text) : Option Match := x.find? (Place.start text)

def all (x : Pattern) (text : Text) : List Match := x.findAll (Place.start text)

/-- What group `n` recorded in each reading. -/
def names (x : Pattern) (n : Nat) (text : Text) : List String :=
  (x.all text).map (·.string n)

/-- What group 1 recorded in the first reading within the next `nameWindow` characters. -/
def nextName? (x : Pattern) (p : Place) : Option String :=
  (x.find? (p.within nameWindow)).bind (·.string? 1)

/-- The text with each reading replaced by what `image` makes of it. -/
def substitute (x : Pattern) (image : Match → Text) (text : Text) : Text :=
  let (p, done) := (x.all text).foldl
    (fun (p, done) m => (m.last, (image m).reverse ++ ((p.upTo m.first).reverse ++ done)))
    (Place.start text, [])
  (p.rest.reverse ++ done).reverse

/-- The text without the readings. -/
def erase (x : Pattern) (text : Text) : Text := x.substitute (fun _ => []) text

end Pattern

end CodeSurvey
