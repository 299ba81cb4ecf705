import CodeSurvey.Text.Basic

/-!
# Lines

A line ends at a line feed, a carriage return, the two together, a vertical tab, a form feed, one
of the separators U+001C to U+001E, U+0085, U+2028 or U+2029. The end of the text ends a line only
if the line holds a character.
-/

namespace CodeSurvey

/-- The characters that end a line. -/
def endsLine (c : Char) : Bool :=
  let n := c.toNat
  (10 ≤ n && n ≤ 13) || (28 ≤ n && n ≤ 30) || n == 0x85 || n == 0x2028 || n == 0x2029

namespace Text

/-- The lines of a text without their ends. -/
def lines (text : Text) : List Text :=
  go text [] [] false
where
  /-- `cr` tells that the last character was a carriage return, which ends its line together with
  a line feed that follows. -/
  go : Text → Text → List Text → Bool → List Text
    | [], [], done, _ => done.reverse
    | [], line, done, _ => (line.reverse :: done).reverse
    | c :: rest, line, done, cr =>
      if cr && c == '\n' then go rest line done false
      else if endsLine c then go rest [] (line.reverse :: done) (c == '\r')
      else go rest (c :: line) done false

end Text

end CodeSurvey
