import CodeSurvey.Text.Basic

/-!
# Blank characters

White space is what Unicode gives the property of white space or the bidirectional class of a
separator, so the four information separators U+001C to U+001F are blank.
-/

namespace CodeSurvey

/-- White space in the sense of Unicode, the information separators included. -/
def isBlank (c : Char) : Bool :=
  let n := c.toNat
  if n < 128 then n == 32 || (9 ≤ n && n ≤ 13) || (28 ≤ n && n ≤ 31)
  else n == 0x85 || n == 0xA0 || n == 0x1680 || (0x2000 ≤ n && n ≤ 0x200A) || n == 0x2028 ||
    n == 0x2029 || n == 0x202F || n == 0x205F || n == 0x3000

namespace Text

/-- Drops the white space at both ends. -/
def trim (text : Text) : Text := text.trimBy isBlank

def isBlankText (text : Text) : Bool := text.all isBlank

/-- The number of white space characters at the front. -/
def indent (text : Text) : Nat := (text.takeWhile isBlank).length

/-- The maximal runs without white space. -/
def words (text : Text) : List Text := (text.splitOn isBlank).filter (!·.isEmpty)

end Text

end CodeSurvey
