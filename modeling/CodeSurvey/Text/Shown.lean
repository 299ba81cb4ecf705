import CodeSurvey.Text.Half
import CodeSurvey.Text.InvisibleTable

/-!
# Texts in messages

A message shows a text between quotes, with invisible characters written as escapes.
-/

namespace CodeSurvey.Text

/-- At least `width` hexadecimal digits. -/
def hexDigits (width n : Nat) : Text :=
  let digits := Nat.toDigits 16 n
  List.replicate (width - digits.length) '0' ++ digits

def isVisible (c : Char) : Bool := 32 ≤ c.toNat && !invisible.has c.toNat

/-- A character as it is written between quotes. -/
def shownChar (quote c : Char) : Text :=
  let n := c.toNat
  if c == quote || c == '\\' then ['\\', c]
  else if c == '\t' then of "\\t"
  else if c == '\n' then of "\\n"
  else if c == '\r' then of "\\r"
  else if isVisible c then [c]
  else if n < 0x100 then of "\\x" ++ hexDigits 2 n
  else if n < 0x10000 then of "\\u" ++ hexDigits 4 n
  else match half? c with
    | some half => of "\\u" ++ hexDigits 4 half
    | none => of "\\U" ++ hexDigits 8 n

/-- The text between quotes: single ones, unless only those occur in it. -/
def shown (text : Text) : Text :=
  let quote := if text.contains '\'' && !text.contains '"' then '"' else '\''
  quote :: text.flatMap (shownChar quote) ++ [quote]

end CodeSurvey.Text
