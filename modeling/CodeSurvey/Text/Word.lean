import CodeSurvey.Text.Basic
import CodeSurvey.Text.WordTable

/-!
# Word characters

A word is made of letters, digits of any script and underscores.
-/

namespace CodeSurvey

def isWord (c : Char) : Bool :=
  let n := c.toNat
  if n < 128 then
    (97 ≤ n && n ≤ 122) || (65 ≤ n && n ≤ 90) || (48 ≤ n && n ≤ 57) || n == 95
  else
    Text.alphanumeric.has n

end CodeSurvey
