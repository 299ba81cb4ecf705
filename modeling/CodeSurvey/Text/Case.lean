import CodeSurvey.Text.Basic
import CodeSurvey.Text.CaseTable

/-!
# Upper and lower case

The full case mappings of Unicode: a character may become several, and a capital sigma at the end
of a word becomes a final sigma.
-/

namespace CodeSurvey.Text

def Shift.image? (s : Shift) (n : Nat) : Option Nat :=
  if s.first ≤ n && n ≤ s.last && (n - s.first) % s.step == 0 then some (n + s.offset).toNat
  else none

/-- The image of a code point: an expansion if it has one, else its shifted form, else itself. -/
def image (expansions : List (Nat × List Nat)) (shifts : List Shift) (n : Nat) : List Nat :=
  match expansions.lookup n with
  | some image => image
  | none => [(shifts.findSome? (·.image? n)).getD n]

def upperChar (c : Char) : Text :=
  let n := c.toNat
  if n < 128 then [c.toUpper] else (image upperExpansions upperShifts n).map Char.ofNat

def lowerChar (c : Char) : Text :=
  let n := c.toNat
  if n < 128 then [c.toLower] else (image lowerExpansions lowerShifts n).map Char.ofNat

/-- The form of a character at the start of a capitalised word. -/
def titleChar (c : Char) : Text :=
  let n := c.toNat
  if n < 128 then [c.toUpper]
  else if titleUnchanged.has n then [c]
  else match titleForms.lookup n with
    | some image => image.map Char.ofNat
    | none => upperChar c

def upper (text : Text) : Text := text.flatMap upperChar

/-- Whether the nearest character that is not passed over has a case. -/
def meetsCased (text : Text) : Bool :=
  match text.dropWhile fun c => caseIgnorable.has c.toNat with
  | [] => false
  | c :: _ => cased.has c.toNat

/-- Lower case of a text that stands after `before` (nearest character first). -/
def lowerAfter (before : Text) (text : Text) : Text :=
  go text before []
where
  go : Text → Text → Text → Text
    | [], _, done => done.reverse
    | c :: rest, before, done =>
      let image :=
        if c == 'Σ' then [if meetsCased before && !meetsCased rest then 'ς' else 'σ']
        else lowerChar c
      go rest (c :: before) (image.reverse ++ done)

def lower (text : Text) : Text := lowerAfter [] text

/-- The first character in its form at the start of a word, all others in lower case. -/
def capitalize : Text → Text
  | [] => []
  | c :: rest => titleChar c ++ lowerAfter [c] rest

end CodeSurvey.Text
