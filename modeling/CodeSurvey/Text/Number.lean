import CodeSurvey.Decimal.Shortest
import CodeSurvey.Text.Blank
import CodeSurvey.Text.DigitTable

/-!
# Numbers in texts

A number may have white space around it and be written with the decimal digits of any script.
Single underscores may stand between the digits of a whole number.
-/

namespace CodeSurvey.Text

/-- White space that may stand around a number: that of a text, but no information separators. -/
def isNumberBlank (c : Char) : Bool := isBlank c && !(28 ≤ c.toNat && c.toNat ≤ 31)

/-- The value of a decimal digit of any script. -/
def decimalDigit? (c : Char) : Option Nat :=
  (zeros.find? fun first => first ≤ c.toNat && c.toNat < first + 10).map (c.toNat - ·)

/-- The value of a digit in bases up to sixteen. -/
def digit? (c : Char) : Option Nat :=
  if 'a' ≤ c ∧ c ≤ 'f' then some (c.toNat - 87)
  else if 'A' ≤ c ∧ c ≤ 'F' then some (c.toNat - 55)
  else decimalDigit? c

def isDigitIn (base : Nat) (c : Char) : Bool := (digit? c).any (· < base)

/-- A number without its sign, and whether the sign is a minus. -/
def takeSign (text : Text) : Bool × Text :=
  match text with
  | '-' :: rest => (true, rest)
  | '+' :: rest => (false, rest)
  | _ => (false, text)

/-! ## Whole numbers -/

/-- Why a text is no whole number. -/
inductive NotWhole where
  | malformed
  /-- In base ten the number of digits is limited. -/
  | tooLong (digits : Nat)

/-- How many digits a whole number in base ten may have. -/
def maxDigits : Nat := 4300

/-- What is said of a whole number with too many digits. -/
def tooLongMessage (digits : Nat) : String :=
  "Exceeds the limit (4300 digits) for integer string conversion: value has " ++
    toString digits ++ " digits; use sys.set_int_max_str_digits() to increase the limit"

/-- The digits of a whole number, if they are not too many. -/
def ofWhole? (n : Int) : Option String :=
  if n.natAbs < Nat.pow 10 maxDigits then some (toString n) else none

/-- What is said of a whole number that is not written because its digits are too many. -/
def unwrittenMessage : String :=
  "Exceeds the limit (4300 digits) for integer string conversion; use " ++
    "sys.set_int_max_str_digits() to increase the limit"

/-- The number without the mark of its base, where it has one. -/
def dropBaseMark (base : Nat) (text : Text) : Text :=
  match text with
  | '0' :: mark :: rest =>
    let marks := if base = 16 then ['x', 'X'] else if base = 8 then ['o', 'O'] else
      if base = 2 then ['b', 'B'] else []
    if marks.contains mark then
      match rest with
      | '_' :: rest => rest
      | _ => rest
    else text
  | _ => text

/-- Whether underscores stand only between digits, one at a time. -/
def isSpacedOut (digits : Text) : Bool :=
  digits.head? != some '_' && digits.getLast? != some '_' && !digits.has ['_', '_']

/-- The value of digits in a base. -/
def digitsValue (base : Nat) (digits : Text) : Nat :=
  (digits.filterMap digit?).foldl (fun n d => base * n + d) 0

/-- The whole number that a text stands for in a base. -/
def wholeIn (base : Nat) (text : Text) : Except NotWhole Int :=
  let (isNegative, body) := takeSign (text.trimBy isNumberBlank)
  let body := dropBaseMark base body
  let digits := body.takeWhile fun c => isDigitIn base c || c == '_'
  let count := digits.countP (· != '_')
  if count = 0 || !isSpacedOut digits then .error .malformed
  else if base = 10 ∧ maxDigits < count then .error (.tooLong count)
  else if digits.length < body.length then .error .malformed
  else
    let n : Int := digitsValue base digits
    .ok (if isNegative then -n else n)

/-- The whole number that a text stands for in base ten, if it stands for one. -/
def whole? (text : Text) : Option Int := (wholeIn 10 text).toOption

/-! ## Decimals -/

/-- The number that words stand for. -/
def wordNumber? (word : Text) : Option Float :=
  let word := word.map Char.toLower
  if word = of "inf" ∨ word = of "infinity" then some (1.0 / 0.0)
  else if word = of "nan" then some (0.0 / 0.0)
  else none

/-- The exponent that is all of a text, if it is one; zero if the text is empty. -/
def exponent? (text : Text) : Option Int :=
  match text with
  | [] => some 0
  | c :: rest =>
    let (isNegative, digits) := takeSign rest
    if (c == 'e' || c == 'E') && !digits.isEmpty && digits.all (isDigitIn 10) then
      let n : Int := digitsValue 10 digits
      some (if isNegative then -n else n)
    else none

/-- The number that a text without sign and white space stands for, if it stands for one. -/
def decimalBody? (body : Text) : Option Float :=
  let whole := body.takeWhile (isDigitIn 10)
  let rest := body.drop whole.length
  let fraction := match rest with
    | '.' :: rest => rest.takeWhile (isDigitIn 10)
    | _ => []
  let rest := match rest with
    | '.' :: rest => rest.drop fraction.length
    | _ => rest
  if whole.isEmpty && fraction.isEmpty then none
  else (exponent? rest).map fun exponent =>
    Decimal.toFloat ⟨digitsValue 10 (whole ++ fraction), exponent - fraction.length⟩

/-- The number that a text stands for, if it stands for one. -/
def decimal? (text : Text) : Option Float :=
  let (isNegative, body) := takeSign (text.trimBy isNumberBlank)
  let x := (wordNumber? body).orElse fun _ => decimalBody? body
  x.map fun x => if isNegative then -x else x

end CodeSurvey.Text
