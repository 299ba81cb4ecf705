import CodeSurvey.Text.Base64
import CodeSurvey.Text.Case
import CodeSurvey.Text.Shown
import CodeSurvey.Value
import CodeSurvey.Yaml.Schema

/-!
# Values of scalars

What the text of a scalar stands for under a tag. A tag may be stated that the text does not suit;
which fault that is depends on how the text is looked at.
-/

namespace CodeSurvey.Yaml

/-! ## Numbers -/

/-- The integer that a piece of a scalar stands for. -/
def wholeIn (base : Nat) (text : Text) : Except Fault Int :=
  match Text.wholeIn base text with
  | .ok n => .ok n
  | .error .malformed => .error (.noInteger text base)
  | .error (.tooLong digits) => .error (.tooLong digits)

/-- The integer that digits in base sixty stand for. -/
def sixtiethsValue (digits : List Int) : Int := digits.foldl (fun n d => n * 60 + d) 0

/-- The integer of a scalar: in base two, sixteen or eight after `0b`, `0x` and `0`, in base sixty
with colons, or else in base ten. Underscores do not count. -/
def integer (text : Text) : Except Fault Int :=
  match text.filter (· != '_') with
  | [] => .error .emptyNumber
  | text =>
    let (isNegative, body) := Text.takeSign text
    let n : Except Fault Int :=
      match body with
      | [] => .error .emptyNumber
      | ['0'] => .ok 0
      | '0' :: 'b' :: rest => wholeIn 2 rest
      | '0' :: 'x' :: rest => wholeIn 16 rest
      | '0' :: _ => wholeIn 8 body
      | _ =>
        if body.contains ':' then
          ((body.splitOn (· == ':')).mapM (wholeIn 10)).map sixtiethsValue
        else wholeIn 10 body
    n.map fun n => if isNegative then -n else n

/-- The number that a piece of a scalar stands for. -/
def decimal (text : Text) : Except Fault Float :=
  match Text.decimal? text with
  | some x => .ok x
  | none => .error (.noNumber text)

/-- The sum of digits in base sixty, given from the last one on, of which the first counts `60 ^ k`.
What a digit counts has to be in the range of numbers. -/
def sixtiethsSum : (k : Nat) → (sum : Float) → List Float → Except Fault Float
  | _, sum, [] => .ok sum
  | k, sum, digit :: rest =>
    let weight := Decimal.toFloat ⟨60 ^ k, 0⟩
    if weight.isInf then .error .tooLarge else sixtiethsSum (k + 1) (sum + digit * weight) rest

/-- The number of a scalar: infinite, none, in base sixty with colons, or else a decimal.
Underscores do not count. -/
def number (text : Text) : Except Fault Float :=
  match Text.lower (text.filter (· != '_')) with
  | [] => .error .emptyNumber
  | text =>
    let (isNegative, body) := Text.takeSign text
    let x : Except Fault Float :=
      if body = Text.of ".inf" then .ok (1.0 / 0.0)
      else if body = Text.of ".nan" then .ok (0.0 / 0.0)
      else if body.contains ':' then
        match (body.splitOn (· == ':')).mapM decimal with
        | .ok digits => sixtiethsSum 0 0.0 digits.reverse
        | .error fault => .error fault
      else decimal body
    x.map fun x => if isNegative then -x else x

/-! ## Times -/

/-- The offset from universal time in seconds that a match of `clockForm` states. -/
def offsetSeconds (m : Match) : Int :=
  let seconds : Int := Json.digitsValue (m.group 8) * 3600 + Json.digitsValue (m.group 9) * 60
  if m.group 7 == ['-'] then -seconds else seconds

/-- What is wrong with a date or time that has the form. -/
def timeProblem? (m : Match) : Option TimeProblem :=
  let field (n : Nat) : Nat := Json.digitsValue (m.group n)
  let offset := offsetSeconds m
  if 86400 ≤ offset.natAbs then some (.offset offset)
  else
    (dateProblem? (field 1) (field 2) (field 3)).orElse fun _ =>
      clockProblem? (field 4) (field 5) (field 6)

/-- Checks the date or time of a scalar. -/
def checkTime (text : Text) : Except Fault Unit :=
  match (timeForm ++ Pattern.textEnd).matchAt? (Place.start text) with
  | none => .error .noTime
  | some m =>
    match timeProblem? m with
    | some problem => .error (.wrongTime problem)
    | none => .ok ()

/-! ## Values -/

/-- The words for truth values, which may be written in capitals. -/
def truthWords : List (String × Bool) :=
  [("yes", true), ("no", false), ("true", true), ("false", false), ("on", true), ("off", false)]

def truth (text : Text) : Except Fault Bool :=
  match truthWords.lookup (String.ofList (Text.lower text)) with
  | some b => .ok b
  | none => .error (.noTruth text)

/-- The bytes of a scalar in base 64. -/
def binary (text : Text) : Except Fault (List Value) :=
  if text.any fun c => 128 ≤ c.toNat then .error .malformed
  else match Text.base64? text with
    | some bytes => .ok (bytes.map fun b => .int b.toNat)
    | none => .error .malformed

/-- The value of a scalar under a tag. A collection is written as no scalar. -/
def atom (tag : Tag) (text : Text) : Except Fault Value :=
  match tag with
  | .null => .ok .null
  | .bool => (truth text).map .bool
  | .int => (integer text).map .int
  | .float => (number text).map .float
  | .binary => (binary text).map .list
  | .timestamp => (checkTime text).map fun _ => .other false
  | .str => .ok (.str (String.ofList text))
  | _ => .error .malformed

end CodeSurvey.Yaml
