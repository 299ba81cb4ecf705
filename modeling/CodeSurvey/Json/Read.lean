import CodeSurvey.Decimal.Shortest
import CodeSurvey.Text.Half
import CodeSurvey.Text.Number
import CodeSurvey.Value

/-!
# Reading JSON

A document is one value with white space around it. Beside the numbers of the standard, `NaN`,
`Infinity` and `-Infinity` are read; of the entries with one name the last one counts.
-/

namespace CodeSurvey.Json

/-- What is wrong with a text that is no document. -/
inductive Problem where
  | byteOrderMark
  | noValue
  | noName
  | noColon
  | noComma
  | openString
  | controlCharacter
  | badEscape
  | badCodePoint
  | moreText
  deriving DecidableEq

def Problem.message : Problem → String
  | byteOrderMark => "Unexpected UTF-8 BOM (decode using utf-8-sig)"
  | noValue => "Expecting value"
  | noName => "Expecting property name enclosed in double quotes"
  | noColon => "Expecting ':' delimiter"
  | noComma => "Expecting ',' delimiter"
  | openString => "Unterminated string starting at"
  | controlCharacter => "Invalid control character at"
  | badEscape => "Invalid \\escape"
  | badCodePoint => "Invalid \\uXXXX escape"
  | moreText => "Extra data"

/-- Why a text is not read. -/
inductive Fault where
  /-- The text is no document; `rest` starts where that shows. -/
  | malformed (problem : Problem) (rest : Text)
  /-- Lists and maps stand in each other more deeply than they may. -/
  | tooDeep (inMap : Bool)
  /-- An integer has more digits than `Text.maxDigits`. -/
  | tooLong (digits : Nat)

abbrev Reader (α : Type) := Text → Except Fault (α × Text)

def skipSpace (text : Text) : Text :=
  text.dropWhile fun c => c == ' ' || c == '\t' || c == '\n' || c == '\r'

/-! ## Strings -/

def hexDigit? (c : Char) : Option Nat :=
  if '0' ≤ c ∧ c ≤ '9' then some (c.toNat - 48)
  else if 'a' ≤ c ∧ c ≤ 'f' then some (c.toNat - 87)
  else if 'A' ≤ c ∧ c ≤ 'F' then some (c.toNat - 55)
  else none

/-- The number of four hexadecimal digits at the front. -/
def fourHex? : Text → Option (Nat × Text)
  | a :: b :: c :: d :: rest => do
    let a ← hexDigit? a
    let b ← hexDigit? b
    let c ← hexDigit? c
    let d ← hexDigit? d
    some (((a * 16 + b) * 16 + c) * 16 + d, rest)
  | _ => none

def simpleEscape? : Char → Option Char
  | '"' => some '"'
  | '\\' => some '\\'
  | '/' => some '/'
  | 'b' => some (Char.ofNat 8)
  | 'f' => some (Char.ofNat 12)
  | 'n' => some '\n'
  | 'r' => some '\r'
  | 't' => some '\t'
  | _ => none

/-- The character of the code at the front of a text, which stands after `\u` and before the end
of the string. A second half written after the first belongs to it. Where digits
are missing the text is returned from there. -/
def codePoint? (text : Text) : Except Text (Char × Text) :=
  match fourHex? text with
  | none => .error text
  | some (_, []) => .error text
  | some (high, rest) =>
    match Text.isHighHalf high, rest with
    | true, '\\' :: 'u' :: after =>
      if after.length ≤ 4 then .ok (Text.charOf high, rest)
      else match fourHex? after with
        | none => .error after
        | some (low, afterLow) =>
          if Text.isLowHalf low then .ok (Text.ofPair high low, afterLow)
          else .ok (Text.charOf high, rest)
    | _, _ => .ok (Text.charOf high, rest)

/-- Reads the string whose opening quote stands before the text; `opening` is the text from that
quote on. At most `n` more characters and escapes are read. -/
def readString (opening : Text) : (n : Nat) → Text → Text → Except Fault (String × Text)
  | 0, _, _ => .error (.malformed .openString opening)
  | n + 1, text, done =>
    match text with
    | [] => .error (.malformed .openString opening)
    | '"' :: rest => .ok (String.ofList done.reverse, rest)
    | '\\' :: rest =>
      match rest with
      | [] => .error (.malformed .openString opening)
      | 'u' :: after =>
        match codePoint? after with
        | .ok (c, rest) => readString opening n rest (c :: done)
        | .error place => .error (.malformed .badCodePoint ('u' :: place))
      | c :: after =>
        match simpleEscape? c with
        | some c => readString opening n after (c :: done)
        | none => .error (.malformed .badEscape text)
    | c :: rest =>
      if c.toNat < 32 then .error (.malformed .controlCharacter text)
      else readString opening n rest (c :: done)

/-! ## Numbers -/

def isDigit (c : Char) : Bool := '0' ≤ c && c ≤ '9'

def digitsValue (digits : Text) : Nat := digits.foldl (fun n c => 10 * n + (c.toNat - 48)) 0

/-- The digits at the front of a text, and what follows them. -/
def takeDigits (text : Text) : Text × Text := (text.takeWhile isDigit, text.dropWhile isDigit)

/-- The digits after a point at the front of a text, if there are any. -/
def readFraction (text : Text) : Text × Text :=
  match text with
  | '.' :: rest => if (takeDigits rest).1.isEmpty then ([], text) else takeDigits rest
  | _ => ([], text)

/-- The exponent at the front of a text, if there is one. -/
def readExponent? (text : Text) : Option (Int × Text) :=
  match text with
  | [] => none
  | e :: rest =>
    if e == 'e' || e == 'E' then
      let (isNegative, rest) := match rest with
        | '-' :: rest => (true, rest)
        | '+' :: rest => (false, rest)
        | _ => (false, rest)
      let (digits, rest) := takeDigits rest
      if digits.isEmpty then none
      else some (if isNegative then -(digitsValue digits : Int) else digitsValue digits, rest)
    else none

/-- The digits before the point: a zero, or digits that do not start with one. -/
def readWhole (text : Text) : Text × Text :=
  match text with
  | '0' :: rest => (['0'], rest)
  | _ => takeDigits text

/-- Reads a number without its sign. -/
def readNumber? (isNegative : Bool) (text : Text) : Option (Except Fault (Value × Text)) :=
  let (whole, rest) := readWhole text
  if whole.isEmpty then none
  else
    let (fraction, rest) := readFraction rest
    match readExponent? rest, fraction with
    | none, [] =>
      if whole.length > Text.maxDigits then some (.error (.tooLong whole.length))
      else
        let n : Int := digitsValue whole
        some (.ok (.int (if isNegative then -n else n), rest))
    | exponent, _ =>
      let (exponent, rest) := exponent.getD (0, rest)
      let x := Decimal.toFloat ⟨digitsValue (whole ++ fraction), exponent - fraction.length⟩
      some (.ok (.float (if isNegative then -x else x), rest))

/-! ## Values -/

/-- Words that stand for a value. -/
def wordValues : List (String × Value) :=
  [("null", .null), ("true", .bool true), ("false", .bool false), ("NaN", .float (0.0 / 0.0)),
   ("Infinity", .float (1.0 / 0.0)), ("-Infinity", .float (-1.0 / 0.0))]

def readWord? (text : Text) : Option (Value × Text) :=
  wordValues.findSome? fun (word, value) =>
    if (Text.of word).isPrefixOf text then some (value, text.drop word.length) else none

/-- Reads the items of a list, the first of which starts the text. -/
def readItems (item : Reader Value) : (n : Nat) → Text → List Value → Except Fault (Value × Text)
  | 0, text, _ => .error (.malformed .noValue text)
  | n + 1, text, done =>
    match item text with
    | .error fault => .error fault
    | .ok (value, rest) =>
      let rest := skipSpace rest
      match rest with
      | ']' :: rest => .ok (.list (value :: done).reverse, rest)
      | ',' :: rest => readItems item n (skipSpace rest) (value :: done)
      | _ => .error (.malformed .noComma rest)

/-- Reads the entries of a map, the first of which starts the text. -/
def readEntries (size : Nat) (item : Reader Value) :
    (n : Nat) → Text → List (String × Value) → Except Fault (Value × Text)
  | 0, text, _ => .error (.malformed .noName text)
  | n + 1, text, done =>
    match text with
    | '"' :: rest =>
      match readString text size rest [] with
      | .error fault => .error fault
      | .ok (name, rest) =>
        let rest := skipSpace rest
        match rest with
        | ':' :: rest =>
          match item (skipSpace rest) with
          | .error fault => .error fault
          | .ok (value, rest) =>
            let rest := skipSpace rest
            match rest with
            | '}' :: rest => .ok (.map (lastEntries ((name, value) :: done).reverse), rest)
            | ',' :: rest => readEntries size item n (skipSpace rest) ((name, value) :: done)
            | _ => .error (.malformed .noComma rest)
        | _ => .error (.malformed .noColon rest)
    | _ => .error (.malformed .noName text)

/-- Reads the value at the front of a text. Lists and maps may stand in each other `depth` deep and
have up to `size` members. -/
def readValue (size : Nat) : (depth : Nat) → Reader Value
  | depth, text =>
    match text with
    | '"' :: rest =>
      match readString text size rest [] with
      | .ok (s, rest) => .ok (.str s, rest)
      | .error fault => .error fault
    | '[' :: rest =>
      match depth with
      | 0 => .error (.tooDeep false)
      | depth + 1 =>
        match skipSpace rest with
        | ']' :: rest => .ok (.list [], rest)
        | rest => readItems (readValue size depth) size rest []
    | '{' :: rest =>
      match depth with
      | 0 => .error (.tooDeep true)
      | depth + 1 =>
        match skipSpace rest with
        | '}' :: rest => .ok (.map [], rest)
        | rest => readEntries size (readValue size depth) size rest []
    | _ =>
      match readWord? text with
      | some found => .ok found
      | none =>
        let number := match text with
          | '-' :: rest => readNumber? true rest
          | _ => readNumber? false text
        number.getD (.error (.malformed .noValue text))

/-- The value of a document, in which lists and maps may stand in each other `depth` deep. -/
def read (depth : Nat) (text : Text) : Except Fault Value :=
  if text.head? = some (Char.ofNat 0xFEFF) then .error (.malformed .byteOrderMark text)
  else
    match readValue (text.length + 1) depth (skipSpace text) with
    | .error fault => .error fault
    | .ok (value, rest) =>
      match skipSpace rest with
      | [] => .ok value
      | rest => .error (.malformed .moreText rest)

/-- The message for a fault found in a text. -/
def Fault.message (text : Text) : Fault → String
  | malformed problem rest =>
    let before := text.take (text.length - rest.length)
    let column := (before.reverse.takeWhile (· != '\n')).length + 1
    problem.message ++ ": line " ++ toString (before.count '\n' + 1) ++ " column " ++
      toString column ++ " (char " ++ toString before.length ++ ")"
  | tooDeep inMap =>
    "maximum recursion depth exceeded while decoding a JSON " ++
      (if inMap then "object" else "array") ++ " from a unicode string"
  | tooLong digits => Text.tooLongMessage digits

end CodeSurvey.Json
