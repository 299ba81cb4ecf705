import CodeSurvey.Calendar
import CodeSurvey.Json.Read
import CodeSurvey.Pattern.Vocabulary

/-!
# Strings, dates and numbers of TOML

Each function reads one kind of value from the front of a text and returns what follows it.
-/

namespace CodeSurvey.Toml

/-- Why a text is not read. -/
inductive Fault where
  /-- The text is no document. -/
  | malformed
  /-- Values stand in each other more deeply than they may. -/
  | tooDeep
  /-- An integer has more digits than `Text.maxDigits`. -/
  | tooLong (digits : Nat)

abbrev Reader (α : Type) := Text → Except Fault (α × Text)

/-- Blanks within a line. -/
def isGap (c : Char) : Bool := c == ' ' || c == '\t'

def isGapOrLineEnd (c : Char) : Bool := isGap c || c == '\n'

/-- Control characters other than the tab stand neither in strings nor in comments. -/
def isIllegal (c : Char) : Bool := (c.toNat < 32 && c != '\t') || c.toNat == 127

/-- Like `isIllegal` for what may hold several lines. -/
def isIllegalInLines (c : Char) : Bool := isIllegal c && c != '\n'

def skipGap (text : Text) : Text := text.dropWhile isGap

/-- Skips a comment, up to the end of its line. -/
def skipComment (text : Text) : Except Fault Text :=
  match text with
  | '#' :: rest =>
    let comment := rest.takeWhile (· != '\n')
    if comment.any isIllegal then .error .malformed else .ok (rest.drop comment.length)
  | _ => .ok text

/-- Skips the blanks, line ends and at most `n` comments between the items of an array. -/
def skipLines : (n : Nat) → Text → Except Fault Text
  | 0, text => .ok (text.dropWhile isGapOrLineEnd)
  | n + 1, text =>
    match text.dropWhile isGapOrLineEnd with
    | '#' :: rest =>
      match skipComment ('#' :: rest) with
      | .ok rest => skipLines n rest
      | .error fault => .error fault
    | rest => .ok rest

/-! ## Strings -/

/-- The character whose code is the first `size` hexadecimal digits of the text. -/
def readCode (size : Nat) : Reader Char := fun text =>
  let digits := (text.take size).filterMap Json.hexDigit?
  if digits.length < size then .error .malformed
  else
    let code := digits.foldl (fun n d => 16 * n + d) 0
    if code < 0xD800 ∨ (0xE000 ≤ code ∧ code < 0x110000) then .ok (Char.ofNat code, text.drop size)
    else .error .malformed

/-- What follows a backslash before the end of a line: nothing up to the next text. -/
def skipLineEnd (text : Text) : Except Fault Text :=
  match skipGap text with
  | [] => .ok []
  | '\n' :: rest => .ok (rest.dropWhile isGapOrLineEnd)
  | _ => .error .malformed

/-- Reads an escape after its backslash. -/
def readEscape (inLines : Bool) : Reader Text := fun text =>
  match text with
  | 'u' :: rest => (readCode 4 rest).map fun (c, rest) => ([c], rest)
  | 'U' :: rest => (readCode 8 rest).map fun (c, rest) => ([c], rest)
  | 'b' :: rest => .ok ([Char.ofNat 8], rest)
  | 't' :: rest => .ok (['\t'], rest)
  | 'n' :: rest => .ok (['\n'], rest)
  | 'f' :: rest => .ok ([Char.ofNat 12], rest)
  | 'r' :: rest => .ok (['\r'], rest)
  | '"' :: rest => .ok (['"'], rest)
  | '\\' :: rest => .ok (['\\'], rest)
  | c :: _ =>
    if inLines && isGapOrLineEnd c then (skipLineEnd text).map fun rest => ([], rest)
    else .error .malformed
  | [] => .error .malformed

/-- Reads a string with escapes after its opening quotes; at most `n` characters and escapes. -/
def readBasic (inLines : Bool) : (n : Nat) → Text → Text → Except Fault (Text × Text)
  | 0, _, _ => .error .malformed
  | n + 1, text, done =>
    match text with
    | [] => .error .malformed
    | '"' :: rest =>
      if !inLines then .ok (done.reverse, rest)
      else match rest with
        | '"' :: '"' :: rest => .ok (done.reverse, rest)
        | _ => readBasic inLines n rest ('"' :: done)
    | '\\' :: rest =>
      match readEscape inLines rest with
      | .ok (image, rest) => readBasic inLines n rest (image.reverse ++ done)
      | .error fault => .error fault
    | c :: rest =>
      if (if inLines then isIllegalInLines c else isIllegal c) then .error .malformed
      else readBasic inLines n rest (c :: done)

/-- Reads a string without escapes after its opening quote. -/
def readLiteral : Reader Text := fun text =>
  let body := text.takeWhile (· != '\'')
  match text.drop body.length with
  | [] => .error .malformed
  | _ :: rest => if body.any isIllegal then .error .malformed else .ok (body, rest)

/-- Reads a string of several lines without escapes after its opening quotes. -/
def readLiteralLines : Reader Text := fun text =>
  match text.fromFirst? ['\'', '\'', '\''] with
  | none => .error .malformed
  | some rest =>
    let body := text.take (text.length - rest.length)
    if body.any isIllegalInLines then .error .malformed else .ok (body, rest.drop 3)

/-- Up to two quotes more than the three that end a string of several lines belong to it. -/
def withLastQuotes (quote : Char) (body rest : Text) : Text × Text :=
  let extra := ((rest.takeWhile (· == quote)).take 2).length
  (body ++ List.replicate extra quote, rest.drop extra)

/-- The text after a line end right after the opening quotes. -/
def skipFirstLineEnd (text : Text) : Text :=
  match text with
  | '\n' :: rest => rest
  | _ => text

/-- Reads the string at the front of a text of at most `size` characters, if one starts there. -/
def readString? (size : Nat) (text : Text) : Option (Except Fault (Text × Text)) :=
  match text with
  | '"' :: '"' :: '"' :: rest =>
    some ((readBasic true size (skipFirstLineEnd rest) []).map fun (body, rest) =>
      withLastQuotes '"' body rest)
  | '"' :: rest => some (readBasic false size rest [])
  | '\'' :: '\'' :: '\'' :: rest =>
    some ((readLiteralLines (skipFirstLineEnd rest)).map fun (body, rest) =>
      withLastQuotes '\'' body rest)
  | '\'' :: rest => some (readLiteral rest)
  | _ => none

/-! ## Dates and times -/

section

open Pattern

def digit : Pattern := one Json.isDigit

/-- A digit up to the given one. -/
def digitUpTo (last : Char) : Pattern := one fun c => '0' ≤ c && c ≤ last

def hours : Pattern := alt (digitUpTo '1' ++ digit) ("2" ++ digitUpTo '3')

def minutes : Pattern := digitUpTo '5' ++ digit

def clockTime : Pattern :=
  hours ++ ":" ++ minutes ++ ":" ++ minutes ++ opt ("." ++ some1 Json.isDigit)

def timeOffset : Pattern :=
  alt (one fun c => c == 'Z' || c == 'z')
    (one (fun c => c == '+' || c == '-') ++ hours ++ ":" ++ minutes)

def month : Pattern := alt ("0" ++ one fun c => '1' ≤ c && c ≤ '9') ("1" ++ digitUpTo '2')

def dayOfMonth : Pattern :=
  choice ["0" ++ one (fun c => '1' ≤ c && c ≤ '9'), one (fun c => c == '1' || c == '2') ++ digit,
    "3" ++ digitUpTo '1']

/-- A date, perhaps with a time and its offset: the year, the month and the day. -/
def dateTime : Pattern :=
  group 1 (digit ++ digit ++ digit ++ digit) ++ "-" ++ group 2 month ++ "-" ++
    group 3 dayOfMonth ++
    opt (one (fun c => c == 'T' || c == 't' || c == ' ') ++ clockTime ++ opt timeOffset)

end

/-- Reads the date or time at the front of a text, if there is one. -/
def readTime? (text : Text) : Option (Except Fault (Value × Text)) :=
  let start := Place.start text
  match dateTime.matchAt? start with
  | some m =>
    let number (n : Nat) : Nat := Json.digitsValue (m.group n)
    some (if (dateProblem? (number 1) (number 2) (number 3)).isNone then
        .ok (.other false, m.last.rest)
      else .error .malformed)
  | none => (clockTime.matchAt? start).map fun m => .ok (.other false, m.last.rest)

/-! ## Numbers -/

section

open Pattern

/-- Digits of a class, single underscores between them. -/
def spacedDigits (ok : Char → Bool) : Pattern := one ok ++ star (opt "_" ++ one ok)

def isHexDigit (c : Char) : Bool := (Json.hexDigit? c).isSome

/-- A whole number in another base than ten. -/
def basedNumber : Pattern :=
  "0" ++ choice ["x" ++ spacedDigits isHexDigit, "b" ++ spacedDigits fun c => c == '0' || c == '1',
    "o" ++ spacedDigits fun c => '0' ≤ c && c ≤ '7']

/-- A decimal number: the sign, the digits before the point, those after it and the exponent. -/
def decimalNumber : Pattern :=
  group 1 (opt (one fun c => c == '+' || c == '-')) ++
    group 2 (alt "0" (one (fun c => '1' ≤ c && c ≤ '9') ++
      star (opt "_" ++ one Json.isDigit))) ++
    opt ("." ++ group 3 (spacedDigits Json.isDigit)) ++
    opt (one (fun c => c == 'e' || c == 'E') ++
      group 4 (opt (one fun c => c == '+' || c == '-') ++ spacedDigits Json.isDigit))

end

def plainDigits (text : Text) : Text := text.filter Json.isDigit

/-- The value of an exponent with its sign. -/
def exponentValue (text : Text) : Int :=
  let n : Int := Json.digitsValue (plainDigits text)
  if text.head? = some '-' then -n else n

/-- The value of a decimal number that was read. -/
def decimalValue (m : Match) : Except Fault Value :=
  let isNegative := m.group 1 == ['-']
  let whole := plainDigits (m.group 2)
  if (m.group? 3).isNone && (m.group? 4).isNone then
    if whole.length > Text.maxDigits then .error (.tooLong whole.length)
    else
      let n : Int := Json.digitsValue whole
      .ok (.int (if isNegative then -n else n))
  else
    let fraction := plainDigits (m.group 3)
    let x := Decimal.toFloat
      ⟨Json.digitsValue (whole ++ fraction), exponentValue (m.group 4) - fraction.length⟩
    .ok (.float (if isNegative then -x else x))

/-- The value of a number in base sixteen, two or eight. -/
def basedValue (text : Text) : Value :=
  let base : Nat := match text with
    | _ :: 'x' :: _ => 16
    | _ :: 'b' :: _ => 2
    | _ => 8
  let n : Nat := ((text.drop 2).filterMap Json.hexDigit?).foldl (fun n d => base * n + d) 0
  .int n

/-- Words that stand for a number. -/
def numberWords : List (String × Value) :=
  let inf : Float := 1.0 / 0.0
  let nan : Float := 0.0 / 0.0
  [("inf", .float inf), ("nan", .float nan), ("-inf", .float (-inf)), ("+inf", .float inf),
   ("-nan", .float nan), ("+nan", .float nan)]

/-- Reads the number at the front of a text. -/
def readNumber : Reader Value := fun text =>
  let start := Place.start text
  match basedNumber.matchAt? start with
  | some m => .ok (basedValue m.text, m.last.rest)
  | none =>
    match decimalNumber.matchAt? start with
    | some m => (decimalValue m).map fun value => (value, m.last.rest)
    | none =>
      match numberWords.find? fun (word, _) => (Text.of word).isPrefixOf text with
      | some (word, value) => .ok (value, text.drop word.length)
      | none => .error .malformed

end CodeSurvey.Toml
