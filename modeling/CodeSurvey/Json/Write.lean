import CodeSurvey.Decimal.Notation
import CodeSurvey.Text.Half
import CodeSurvey.Value

/-!
# Writing JSON

Values are written with one member a line, indented by two spaces for each level. Characters
outside ASCII are written as escapes of their 16-bit units.
-/

namespace CodeSurvey.Json

/-- A number as four hexadecimal digits. -/
def fourHex (n : Nat) : List Char :=
  let digits := Nat.toDigits 16 n
  List.replicate (4 - digits.length) '0' ++ digits

def escapeUnit (n : Nat) : List Char := '\\' :: 'u' :: fourHex n

def escape (c : Char) : List Char :=
  let n := c.toNat
  if c = '"' then ['\\', '"']
  else if c = '\\' then ['\\', '\\']
  else if c = '\n' then ['\\', 'n']
  else if c = '\r' then ['\\', 'r']
  else if c = '\t' then ['\\', 't']
  else if n = 8 then ['\\', 'b']
  else if n = 12 then ['\\', 'f']
  else if 32 ≤ n && n ≤ 126 then [c]
  else if n < 0x10000 then escapeUnit n
  else match Text.half? c with
    | some half => escapeUnit half
    | none =>
      escapeUnit (0xD800 + (n - 0x10000) / 1024) ++ escapeUnit (0xDC00 + (n - 0x10000) % 1024)

def quote (s : String) : List Char := '"' :: s.toList.flatMap escape ++ ['"']

/-- A number that is no finite number has a name of its own. -/
def floatWord (x : Float) : String :=
  if x.isNaN then "NaN"
  else if x.isInf then (if x < 0.0 then "-Infinity" else "Infinity")
  else floatText x

/-- The start of a line at the given level. -/
def newLine (level : Nat) : List Char := '\n' :: List.replicate (2 * level) ' '

/-- The members on lines of their own between brackets. -/
def block (level : Nat) (opening closing : Char) : List (List Char) → List Char
  | [] => [opening, closing]
  | members =>
    opening :: newLine (level + 1) ++
      (members.intersperse (',' :: newLine (level + 1))).flatten ++ newLine level ++ [closing]

mutual

/-- The text of a value that starts on a line of the given level. -/
def write (level : Nat) : Value → List Char
  | .null => "null".toList
  | .bool b => (if b then "true" else "false").toList
  | .int n => (toString n).toList
  | .float x => (floatWord x).toList
  | .str s => quote s
  | .list items => block level '[' ']' (writeItems (level + 1) items)
  | .map entries => block level '{' '}' (writeEntries (level + 1) entries)
  | .other _ => "null".toList

def writeItems (level : Nat) : List Value → List (List Char)
  | [] => []
  | v :: rest => write level v :: writeItems level rest

def writeEntries (level : Nat) : List (String × Value) → List (List Char)
  | [] => []
  | (name, v) :: rest => (quote name ++ ':' :: ' ' :: write level v) :: writeEntries level rest

end

mutual

/-- The value with null in the place of infinite numbers and of those that are no numbers, for
which standard JSON has no names. -/
def standard : Value → Value
  | .float x => if x.isNaN || x.isInf then .null else .float x
  | .list items => .list (standardItems items)
  | .map entries => .map (standardEntries entries)
  | v => v

def standardItems : List Value → List Value
  | [] => []
  | v :: rest => standard v :: standardItems rest

def standardEntries : List (String × Value) → List (String × Value)
  | [] => []
  | (name, v) :: rest => (name, standard v) :: standardEntries rest

end

end CodeSurvey.Json
