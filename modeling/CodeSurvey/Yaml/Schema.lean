import CodeSurvey.Pattern.Vocabulary
import CodeSurvey.Yaml.Cursor

/-!
# Tags

The tag of a node says what kind of value it stands for. A plain scalar without a tag gets one by
the way it looks: `yes` is a truth value, `0x1F` an integer.
-/

namespace CodeSurvey.Yaml

inductive Tag where
  | null
  | bool
  | int
  | float
  | binary
  | timestamp
  | omap
  | pairs
  | set
  | str
  | seq
  | map
  /-- The key under which other mappings are merged into one. -/
  | merge
  /-- The key under which a mapping has the value that it stands for as a scalar. -/
  | value
  /-- Any other tag. No value has one. -/
  | unknown
  deriving DecidableEq

/-- What the names of the tags start with. -/
def tagNamespace : String := "tag:yaml.org,2002:"

def Tag.names : List (String × Tag) :=
  [("null", .null), ("bool", .bool), ("int", .int), ("float", .float), ("binary", .binary),
   ("timestamp", .timestamp), ("omap", .omap), ("pairs", .pairs), ("set", .set), ("str", .str),
   ("seq", .seq), ("map", .map), ("merge", .merge), ("value", .value)]

def Tag.ofName (name : String) : Tag :=
  ((Tag.names.find? fun (short, _) => tagNamespace ++ short = name).map (·.2)).getD .unknown

/-! ## Plain scalars -/

open Pattern

def sign : Pattern := opt (one fun c => c == '+' || c == '-')

def digit : Pattern := one Json.isDigit

/-- A digit or an underscore. -/
def isDigitOrLine (c : Char) : Bool := Json.isDigit c || c == '_'

/-- Digits in base sixty, after the first. -/
def sixtieths : Pattern := plus (":" ++ opt (one fun c => '0' ≤ c && c ≤ '5') ++ digit)

def signedExponent : Pattern :=
  opt (one (fun c => c == 'e' || c == 'E') ++ one (fun c => c == '-' || c == '+') ++
    some1 Json.isDigit)

def boolWords : Pattern :=
  oneOf ["yes", "Yes", "YES", "no", "No", "NO", "true", "True", "TRUE", "false", "False", "FALSE",
    "on", "On", "ON", "off", "Off", "OFF"]

def floatForm : Pattern :=
  choice
    [sign ++ digit ++ some0 isDigitOrLine ++ "." ++ some0 isDigitOrLine ++ signedExponent,
     "." ++ digit ++ some0 isDigitOrLine ++ signedExponent,
     sign ++ digit ++ some0 isDigitOrLine ++ sixtieths ++ "." ++ some0 isDigitOrLine,
     sign ++ "." ++ oneOf ["inf", "Inf", "INF"],
     "." ++ oneOf ["nan", "NaN", "NAN"]]

def intForm : Pattern :=
  choice
    [sign ++ "0b" ++ some1 (fun c => c == '0' || c == '1' || c == '_'),
     sign ++ "0" ++ some1 (fun c => ('0' ≤ c && c ≤ '7') || c == '_'),
     sign ++ alt "0" (one (fun c => '1' ≤ c && c ≤ '9') ++ some0 isDigitOrLine),
     sign ++ "0x" ++ some1 (fun c => (Json.hexDigit? c).isSome || c == '_'),
     sign ++ one (fun c => '1' ≤ c && c ≤ '9') ++ some0 isDigitOrLine ++ sixtieths]

/-- A date: the year, the month and the day. -/
def dateForm : Pattern :=
  group 1 (digit ++ digit ++ digit ++ digit) ++ "-" ++ group 2 (digit ++ opt digit) ++ "-" ++
    group 3 (digit ++ opt digit)

/-- A time of day after a date: the hour, the minute and the second, and the sign, the hours and the
minutes of its offset from universal time. -/
def clockForm : Pattern :=
  alt (one fun c => c == 'T' || c == 't') (some1 isGap) ++
    group 4 (digit ++ opt digit) ++ ":" ++ group 5 (digit ++ digit) ++ ":" ++
    group 6 (digit ++ digit) ++ opt ("." ++ some0 Json.isDigit) ++
    opt (some0 isGap ++ alt "Z" (group 7 (one fun c => c == '-' || c == '+') ++
      group 8 (digit ++ opt digit) ++ opt (":" ++ group 9 (digit ++ digit))))

def timeForm : Pattern := dateForm ++ opt clockForm

/-- A date whose month and day have two digits, or any date with a time of day. -/
def plainTimeForm : Pattern :=
  alt (digit ++ digit ++ digit ++ digit ++ "-" ++ digit ++ digit ++ "-" ++ digit ++ digit)
    (dateForm ++ clockForm)

/-- The tags that plain scalars may get: the characters that such a scalar starts with, and the
form that it has. -/
def plainTags : List (String × Pattern × Tag) :=
  [("yYnNtTfFoO", boolWords, .bool),
   ("-+0123456789.", floatForm, .float),
   ("-+0123456789", intForm, .int),
   ("<", "<<", .merge),
   ("~nN", oneOf ["~", "null", "Null", "NULL"], .null),
   ("0123456789", plainTimeForm, .timestamp),
   ("=", "=", .value),
   ("!&*", oneOf ["!", "&", "*"], .unknown)]

/-- Whether all of a text, or all but a line feed at its end, has a form. -/
def hasForm (form : Pattern) (text : Text) : Bool :=
  ((form ++ textEnd).matchAt? (Place.start text)).isSome

/-- The tag that a scalar gets by the way it looks. -/
def Tag.ofPlain (text : Text) : Tag :=
  match text with
  | [] => .null
  | c :: _ =>
    ((plainTags.find? fun (starts, form, _) =>
      starts.toList.contains c && hasForm form text).map (·.2.2)).getD .str

end CodeSurvey.Yaml
