import CodeSurvey.Toml.Scalar

/-!
# Reading TOML

A document is a list of lines: entries, and headers that say to which table the entries below them
belong. A table may be opened once only, and what was written inline stays as it was written.
`Tables` keeps the tables read so far together with what may no longer be opened or changed.
-/

namespace CodeSurvey.Toml

abbrev Key := List String

/-! ## Keys -/

def isBareKey (c : Char) : Bool := Pattern.isLetter c || Json.isDigit c || c == '-' || c == '_'

def readKeyPart (size : Nat) : Reader String := fun text =>
  match text with
  | '"' :: rest => (readBasic false size rest []).map fun (s, rest) => (String.ofList s, rest)
  | '\'' :: rest => (readLiteral rest).map fun (s, rest) => (String.ofList s, rest)
  | _ =>
    let part := text.takeWhile isBareKey
    if part.isEmpty then .error .malformed else .ok (String.ofList part, text.drop part.length)

/-- Reads the parts of a key of at most `n` parts. -/
def readKey (size : Nat) : (n : Nat) → Text → Key → Except Fault (Key × Text)
  | 0, _, _ => .error .malformed
  | n + 1, text, done =>
    match readKeyPart size text with
    | .error fault => .error fault
    | .ok (part, rest) =>
      match skipGap rest with
      | '.' :: rest => readKey size n (skipGap rest) (part :: done)
      | rest => .ok ((part :: done).reverse, rest)

/-- Reads a key and the value after its equals sign. -/
def readPair (size : Nat) (item : Reader Value) : Reader (Key × Value) := fun text =>
  match readKey size size text [] with
  | .error fault => .error fault
  | .ok (key, '=' :: rest) =>
    (item (skipGap rest)).map fun (value, rest) => ((key, value), rest)
  | .ok _ => .error .malformed

/-! ## Tables -/

/-- Applies a change to the entries of the table at a path, which is made if it is missing. A path
goes on in the last table of an array if `inArrays` allows it. -/
def changeTable (inArrays : Bool)
    (change : List (String × Value) → Option (List (String × Value))) :
    Key → List (String × Value) → Option (List (String × Value))
  | [], entries => change entries
  | name :: rest, entries =>
    match entries.lookup name with
    | none =>
      (changeTable inArrays change rest []).map fun inner => setEntry name (.map inner) entries
    | some (.map inner) =>
      (changeTable inArrays change rest inner).map fun inner => setEntry name (.map inner) entries
    | some (.list items) =>
      match inArrays, items.getLast? with
      | true, some (.map inner) =>
        (changeTable inArrays change rest inner).map fun inner =>
          setEntry name (.list (items.dropLast ++ [.map inner])) entries
      | _, _ => none
    | some _ => none

/-- Adds an entry under a name that is still free. -/
def addEntry (name : String) (value : Value) (entries : List (String × Value)) :
    Option (List (String × Value)) :=
  if (entries.lookup name).isSome then none else some (entries ++ [(name, value)])

/-- Adds an empty table to the array under a name. -/
def addToArray (name : String) (entries : List (String × Value)) :
    Option (List (String × Value)) :=
  match entries.lookup name with
  | none => some (entries ++ [(name, .list [.map []])])
  | some (.list items) => some (setEntry name (.list (items ++ [.map []])) entries)
  | some _ => none

/-- Splits the last part off a key. -/
def splitLast (key : Key) : Key × String := (key.dropLast, key.getLast?.getD "")

def isCollection : Value → Bool
  | .list _ => true
  | .map _ => true
  | _ => false

/-- Whether one of the keys is a first part of `key`. -/
def covers (keys : List Key) (key : Key) : Bool := keys.any fun k => !k.isEmpty && k.isPrefixOf key

/-! ## Values -/

/-- Reads the items of an array after its bracket. -/
def readItems (size : Nat) (item : Reader Value) :
    (n : Nat) → Text → List Value → Except Fault (Value × Text)
  | 0, _, _ => .error .malformed
  | n + 1, text, done =>
    match skipLines size text with
    | .error fault => .error fault
    | .ok (']' :: rest) => .ok (.list done.reverse, rest)
    | .ok text =>
      match item text with
      | .error fault => .error fault
      | .ok (value, rest) =>
        match skipLines size rest with
        | .error fault => .error fault
        | .ok (']' :: rest) => .ok (.list (value :: done).reverse, rest)
        | .ok (',' :: rest) => readItems size item n rest (value :: done)
        | .ok _ => .error .malformed

/-- Reads the entries of an inline table, the first of which starts the text. `closed` are the keys
of collections, which take no further entries. -/
def readInline (size : Nat) (item : Reader Value) :
    (n : Nat) → Text → List (String × Value) → List Key → Except Fault (Value × Text)
  | 0, _, _, _ => .error .malformed
  | n + 1, text, entries, closed =>
    match readPair size item text with
    | .error fault => .error fault
    | .ok ((key, value), rest) =>
      let (table, name) := splitLast key
      if covers closed key then .error .malformed
      else match changeTable false (addEntry name value) table entries with
        | none => .error .malformed
        | some entries =>
          match skipGap rest with
          | '}' :: rest => .ok (.map entries, rest)
          | ',' :: rest =>
            readInline size item n (skipGap rest) entries
              (if isCollection value then key :: closed else closed)
          | _ => .error .malformed

/-- Reads the value at the front of a text. Arrays and inline tables may stand in each other `depth`
deep, where an array counts twice and an inline table three times. -/
def readValue (size : Nat) : (depth : Nat) → Reader Value
  | depth, text =>
    match readString? size text with
    | some s => s.map fun (s, rest) => (.str (String.ofList s), rest)
    | none =>
      match text with
      | 't' :: 'r' :: 'u' :: 'e' :: rest => .ok (.bool true, rest)
      | 'f' :: 'a' :: 'l' :: 's' :: 'e' :: rest => .ok (.bool false, rest)
      | '[' :: rest =>
        match depth with
        | depth + 2 => readItems size (readValue size depth) size rest []
        | _ => .error .tooDeep
      | '{' :: rest =>
        match depth with
        | depth + 3 =>
          match skipGap rest with
          | '}' :: rest => .ok (.map [], rest)
          | rest => readInline size (readValue size depth) size rest [] []
        | _ => .error .tooDeep
      | _ => (readTime? text).getD (readNumber text)

/-! ## Documents -/

structure Tables where
  entries : List (String × Value)
  /-- The table that the next entries belong to. -/
  header : Key
  /-- Tables that no header may open again. -/
  opened : List Key
  /-- Tables that dotted keys have made below the present header. -/
  pending : List Key
  /-- Arrays and inline tables, which nothing may be added to. -/
  frozen : List Key

namespace Tables

def empty : Tables := ⟨[], [], [], [], []⟩

/-- Adds an entry below the present header. -/
def addPair (t : Tables) (key : Key) (value : Value) : Except Fault Tables :=
  let (table, name) := splitLast key
  let made := (List.range table.length).map fun i => t.header ++ key.take (i + 1)
  let home := t.header ++ table
  if made.any t.opened.contains || covers t.frozen home then .error .malformed
  else match changeTable true (addEntry name value) home t.entries with
    | none => .error .malformed
    | some entries =>
      .ok { t with
        entries
        pending := made ++ t.pending
        frozen := if isCollection value then (t.header ++ key) :: t.frozen else t.frozen }

/-- A header ends what may be added by dotted keys to the tables made below the one before. -/
def settle (t : Tables) : Tables := { t with opened := t.pending ++ t.opened, pending := [] }

/-- Opens a table. -/
def openTable (t : Tables) (key : Key) : Except Fault Tables :=
  let t := t.settle
  if t.opened.contains key || covers t.frozen key then .error .malformed
  else match changeTable true some key t.entries with
    | none => .error .malformed
    | some entries => .ok { t with entries, header := key, opened := key :: t.opened }

/-- Opens the next table of an array. What was opened in the one before may be opened again. -/
def openItem (t : Tables) (key : Key) : Except Fault Tables :=
  let t := t.settle
  if covers t.frozen key then .error .malformed
  else
    let (table, name) := splitLast key
    let fresh (keys : List Key) : List Key := keys.filter fun k => !key.isPrefixOf k
    match changeTable true (addToArray name) table t.entries with
    | none => .error .malformed
    | some entries =>
      .ok { t with
        entries
        header := key
        opened := key :: fresh t.opened
        frozen := fresh t.frozen }

end Tables

/-- Reads the end of a line: blanks, perhaps a comment, and the line feed. -/
def readLineEnd (text : Text) : Except Fault Text :=
  match skipComment (skipGap text) with
  | .error fault => .error fault
  | .ok [] => .ok []
  | .ok ('\n' :: rest) => .ok rest
  | .ok _ => .error .malformed

/-- Reads the header of a table after its first bracket. -/
def readHeader (size : Nat) (t : Tables) (text : Text) : Except Fault (Tables × Text) :=
  match text with
  | '[' :: rest =>
    match readKey size size (skipGap rest) [] with
    | .error fault => .error fault
    | .ok (key, ']' :: ']' :: rest) => (t.openItem key).map fun t => (t, rest)
    | .ok _ => .error .malformed
  | _ =>
    match readKey size size (skipGap text) [] with
    | .error fault => .error fault
    | .ok (key, ']' :: rest) => (t.openTable key).map fun t => (t, rest)
    | .ok _ => .error .malformed

/-- Reads what stands on a line before its end. -/
def readStatement (size depth : Nat) (t : Tables) (text : Text) : Except Fault (Tables × Text) :=
  match text with
  | [] => .ok (t, [])
  | '\n' :: _ => .ok (t, text)
  | '#' :: _ => .ok (t, text)
  | '[' :: rest => readHeader size t rest
  | c :: _ =>
    if isBareKey c || Pattern.isQuote c then
      match readPair size (readValue size depth) text with
      | .error fault => .error fault
      | .ok ((key, value), rest) => (t.addPair key value).map fun t => (t, rest)
    else .error .malformed

/-- Reads at most `n` lines. -/
def readLines (size depth : Nat) : (n : Nat) → Tables → Text → Except Fault Tables
  | 0, t, _ => .ok t
  | n + 1, t, text =>
    match skipGap text with
    | [] => .ok t
    | text =>
      match readStatement size depth t text with
      | .error fault => .error fault
      | .ok (t, rest) =>
        match readLineEnd rest with
        | .error fault => .error fault
        | .ok rest => readLines size depth n t rest

/-- The tables of a document, in which values may stand in each other `depth` deep. -/
def read (depth : Nat) (text : Text) : Except Fault Value :=
  let size := text.length + 1
  (readLines size depth size .empty text).map fun t => .map t.entries

/-- The message for a fault. -/
def Fault.message : Fault → String
  | malformed => "Invalid document"
  | tooDeep => "maximum recursion depth exceeded"
  | tooLong digits => Json.Fault.message [] (.tooLong digits)

end CodeSurvey.Toml
