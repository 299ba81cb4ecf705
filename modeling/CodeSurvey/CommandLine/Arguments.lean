import CodeSurvey.Text.Number

/-!
# Arguments of a command line

Arguments are options, which start with a hyphen, the values of options, and positional arguments.
A long option may be abbreviated as long as the abbreviation fits no other option, short options
without values may be written in one, and after two hyphens nothing is an option any more.

What is written together with an option, after an equals sign or right after a short option, is its
value if it takes one. If it takes none and is short, it is more short options.
-/

namespace CodeSurvey.Arguments

/-- How many values an option takes. -/
inductive Arity where
  | none
  | one
  /-- One or more. -/
  | many
  deriving DecidableEq

structure Flag where
  names : List String
  arity : Arity
  deriving DecidableEq

/-- What the positional arguments are. -/
inductive Positional where
  /-- At most one argument. -/
  | single
  /-- A command and all that follows it. -/
  | command

/-! ## Items -/

/-- An argument as it is written, and what it looks like. -/
inductive Item where
  | plain (text : String)
  /-- Two hyphens, after which all arguments are plain. -/
  | marker
  /-- An option, and what may be written together with it. -/
  | option (text : String) (flag : Flag) (isShort : Bool) (written : Option Text)
  | unknown (text : String)

namespace Item

def text : Item → String
  | plain text => text
  | marker => "--"
  | option text _ _ _ => text
  | unknown text => text

end Item

def named? (flags : List Flag) (name : String) : Option Flag :=
  flags.find? fun flag => flag.names.contains name

/-- Whether an argument starts with a single hyphen. -/
def isShortForm (text : Text) : Bool := text.take 2 != ['-', '-']

/-- An argument before and after its first equals sign, if it has one. -/
def splitValue (text : Text) : Text × Option Text :=
  let name := text.takeWhile (· != '=')
  match text.drop name.length with
  | [] => (name, none)
  | _ :: value => (name, some value)

/-- What an argument with two hyphens may abbreviate. -/
def abbreviated (flags : List Flag) (arg : String) : List Item :=
  let (start, value) := splitValue arg.toList
  flags.flatMap fun flag =>
    (flag.names.filter fun name => start.isPrefixOf name.toList).map fun _ =>
      .option arg flag false value

/-- What an argument with one hyphen may be: a short option and what is written right after it. -/
def joined (flags : List Flag) (arg : String) : List Item :=
  let text := arg.toList
  (named? flags (String.ofList (text.take 2))).toList.map fun flag =>
    .option arg flag true (some (text.drop 2))

/-- Whether an argument is a number below zero. -/
def isNegativeNumber (text : Text) : Bool :=
  match (text.withoutEnding? ['\n']).getD text with
  | '-' :: body =>
    let whole := body.takeWhile (Text.isDigitIn 10)
    match body.drop whole.length with
    | [] => !whole.isEmpty
    | '.' :: fraction => !fraction.isEmpty && fraction.all (Text.isDigitIn 10)
    | _ => false
  | _ => false

/-- An argument that is no option by its full name. -/
def inexact (flags : List Flag) (arg : String) : Option Item :=
  let text := arg.toList
  match if isShortForm text then joined flags arg else abbreviated flags arg with
  | [] => some (if isNegativeNumber text || text.contains ' ' then .plain arg else .unknown arg)
  | [item] => some item
  | _ => none

/-- What an argument looks like; nothing if it fits several options. -/
def classify (flags : List Flag) (arg : String) : Option Item :=
  match arg.toList with
  | '-' :: _ :: _ =>
    match named? flags arg with
    | some flag => some (.option arg flag (isShortForm arg.toList) none)
    | none =>
      let (name, value) := splitValue arg.toList
      match value, named? flags (String.ofList name) with
      | some value, some flag => some (.option arg flag (isShortForm name) (some value))
      | _, _ => inexact flags arg
  | _ => some (.plain arg)

/-- What the arguments look like; nothing if one of them fits several options. -/
def items (flags : List Flag) : List String → Option (List Item)
  | [] => some []
  | arg :: rest =>
    if arg = "--" then some (.marker :: rest.map .plain)
    else do
      let item ← classify flags arg
      let others ← items flags rest
      return item :: others

/-! ## Reading -/

/-- A piece of a command line in the order in which it counts. -/
inductive Taken where
  | option (flag : Flag) (values : List String)
  | positional (values : List String)

/-- What was read, and whether that is all that was written. -/
structure Reading where
  taken : List Taken
  isComplete : Bool

/-- The texts of the plain arguments at the front. -/
def plainFront : List Item → List String × List Item
  | .plain text :: rest =>
    let (texts, rest) := plainFront rest
    (text :: texts, rest)
  | rest => ([], rest)

/-- The values that an option takes of the arguments after it, if they suffice. -/
def valuesAfter (arity : Arity) (rest : List Item) : Option (List String × List Item) :=
  match arity, rest with
  | .none, _ => some ([], rest)
  | .one, .plain text :: rest => some ([text], rest)
  | .one, _ => none
  | .many, _ =>
    let (texts, rest) := plainFront rest
    if texts.isEmpty then none else some (texts, rest)

/-- What was taken, and the items after it. -/
abbrev Taking := List Taken × List Item

/-- Takes an option with the values that it takes of the arguments after it. -/
def takeOption (flag : Flag) (rest : List Item) : Option Taking :=
  (valuesAfter flag.arity rest).map fun (values, rest) => ([.option flag values], rest)

/-- The values that are written together with an option. Two hyphens are none. -/
def writtenValues (written : Text) : List String :=
  if written = ['-', '-'] then [] else [String.ofList written]

/-- Takes an option with what is written together with it: its value, or, after a short option that
takes none, more short options. -/
def takeWritten (flags : List Flag) (flag : Flag) (isShort : Bool) :
    Text → List Item → Option Taking
  | written, rest =>
    if flag.arity != .none then some ([.option flag (writtenValues written)], rest)
    else
      match written with
      | [] => none
      | c :: more =>
        match isShort, named? flags (String.ofList ['-', c]), more with
        | true, some next, [] =>
          (takeOption next rest).map fun (taken, rest) => (.option flag [] :: taken, rest)
        | true, some next, more =>
          (takeWritten flags next true more rest).map fun (taken, rest) =>
            (.option flag [] :: taken, rest)
        | _, _, _ => none

/-- The arguments from a marker on, without it. -/
def dropMarker : List Item → List Item
  | .marker :: rest => rest
  | rest => rest

/-- Takes the positional arguments at the front, if there are such. -/
def takePositional : Positional → List Item → Option (List String × List Item)
  | .single, rest =>
    match dropMarker rest with
    | .plain text :: rest => some ([text], dropMarker rest)
    | rest => some ([], rest)
  | .command, rest =>
    match dropMarker rest with
    | .plain _ :: _ => some (rest.map Item.text, [])
    | _ => none

def isOption : Item → Bool
  | .option _ _ _ _ => true
  | .unknown _ => true
  | _ => false

/-- Reads at most `n` items. `done` holds what was taken, the last piece first. -/
def readItems (flags : List Flag) :
    (n : Nat) → Option Positional → List Item → (done : List Taken) → (isComplete : Bool) → Reading
  | 0, _, _, done, _ => ⟨done.reverse, false⟩
  | _ + 1, positional, [], done, isComplete =>
    match positional with
    | some .command => ⟨done.reverse, false⟩
    | _ => ⟨done.reverse, isComplete⟩
  | n + 1, positional, .unknown _ :: rest, done, _ => readItems flags n positional rest done false
  | n + 1, positional, .option _ flag isShort written :: rest, done, isComplete =>
    let taking := match written with
      | none => takeOption flag rest
      | some written => takeWritten flags flag isShort written rest
    match taking with
    | some (taken, rest) => readItems flags n positional rest (taken.reverse ++ done) isComplete
    | none => ⟨done.reverse, false⟩
  | n + 1, positional, items, done, isComplete =>
    match positional.bind fun p => takePositional p items with
    | some (values, rest) => readItems flags n none rest (.positional values :: done) isComplete
    | none => readItems flags n positional (items.dropWhile (!isOption ·)) done false

/-- Reads the arguments of a command line, which may have positional arguments or none. -/
def read (flags : List Flag) (positional : Option Positional) (args : List String) : Reading :=
  match items flags args with
  | some items => readItems flags (items.length + 1) positional items [] true
  | none => ⟨[], false⟩

end CodeSurvey.Arguments
