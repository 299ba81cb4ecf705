import CodeSurvey.CommandLine.Arguments
import CodeSurvey.Extractors

/-!
# Requests

What a user asks for on the command line: a command with its options, and how much is to be
reported on the way. A `Request` is made from arguments; arguments that ask for help, or that are
wrong, make none.
-/

namespace CodeSurvey

open Arguments

/-- How an analysis is printed. -/
inductive Format where
  | json
  | summary
  deriving DecidableEq

inductive Command where
  | analyze (path : String) (format : Format) (categories : Option (List String))
  | detect (path : String)
  /-- The option for the folder of documents has to be given, but may name none. -/
  | gaps (path : String) (docs : Option String)
  | serve (host : String) (port : Int)
  deriving DecidableEq

def Command.name : Command → String
  | analyze _ _ _ => "analyze"
  | detect _ => "detect"
  | gaps _ _ => "gaps"
  | serve _ _ => "serve"

structure Request where
  isVerbose : Bool
  isQuiet : Bool
  /-- The file that events are written to beside the console. -/
  logFile : Option String
  command : Command
  deriving DecidableEq

/-- Why arguments make no request. -/
inductive Refusal where
  /-- The user asks how to use the program, or one of its commands. -/
  | help (command : Option String)
  | wrong
  /-- The option for the log file is given but names none. -/
  | noLogFile
  deriving DecidableEq

namespace Request

/-! ## Options -/

def helpFlag : Flag := ⟨["-h", "--help"], .none⟩

def verboseFlag : Flag := ⟨["-v", "--verbose"], .none⟩

def quietFlag : Flag := ⟨["-q", "--quiet"], .none⟩

def logFileFlag : Flag := ⟨["--log-file"], .one⟩

def formatFlag : Flag := ⟨["--format"], .one⟩

def categoriesFlag : Flag := ⟨["--categories"], .many⟩

def docsFlag : Flag := ⟨["--docs"], .one⟩

def hostFlag : Flag := ⟨["--host"], .one⟩

def portFlag : Flag := ⟨["--port"], .one⟩

/-- What is wrong with an option: the user asks for help, or a value is none of its values. -/
def refusal? (flag : Flag) (values : List String) : Option Refusal :=
  if flag = helpFlag then some (.help none)
  else if flag = formatFlag && !values.all (["json", "summary"].contains ·) then some .wrong
  else if flag = categoriesFlag && !values.all (fun name => (Category.ofName? name).isSome) then
    some .wrong
  else if flag = portFlag && !values.all (fun port => (Text.whole? port.toList).isSome) then
    some .wrong
  else none

/-- What is wrong with what was read, the first fault first. -/
def check (reading : Reading) : Option Refusal :=
  let faults := reading.taken.filterMap fun
    | .option flag values => refusal? flag values
    | .positional _ => none
  faults.head?.or (if reading.isComplete then none else some .wrong)

/-- The values that were last given to an option. -/
def last? (reading : Reading) (flag : Flag) : Option (List String) :=
  reading.taken.reverse.findSome? fun
    | .option other values => if other = flag then some values else none
    | .positional _ => none

/-- The single value that was last given to an option. -/
def value? (reading : Reading) (flag : Flag) : Option String :=
  (last? reading flag).bind List.head?

/-- The values that were last given to an option, if they are any. -/
def values? (reading : Reading) (flag : Flag) : Option (List String) :=
  (last? reading flag).filter (!·.isEmpty)

def isGiven (reading : Reading) (flag : Flag) : Bool := (last? reading flag).isSome

/-- The positional arguments. -/
def positionals (reading : Reading) : List String :=
  (reading.taken.findSome? fun
    | .option _ _ => none
    | .positional values => some values).getD []

/-! ## Commands -/

/-- The options of a command. -/
def commandFlags? (name : String) : Option (List Flag) :=
  [("analyze", [helpFlag, verboseFlag, formatFlag, categoriesFlag]),
   ("detect", [helpFlag, verboseFlag]),
   ("gaps", [helpFlag, verboseFlag, docsFlag]),
   ("serve", [helpFlag, verboseFlag, hostFlag, portFlag])].lookup name

/-- The positional arguments of a command: all commands take a path, but the service takes none. -/
def commandPositional (name : String) : Option Positional :=
  if name = "serve" then none else some .single

/-- The path of a command, the current directory if none is given. -/
def pathOf (reading : Reading) : String := (positionals reading).head?.getD "."

/-- The format that a word names. -/
def formatOf (word : Option String) : Format := if word = some "summary" then .summary else .json

/-- The command of a name with what was read after it. -/
def commandOf (name : String) (reading : Reading) : Except Refusal Command :=
  match name with
  | "analyze" =>
    .ok (.analyze (pathOf reading) (formatOf (value? reading formatFlag))
      (values? reading categoriesFlag))
  | "detect" => .ok (.detect (pathOf reading))
  | "gaps" =>
    if isGiven reading docsFlag then .ok (.gaps (pathOf reading) (value? reading docsFlag))
    else .error .wrong
  | _ =>
    .ok (.serve ((value? reading hostFlag).getD "127.0.0.1")
      (((value? reading portFlag).bind fun port => Text.whole? port.toList).getD 8000))

/-- Reads the arguments after the name of a command. -/
def readCommand (name : String) (args : List String) : Except Refusal (Reading × Command) :=
  match commandFlags? name with
  | none => .error .wrong
  | some flags =>
    let reading := Arguments.read flags (commandPositional name) args
    match check reading with
    | some (.help _) => .error (.help (some name))
    | some refusal => .error refusal
    | none => (commandOf name reading).map fun command => (reading, command)

/-- The options before a command. -/
def generalFlags : List Flag := [helpFlag, verboseFlag, quietFlag, logFileFlag]

/-- The request that the arguments of the program make. What stands before the command is judged
when the command has been read, except that help is given at once. -/
def ofArguments (args : List String) : Except Refusal Request :=
  let reading := Arguments.read generalFlags (some .command) args
  match check { reading with isComplete := true }, positionals reading with
  | some refusal, _ => .error refusal
  | none, [] => .error .wrong
  | none, name :: args => do
    let (inner, command) ← readCommand name args
    if !reading.isComplete then .error .wrong
    else if isGiven reading logFileFlag && (value? reading logFileFlag).isNone then
      .error .noLogFile
    else
      .ok ⟨isGiven reading verboseFlag || isGiven inner verboseFlag, isGiven reading quietFlag,
        value? reading logFileFlag, command⟩

end Request

end CodeSurvey
