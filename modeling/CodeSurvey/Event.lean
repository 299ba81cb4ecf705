import CodeSurvey.Settings
import CodeSurvey.Snapshot
import CodeSurvey.Text.Shown

/-!
# Events

What happens in the course of a survey and may be of interest to its user. Each event has a
severity, by which a log selects, the part of the program that it belongs to, and a message.
-/

namespace CodeSurvey

inductive Severity where
  | debug
  | info
  | warning
  deriving DecidableEq

namespace Severity

def rank : Severity → Nat
  | debug => 0
  | info => 1
  | warning => 2

def name : Severity → String
  | debug => "DEBUG"
  | info => "INFO"
  | warning => "WARNING"

end Severity

inductive Event where
  /-- There is no tree at the root. -/
  | noTree (root : Location)
  | started (root : Location)
  | listed (count : Nat)
  /-- The text at a path of the tree could not be read. -/
  | unread (root : Location) (path : String) (why : Unread)
  /-- The manifest of a package is malformed. -/
  | malformedPackage (problem : String)
  /-- A check for a language held. -/
  | recognised (stack : Stack)
  /-- The stack of the tree is settled. -/
  | detected (stack : Stack)
  | running (extractor : String) (category : Category)
  /-- A part of the analysis failed and stays empty. -/
  | failed (name : String) (problem : String)
  | extracted (counts : List (String × Nat))
  | invalidSettings (why : Settings.Invalid)
  | noDocuments (folder : Location)

/-- The number and the description of a fault of the disk. -/
def Fault.description : Fault → String
  | .absent => "[Errno 2] No such file or directory"
  | .notFolder => "[Errno 20] Not a directory"
  | .tooManyLinks => "[Errno 40] Too many levels of symbolic links"
  | .nameTooLong => "[Errno 36] File name too long"
  | .badName why => why.message
  | .tooDeep => "maximum recursion depth exceeded"

namespace Event

def severity : Event → Severity
  | noTree _ => .info
  | started _ => .info
  | detected _ => .info
  | failed _ _ => .warning
  | invalidSettings _ => .warning
  | _ => .debug

/-- The part of the program that the event belongs to. -/
def topic : Event → String
  | unread _ _ _ => "extractors"
  | malformedPackage _ => "detector"
  | recognised _ => "detector"
  | invalidSettings _ => "config"
  | noDocuments _ => "curriculum"
  | _ => "analyzer"

/-- What is said of a path that could not be read. -/
def unreadMessage (root : Location) (path : String) (why : Unread) : String :=
  let place := String.ofList (Text.shown (root.join path).text.toList)
  match why with
  | .tooLarge => "Skipping oversized file " ++ path
  | .folder => "Unable to read " ++ path ++ ": [Errno 21] Is a directory: " ++ place
  | .fault why => "Unable to read " ++ path ++ ": " ++ why.description ++ ": " ++ place

def message : Event → String
  | noTree root => "Nothing to analyze at " ++ root.text
  | started root => "Analyzing " ++ root.text
  | listed count => "Resolver listed " ++ toString count ++ " files"
  | unread root path why => unreadMessage root path why
  | malformedPackage problem => "Unable to parse package.json: " ++ problem
  | recognised stack => "Detected stack " ++ stack.language ++ "/" ++ stack.framework.getD "None"
  | detected stack => "Detected " ++ stack.language ++ "/" ++ stack.framework.getD "-"
  | running extractor category => "Running " ++ extractor ++ " for " ++ category.name
  | failed name problem => "Extraction of " ++ name ++ " failed: " ++ problem
  | extracted counts =>
    "Extracted " ++
      String.intercalate ", " (counts.map fun (name, count) => name ++ "=" ++ toString count)
  | invalidSettings why => "Ignoring invalid configuration: " ++ why.message
  | noDocuments folder => "Documentation directory " ++ folder.text ++ " does not exist"

/-- The line of the event on the console. -/
def consoleLine (e : Event) : String := "[codeingest] " ++ e.severity.name ++ " " ++ e.message

/-- The line of the event in a log file, after the time. -/
def fileLine (e : Event) : String :=
  e.severity.name ++ " codeingest." ++ e.topic ++ " [MainThread]: " ++ e.message

end Event

/-! ## Reports -/

/-- A result together with the events on the way to it, or to the fault that prevents it. -/
structure Report (ε α : Type) where
  events : List Event
  result : Except ε α

namespace Report

variable {ε δ α β : Type}

def pure (a : α) : Report ε α := ⟨[], .ok a⟩

def fail (fault : ε) : Report ε α := ⟨[], .error fault⟩

def note (events : List Event) : Report ε Unit := ⟨events, .ok ()⟩

def ofExcept (result : Except ε α) : Report ε α := ⟨[], result⟩

/-- The report with the fault, if there is one, seen as another. -/
def mapError (f : ε → δ) (r : Report ε α) : Report δ α := ⟨r.events, r.result.mapError f⟩

def bind (r : Report ε α) (f : α → Report ε β) : Report ε β :=
  match r.result with
  | .error fault => ⟨r.events, .error fault⟩
  | .ok a => ⟨r.events ++ (f a).events, (f a).result⟩

instance : Monad (Report ε) where
  pure := pure
  bind := bind

end Report

end CodeSurvey
