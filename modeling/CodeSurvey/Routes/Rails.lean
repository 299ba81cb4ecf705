import CodeSurvey.Quoted
import CodeSurvey.Record
import CodeSurvey.Text.Lines

/-!
# Routes of Rails applications

The routes stand in one file, a declaration a line: a resource, a single route, or the root. A
resource has five routes, a singular one four, and may keep only some of them or drop some.
-/

namespace CodeSurvey.Routes

open Pattern

def railsFile : String := "config/routes.rb"

/-- A route of a resource: the action, the method, and whether the path names a member. -/
structure RailsAction where
  action : String
  method : String
  member : Bool

/-- The routes of a resource in their order. -/
def railsActions : List RailsAction :=
  [⟨"index", "GET", false⟩, ⟨"show", "GET", true⟩, ⟨"create", "POST", false⟩,
   ⟨"update", "PUT", true⟩, ⟨"destroy", "DELETE", true⟩]

def restOfLine : Pattern := some0 (· != '\n')

def railsResource : Pattern :=
  textStart ++ blanks ++ group 1 ("resource" ++ opt "s") ++ blanks1 ++ ":" ++ group 2 word ++
    group 3 restOfLine ++ textEnd

def railsExplicit : Pattern :=
  textStart ++ blanks ++ group 1 (oneOf ["get", "post", "put", "patch", "delete"]) ++ blanks1 ++
    quote ++ group 2 (some1 (!isQuote ·)) ++ quote ++ group 3 restOfLine ++ textEnd

def railsRoot : Pattern :=
  textStart ++ blanks ++ "root" ++ blanks1 ++
    opt (alt ("to:" ++ blanks) (":to" ++ blanks ++ "=>" ++ blanks)) ++
    quote ++ group 1 (some1 (!isQuote ·)) ++ quote

/-- A controller and an action joined by a number sign. -/
def railsTarget : Pattern :=
  oneOf ["to:", "=>"] ++ blanks ++ quote ++ group 1 (some1 (wordOr ['/']) ++ "#" ++ word) ++ quote

def rubySymbol : Pattern := ":" ++ group 1 word

/-- An option with a list of symbols in brackets or with one symbol. -/
def symbolsOption (name : String) : Pattern :=
  alt (lit name.toList ++ ":" ++ blanks ++ "[" ++ group 1 (some0 (· != ']')) ++ "]")
    (lit name.toList ++ ":" ++ blanks ++ ":" ++ group 2 word)

/-- The symbols given to an option. -/
def optionSymbols (m : Match) : List String :=
  match m.group? 1 with
  | some list => rubySymbol.names 1 list
  | none => [m.string 2]

/-- The actions that the options of a resource allow, if they say so; `only` goes before
`except`. -/
def actionFilter (options : Text) : Option (List String) :=
  match (symbolsOption "only").find options with
  | some m => some (optionSymbols m)
  | none =>
    match (symbolsOption "except").find options with
    | some m =>
      let removed := optionSymbols m
      some ((railsActions.map (·.action)).filter fun action => !removed.contains action)
    | none => none

/-- The routes of a resource. A singular one has no index and names no member. -/
def resourceRoutes (name : String) (singular : Bool) (options : Text) : List Route :=
  let allowed := actionFilter options
  (railsActions.filter fun a =>
    !(singular && a.action == "index") && (allowed.all (·.contains a.action))).map fun a =>
      ⟨a.method, if a.member && !singular then "/" ++ name ++ "/:id" else "/" ++ name, railsFile,
        some (name ++ "#" ++ a.action)⟩

def railsLine (line : Text) : List Route :=
  let start := Place.start line
  match railsResource.matchAt? start with
  | some m => resourceRoutes (m.string 2) (m.string 1 == "resource") (m.group 3)
  | none =>
    match railsExplicit.matchAt? start with
    | some m =>
      let path := m.string 2
      [⟨m.upper 1, if path.toList.head? = some '/' then path else "/" ++ path, railsFile,
        (railsTarget.find (m.group 3)).bind (·.string? 1)⟩]
    | none =>
      match railsRoot.matchAt? start with
      | some m => [⟨"GET", "/", railsFile, m.string? 1⟩]
      | none => []

def inRails (_ : String) (text : Text) : List Route := text.lines.flatMap railsLine

def rails : Extractor Route := ⟨"extract_rails_routes", Scan.visitText inRails railsFile⟩

end CodeSurvey.Routes
