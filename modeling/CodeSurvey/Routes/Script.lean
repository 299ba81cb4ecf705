import CodeSurvey.Quoted
import CodeSurvey.Record

/-!
# Routes of Node servers

Express, Fastify and Hono register a route by a call on the application or a router. The handler
is the last of the arguments if these are names only.
-/

namespace CodeSurvey

/-- The patterns of script files in the given place. -/
def scriptFiles (place : String) : String := place ++ "*.\x7bjs,ts,mjs,cjs\x7d"

end CodeSurvey

namespace CodeSurvey.Routes

open Pattern

/-- Quotes and the backquote, U+0060. -/
def isScriptQuote (c : Char) : Bool := isQuote c || c == Char.ofNat 0x60

/-- A call such as `app.get`: the method, the quote, the path and the other arguments. -/
def nodeRoute : Pattern :=
  wordEdge ++ oneOf ["app", "router", "server", "fastify", "api"] ++ "." ++
    group 1 (oneOf ["get", "post", "put", "patch", "delete"]) ++ blanks ++ "(" ++ blanks ++
    group 2 (one isScriptQuote) ++ group 3 shortest ++ same 2 ++ group 4 (some0 (· != ')')) ++ ")"

/-- Dotted names, each after a comma. -/
def nameArguments : Pattern :=
  textStart ++
    plus (blanks ++ "," ++ blanks ++ one (fun c => isLetter c || c == '_' || c == '$') ++
      some0 (wordOr ['$', '.'])) ++
    blanks ++ textEnd

def lastArgument (arguments : Text) : String :=
  String.ofList ((arguments.splitOn (· == ',')).getLast?.getD []).trim

def nodeHandler (arguments : Text) : Option String :=
  (nameArguments.matchAt? (Place.start arguments)).map fun _ => lastArgument arguments

def inNode (file : String) (text : Text) : List Route :=
  (nodeRoute.all text).map fun m => ⟨m.upper 1, m.string 3, file, nodeHandler (m.group 4)⟩

def node : Extractor Route := ⟨"extract_node_routes", .eachFile [scriptFiles "**/"] inNode⟩

end CodeSurvey.Routes
