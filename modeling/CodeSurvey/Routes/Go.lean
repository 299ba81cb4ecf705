import CodeSurvey.Quoted
import CodeSurvey.Record

/-!
# Routes of Go servers

Routes are registered by calls on a router: with a method in capitals (gin, echo), a capitalised
method (fiber), or through `HandleFunc` (gorilla/mux and the standard library). Test files are left
out.
-/

namespace CodeSurvey

/-- The files that the patterns name, without Go's test files. -/
def Scan.findGo (patterns : List String) : Scan (List String) := do
  let files ← Scan.find patterns
  return files.filter fun file => !hasEnding file "_test.go"

end CodeSurvey

namespace CodeSurvey.Routes

open Pattern

/-- A call of one of the methods with an absolute path, and perhaps the handler. -/
def goCall (methods : List String) : Pattern :=
  "." ++ group 1 (oneOf methods) ++ blanks ++ "(" ++ blanks ++ "\"" ++
    group 2 ("/" ++ some0 (· != '"')) ++ "\"" ++
    opt (blanks ++ "," ++ blanks ++ group 3 (some1 (wordOr ['.'])))

def goCapitalCall : Pattern := goCall ["GET", "POST", "PUT", "PATCH", "DELETE", "Any"]

def goTitleCall : Pattern := goCall ["Get", "Post", "Put", "Patch", "Delete", "All"]

/-- A call of `HandleFunc`: the path, the handler and perhaps the arguments of `Methods`. -/
def goHandleFunc : Pattern :=
  ".HandleFunc" ++ blanks ++ "(" ++ blanks ++ "\"" ++ group 1 (some0 (· != '"')) ++ "\"" ++
    blanks ++ "," ++ blanks ++ group 2 (some1 (wordOr ['.'])) ++ blanks ++ ")" ++
    opt (blanks ++ ".Methods" ++ blanks ++ "(" ++ group 3 (some0 (· != ')')) ++ ")")

/-- A word between double quotes. -/
def goQuotedWord : Pattern := "\"" ++ group 1 word ++ "\""

/-- The method of a call; both frameworks have a name for all methods at once. -/
def goMethod (name : String) : String :=
  let name := upperOf name
  if name = "ALL" then "ANY" else name

def inGoCalls (call : Pattern) (file : String) (text : Text) : List Route :=
  (call.all text).map fun m => ⟨goMethod (m.string 1), m.string 2, file, m.string? 3⟩

def inGo (file : String) (text : Text) : List Route :=
  inGoCalls goCapitalCall file text ++ inGoCalls goTitleCall file text ++
    (goHandleFunc.all text).flatMap fun m =>
      let methods := (goQuotedWord.names 1 (m.group 3)).map upperOf
      (if methods.isEmpty then ["GET"] else methods).map fun method =>
        ⟨method, m.string 1, file, m.string? 2⟩

def go : Extractor Route where
  label := "extract_go_routes"
  scan := do Scan.eachText inGo (← Scan.findGo ["**/*.go"])

end CodeSurvey.Routes
