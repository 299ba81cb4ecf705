import CodeSurvey.Quoted
import CodeSurvey.Record

/-!
# Routes of Python applications

Django lists its routes in modules named `urls.py`; Flask and FastAPI declare a route by a
decorator on the function that handles it.
-/

namespace CodeSurvey.Routes

open Pattern

/-- A call of `path` or `re_path`: the quote, the path and the view. -/
def djangoPath : Pattern :=
  wordEdge ++ opt "re_" ++ "path" ++ blanks ++ "(" ++ blanks ++ opt "r" ++
    group 1 quote ++ group 2 shortest ++ same 1 ++
    opt (blanks ++ "," ++ blanks ++ group 3 (some1 (wordOr ['.'])))

/-- A decorator `route`: the quote, the path and the other arguments. -/
def flaskRoute : Pattern :=
  "@" ++ word ++ ".route" ++ blanks ++ "(" ++ blanks ++
    group 1 quote ++ group 2 shortest ++ same 1 ++ group 3 (some0 (· != ')')) ++ ")"

def flaskMethods : Pattern :=
  "methods" ++ blanks ++ "=" ++ blanks ++ one (fun c => c == '[' || c == '(') ++
    group 1 (some0 (noneOf [']', ')']))

/-- A decorator named for an HTTP method: the method, the quote and the path. -/
def verbDecorator : Pattern :=
  "@" ++ word ++ "." ++ group 1 (oneOf ["get", "post", "put", "patch", "delete"]) ++ blanks ++
    "(" ++ blanks ++ group 2 quote ++ group 3 shortest ++ same 2

/-- A function definition: the name. -/
def pythonFunction : Pattern :=
  opt ("async" ++ blanks1) ++ "def" ++ blanks1 ++ group 1 word ++ blanks ++ "("

/-- The view that handles a route; `include` mounts another list of routes and is no view. -/
def viewName (name : Option String) : Option String := name.filter (· != "include")

def inDjango (file : String) (text : Text) : List Route :=
  (djangoPath.all text).map fun m =>
    ⟨"GET", String.ofList ('/' :: m.group 2), file, viewName (m.string? 3)⟩

def inVerbDecorators (file : String) (text : Text) : List Route :=
  (verbDecorator.all text).map fun m =>
    ⟨m.upper 1, m.string 3, file, pythonFunction.nextName? m.last⟩

def inFlask (file : String) (text : Text) : List Route :=
  ((flaskRoute.all text).flatMap fun m =>
    (methodsIn flaskMethods (m.group 3)).map fun method =>
      (⟨method, m.string 2, file, pythonFunction.nextName? m.last⟩ : Route)) ++
    inVerbDecorators file text

def django : Extractor Route :=
  ⟨"extract_django_routes", .eachFile ["**/urls.py"] inDjango⟩

def flask : Extractor Route :=
  ⟨"extract_flask_routes", .eachFile ["**/*.py"] inFlask⟩

def fastApi : Extractor Route :=
  ⟨"extract_fastapi_routes", .eachFile ["**/*.py"] inVerbDecorators⟩

end CodeSurvey.Routes
