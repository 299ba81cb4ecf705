import CodeSurvey.Brackets
import CodeSurvey.Quoted
import CodeSurvey.Record

/-!
# Routes of Rust servers

actix-web and rocket declare a route by an attribute on its handler; axum registers the handlers
of a path, one for each method, in the arguments of a call of `route`.
-/

namespace CodeSurvey.Routes

open Pattern

def rustVerbs : Pattern := oneOf ["get", "post", "put", "patch", "delete"]

/-- An attribute named for an HTTP method: the method and the path. -/
def rustAttribute : Pattern :=
  "#[" ++ group 1 rustVerbs ++ blanks ++ "(" ++ blanks ++ "\"" ++ group 2 (some0 (· != '"')) ++ "\""

def rustFunction : Pattern := wordEdge ++ "fn" ++ blanks1 ++ group 1 word

/-- A call of `route` up to the comma after the path. -/
def axumRoute : Pattern :=
  ".route" ++ blanks ++ "(" ++ blanks ++ "\"" ++ group 1 (some0 (· != '"')) ++ "\"" ++ blanks ++ ","

/-- A method and its handler. -/
def axumMethod : Pattern :=
  wordEdge ++ group 1 rustVerbs ++ blanks ++ "(" ++ blanks ++ group 2 (some1 (wordOr [':'])) ++
    blanks ++ ")"

def inRustAttributes (file : String) (text : Text) : List Route :=
  (rustAttribute.all text).map fun m =>
    ⟨m.upper 1, m.string 2, file, rustFunction.nextName? m.last⟩

/-- What stands between the parentheses of the call that starts here. -/
def callArguments? (p : Place) : Option Text :=
  bodyAfter? '(' ')' ((p.rest.dropWhile (· != '(')).drop 1)

def inAxum (file : String) (text : Text) : List Route :=
  (axumRoute.all text).flatMap fun m =>
    match callArguments? m.first with
    | none => []
    | some arguments => (axumMethod.all arguments).map fun h =>
      ⟨h.upper 1, m.string 1, file, some (h.string 2)⟩

def rustAttributes : Extractor Route :=
  ⟨"extract_rust_attribute_routes", .eachFile ["**/*.rs"] inRustAttributes⟩

def axum : Extractor Route :=
  ⟨"extract_axum_routes", .eachFile ["**/*.rs"] inAxum⟩

/-- actix-web applications may use both styles. -/
def actix : Extractor Route where
  label := "extract_actix_routes"
  scan := do
    let declared ← rustAttributes.scan
    let registered ← axum.scan
    return declared ++ registered

end CodeSurvey.Routes
