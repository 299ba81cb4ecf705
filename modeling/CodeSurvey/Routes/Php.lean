import CodeSurvey.Quoted
import CodeSurvey.Record
import CodeSurvey.Routes.Path

/-!
# Routes of Laravel and Symfony applications

Laravel registers routes by calls in the files of the folder `routes`; a resource stands for five
routes. Symfony declares a route by an attribute or annotation on the function that handles it.
-/

namespace CodeSurvey.Routes

open Pattern

def laravelRoute : Pattern :=
  "Route::" ++ group 1 (oneOf ["get", "post", "put", "patch", "delete", "any"]) ++ blanks ++ "(" ++
    blanks ++ group 2 quote ++ group 3 shortest ++ same 2

/-- The argument after the path: a list in brackets or a string that names a class and a method. -/
def laravelArgument : Pattern :=
  blanks ++ "," ++ blanks ++
    group 1 (alt ("[" ++ some0 (· != ']') ++ "]") (quote ++ some1 (wordOr ['\\', '@']) ++ quote))

def laravelResource : Pattern :=
  "Route::" ++ opt "api" ++ one (fun c => c == 'R' || c == 'r') ++ "esource" ++ blanks ++ "(" ++
    blanks ++ group 1 quote ++ group 2 shortest ++ same 1 ++ blanks ++ "," ++ blanks ++
    group 3 (some1 (wordOr ['\\'])) ++ "::class"

/-- A pair of a class and a method. -/
def classAction : Pattern :=
  "[" ++ blanks ++ group 1 (some1 (wordOr ['\\'])) ++ "::class" ++ blanks ++ "," ++ blanks ++
    quote ++ group 2 word ++ quote ++ blanks ++ "]"

def stringAction : Pattern :=
  textStart ++ quote ++ group 1 (some1 (wordOr ['\\', '@'])) ++ quote ++ textEnd

/-- The name of a class without its namespace. -/
def baseName (name : Text) : String :=
  String.ofList ((name.splitOn (· == '\\')).getLast?.getD [])

/-- The handler that the argument after the path names. -/
def laravelHandler (p : Place) : Option String :=
  match laravelArgument.matchAt? p with
  | none => none
  | some argument =>
    let start := Place.start (argument.group 1)
    match classAction.matchAt? start with
    | some m => some (baseName (m.group 1) ++ "@" ++ m.string 2)
    | none => (stringAction.matchAt? start).bind (·.string? 1)

/-- The routes of a resource: the method, what the path ends in, and the action. -/
def laravelActions : List (String × String × String) :=
  [("GET", "", "index"), ("GET", "/\x7bid\x7d", "show"), ("POST", "", "store"),
   ("PUT", "/\x7bid\x7d", "update"), ("DELETE", "/\x7bid\x7d", "destroy")]

def inLaravel (file : String) (text : Text) : List Route :=
  ((laravelRoute.all text).map fun m =>
    (⟨m.upper 1, String.ofList (withSlash (m.group 3)), file, laravelHandler m.last⟩ : Route)) ++
    (laravelResource.all text).flatMap fun m =>
      let base := String.ofList (withSlash (m.group 2))
      let controller := baseName (m.group 3)
      laravelActions.map fun (method, ending, action) =>
        ⟨method, base ++ ending, file, some (controller ++ "@" ++ action)⟩

def laravel : Extractor Route := ⟨"extract_laravel_routes", .eachFile ["routes/*.php"] inLaravel⟩

/-- An attribute or annotation `Route`: the quote, the path and the other arguments. -/
def symfonyRoute : Pattern :=
  oneOf ["#[", "@"] ++ "Route" ++ blanks ++ "(" ++ blanks ++ group 1 quote ++ group 2 shortest ++
    same 1 ++ group 3 (some0 (noneOf [')', ']']))

def symfonyMethods : Pattern :=
  "methods" ++ blanks ++ one (fun c => c == ':' || c == '=') ++ blanks ++
    one (fun c => c == '[' || c == '{') ++ group 1 (some0 (noneOf [']', '}']))

/-- A declaration of a function that starts its line: the name. -/
def phpFunction : Pattern :=
  lineStart ++ blanks ++
    star (oneOf ["public", "protected", "private", "static", "final", "abstract"] ++ blanks1) ++
    "function" ++ blanks1 ++ group 1 word ++ blanks ++ "("

def inSymfony (file : String) (text : Text) : List Route :=
  (symfonyRoute.all text).flatMap fun m =>
    let handler := phpFunction.nextName? m.last
    (methodsIn symfonyMethods (m.group 3)).map fun method =>
      ⟨method, m.string 2, file, handler⟩

def symfony : Extractor Route := ⟨"extract_symfony_routes", .eachFile ["src/**/*.php"] inSymfony⟩

end CodeSurvey.Routes
