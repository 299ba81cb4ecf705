import CodeSurvey.Declaration.Class
import CodeSurvey.Quoted
import CodeSurvey.Record
import CodeSurvey.Routes.Path

/-!
# Routes of ASP.NET Core applications

A controller declares a route by an attribute on its handler, below the path that an attribute on
the class gives; minimal applications map a path to a handler by a call.
-/

namespace CodeSurvey.Routes

open Pattern

def dotNetVerbs : Pattern := oneOf ["Get", "Post", "Put", "Patch", "Delete"]

def dotNetClassRoute : Pattern :=
  "[Route" ++ blanks ++ "(" ++ blanks ++ "\"" ++ group 1 (some0 (· != '"')) ++ "\"" ++ blanks ++
    ")]"

/-- An attribute such as `HttpGet`: the method and perhaps the path. -/
def dotNetAttribute : Pattern :=
  "[Http" ++ group 1 dotNetVerbs ++ blanks ++
    opt ("(" ++ blanks ++ "\"" ++ group 2 (some0 (· != '"')) ++ "\"" ++ some0 (· != ')') ++ ")") ++
    blanks ++ "]"

/-- A call such as `MapGet`: the method, the path and perhaps the handler. -/
def dotNetMap : Pattern :=
  ".Map" ++ group 1 dotNetVerbs ++ blanks ++ "(" ++ blanks ++ "\"" ++
    group 2 (some0 (· != '"')) ++ "\"" ++
    opt (blanks ++ "," ++ blanks ++ group 3 (some1 (wordOr ['.'])) ++ blanks ++ ")")

/-- A name with a list of parameters and a body. -/
def csharpMethodName : Pattern :=
  wordEdge ++ group 1 word ++ blanks ++ "(" ++ some0 (· != ')') ++ ")" ++ blanks ++
    oneOf ["\x7b", "=>"]

/-- What `[controller]` stands for in a path: the name of the class without its ending. -/
def controllerToken (className : String) : String :=
  let name := Text.of className
  String.ofList ((name.withoutEnding? (Text.of "Controller")).getD name)

/-- The path that the attributes above a class give to its routes. -/
def dotNetBase (text : Text) (declaration : Option Match) : Text :=
  match declaration with
  | none => []
  | some c =>
    let start := Place.start text
    match dotNetClassRoute.find? (start.within (start.size - c.first.size)) with
    | none => []
    | some m =>
      (m.group 1).replace (Text.of "[controller]") (Text.of (controllerToken (c.string 1))).lower

def inDotNet (file : String) (text : Text) : List Route :=
  let declaration := csharpClass.find text
  let base := dotNetBase text declaration
  let body := match declaration with
    | some c => c.first
    | none => Place.start text
  ((dotNetAttribute.findAll body).map fun m =>
    (⟨m.upper 1, String.ofList (withSlash (joinPaths base (m.group 2))), file,
      csharpMethodName.nextName? m.last⟩ : Route)) ++
    (dotNetMap.all text).map fun m =>
      ⟨m.upper 1, String.ofList (withSlash (m.group 2)), file, m.string? 3⟩

def dotNet : Extractor Route :=
  ⟨"extract_dotnet_routes", .eachFile ["**/*.cs"] inDotNet⟩

end CodeSurvey.Routes
