import CodeSurvey.Declaration.Class
import CodeSurvey.Quoted
import CodeSurvey.Record
import CodeSurvey.Routes.Path

/-!
# Routes of Spring, JAX-RS and Micronaut applications

All three declare a route by an annotation on the method that handles it, below a path that an
annotation on the class gives. What stands before the first declaration of a class belongs to the
class, what follows belongs to its methods.
-/

namespace CodeSurvey.Routes

open Pattern

/-- The arguments of an annotation, recorded as group 2. -/
def annotationArguments : Pattern := opt (blanks ++ "(" ++ group 2 (some0 (· != ')')) ++ ")")

def jvmVerbs : Pattern := oneOf ["Get", "Post", "Put", "Delete", "Patch"]

/-- An annotation such as `GetMapping`. -/
def springShort : Pattern :=
  "@" ++ group 1 jvmVerbs ++ "Mapping" ++ wordEdge ++ annotationArguments

def springMapping : Pattern :=
  "@RequestMapping" ++ blanks ++ "(" ++ blanks ++ group 1 (some0 (· != ')')) ++ ")"

def jaxrsVerb : Pattern :=
  "@" ++ group 1 (oneOf ["GET", "POST", "PUT", "DELETE", "PATCH"]) ++ wordEdge

def jaxrsPath : Pattern :=
  "@Path" ++ blanks ++ "(" ++ blanks ++ "\"" ++ group 1 (some0 (· != '"')) ++ "\"" ++ blanks ++ ")"

def micronautController : Pattern :=
  "@Controller" ++ blanks ++ "(" ++ blanks ++ opt ("value" ++ blanks ++ "=" ++ blanks) ++ "\"" ++
    group 1 (some0 (· != '"')) ++ "\""

def micronautVerb : Pattern := "@" ++ group 1 jvmVerbs ++ wordEdge ++ annotationArguments

/-- A declaration of a method that starts its line: the name. A line that starts with an annotation
is none. -/
def jvmMethod : Pattern :=
  lineStart ++ blanks ++
    star (oneOf ["public", "protected", "private", "static", "final", "synchronized", "abstract"] ++
      blanks1) ++
    jvmType ++ blanks1 ++ group 1 word ++ blanks ++ "("

/-- A quoted path, perhaps the first of a list in braces: the quote and the path. -/
def quotedPath : Pattern :=
  opt "\x7b" ++ blanks ++ group 1 quote ++ group 2 (some0 (!isQuote ·)) ++ same 1

def namedPath : Pattern := oneOf ["value", "path"] ++ blanks ++ "=" ++ blanks ++ quotedPath

def firstPath : Pattern := textStart ++ blanks ++ quotedPath

/-- The path among the arguments of an annotation: a named one, or else the first argument. -/
def requestPath (arguments : Text) : Option Text :=
  match namedPath.find arguments with
  | some m => m.group? 2
  | none => (firstPath.find arguments).bind (·.group? 2)

def requestMethod : Pattern :=
  "RequestMethod." ++ group 1 (oneOf ["GET", "POST", "PUT", "DELETE", "PATCH"])

/-- The methods that a mapping names, or else GET. -/
def requestMethods (arguments : Text) : List String :=
  let methods := requestMethod.names 1 arguments
  if methods.isEmpty then ["GET"] else methods

/-- The place of the first class, or the start of a text without one. -/
def classPlace (text : Text) : Place :=
  match jvmClass.find text with
  | some c => c.first
  | none => Place.start text

/-- The start of a text that ends at the given place. -/
def headBefore (text : Text) (p : Place) : Place :=
  let start := Place.start text
  start.within (start.size - p.size)

def subPath (base arguments : Text) : String :=
  String.ofList (joinPaths base ((requestPath arguments).getD []))

/-- The path of the last mapping above the class. -/
def springBase (text : Text) (body : Place) : Text :=
  match (springMapping.findAll (headBefore text body)).getLast? with
  | some m => (requestPath (m.group 1)).getD []
  | none => []

def inSpring (file : String) (text : Text) : List Route :=
  let body := classPlace text
  let base := springBase text body
  ((springShort.findAll body).map fun m =>
    (⟨m.upper 1, subPath base (m.group 2), file, jvmMethod.nextName? m.last⟩ : Route)) ++
    (springMapping.findAll body).flatMap fun m =>
      let handler := jvmMethod.nextName? m.last
      (requestMethods (m.group 1)).map fun method =>
        ⟨method, subPath base (m.group 1), file, handler⟩

/-- How far after the annotation of a method its path and its name are looked for. -/
def jaxrsWindow : Nat := 300

/-- The route of an annotated method. The annotations up to its declaration may add a path. -/
def jaxrsRoute (base : Text) (file : String) (m : Match) : Route :=
  let window := Place.start (m.last.rest.take jaxrsWindow)
  let declaration := jvmMethod.find? window
  let head := match declaration with
    | some d => window.upTo d.first
    | none => window.rest
  let path := match jaxrsPath.find head with
    | some p => p.group 1
    | none => []
  ⟨m.string 1, String.ofList (joinPaths base path), file, declaration.bind (·.string? 1)⟩

def inJaxrs (file : String) (text : Text) : List Route :=
  let body := classPlace text
  let base := match jaxrsPath.find? (headBefore text body) with
    | some m => m.group 1
    | none => []
  (jaxrsVerb.findAll body).map (jaxrsRoute base file)

def inMicronaut (file : String) (text : Text) : List Route :=
  match micronautController.find text with
  | none => []
  | some controller =>
    (micronautVerb.findAll (classPlace text)).map fun m =>
      ⟨m.upper 1, subPath (controller.group 1) (m.group 2), file, jvmMethod.nextName? m.last⟩

def jvmFiles : List String := ["**/*.java", "**/*.kt"]

def spring : Extractor Route := ⟨"extract_spring_routes", .eachFile jvmFiles inSpring⟩

def jaxrs : Extractor Route := ⟨"extract_jaxrs_routes", .eachFile jvmFiles inJaxrs⟩

def micronaut : Extractor Route := ⟨"extract_micronaut_routes", .eachFile jvmFiles inMicronaut⟩

end CodeSurvey.Routes
