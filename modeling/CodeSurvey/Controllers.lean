import CodeSurvey.Declaration.Function
import CodeSurvey.Record
import CodeSurvey.Routes.Go
import CodeSurvey.Routes.Script
import CodeSurvey.Text.Case

/-!
# Controllers

A controller is a file of request handlers. Its actions are the functions that the file declares,
less those that by their name handle no request.
-/

namespace CodeSurvey.Controllers

open Pattern

def inPhoenix (file : String) (text : Text) : List Controller :=
  [⟨Declared.elixirModule text, unique (Declared.elixir text), file⟩]

def phoenix : Extractor Controller :=
  ⟨"extract_phoenix_controllers", .eachFile ["**/*_controller.ex"] inPhoenix⟩

/-- The handlers of a module. The module that makes a folder a package holds none. -/
def inPython (file : String) (text : Text) : List Controller :=
  if hasEnding file "__init__.py" then []
  else [⟨stem file [".py"], unique ((Declared.python text).filter (!Declared.isDunder ·)), file⟩]

def djangoViews : List String := ["**/views.py", "**/views/*.py"]

def django : Extractor Controller := ⟨"extract_django_views", .eachFile djangoViews inPython⟩

/-- Views, and the modules of routers and endpoints. -/
def python : Extractor Controller :=
  ⟨"extract_python_handlers",
    .eachFile
      (djangoViews ++ ["**/routes.py", "**/routers/*.py", "**/endpoints/*.py", "**/api/*.py"])
      inPython⟩

def inScript (file : String) (text : Text) : List Controller :=
  [⟨stem file [".js", ".ts", ".mjs", ".cjs"], unique (Declared.script text), file⟩]

def express : Extractor Controller :=
  ⟨"extract_express_handlers",
    .eachFile (["**/controllers/", "**/handlers/", "**/routes/"].map scriptFiles) inScript⟩

def railsClass : Pattern := "class" ++ blanks1 ++ group 1 word ++ "Controller"

/-- The methods of a controller that only prepare the handling of requests. -/
def railsHelpers (name : String) : List String :=
  let lowered := Text.lower name.toList
  ["initialize", String.ofList (Text.of "set_" ++ lowered),
    String.ofList (Text.of "set_" ++ lowered.trimRightBy (· == 's'))]

def inRails (file : String) (text : Text) : List Controller :=
  let name := match railsClass.find text with
    | some m => m.string 1
    | none => stem file ["_controller.rb"]
  let helpers := railsHelpers name
  [⟨name, unique ((Declared.rubyPublic text).filter fun action => !helpers.contains action), file⟩]

def rails : Extractor Controller :=
  ⟨"extract_rails_controllers", .eachFile ["app/controllers/**/*_controller.rb"] inRails⟩

def inGo (file : String) (text : Text) : List Controller :=
  [⟨stem file [".go"], unique (Declared.go text), file⟩]

def go : Extractor Controller where
  label := "extract_go_handlers"
  scan := do
    Scan.eachText inGo
      (← Scan.findGo ["**/handlers/*.go", "**/handler/*.go", "**/controllers/*.go"])

def inSpring (file : String) (text : Text) : List Controller :=
  let name := stem file [".java", ".kt"]
  [⟨name, Declared.publicMethods Declared.jvmPublic name text, file⟩]

def spring : Extractor Controller :=
  ⟨"extract_spring_controllers", .eachFile ["**/*Controller.java", "**/*Controller.kt"] inSpring⟩

def inPhp (file : String) (text : Text) : List Controller :=
  [⟨stem file [".php"], Declared.php text, file⟩]

/-- The base class of all controllers is none itself. -/
def laravel : Extractor Controller where
  label := "extract_laravel_controllers"
  scan := do
    let controllers ← Scan.eachFile ["app/Http/Controllers/**/*.php"] inPhp
    return controllers.filter (·.name != "Controller")

def symfony : Extractor Controller :=
  ⟨"extract_symfony_controllers", .eachFile ["src/Controller/**/*.php"] inPhp⟩

def inDotNet (file : String) (text : Text) : List Controller :=
  let name := stem file [".cs"]
  [⟨name, Declared.publicMethods Declared.csharpPublic name text, file⟩]

def dotNet : Extractor Controller :=
  ⟨"extract_dotnet_controllers", .eachFile ["**/*Controller.cs"] inDotNet⟩

end CodeSurvey.Controllers
