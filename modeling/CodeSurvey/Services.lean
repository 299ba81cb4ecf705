import CodeSurvey.Declaration.Function
import CodeSurvey.Record
import CodeSurvey.Routes.Go
import CodeSurvey.Routes.Script

/-!
# Services

A service is a file of business logic, told by its place or its name. Its functions are those that
the file declares, less the hidden ones; a file without any is no service.
-/

namespace CodeSurvey.Services

open Pattern

/-- Whether an Elixir file is a context: not of the web layer, the repository or the application. -/
def isContext (file : String) : Bool :=
  !Text.has file.toList (Text.of "_web/") &&
    !(["/repo.ex", "/application.ex"].any (hasEnding file))

def inElixir (file : String) (text : Text) : List Service :=
  Service.ofFunctions (Declared.elixirModule text)
    (unique ((Declared.elixir text).filter (!isHidden ·))) file

def elixir : Extractor Service where
  label := "extract_elixir_contexts"
  scan := do
    let files ← Scan.find ["lib/**/*.ex"]
    Scan.eachText inElixir (files.filter isContext)

def inPython (file : String) (text : Text) : List Service :=
  Service.ofFunctions (stem file [".py"])
    (unique ((Declared.python text).filter (!isHidden ·))) file

def python : Extractor Service :=
  ⟨"extract_python_services",
    .eachFile ["**/services/*.py", "**/service.py", "**/services.py"] inPython⟩

def inScript (file : String) (text : Text) : List Service :=
  Service.ofFunctions (stem file [".js", ".ts", ".mjs", ".cjs"])
    (unique ((Declared.script text).filter (!isHidden ·))) file

def script : Extractor Service :=
  ⟨"extract_js_services",
    .eachFile (["**/services/", "**/lib/", "**/utils/"].map scriptFiles) inScript⟩

def inRuby (file : String) (text : Text) : List Service :=
  Service.ofFunctions (stem file [".rb"])
    (unique ((Declared.ruby text).filter fun name => !isHidden name && name != "initialize")) file

def ruby : Extractor Service :=
  ⟨"extract_ruby_services", .eachFile ["app/services/**/*.rb", "lib/*.rb"] inRuby⟩

def inGo (file : String) (text : Text) : List Service :=
  Service.ofFunctions (stem file [".go"])
    (unique ((Declared.go text).filter fun name => !(["init", "main"].contains name))) file

def go : Extractor Service where
  label := "extract_go_services"
  scan := do Scan.eachText inGo (← Scan.findGo ["**/services/*.go", "**/service/*.go"])

def inJava (file : String) (text : Text) : List Service :=
  let name := stem file [".java"]
  Service.ofFunctions name (Declared.publicMethods Declared.jvmPublic name text) file

def java : Extractor Service :=
  ⟨"extract_java_services",
    .eachFile ["**/*Service.java", "**/*ServiceImpl.java", "**/services/*.java",
      "**/service/*.java"] inJava⟩

def inPhp (file : String) (text : Text) : List Service :=
  Service.ofFunctions (stem file [".php"]) (Declared.php text) file

def php : Extractor Service :=
  ⟨"extract_php_services", .eachFile ["app/Services/**/*.php", "src/Service/**/*.php"] inPhp⟩

def inCSharp (file : String) (text : Text) : List Service :=
  let name := stem file [".cs"]
  Service.ofFunctions name (Declared.publicMethods Declared.csharpPublic name text) file

def csharp : Extractor Service :=
  ⟨"extract_csharp_services", .eachFile ["**/*Service.cs", "**/Services/*.cs"] inCSharp⟩

end CodeSurvey.Services
