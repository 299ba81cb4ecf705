import CodeSurvey.Declaration.Class
import CodeSurvey.Models.Braced

/-!
# Models of Entity Framework

The public properties of public classes, outside the files that hold controllers or start the
application.
-/

namespace CodeSurvey.Models

open Pattern

def csharpPublicClass : Pattern :=
  wordEdge ++ "public" ++ blanks1 ++ star (oneOf ["partial", "sealed", "abstract"] ++ blanks1) ++
    "class" ++ blanks1 ++ group 1 word ++ some0 (· != '{') ++ "\x7b"

/-- A public property that starts its line: the type and the name. -/
def csharpProperty : Pattern :=
  lineStart ++ blanks ++ "public" ++ blanks1 ++
    star (oneOf ["virtual", "required", "override"] ++ blanks1) ++
    group 1 csharpType ++ blanks1 ++ group 2 word ++ blanks ++ "\x7b" ++ blanks ++ "get"

def csharpFields (body : Text) : List Field :=
  (csharpProperty.all body).map fun m => ⟨m.string 2, m.string 1⟩

def inEntityFramework (file : String) (text : Text) : List Model :=
  if ["Controller.cs", "Program.cs", "Startup.cs"].any (hasEnding file) then []
  else inBraces csharpPublicClass csharpFields file text

def entityFramework : Extractor Model :=
  ⟨"extract_ef_models", .eachFile ["**/*.cs"] inEntityFramework⟩

end CodeSurvey.Models
