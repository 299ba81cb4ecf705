import CodeSurvey.Declaration.Function
import CodeSurvey.Record

/-!
# Models of Ecto schemas

The first schema of a file is a model, named for the first module of the file. Its fields come
before its associations, whose type is the kind of association.
-/

namespace CodeSurvey.Models

open Pattern

/-- A schema from its head to a line that ends it: the table and the body. -/
def ectoSchema : Pattern :=
  "schema" ++ blanks1 ++ "\"" ++ group 1 word ++ "\"" ++ blanks1 ++ "do" ++ group 2 shortestText ++
    lineStart ++ blanks ++ "end" ++ wordEdge

def ectoField : Pattern :=
  "field" ++ blanks1 ++ ":" ++ group 1 word ++ blanks ++ "," ++ blanks ++ opt ":" ++
    group 2 (some1 (wordOr ['.']))

def ectoAssociation : Pattern :=
  group 1 (oneOf ["belongs_to", "has_one", "has_many", "many_to_many"]) ++ blanks1 ++ ":" ++
    group 2 word

def ectoFields (body : Text) : List Field :=
  ((ectoField.all body).map fun m => ⟨m.string 1, m.string 2⟩) ++
    (ectoAssociation.all body).map fun m => ⟨m.string 2, m.string 1⟩

def inEcto (file : String) (text : Text) : List Model :=
  if text.has (Text.of "schema \"") then
    match ectoSchema.find text with
    | some m => [⟨Declared.elixirModule text, ectoFields (m.group 2), file⟩]
    | none => []
  else []

def ecto : Extractor Model := ⟨"extract_ecto_models", .eachFile ["**/*.ex"] inEcto⟩

end CodeSurvey.Models
