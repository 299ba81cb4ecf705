import CodeSurvey.Record
import CodeSurvey.Routes.Jvm

/-!
# Models of JPA entities

The first class after the first `@Entity` of a file is a model; its fields are the declarations of
variables with a visibility that follow.
-/

namespace CodeSurvey.Models

open Pattern

/-- A variable that starts its line: the type and the name. -/
def jpaField : Pattern :=
  lineStart ++ blanks ++ oneOf ["private", "protected", "public"] ++ blanks1 ++
    star (oneOf ["final", "transient"] ++ blanks1) ++ group 1 jvmType ++ blanks1 ++
    group 2 word ++ blanks ++ opt ("=" ++ some0 (· != ';')) ++ ";"

def entityMark : Pattern := "@Entity"

def inJpa (file : String) (text : Text) : List Model :=
  match entityMark.find text with
  | none => []
  | some mark =>
    match jvmClass.find? mark.first with
    | none => []
    | some m =>
      [⟨m.string 1, (jpaField.all m.last.rest).map fun f => ⟨f.string 2, f.string 1⟩, file⟩]

def jpa : Extractor Model := ⟨"extract_jpa_models", .eachFile Routes.jvmFiles inJpa⟩

end CodeSurvey.Models
