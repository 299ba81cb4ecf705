import CodeSurvey.Indentation
import CodeSurvey.Record

/-!
# Models of Python applications

The body of a class is an indented block. A Django model assigns its fields; in other classes the
annotated attributes at the level of the class are fields.
-/

namespace CodeSurvey.Models

open Pattern

/-- A class derived from `Model`: the name. -/
def djangoClass : Pattern :=
  lineStart ++ "class" ++ blanks1 ++ group 1 word ++ blanks ++ "(" ++ blanks ++
    oneOf ["models.Model", "Model"] ++ wordEdge ++ some0 (· != ')') ++ ")" ++ blanks ++ ":"

/-- An attribute: the name and the kind of field. -/
def djangoField : Pattern :=
  lineStart ++ blanks1 ++ group 1 word ++ blanks ++ "=" ++ blanks ++ "models." ++ group 2 word ++
    blanks ++ "("

/-- Attributes of a model that are no fields. -/
def notDjangoFields : List String :=
  ["Manager", "Index", "UniqueConstraint", "CheckConstraint", "Q", "F"]

def djangoFields (body : Text) : List Field :=
  ((djangoField.all body).map fun m => (⟨m.string 1, m.string 2⟩ : Field)).filter fun f =>
    !notDjangoFields.contains f.type

def inDjango (file : String) (text : Text) : List Model :=
  (djangoClass.all text).map fun m => ⟨m.string 1, djangoFields (indentedBlock m.last.rest), file⟩

def django : Extractor Model :=
  ⟨"extract_django_models", .eachFile ["**/models.py", "**/models/*.py"] inDjango⟩

def pythonClass : Pattern :=
  lineStart ++ "class" ++ blanks1 ++ group 1 word ++ blanks ++
    opt ("(" ++ some0 (· != ')') ++ ")") ++ blanks ++ ":"

/-- A dotted name, perhaps with a subscript that holds no brackets. -/
def annotationName : Pattern :=
  some1 (wordOr ['.']) ++ opt ("[" ++ some0 (noneOf [']', '\n']) ++ "]")

/-- An attribute: the name and a type, or several types separated by bars. -/
def annotatedAttribute : Pattern :=
  lineStart ++ some1 isSpace ++ group 1 word ++ blanks ++ ":" ++ blanks ++
    group 2 (annotationName ++ star (blanks ++ "|" ++ blanks ++ annotationName))

def annotatedFields (body : Text) : List Field :=
  ((annotatedAttribute.all (topLevelLines body)).map fun m =>
    (⟨m.string 1, String.ofList (m.group 2).trim⟩ : Field)).take maxFields

def inPython (file : String) (text : Text) : List Model :=
  (pythonClass.all text).flatMap fun m =>
    Model.ofFields (m.string 1) (annotatedFields (indentedBlock m.last.rest)) file

def python : Extractor Model := ⟨"extract_python_models", .eachFile ["**/*.py"] inPython⟩

end CodeSurvey.Models
