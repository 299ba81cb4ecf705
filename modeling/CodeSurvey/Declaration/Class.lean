import CodeSurvey.Pattern.Vocabulary

/-!
# Declarations of classes

How C#, Java and Kotlin declare classes and write types. A declaration starts its line, so the word
`class` in a comment is none.
-/

namespace CodeSurvey

open Pattern

/-- A declaration of a class after any of the modifiers: the name. -/
def classDeclaration (modifiers : List String) : Pattern :=
  lineStart ++ some0 isSpace ++ star (oneOf modifiers ++ blanks1) ++ "class" ++ blanks1 ++
    group 1 word

def csharpClass : Pattern :=
  classDeclaration
    ["public", "internal", "private", "protected", "sealed", "partial", "abstract", "static"]

def jvmClass : Pattern :=
  classDeclaration
    ["public", "protected", "private", "abstract", "final", "static", "open", "data"]

/-- A list of type arguments between angle brackets. -/
def typeArguments : Pattern :=
  "<" ++ some0 (fun c => wordOr ['<', '>', ',', '.', '?'] c || isBlank c) ++ ">"

/-- A dotted name with its type arguments. -/
def namedType : Pattern := some1 (wordOr ['.']) ++ opt typeArguments

def jvmType : Pattern := namedType ++ star "[]"

def csharpType : Pattern := namedType ++ opt "[]" ++ opt "?"

end CodeSurvey
