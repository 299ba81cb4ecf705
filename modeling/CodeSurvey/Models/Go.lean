import CodeSurvey.Models.Braced
import CodeSurvey.Routes.Go
import CodeSurvey.Text.Lines

/-!
# Models of Go structs

A line of a struct declares one or more fields of one type. What follows two slashes is a comment.
-/

namespace CodeSurvey.Models

open Pattern

def goStruct : Pattern :=
  wordEdge ++ "type" ++ blanks1 ++ group 1 word ++ blanks1 ++ "struct" ++ blanks ++ "\x7b"

def goName : Pattern := one (fun c => isLetter c || c == '_') ++ some0 isWord

/-- The names that a line declares, separated by commas, and their type. -/
def goFieldLine : Pattern :=
  textStart ++ group 1 (goName ++ star (blanks ++ "," ++ blanks ++ goName)) ++ blanks1 ++
    group 2 (some1 (wordOr ['.', '*', '[', ']']))

/-- The fields that a line declares. A line with a brace belongs to a type within the type. -/
def goLineFields (line : Text) : List Field :=
  let line := (line.before ['/', '/']).trim
  if line.isEmpty || line.contains '{' || line.contains '}' then []
  else match goFieldLine.matchAt? (Place.start line) with
    | none => []
    | some m => ((m.group 1).splitOn (· == ',')).map fun name =>
      ⟨String.ofList name.trim, m.string 2⟩

def goFields (body : Text) : List Field := body.lines.flatMap goLineFields

def go : Extractor Model where
  label := "extract_go_models"
  scan := do Scan.eachText (inBraces goStruct goFields) (← Scan.findGo ["**/*.go"])

end CodeSurvey.Models
