import CodeSurvey.Models.Braced
import CodeSurvey.Text.Lines

/-!
# Models of Rust structs

The fields of a struct stand between commas outside all brackets. A line that starts with a comment
or an attribute holds none.
-/

namespace CodeSurvey.Models

open Pattern

def rustStruct : Pattern :=
  wordEdge ++ "struct" ++ blanks1 ++ group 1 word ++ blanks ++
    opt ("<" ++ some0 (noneOf ['>', '{']) ++ ">") ++ blanks ++ "\x7b"

/-- A field with its visibility: the name and the type, which goes on to the end of the text. -/
def rustField : Pattern :=
  textStart ++ opt ("pub" ++ opt ("(" ++ some1 (wordOr [':']) ++ ")") ++ blanks1) ++
    group 1 word ++ blanks ++ ":" ++ blanks ++ group 2 (some1 fun _ => true) ++ textEnd

def rustEntryField (entry : Text) : List Field :=
  match rustField.matchAt? (Place.start entry) with
  | none => []
  | some m => [⟨m.string 1, String.ofList (Text.joinWith [' '] (m.group 2).words)⟩]

/-- The lines of a body without those that are comments or attributes. -/
def rustLines (body : Text) : List Text :=
  body.lines.filter fun line => !startsWithAny ["//", "#["] line.trim

def rustFields (body : Text) : List Field :=
  (splitTopLevel (· == ',') (Text.joinWith ['\n'] (rustLines body))).flatMap rustEntryField

def rust : Extractor Model :=
  ⟨"extract_rust_models", .eachFile ["**/*.rs"] (inBraces rustStruct rustFields)⟩

end CodeSurvey.Models
