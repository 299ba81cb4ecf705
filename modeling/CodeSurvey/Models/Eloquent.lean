import CodeSurvey.Pattern.Vocabulary
import CodeSurvey.Record

/-!
# Models of Laravel applications

A model lists the names of its fields in `$fillable`; the type of a field is what `$casts`, or the
method `casts`, maps its name to.
-/

namespace CodeSurvey.Models

open Pattern

def eloquentClass : Pattern :=
  "class" ++ blanks1 ++ group 1 word ++ blanks1 ++ "extends" ++ blanks1 ++
    oneOf ["Model", "Authenticatable", "Pivot"] ++ wordEdge

/-- A list between brackets. -/
def phpList : Pattern := "[" ++ group 1 (some0 (· != ']')) ++ "]"

def fillable : Pattern := "$fillable" ++ blanks ++ "=" ++ blanks ++ phpList

def castsProperty : Pattern := "$casts" ++ blanks ++ "=" ++ blanks ++ phpList

def castsMethod : Pattern :=
  "function" ++ blanks1 ++ "casts" ++ blanks ++ "(" ++ some0 (· != ')') ++ ")" ++
    some0 (· != '{') ++ "\x7b" ++ some0 (· != '[') ++ phpList

/-- A name and what it is mapped to. -/
def castEntry : Pattern :=
  quote ++ group 1 word ++ quote ++ blanks ++ "=>" ++ blanks ++ opt quote ++
    group 2 (some1 (wordOr [':', '\\']))

/-- The names that the casts of a text map, with what they are mapped to, in the order of the
text. -/
def casts (text : Text) : List (String × String) :=
  match (castsProperty.find text).or (castsMethod.find text) with
  | some m => (castEntry.all (m.group 1)).map fun e => (e.string 1, e.string 2)
  | none => []

/-- What a name is mapped to by the last entry for it. -/
def lastFor? {α : Type} (entries : List (String × α)) (name : String) : Option α :=
  entries.reverse.lookup name

def quotedWord : Pattern := quote ++ group 1 word ++ quote

def eloquentFields (text : Text) : List Field :=
  let types := casts text
  let names := match fillable.find text with
    | some m => quotedWord.names 1 (m.group 1)
    | none => []
  (unique names).map fun name => ⟨name, (lastFor? types name).getD "mixed"⟩

def inEloquent (file : String) (text : Text) : List Model :=
  match eloquentClass.find text with
  | some m => [⟨m.string 1, eloquentFields text, file⟩]
  | none => []

def eloquent : Extractor Model :=
  ⟨"extract_eloquent_models", .eachFile ["app/Models/**/*.php", "app/*.php"] inEloquent⟩

end CodeSurvey.Models
