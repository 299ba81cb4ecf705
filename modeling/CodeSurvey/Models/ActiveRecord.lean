import CodeSurvey.Models.Eloquent
import CodeSurvey.Text.Case

/-!
# Models of Rails applications

The classes of records have no fields of their own; they take the columns of their table from the
schema of the database.
-/

namespace CodeSurvey.Models

open Pattern

def recordClass : Pattern :=
  "class" ++ blanks1 ++ group 1 word ++ blanks ++ "<" ++ blanks ++
    oneOf ["ApplicationRecord", "ActiveRecord::Base"]

/-- A table of the schema: the name and the body, up to a line that ends it. -/
def createTable : Pattern :=
  "create_table" ++ blanks1 ++ quote ++ group 1 word ++ quote ++ some0 (· != '\n') ++ wordEdge ++
    "do" ++ blanks ++ "|" ++ word ++ "|" ++ group 2 shortestText ++ lineStart ++ blanks ++ "end" ++
    wordEdge

/-- A column: the type and the name. -/
def tableColumn : Pattern :=
  lineStart ++ blanks ++ word ++ "." ++ group 1 word ++ blanks1 ++ quote ++ group 2 word ++ quote

def isCapital (c : Char) : Bool := 'A' ≤ c && c ≤ 'Z'

/-- The words of a name, each of which starts with a capital, joined by underscores. -/
def snakeCase : Text → Text
  | [] => []
  | c :: rest => Text.lower (c :: rest.flatMap fun c => if isCapital c then ['_', c] else [c])

/-- The plural of a name in lower case. -/
def plural (name : Text) : Text :=
  let endsIn (ending : String) : Bool := (Text.of ending).isSuffixOf name
  if endsIn "y" && !(["ay", "ey", "oy", "uy"].any endsIn) then
    name.take (name.length - 1) ++ Text.of "ies"
  else if ["s", "x", "ch", "sh"].any endsIn then name ++ Text.of "es"
  else name ++ ['s']

/-- The table that holds the records of a class. -/
def tableName (className : String) : String := String.ofList (plural (snakeCase className.toList))

/-- The columns of each table of a schema. -/
def schemaColumns (text : Option Text) : List (String × List Field) :=
  match text with
  | none => []
  | some text => (createTable.all text).map fun m =>
    (m.string 1, (tableColumn.all (m.group 2)).map fun c => ⟨c.string 2, c.string 1⟩)

def inActiveRecord (columns : List (String × List Field)) (file : String) (text : Text) :
    List Model :=
  match recordClass.find text with
  | none => []
  | some m =>
    let name := m.string 1
    [⟨name, (lastFor? columns (tableName name)).getD [], file⟩]

def activeRecord : Extractor Model where
  label := "extract_rails_models"
  scan := do
    let schema ← Scan.readText "db/schema.rb"
    Scan.eachFile ["app/models/**/*.rb"] (inActiveRecord (schemaColumns schema))

end CodeSurvey.Models
