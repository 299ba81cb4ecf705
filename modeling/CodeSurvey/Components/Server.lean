import CodeSurvey.Declaration.Function
import CodeSurvey.Record

/-!
# Components of Phoenix and Rails applications

A Phoenix component declares its attributes and handles events; the properties of a Rails view are
the local variables that it asks for.
-/

namespace CodeSurvey.Components

open Pattern

def phoenixAttribute : Pattern := wordEdge ++ "attr" ++ blanks1 ++ ":" ++ group 1 word

def phoenixEvent : Pattern :=
  "def" ++ blanks1 ++ "handle_event" ++ blanks ++ "(" ++ blanks ++ "\"" ++
    group 1 (some1 (· != '"')) ++ "\""

def inPhoenix (file : String) (text : Text) : List Component :=
  [⟨Declared.elixirModule text, unique (phoenixAttribute.names 1 text), file,
    unique (phoenixEvent.names 1 text)⟩]

def phoenix : Extractor Component :=
  ⟨"extract_phoenix_components",
    .eachFile ["**/*_live.ex", "**/*_live/*.ex", "**/components/*.ex"] inPhoenix⟩

/-- A look at the local variables of a view: the name, which the two ways record apart. -/
def railsLocal : Pattern :=
  alt ("local_assigns[:" ++ group 1 word ++ "]") ("local_assigns.fetch(:" ++ group 2 word)

def localName (m : Match) : String :=
  match m.string? 1 with
  | some name => name
  | none => m.string 2

/-- The path of a view below the folder of all views, without its extensions. -/
def viewName (file : String) : String :=
  String.ofList (Text.before (file.toList.drop "app/views/".length) (Text.of ".html."))

/-- The component of a view. A view that cannot be read has no properties. -/
def railsView (file : String) : Scan (List Component) := do
  let text ← Scan.readText file
  return [⟨viewName file, unique ((railsLocal.all (text.getD [])).map localName), file, []⟩]

def rails : Extractor Component where
  label := "extract_rails_views"
  scan := do
    let files ← Scan.find
      ["app/views/**/*.html.erb", "app/views/**/*.html.haml", "app/views/**/*.html.slim"]
    Scan.collect railsView files

end CodeSurvey.Components
