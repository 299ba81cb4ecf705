import CodeSurvey.Analysis
import CodeSurvey.Pattern.Vocabulary
import CodeSurvey.Text.Case

/-!
# Features and gaps

The features of a project are what its records offer to its users, each under a name in plain
words. A feature is a gap in the documentation if none of the words of its name occurs in the title
of any document.
-/

namespace CodeSurvey

open Pattern

structure Feature where
  name : String
  type : String
  path : Option String
  method : Option String
  deriving DecidableEq

/-- A feature that no document has in its title. -/
structure Gap where
  feature : String
  type : String
  deriving DecidableEq

def Gap.priority : String := "high"

def Gap.reason : String := "Feature exists in code but no documentation found"

/-! ## Words -/

/-- White space, underscores and hyphens separate words. -/
def separatesWords (c : Char) : Bool := isBlank c || c == '_' || c == '-'

/-- The pieces between separators that are not empty. -/
def wordsOf (text : Text) : List Text := (text.splitOn separatesWords).filter (!·.isEmpty)

/-- The different words of a text in lower case. -/
def tokens (text : Text) : List Text := (wordsOf text.lower).eraseDups

/-! ## Names of routes -/

/-- A segment of a path that stands for a parameter. -/
def parameterSegment : Pattern :=
  textStart ++
    choice [":" ++ word, "\x7b" ++ some0 (· != '}') ++ "\x7d", "[" ++ some0 (· != ']') ++ "]",
      "<" ++ some0 (· != '>') ++ ">", "*" ++ some0 isWord] ++
    textEnd

def isParameter (segment : Text) : Bool :=
  (parameterSegment.matchAt? (Place.start segment)).isSome

/-- The segments of a path that are neither empty nor parameters. -/
def literalSegments (path : Text) : List Text :=
  (path.splitOn (· == '/')).filter fun segment => !segment.isEmpty && !isParameter segment

/-- The capitalised words of the first two literal segments of a path. -/
def featureName (path : Text) : Text :=
  let segments := Text.joinWith [' '] ((literalSegments path).take 2)
  let name := Text.joinWith [' '] ((wordsOf segments).map Text.capitalize)
  if name.isEmpty then Text.of "Home" else name

/-! ## Features of an analysis -/

/-- What follows the last dot of a name. -/
def lastPart (name : String) : Text :=
  ((Text.splitOn name.toList (· == '.')).getLast?).getD []

/-- The text without the occurrences of a word, unless nothing but these is there. -/
def withoutWord (word : String) (text otherwise : Text) : Text :=
  let short := text.replace (Text.of word) []
  if short.isEmpty then otherwise else short

def Route.feature (r : Route) : Feature :=
  ⟨String.ofList (featureName r.path.toList), "route", some r.path, some r.method⟩

def Model.feature (m : Model) : Feature := ⟨String.ofList (lastPart m.name), "entity", none, none⟩

/-- A component that handles events is a view of its own. -/
def Component.feature (c : Component) : Feature :=
  let name := lastPart c.name
  if c.events.isEmpty then ⟨String.ofList name, "component", none, none⟩
  else ⟨String.ofList (withoutWord "Live" name name), "live_view", none, none⟩

def Controller.feature (c : Controller) : Feature :=
  ⟨String.ofList (withoutWord "Controller" (lastPart c.name) c.name.toList), "controller", none,
    none⟩

def Analysis.features (a : Analysis) : List Feature :=
  a.routes.map Route.feature ++ a.models.map Model.feature ++
    a.components.map Component.feature ++ a.controllers.map Controller.feature

/-! ## Gaps -/

def Feature.gap (f : Feature) : Gap := ⟨f.name, f.type⟩

/-- The features none of whose words occurs in any of the titles. -/
def gaps (features : List Feature) (titles : List String) : List Gap :=
  let known := titles.flatMap fun title => tokens title.toList
  (features.filter fun f => !(tokens f.name.toList).any known.contains).map Feature.gap

end CodeSurvey
