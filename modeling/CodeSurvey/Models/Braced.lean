import CodeSurvey.Brackets
import CodeSurvey.Pattern.Vocabulary
import CodeSurvey.Record

/-!
# Models between braces

Structs, interfaces, schemas and classes declare their fields between braces. `inBraces` finds the
declarations of a text and reads the fields of each from what stands between its braces; what
differs from one kind to the next is how a declaration starts and how a body is read.
-/

namespace CodeSurvey.Models

open Pattern

/-- The models whose declarations the pattern reads up to the opening brace; group 1 is the name.
A declaration without a closing brace or without fields is none. -/
def inBraces (declaration : Pattern) (fields : Text → List Field) (file : String) (text : Text) :
    List Model :=
  (declaration.all text).flatMap fun m =>
    match bodyAfter? '{' '}' m.last.rest with
    | some body => Model.ofFields (m.string 1) (fields body) file
    | none => []

/-- Whether a text starts with one of the strings. -/
def startsWithAny (starts : List String) (text : Text) : Bool :=
  starts.any fun start => (Text.of start).isPrefixOf text

end CodeSurvey.Models
