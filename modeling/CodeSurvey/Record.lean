import CodeSurvey.Source

/-!
# Records

What a survey reports about a tree, one record per declaration found, each with the file that it
was found in. An `Extractor` is a scan that finds the records of one kind for one family of
sources.
-/

namespace CodeSurvey

/-- An HTTP route. -/
structure Route where
  method : String
  path : String
  file : String
  handler : Option String
  deriving DecidableEq

structure Field where
  name : String
  type : String
  deriving DecidableEq

/-- A data model with its declared fields. -/
structure Model where
  name : String
  fields : List Field
  file : String
  deriving DecidableEq

/-- A module of request handlers with the actions it offers. -/
structure Controller where
  name : String
  actions : List String
  file : String
  deriving DecidableEq

/-- A component of a user interface with its properties and the events it handles. -/
structure Component where
  name : String
  props : List String
  file : String
  events : List String
  deriving DecidableEq

/-- A unit of business logic with its public functions. -/
structure Service where
  name : String
  functions : List String
  file : String
  deriving DecidableEq

structure Extractor (ρ : Type) where
  /-- The name under which the extractor is reported. -/
  label : String
  scan : Scan (List ρ)

/-- The number of fields up to which the attributes of a class are reported. -/
def maxFields : Nat := 20

/-- A service, if the file declares any function for it. -/
def Service.ofFunctions (name : String) (functions : List String) (file : String) : List Service :=
  if functions.isEmpty then [] else [⟨name, functions, file⟩]

/-- A model, if it has any field. -/
def Model.ofFields (name : String) (fields : List Field) (file : String) : List Model :=
  if fields.isEmpty then [] else [⟨name, fields, file⟩]

end CodeSurvey
