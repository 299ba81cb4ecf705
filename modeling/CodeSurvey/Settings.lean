import CodeSurvey.Decimal.Notation
import CodeSurvey.Extractors
import CodeSurvey.Host
import CodeSurvey.Text.Case
import CodeSurvey.Yaml.Read

/-!
# Settings

A project may state in a file at its root how it wants to be surveyed. Without the file, and where
the file leaves something out, the standard settings hold. A file that says something wrong is
refused as a whole; `Settings.Invalid` tells what is wrong with it.
-/

namespace CodeSurvey

/-! ## Values read generously -/

namespace Value

/-- An integer, which may be written as a string. -/
def whole? : Value → Option Int
  | int n => some n
  | str s => Text.whole? s.toList
  | _ => none

/-- Whether a value is a string, a number or a truth value. -/
def isPlain : Value → Bool
  | str _ => true
  | int _ => true
  | float _ => true
  | bool _ => true
  | _ => false

/-- The text of a string, a number or a truth value. An integer may be too long to be written. -/
def plainText? : Value → Option String
  | str s => some s
  | int n => Text.ofWhole? n
  | float x => some (floatText x)
  | bool b => some (if b then "True" else "False")
  | _ => none

/-- The texts that a list holds; a string stands for a list of itself. There are none if one of them
cannot be written. -/
def plainTexts? : Value → Option (List String)
  | str s => some [s]
  | list items => (items.filter isPlain).mapM plainText?
  | _ => some []

end Value

structure Settings where
  root : Location
  /-- Names of files and directories that are left out. -/
  exclude : List String
  /-- The categories of records that are looked for. -/
  categories : List Category
  maxWorkers : Int
  limits : SampleLimits
  deriving DecidableEq

namespace Settings

def fileName : String := ".codeingest.yml"

/-- The number of extractors that may run at a time. -/
def standardWorkers : Int := 5

/-- The settings of a project that states none. -/
def standard (root : Location) : Settings := ⟨root, [], Category.all, standardWorkers, .standard⟩

/-- What is wrong with a settings file. -/
inductive Invalid where
  | malformed
  | noMapping
  | unknownCategories (names : List String)
  | noWorkers
  deriving DecidableEq

def Invalid.message : Invalid → String
  | malformed => "Failed to parse " ++ fileName
  | noMapping => fileName ++ " must contain a mapping at the root"
  | unknownCategories names => "Unknown categories requested: " ++ String.intercalate ", " names
  | noWorkers => "max_workers must be a positive integer"

/-- Why no settings are read. -/
inductive Fault where
  | invalid (why : Invalid)
  /-- A value in the file is written like one of its kind and is none. -/
  | value (fault : Yaml.Fault)
  /-- An integer among the names in the file is too long to be written. -/
  | tooLong
  /-- The file is not UTF-8. -/
  | notText
  | root (fault : RootFault)
  | disk (why : CodeSurvey.Fault)

/-! ## The meaning of a document -/

/-- The texts under a name of the document. -/
def textsOf (value : Value) : Except Fault (List String) :=
  match value.plainTexts? with
  | some texts => .ok texts
  | none => .error .tooLong

/-- The names that the document leaves out of the survey, without slashes at their ends. -/
def excludeIn (document : Value) : Except Fault (List String) :=
  (textsOf ((document.get? "exclude_paths").getD .null)).map fun names =>
    (names.map fun name => String.ofList (Text.trimBy name.toList (· == '/'))).filter (!·.isEmpty)

/-- The categories that the document asks for, in lower case; none if it asks for no particular
ones. -/
def requestedIn (document : Value) : Except Fault (Option (List String)) :=
  match (document.get? "categories").bind (·.get? "enabled") with
  | none => .ok none
  | some enabled =>
    (textsOf enabled).map fun names =>
      some (names.map fun name => String.ofList (Text.lower name.toList))

/-- The names that are no categories, each once, in ascending order. -/
def unknownAmong (names : List String) : List String :=
  (names.filter fun name => (Category.ofName? name).isNone).eraseDups.mergeSort
    Text.inOrder

/-- The categories among the names, in their standard order. -/
def categoriesAmong (names : List String) : List Category :=
  Category.all.filter fun category => names.contains category.name

def categoriesIn (document : Value) : Except Fault (List Category) :=
  (requestedIn document).bind fun
    | none => .ok Category.all
    | some names =>
      let unknown := unknownAmong names
      if unknown.isEmpty then .ok (categoriesAmong names)
      else .error (.invalid (.unknownCategories unknown))

def workersIn (document : Value) : Except Fault Int :=
  match (document.get? "max_workers").bind Value.whole? with
  | none => .ok standardWorkers
  | some n => if n < 1 then .error (.invalid .noWorkers) else .ok n

def limitsIn (document : Value) : SampleLimits :=
  let limit (name : String) (otherwise : Int) : Int :=
    (((document.get? "sample_limits").bind (·.get? name)).bind Value.whole?).getD otherwise
  ⟨limit "python" SampleLimits.standard.python, limit "java" SampleLimits.standard.java⟩

/-- The settings that a document states. A document that counts as nothing states none. -/
def ofValue (root : Location) (document : Value) : Except Fault Settings :=
  if document.isNothing then .ok (standard root)
  else match document with
    | .map _ => do
      let exclude ← excludeIn document
      let categories ← categoriesIn document
      let workers ← workersIn document
      return ⟨root, exclude, categories, workers, limitsIn document⟩
    | _ => .error (.invalid .noMapping)

/-! ## The settings file -/

/-- How deep the lists and maps stand in each other that the settings are read from. -/
def depth : Nat := 3

/-- The document that a text is, in which collections may nest as deep as `nesting`. A text without
anything visible is an empty one. -/
def document (nesting : Nat) (text : Text) : Except Fault Value :=
  if Text.isBlankText text then .ok .null
  else match Yaml.read nesting depth text with
    | .ok value => .ok value
    | .error .malformed => .error (.invalid .malformed)
    | .error fault => .error (.value fault)

/-- The settings file for a location, which may be that of the file itself. -/
def file (homes : Homes) (l : Location) : Except RootFault Location :=
  (l.expand homes).map fun l => if l.name = fileName then l else l.join fileName

/-- The settings that the bytes of a file state for the tree at a root. -/
def ofBytes (nesting : Nat) (root : Location) (bytes : Bytes) : Except Fault Settings :=
  match bytes.decode? with
  | none => .error .notText
  | some text => (document nesting text.joinLines).bind (ofValue root)

/-- The settings at a location. -/
def load (d : Disk) (host : Host) (l : Location) : Except Fault Settings :=
  match file host.homes l with
  | .error fault => .error (.root fault)
  | .ok file =>
    match d.bytes? file with
    | .error why => .error (.disk why)
    | .ok none => .ok (standard file.parent)
    | .ok (some bytes) => ofBytes host.depths.settings file.parent bytes

end Settings

end CodeSurvey
