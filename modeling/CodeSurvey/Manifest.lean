import CodeSurvey.Host
import CodeSurvey.Json.Read
import CodeSurvey.Pattern.Vocabulary
import CodeSurvey.Source
import CodeSurvey.Toml.Read

/-!
# Manifests

A manifest is the file in which a project states its name for the tools of its language. What is
reported of it is a list of entries: the name and the kind of the project, or, for a package of
JavaScript, all that the manifest says.
-/

namespace CodeSurvey.Manifest

open Pattern

/-- Why a manifest cannot be reported. A manifest that is merely malformed has no fault: it says
nothing. -/
inductive Fault where
  | json (fault : Json.Fault)
  | toml (fault : Toml.Fault)

def Fault.message : Fault → String
  | json fault => fault.message []
  | toml fault => fault.message

abbrev Entries := List (String × Value)

structure Reader where
  /-- The name under which the reader is reported. -/
  label : String
  scan (depths : Depths) : Scan (Except Fault Entries)

/-- The entries of a project that is known by its kind only. -/
def ofKind (kind : String) : Entries := [("type", .str kind)]

/-- The entries of a project with a name, `unknown` if there is none. -/
def named (name : Option String) (kind : String) : Entries :=
  ("app_name", .str (name.getD "unknown")) :: ofKind kind

/-- Reads the entries from the text at a path; without a text they are `otherwise`. -/
def fromText (path : String) (otherwise : Entries) (entries : Text → Except Fault Entries) :
    Scan (Except Fault Entries) := do
  match ← Scan.readText path with
  | some text => return entries text
  | none => return .ok otherwise

/-- The value of a JSON document, none if it is malformed. -/
def jsonValue (depths : Depths) (text : Text) : Except Fault (Option Value) :=
  match Json.read depths.json text with
  | .ok value => .ok (some value)
  | .error (.malformed _ _) => .ok none
  | .error fault => .error (.json fault)

/-- The tables of a TOML document, none if it is malformed. -/
def tomlValue (depths : Depths) (text : Text) : Except Fault (Option Value) :=
  match Toml.read depths.toml text with
  | .ok value => .ok (some value)
  | .error .malformed => .ok none
  | .error fault => .error (.toml fault)

/-- The string at the end of a way through maps. -/
def stringAt (value : Value) : List String → Option String
  | [] => value.string?
  | name :: rest => (value.get? name).bind fun value => stringAt value rest

/-! ## By language -/

def mixName : Pattern := "app:" ++ blanks ++ ":" ++ group 1 word

def mix : Reader :=
  ⟨"read_mix_config", fun _ => fromText "mix.exs" [] fun text =>
    .ok (named ((mixName.find text).bind (·.string? 1)) "elixir")⟩

def looseName : Pattern :=
  "name" ++ blanks ++ "=" ++ blanks ++ "\"" ++ group 1 (some1 (· != '"')) ++ "\""

/-- The name that a `pyproject.toml` gives: that of the project, or that of the package for Poetry,
or, in a malformed file, what looks most like one. -/
def pyprojectName (depths : Depths) (text : Text) : Except Fault (Option String) :=
  (tomlValue depths text).map fun
    | none => (looseName.find text).bind (·.string? 1)
    | some document =>
      (stringAt document ["project", "name"]).or (stringAt document ["tool", "poetry", "name"])

def python : Reader where
  label := "read_python_config"
  scan depths := do
    if ← Scan.isPresent "pyproject.toml" then
      fromText "pyproject.toml" [] fun text =>
        (pyprojectName depths text).map fun name => named name "python"
    else if ← Scan.isPresent "setup.py" then
      return .ok (ofKind "python")
    else
      return .ok []

def package : Reader :=
  ⟨"read_package_json", fun depths => fromText "package.json" [] fun text =>
    (jsonValue depths text).map fun
      | some value => value.entries
      | none => []⟩

def applicationModule : Pattern := "module" ++ blanks1 ++ group 1 word

def ruby : Reader :=
  ⟨"read_ruby_config", fun _ => fromText "config/application.rb" (ofKind "ruby") fun text =>
    .ok (named ((applicationModule.find text).bind (·.string? 1)) "ruby")⟩

def goModule : Pattern := lineStart ++ "module" ++ blanks1 ++ group 1 (some1 (!isBlank ·))

def go : Reader :=
  ⟨"read_go_config", fun _ => fromText "go.mod" [] fun text =>
    .ok (named ((goModule.find text).bind (·.string? 1)) "go")⟩

def artifact : Pattern := "<artifactId>" ++ group 1 (some1 (· != '<')) ++ "</artifactId>"

def java : Reader :=
  ⟨"read_java_config", fun _ => fromText "pom.xml" (ofKind "java") fun text =>
    .ok (named ((artifact.find text).map fun m => String.ofList (m.group 1).trim) "java")⟩

def composer : Reader :=
  ⟨"read_composer_json", fun depths => fromText "composer.json" [] fun text =>
    (jsonValue depths text).map fun
      | some value => named (stringAt value ["name"]) "php"
      | none => ofKind "php"⟩

def cargo : Reader :=
  ⟨"read_cargo_toml", fun depths => fromText "Cargo.toml" [] fun text =>
    (tomlValue depths text).map fun
      | some document => named (stringAt document ["package", "name"]) "rust"
      | none => ofKind "rust"⟩

/-- A project of .NET is named for its first project file. -/
def dotNet : Reader where
  label := "read_csproj"
  scan _ := do
    let files ← Scan.listFiles
    return .ok (match files.find? (hasEnding · ".csproj") with
      | some file => named (some (stem file [".csproj"])) "csharp"
      | none => ofKind "csharp")

end CodeSurvey.Manifest
