import CodeSurvey.Json.Read
import CodeSurvey.Source

/-!
# The stack of a project

The stack of a tree is its main language and its framework. The language is told by the manifests
at the root of the tree, in a fixed order of languages; the framework by what the manifests, and
for some languages a sample of the sources, mention first in a list of names.
-/

namespace CodeSurvey

structure Stack where
  language : String
  framework : Option String
  deriving DecidableEq

/-- How many files beside the manifests are looked at. A negative number counts from the end of the
candidates. -/
structure SampleLimits where
  python : Int
  java : Int
  deriving DecidableEq

def SampleLimits.standard : SampleLimits := ⟨20, 30⟩

namespace Stack

def unknown : Stack := ⟨"unknown", none⟩

/-- What was found out about a tree. -/
structure Detection where
  stack : Stack
  /-- What is wrong with the manifest of a package, if it is malformed. -/
  malformed : Option String

/-- A test for one language. It may fail if a manifest cannot be read at all. -/
abbrev Check := Scan (Except Json.Fault (Option Detection))

/-- A framework with the words that tell it. -/
abbrev Signs := List (List String × String)

/-- The first framework one of whose words is mentioned. -/
def firstFramework? (mentions : String → Bool) (signs : Signs) : Option String :=
  (signs.find? fun (words, _) => words.any mentions).map (·.2)

/-- The first framework that a text mentions. -/
def frameworkIn? (text : Text) (signs : Signs) : Option String :=
  firstFramework? (fun word => text.has (Text.of word)) signs

/-- The outcome of a check that holds, with the framework found or else the default one. -/
def holds (language : String) (framework : Option String) : Except Json.Fault (Option Detection) :=
  .ok (some ⟨⟨language, framework⟩, none⟩)

/-- Whether one of the paths is present. -/
def anyPresent : List String → Scan Bool
  | [] => .done false
  | path :: rest => do
    if ← Scan.isPresent path then return true else anyPresent rest

/-- The paths present, in order. -/
def presentOf : List String → Scan (List String)
  | [] => .done []
  | path :: rest => do
    let here ← Scan.isPresent path
    let later ← presentOf rest
    return if here then path :: later else later

/-- The paths of a sample: the manifests present, and other files with one of the endings. -/
def samplePaths (manifests endings : List String) (limit : Int) : Scan (List String) := do
  let present ← presentOf manifests
  let files ← Scan.listFiles
  let others := files.filter fun file => endings.any (hasEnding file) && !present.contains file
  return present ++ takeLimit limit others

/-- The texts of a sample, with a line feed between neighbours. -/
def sampleText (manifests endings : List String) (limit : Int) : Scan Text := do
  let texts ← Scan.eachText (fun _ text => [text]) (← samplePaths manifests endings limit)
  return Text.joinWith ['\n'] texts

/-- A language that is there if one of its manifests is, with its framework told by a sample. -/
def sampled (language : String) (manifests endings : List String) (limit : Int) (signs : Signs) :
    Check := do
  if ← anyPresent manifests then
    let text ← sampleText manifests endings limit
    return holds language ((frameworkIn? text signs).getD language)
  else
    return .ok none

/-- A language that is there if its manifest is, with its framework told by the manifest. -/
def stated (language manifest : String) (signs : Signs) : Check := do
  if ← Scan.isPresent manifest then
    let text ← Scan.readText manifest
    return holds language ((frameworkIn? (text.getD []) signs).getD language)
  else
    return .ok none

/-! ## By language -/

def elixir : Check := stated "elixir" "mix.exs" [([":phoenix"], "phoenix")]

def python (limit : Int) : Check :=
  sampled "python" ["requirements.txt", "pyproject.toml", "setup.py"] [".py", ".txt", ".toml"] limit
    [(["django"], "django"), (["fastapi", "FastAPI"], "fastapi"), (["flask", "Flask"], "flask")]

def ruby : Check := do
  if ← Scan.isPresent "Gemfile" then
    let isRails ← anyPresent ["config/routes.rb", "bin/rails"]
    return holds "ruby" (some (if isRails then "rails" else "ruby"))
  else
    return .ok none

/-- Frameworks of JavaScript with the packages that tell them. -/
def packageSigns : Signs :=
  [(["next"], "nextjs"), (["nuxt"], "nuxt"), (["svelte", "@sveltejs/kit"], "svelte"),
   (["vue"], "vue"), (["react"], "react"), (["express"], "express"), (["fastify"], "fastify"),
   (["hono"], "hono")]

/-- The names of the packages that a package depends on. -/
def dependencies (package : Value) : List String :=
  ["dependencies", "devDependencies"].flatMap fun section_ =>
    ((package.get? section_).map fun value => value.entries.map (·.1)).getD []

/-- The stack of a package with these dependencies. -/
def ofDependencies (names : List String) : Stack :=
  ⟨if names.contains "typescript" then "typescript" else "javascript",
    firstFramework? names.contains packageSigns⟩

/-- What the text of a package's manifest says about its stack, if lists and maps stand in each
other at most `depth` deep. -/
def ofPackage (depth : Nat) (text : Text) : Except Json.Fault (Option Detection) :=
  if text.isEmpty then .ok (some ⟨ofDependencies [], none⟩)
  else match Json.read depth text with
    | .ok value => .ok (some ⟨ofDependencies (dependencies value), none⟩)
    | .error (.malformed problem rest) =>
      .ok (some ⟨ofDependencies [], some ((Json.Fault.malformed problem rest).message text)⟩)
    | .error fault => .error fault

def node (depth : Nat) : Check := do
  if ← Scan.isPresent "package.json" then
    let text ← Scan.readText "package.json"
    return ofPackage depth (text.getD [])
  else
    return .ok none

def go : Check :=
  stated "go" "go.mod"
    [(["github.com/gin-gonic/gin"], "gin"), (["github.com/labstack/echo"], "echo"),
     (["github.com/gofiber/fiber"], "fiber"), (["github.com/gorilla/mux"], "gorilla")]

def rust : Check :=
  stated "rust" "Cargo.toml"
    [(["actix-web"], "actix"), (["axum"], "axum"), (["rocket"], "rocket"), (["warp"], "warp")]

def java (limit : Int) : Check :=
  sampled "java" ["pom.xml", "build.gradle", "build.gradle.kts"]
    [".xml", ".gradle", ".kts", ".java"] limit
    [(["spring"], "spring"), (["quarkus"], "quarkus"), (["micronaut"], "micronaut")]

def php : Check :=
  stated "php" "composer.json" [(["laravel"], "laravel"), (["symfony"], "symfony")]

/-- Projects of .NET are told by a project or solution file at the root of the tree. -/
def csharp : Check := do
  let files ← Scan.listFiles
  let isProject (file : String) : Bool :=
    (hasEnding file ".csproj" || hasEnding file ".sln") && !file.toList.contains '/'
  return if files.any isProject then holds "csharp" (some "dotnet") else .ok none

/-! ## All languages -/

/-- The checks in their order. -/
def checks (depth : Nat) (limits : SampleLimits) : List Check :=
  [elixir, python limits.python, ruby, node depth, go, rust, java limits.java, php, csharp]

/-- The outcome of the first check that holds or fails. -/
def firstCheck : List Check → Scan (Except Json.Fault Detection)
  | [] => .done (.ok ⟨unknown, none⟩)
  | check :: rest => do
    match ← check with
    | .error fault => return .error fault
    | .ok (some found) => return .ok found
    | .ok none => firstCheck rest

def detect (depth : Nat) (limits : SampleLimits) : Scan (Except Json.Fault Detection) :=
  firstCheck (checks depth limits)

end Stack

end CodeSurvey
