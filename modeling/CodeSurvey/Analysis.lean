import CodeSurvey.Extractors

/-!
# Analyses

The result of a survey: the stack of a tree and its records by category. It is written as a value,
in full or as a summary with a few samples of each category.
-/

namespace CodeSurvey

structure Analysis where
  path : String
  stack : Stack
  routes : List Route
  models : List Model
  controllers : List Controller
  components : List Component
  services : List Service
  /-- What the manifest says about the project. -/
  config : Manifest.Entries
  readme : Option String

/-! ## Records as values -/

def Value.ofString? : Option String → Value
  | some s => .str s
  | none => .null

def Value.ofStrings (names : List String) : Value := .list (names.map .str)

def Route.value (r : Route) : Value :=
  .map [("method", .str r.method), ("path", .str r.path), ("file", .str r.file),
    ("handler", .ofString? r.handler)]

def Field.value (f : Field) : Value := .map [("name", .str f.name), ("type", .str f.type)]

def Model.value (m : Model) : Value :=
  .map [("name", .str m.name), ("fields", .list (m.fields.map Field.value)), ("file", .str m.file)]

def Controller.value (c : Controller) : Value :=
  .map [("name", .str c.name), ("actions", .ofStrings c.actions), ("file", .str c.file)]

def Component.value (c : Component) : Value :=
  .map [("name", .str c.name), ("props", .ofStrings c.props), ("file", .str c.file),
    ("events", .ofStrings c.events)]

def Service.value (s : Service) : Value :=
  .map [("name", .str s.name), ("functions", .ofStrings s.functions), ("file", .str s.file)]

namespace Analysis

/-- An analysis without any record. -/
def empty (path : String) (stack : Stack) : Analysis := ⟨path, stack, [], [], [], [], [], [], none⟩

/-- The number of records of each category. -/
def counts (a : Analysis) : List (String × Nat) :=
  [(Category.routes.name, a.routes.length), (Category.models.name, a.models.length),
   (Category.controllers.name, a.controllers.length),
   (Category.components.name, a.components.length), (Category.services.name, a.services.length)]

def countsValue (a : Analysis) : Value := .map (a.counts.map fun (name, n) => (name, .int n))

/-- Whether the analysis can be reported in full, if values may stand in each other `depth` deep in
an entry of the manifest. -/
def isReportable (depth : Nat) (a : Analysis) : Bool := a.config.all fun (_, v) => v.fitsDepth depth

/-- The analysis in full. -/
def value (a : Analysis) : Value :=
  .map [("path", .str a.path), ("language", .str a.stack.language),
    ("framework", .ofString? a.stack.framework),
    ("routes", .list (a.routes.map Route.value)), ("models", .list (a.models.map Model.value)),
    ("controllers", .list (a.controllers.map Controller.value)),
    ("components", .list (a.components.map Component.value)),
    ("services", .list (a.services.map Service.value)), ("config", .map a.config),
    ("readme", .ofString? a.readme)]

/-- The names of the first `size` records of each category. -/
def samples (a : Analysis) (size : Int) : Value :=
  .map [("routes", .ofStrings ((takeLimit size a.routes).map fun r => r.method ++ " " ++ r.path)),
    ("models", .ofStrings ((takeLimit size a.models).map (·.name))),
    ("controllers", .ofStrings ((takeLimit size a.controllers).map (·.name))),
    ("components", .ofStrings ((takeLimit size a.components).map (·.name))),
    ("services", .ofStrings ((takeLimit size a.services).map (·.name)))]

/-- The number of samples of each category in a summary that is printed. -/
def sampleSize : Int := 5

def summary (a : Analysis) (size : Int) : Value :=
  .map [("path", .str a.path), ("language", .str a.stack.language),
    ("framework", .ofString? a.stack.framework), ("counts", a.countsValue),
    ("samples", a.samples size), ("has_readme", .bool a.readme.isSome)]

end Analysis

end CodeSurvey
