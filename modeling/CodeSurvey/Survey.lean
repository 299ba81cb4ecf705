import CodeSurvey.Analysis
import CodeSurvey.Document
import CodeSurvey.Event

/-!
# Surveys

A survey of the tree at a root settles the stack of the tree, runs the extractors for the
categories that are asked for, and reads the manifest and the readme. All parts look at the tree
through one snapshot. A part that fails stays empty, and the others are not affected.
-/

namespace CodeSurvey

/-- Why there is no analysis. -/
inductive SurveyFault where
  | root (fault : RootFault)
  | disk (why : Fault)
  | settings (fault : Settings.Fault)
  /-- The manifest of a package can neither be read nor passed over. -/
  | package (fault : Json.Fault)
  /-- No extractor may run. -/
  | noWorkers
  /-- The entries of the manifest stand too deep in each other to be reported. -/
  | tooDeep

/-- What the parts of a survey found, or what kept a part from finding anything. -/
structure Findings where
  routes : Except String (List Route)
  models : Except String (List Model)
  controllers : Except String (List Controller)
  components : Except String (List Component)
  services : Except String (List Service)
  config : Except String Manifest.Entries

namespace Findings

/-- The items that a part found; a part that failed found none. -/
def kept {α : Type} : Except String (List α) → List α
  | .ok items => items
  | .error _ => []

/-- The event of a part that failed. -/
def failure {α : Type} (name : String) : Except String α → List Event
  | .ok _ => []
  | .error problem => [.failed name problem]

def failures (f : Findings) : List Event :=
  failure Category.routes.name f.routes ++ failure Category.models.name f.models ++
    failure Category.controllers.name f.controllers ++
    failure Category.components.name f.components ++
    failure Category.services.name f.services ++ failure "config" f.config

/-- The analysis that the findings make up. -/
def analysis (f : Findings) (path : String) (stack : Stack) (readme : Option String) : Analysis :=
  ⟨path, stack, kept f.routes, kept f.models, kept f.controllers, kept f.components,
    kept f.services, kept f.config, readme⟩

end Findings

namespace Survey

/-! ## Settings and the stack -/

/-- The settings at a root; the standard ones if they are invalid. -/
def settingsAt (d : Disk) (host : Host) (root : Location) : Report SurveyFault Settings :=
  match Settings.load d host root with
  | .ok settings => pure settings
  | .error (.invalid why) => ⟨[.invalidSettings why], .ok (.standard root)⟩
  | .error fault => .fail (.settings fault)

/-- The events of finding out a stack. -/
def detectionEvents (found : Stack.Detection) : List Event :=
  (found.malformed.map Event.malformedPackage).toList ++
    if found.stack = Stack.unknown then [] else [.recognised found.stack]

/-- Finds out the stack of a tree, in which directories may stand in each other `depth` deep. -/
def detectIn (d : Disk) (host : Host) (depth : Nat) (s : Snapshot) (limits : SampleLimits) :
    Report SurveyFault (Stack × Snapshot) :=
  let (outcome, s) := s.perform d depth (Stack.detect host.depths.package limits)
  let unread := s.unread.map fun (path, why) => Event.unread s.root path why
  match outcome with
  | .ok (.ok found) => ⟨unread ++ detectionEvents found, .ok (found.stack, s)⟩
  | .ok (.error fault) => ⟨unread, .error (.package fault)⟩
  | .error why => ⟨unread, .error (.disk why)⟩

/-- Finds out the stack of the tree at the root that a value names. The limits of the settings hold
unless others are given. -/
def detect (d : Disk) (host : Host) (path : Value) (limits : Option SampleLimits) :
    Report SurveyFault Stack := do
  let root ← .ofExcept ((Location.ofValue host.homes path).mapError .root)
  let settings ← settingsAt d host root
  let (stack, _) ← detectIn d host host.depths.detection (.new root settings.exclude)
    (limits.getD settings.limits)
  return stack

/-! ## Findings -/

/-- What an extractor finds if its category is asked for. -/
def extract {ρ : Type} (settings : Settings) (category : Category) (e : Extractor ρ) :
    Scan (List ρ) :=
  if settings.categories.contains category then e.scan else .done []

/-- What a part of the survey finds, or what is said of the look that failed. -/
def perform {α : Type} (d : Disk) (depth : Nat) (part : Scan α) (s : Snapshot) :
    Except String α × Snapshot :=
  let (found, s) := s.perform d depth part
  (found.mapError Fault.description, s)

/-- What the parts of the survey of a tree with a stack find. -/
def findings (d : Disk) (depths : Depths) (settings : Settings) (stack : Stack) (s : Snapshot) :
    Findings :=
  let depth := depths.listing
  let (routes, s) := perform d depth (extract settings .routes stack.routes) s
  let (models, s) := perform d depth (extract settings .models stack.models) s
  let (controllers, s) := perform d depth (extract settings .controllers stack.controllers) s
  let (components, s) := perform d depth (extract settings .components stack.components) s
  let (services, s) := perform d depth (extract settings .services stack.services) s
  let (config, _) := perform d depth ((Manifest.readerFor stack.language).scan depths) s
  ⟨routes, models, controllers, components, services,
    config.bind fun entries => entries.mapError Manifest.Fault.message⟩

/-- The events of starting the extractors. -/
def runningEvents (settings : Settings) (stack : Stack) : List Event :=
  (Category.all.filter settings.categories.contains).map fun category =>
    .running (stack.extractorLabel category) category

/-! ## The whole survey -/

/-- Surveys the tree at a root, which must be a folder. -/
def analyzeTree (d : Disk) (host : Host) (root : Location) (settings : Settings) :
    Report SurveyFault Analysis := do
  .note [.started root]
  let depth := host.depths.listing
  let (files, s) := (Snapshot.new root settings.exclude).files d depth
  let files ← .ofExcept (files.mapError .disk)
  .note [.listed files.length]
  let (stack, s) ← detectIn d host depth s settings.limits
  .note [.detected stack]
  if settings.maxWorkers < 1 then .fail .noWorkers
  else
    let found := findings d host.depths settings stack s
    .note (runningEvents settings stack ++ found.failures)
    let readme ← .ofExcept ((d.readme root).mapError .disk)
    let analysis := found.analysis root.text stack readme
    .note [.extracted analysis.counts]
    return analysis

/-- Surveys the tree at the root that a value names. Where there is no tree the analysis is empty.
The settings at the root hold unless others are given. -/
def analyze (d : Disk) (host : Host) (path : Value) (settings : Option Settings) :
    Report SurveyFault Analysis := do
  let root ← .ofExcept ((Location.ofValue host.homes path).mapError .root)
  if ← .ofExcept ((d.isFolder root).mapError .disk) then
    let settings ← match settings with
      | some settings => pure settings
      | none => settingsAt d host root
    analyzeTree d host root settings
  else
    .note [.noTree root]
    return .empty root.text .unknown

/-- The value of an analysis in full. -/
def inFull (host : Host) (analysis : Analysis) : Except SurveyFault Value :=
  if analysis.isReportable host.depths.report then .ok analysis.value else .error .tooDeep

/-- The documents of a folder. -/
def documents (d : Disk) (host : Host) (folder : Location) :
    Report SurveyFault (List Document) := do
  if ← .ofExcept ((d.isFolder folder).mapError .disk) then
    .ofExcept ((Document.loadAll d host.depths.documents folder).mapError .disk)
  else
    .note [.noDocuments folder]
    return []

end Survey

end CodeSurvey
