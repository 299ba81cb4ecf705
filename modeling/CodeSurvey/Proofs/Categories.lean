import CodeSurvey.CommandLine.Run
import CodeSurvey.Proofs.Scan
import CodeSurvey.Proofs.Survey

/-!
# Categories that do not matter to each other

An analysis of some categories is the analysis of all of them with the others left out
(`Analysis.keep`), and an analysis in which some parts raise an exception is the one without it,
with these parts left out. Neither the number of workers shows in it nor the order in which the
categories are named (`Survey.categories_independent`).
-/

namespace CodeSurvey

/-- The analysis with only those of its parts that are kept: its categories, and as `none` what the
manifest says. -/
def Analysis.keep (kept : Option Category → Bool) (a : Analysis) : Analysis where
  path := a.path
  stack := a.stack
  routes := if kept (some .routes) then a.routes else []
  models := if kept (some .models) then a.models else []
  controllers := if kept (some .controllers) then a.controllers else []
  components := if kept (some .components) then a.components else []
  services := if kept (some .services) then a.services else []
  config := if kept none then a.config else []
  readme := a.readme

namespace Survey

variable {d : Disk} {host : Host} {depth : Nat} {root : Location}

/-! ## Parts that are left out -/

/-- What the parts of a survey come to, each with records or an exception. -/
abbrev Outcomes : Type := (i : Option Category) → Except String (Found i)

/-- The findings that the outcomes of the parts make up. -/
def ofOutcomes (outcome : Outcomes) : Findings :=
  ⟨outcome (some .routes), outcome (some .models), outcome (some .controllers),
    outcome (some .components), outcome (some .services),
    (outcome none).bind fun entries => entries.mapError Manifest.Fault.message⟩

theorem ofParts_eq (result : (i : Option Category) → Except Fault (Found i)) :
    ofParts result = ofOutcomes fun i => (result i).mapError Fault.description := rfl

/-- Whether an outcome leaves the place of its part empty. -/
def IsEmpty : (i : Option Category) → Except String (Found i) → Prop
  | some .routes, outcome => Findings.kept outcome = []
  | some .models, outcome => Findings.kept outcome = []
  | some .controllers, outcome => Findings.kept outcome = []
  | some .components, outcome => Findings.kept outcome = []
  | some .services, outcome => Findings.kept outcome = []
  | none, outcome =>
    Findings.kept (outcome.bind fun entries => entries.mapError Manifest.Fault.message) = []

theorem isEmpty_error (i : Option Category) (problem : String) : IsEmpty i (.error problem) := by
  cases i with
  | none => rfl
  | some category => cases category <;> rfl

/-- Where outcomes are the same or left empty, so is the analysis. -/
theorem analysis_keep {outcome outcome' : Outcomes} {kept : Option Category → Bool}
    (same : ∀ i, kept i = true → outcome' i = outcome i)
    (empty : ∀ i, kept i = false → IsEmpty i (outcome' i)) (path : String) (stack : Stack)
    (readme : Option String) :
    (ofOutcomes outcome').analysis path stack readme =
      ((ofOutcomes outcome).analysis path stack readme).keep kept := by
  have place {i : Option Category} {ρ : Type} (items : Except String (Found i) → List ρ)
      (none_left : ∀ found, IsEmpty i found → items found = []) :
      items (outcome' i) = if kept i then items (outcome i) else [] := by
    cases h : kept i with
    | true => rw [same i h, if_pos rfl]
    | false => exact none_left _ (empty i h)
  have routes := place (i := some .routes) Findings.kept fun _ => id
  have models := place (i := some .models) Findings.kept fun _ => id
  have controllers := place (i := some .controllers) Findings.kept fun _ => id
  have components := place (i := some .components) Findings.kept fun _ => id
  have services := place (i := some .services) Findings.kept fun _ => id
  have config := place (i := none) (fun found => Findings.kept (found.bind fun entries =>
    entries.mapError Manifest.Fault.message)) fun _ => id
  simp only [ofOutcomes, Findings.analysis, Analysis.keep, routes, models, controllers, components,
    services, config]

/-! ## Categories that are not asked for -/

/-- What an extractor finds does not depend on whether others are asked for. -/
theorem run_extract {ρ : Type} (settings : Settings) (category : Category) (e : Extractor ρ)
    (s : Source) :
    (extract settings category e).run s =
      if settings.categories.contains category then e.scan.run s else .ok [] := by
  rw [extract]
  split <;> rfl

theorem assembled_keep (depths : Depths) (settings : Settings) (chosen : List Category)
    (n m : Int) (stack : Stack) (readme : Option String) :
    assembled d depths root { settings with categories := chosen, maxWorkers := n } stack readme =
      (assembled d depths root { settings with categories := Category.all, maxWorkers := m } stack
        readme).keep fun i => i.all chosen.contains := by
  have asked (category : Category) : Category.all.contains category = true := by
    cases category <;> rfl
  rw [assembled, assembled, ofParts_eq, ofParts_eq]
  refine analysis_keep (fun i kept => ?_) (fun i left => ?_) root.text stack readme
  · cases i with
    | none => rfl
    | some category => cases category <;> simp_all [parts, run_extract]
  · cases i with
    | none => cases left
    | some category =>
      cases category <;> simp_all [parts, run_extract, IsEmpty, Except.mapError, Findings.kept]

/-- Of an analysis that is made with more categories nothing is lost but these. -/
theorem analyze_keep (d : Disk) (host : Host) (path : Value) (settings : Settings)
    (chosen : List Category) {n m : Int} (one : 1 ≤ n) (one' : 1 ≤ m) :
    (analyze d host path
        (some { settings with categories := chosen, maxWorkers := n })).result =
      (analyze d host path
        (some { settings with categories := Category.all, maxWorkers := m })).result.map
          (Analysis.keep fun i => i.all chosen.contains) := by
  rw [analyze_result, analyze_result]
  cases Location.ofValue host.homes path with
  | error fault => rfl
  | ok root =>
    simp only [Except.mapError, Except.bind]
    cases folder : d.isFolder root with
    | error why => rfl
    | ok isFolder =>
      cases isFolder with
      | false => simp [Except.map, Analysis.empty, Analysis.keep]
      | true =>
        simp only [if_true, Option.elim_some]
        rw [analyzeTree_result d host root one, analyzeTree_result d host root one']
        cases d.listing host.depths.listing root settings.exclude with
        | error why => rfl
        | ok l =>
          simp only [Except.mapError, Except.bind]
          cases stackOf host.depths.package settings.limits
              (d.source host.depths.listing root settings.exclude) with
          | error fault => rfl
          | ok stack =>
            cases d.readme root with
            | error why => rfl
            | ok readme =>
              exact congrArg Except.ok (assembled_keep host.depths settings chosen n m stack readme)

/-! ## Parts that raise an exception -/

/-- Work in the place of the parts of a survey: some parts raise an exception, at whatever point,
and the others go on as before. -/
structure Disturbed (s : Source) (parts : (i : Option Category) → Scan (Found i))
    (raising : Option Category → Bool)
    (work : (i : Option Category) → Scan (Except String (Found i))) : Prop where
  same : ∀ i, raising i = false → (work i).run s = ((parts i).run s).map .ok
  raises : ∀ i, raising i = true → ∀ found, (work i).run s ≠ .ok (.ok found)

/-- The parts, but with an exception at the start of some. -/
def raiseIn (raising : Option Category → Bool) (parts : (i : Option Category) → Scan (Found i))
    (i : Option Category) : Scan (Except String (Found i)) :=
  if raising i then .done (.error "raised")
  else do
    let found ← parts i
    return .ok found

theorem raiseIn_disturbed (s : Source) (parts : (i : Option Category) → Scan (Found i))
    (raising : Option Category → Bool) : Disturbed s parts raising (raiseIn raising parts) where
  same i calm := by
    rw [raiseIn, if_neg (by simp [calm]), Scan.run_after]
  raises i raised found := by
    rw [raiseIn, if_pos raised]
    simp [Scan.run]

/-- What is collected from a worker that has ended. -/
def collected {i : Option Category} (result : Except Fault (Except String (Found i))) :
    Except String (Found i) :=
  (result.mapError Fault.description).bind id

/-- Whether workers that share a snapshot can end with these results, in some order of turns. -/
def CarriedOut {α : Option Category → Type} (d : Disk) (depth : Nat) (s : Snapshot)
    (work : (i : Option Category) → Scan (α i))
    (result : (i : Option Category) → Except Fault (α i)) : Prop :=
  ∃ schedule, ∀ i, ((Pool.start s work).run d depth schedule).workers i = .ended (result i)

theorem CarriedOut.eq_run {α : Option Category → Type} {s : Snapshot} {exclude : List String}
    (agrees : s.Agrees d depth root exclude) {work : (i : Option Category) → Scan (α i)}
    {result : (i : Option Category) → Except Fault (α i)} (h : CarriedOut d depth s work result)
    (i : Option Category) : result i = (work i).run (d.source depth root exclude) := by
  obtain ⟨schedule, ended⟩ := h
  have found := (Pool.run_consistent (Pool.start_consistent agrees work) schedule).outlook i
  rw [ended] at found
  exact found

/-- Every worker ends if each gets its turns. -/
theorem exists_carriedOut {α : Option Category → Type} {s : Snapshot} {exclude : List String}
    (agrees : s.Agrees d depth root exclude) (work : (i : Option Category) → Scan (α i)) :
    ∃ result, CarriedOut d depth s work result := by
  have every (i : Option Category) : i ∈ none :: Category.all.map some := by
    cases i with
    | none => simp
    | some category => cases category <;> simp [Category.all]
  exact ⟨_, Pool.exists_run_eq_ended (Pool.start_consistent agrees work) every⟩

/-- The analysis does not depend on the order in which the workers take their turns. -/
theorem analysis_carriedOut {depths : Depths} {s : Snapshot} {settings : Settings}
    (agrees : s.Agrees d depths.listing root settings.exclude) {stack : Stack}
    {result : (i : Option Category) → Except Fault (Found i)}
    (carriedOut : CarriedOut d depths.listing s (parts depths settings stack) result)
    (readme : Option String) :
    (ofParts result).analysis root.text stack readme =
      assembled d depths root settings stack readme := by
  obtain ⟨schedule, ended⟩ := carriedOut
  rw [← findings_eq_ofParts agrees settings stack schedule ended, findings_eq_run agrees]
  rfl

/-- The exceptions leave their own places empty and no others, in whatever order the workers take
their turns. -/
theorem analysis_disturbed {depths : Depths} {s : Snapshot} {settings : Settings}
    (agrees : s.Agrees d depths.listing root settings.exclude) {stack : Stack}
    {raising : Option Category → Bool}
    {work : (i : Option Category) → Scan (Except String (Found i))}
    (disturbed : Disturbed (d.source depths.listing root settings.exclude)
      (parts depths settings stack) raising work)
    {result : (i : Option Category) → Except Fault (Except String (Found i))}
    (carriedOut : CarriedOut d depths.listing s work result) (readme : Option String) :
    (ofOutcomes fun i => collected (result i)).analysis root.text stack readme =
      (assembled d depths root settings stack readme).keep fun i => !raising i := by
  have alone := carriedOut.eq_run agrees
  rw [assembled, ofParts_eq]
  refine analysis_keep (fun i kept => ?_) (fun i left => ?_) root.text stack readme
  · rw [alone, disturbed.same i (by simpa using kept)]
    cases (parts depths settings stack i).run (d.source depths.listing root settings.exclude) <;>
      rfl
  · have raised := disturbed.raises i (by simpa using left)
    rw [alone]
    match ran : (work i).run (d.source depths.listing root settings.exclude) with
    | .error why => exact isEmpty_error i why.description
    | .ok (.error problem) => exact isEmpty_error i problem
    | .ok (.ok found) => exact absurd ran (raised found)

end Survey

/-! ## Categories named by a user -/

namespace Request

theorem categoriesAmong_congr {names names' : List String}
    (same : ∀ name, name ∈ names ↔ name ∈ names') :
    Settings.categoriesAmong names = Settings.categoriesAmong names' := by
  rw [Settings.categoriesAmong, Settings.categoriesAmong]
  refine List.filter_congr fun category _ => ?_
  rw [Bool.eq_iff_iff, List.contains_iff_mem, List.contains_iff_mem]
  exact same category.name

theorem run_categories_congr (d : Disk) (host : Host) (r : Request) (path : String)
    (format : Format) {names names' : List String} (same : ∀ name, name ∈ names ↔ name ∈ names') :
    run d host { r with command := .analyze path format (some names) } =
      run d host { r with command := .analyze path format (some names') } := by
  have settings (d : Disk) : settingsFor d host path names = settingsFor d host path names' := by
    rw [settingsFor, settingsFor, categoriesAmong_congr same]
  have report (d : Disk) : analyze d host path format (some names) =
      analyze d host path format (some names') := by
    rw [analyze, analyze, settings]
  simp only [run, report]
  rfl

end Request

/-! ## All together -/

namespace Survey

/-- The survey of a folder that is listed and whose stack and readme are found gives an analysis. -/
theorem analyze_eq_ok {d : Disk} {host : Host} {path : Value} {root : Location}
    (named : Location.ofValue host.homes path = .ok root) (folder : d.isFolder root = .ok true)
    {settings : Settings} (workers : 1 ≤ settings.maxWorkers) {l : List String}
    (listed : d.listing host.depths.listing root settings.exclude = .ok l) {stack : Stack}
    {readme : Option String}
    (found : stackOf host.depths.package settings.limits
      (d.source host.depths.listing root settings.exclude) = .ok stack)
    (text : d.readme root = .ok readme) :
    (analyze d host path (some settings)).result =
      .ok (assembled d host.depths root settings stack readme) := by
  rw [analyze_folder named folder, Option.elim_some, Except.bind,
    analyzeTree_result d host root workers, listed, found, text]
  rfl

/-- An analysis of a folder is put together from its own stack and readme. -/
theorem eq_assembled {d : Disk} {host : Host} {path : Value} {root : Location}
    (named : Location.ofValue host.homes path = .ok root) (folder : d.isFolder root = .ok true)
    {settings : Settings} (workers : 1 ≤ settings.maxWorkers) {a : Analysis}
    (analysed : (analyze d host path (some settings)).result = .ok a) :
    a = assembled d host.depths root settings a.stack a.readme ∧ a.path = root.text := by
  rw [analyze_folder named folder, Option.elim_some, Except.bind,
    analyzeTree_result d host root workers] at analysed
  obtain ⟨l, -, analysed⟩ := Except.exists_of_bind analysed
  obtain ⟨stack, -, analysed⟩ := Except.exists_of_bind analysed
  obtain ⟨readme, -, rfl⟩ := Except.exists_of_map analysed
  exact ⟨rfl, rfl⟩

/-- The categories of a survey do not matter to each other. With any of them the analysis is that of
all of them without the others, however many workers there are and in whatever order they take their
turns, and there is one if the tree is listed and its stack and readme are found. Names of
categories may be given by a user in any order and several times. And if some parts raise an
exception, the analysis is the one without it, with these parts left empty. -/
theorem categories_independent (d : Disk) (host : Host) (path : Value) (settings : Settings)
    (chosen : List Category) {n m : Int} (one : 1 ≤ n) (one' : 1 ≤ m) :
    let some_ := { settings with categories := chosen, maxWorkers := n }
    let full := { settings with categories := Category.all, maxWorkers := m }
    let depth := host.depths.listing
    (analyze d host path (some some_)).result =
      (analyze d host path (some full)).result.map
        (Analysis.keep fun i => i.all chosen.contains) ∧
    (∀ root l stack readme, Location.ofValue host.homes path = .ok root →
      d.isFolder root = .ok true → d.listing depth root settings.exclude = .ok l →
      stackOf host.depths.package settings.limits (d.source depth root settings.exclude) =
        .ok stack →
      d.readme root = .ok readme → ∃ a, (analyze d host path (some full)).result = .ok a ∧
        a.path = root.text ∧ a.stack = stack ∧ a.readme = readme) ∧
    (∀ (r : Request) (text : String) (format : Format) (names names' : List String),
      (∀ name, name ∈ names ↔ name ∈ names') →
      Request.run d host { r with command := .analyze text format (some names) } =
        Request.run d host { r with command := .analyze text format (some names') }) ∧
    ∀ (root : Location) (a : Analysis), Location.ofValue host.homes path = .ok root →
      d.isFolder root = .ok true → (analyze d host path (some some_)).result = .ok a →
      ∀ {β : Type} (before : Scan β),
        let s := ((Snapshot.new root settings.exclude).perform d depth before).2
        (∀ result, CarriedOut d depth s (parts host.depths some_ a.stack) result →
          (ofParts result).analysis a.path a.stack a.readme = a) ∧
        ∀ (raising : Option Category → Bool)
          (work : (i : Option Category) → Scan (Except String (Found i))),
          Disturbed (d.source depth root settings.exclude) (parts host.depths some_ a.stack)
            raising work →
          (∃ result, CarriedOut d depth s work result) ∧
            ∀ result, CarriedOut d depth s work result →
              (ofOutcomes fun i => collected (result i)).analysis a.path a.stack a.readme =
                a.keep fun i => !raising i := by
  intro some_ full depth
  refine ⟨analyze_keep d host path settings chosen one one', ?_, ?_, ?_⟩
  · intro root l stack readme named folder listed found text
    have workers : 1 ≤ full.maxWorkers := one'
    exact ⟨_, analyze_eq_ok named folder workers listed found text, rfl, rfl, rfl⟩
  · exact fun r text format names names' same =>
      Request.run_categories_congr d host r text format same
  · intro root a named folder analysed β before s
    have agrees : s.Agrees d host.depths.listing root some_.exclude :=
      ((Snapshot.new_agrees d depth root settings.exclude).perform before).2
    obtain ⟨same, path_eq⟩ := eq_assembled named folder one analysed
    rw [path_eq]
    refine ⟨fun result carriedOut => ?_, fun raising work disturbed => ?_⟩
    · exact (analysis_carriedOut agrees carriedOut a.readme).trans same.symm
    · refine ⟨exists_carriedOut agrees work, fun result carriedOut => ?_⟩
      rw [analysis_disturbed agrees disturbed carriedOut]
      exact congrArg (Analysis.keep _) same.symm

/-- A module of Go with a route, a model and a handler, all in one file. -/
def shop : Disk :=
  let file (text : String) : Node := .file ((Text.of text).map fun c => UInt8.ofNat c.toNat)
  ⟨.folder [("repo", .folder
    [("README", file "Shop"),
     ("go.mod", file "module shop\nrequire github.com/gin-gonic/gin v1\n"),
     ("handlers", .folder [("shop.go", file ("type Shop struct \x7b\n\tName string\n\x7d\n" ++
       "func Index() \x7b\n\x7d\nr.GET(\"/\", Index)\n"))])])],
    []⟩

def shopListing : List String := ["README", "go.mod", "handlers/shop.go"]

theorem shop_listing : shop.listing 995 (Location.read "/repo") [] = .ok shopListing :=
  Disk.listing_of_walk [⟨["README"], .file⟩, ⟨["go.mod"], .file⟩, ⟨["handlers"], .folder⟩,
    ⟨["handlers", "shop.go"], .file⟩] rfl rfl rfl (by decide)

/-- What the survey of the module looks at. -/
def shopSource : Source where
  files := .ok shopListing
  present path := shop.present ((Location.read "/repo").join path)
  read path := readResult (shop.load ((Location.read "/repo").join path))

theorem shop_source : shop.source 995 (Location.read "/repo") [] = shopSource := by
  rw [Disk.source, shop_listing]
  rfl

theorem shop_stack : stackOf 988 .standard (shop.source 995 (Location.read "/repo") []) =
    .ok ⟨"go", some "gin"⟩ := by
  rw [shop_source]
  rfl

def shopAnalysis : Analysis where
  path := "/repo"
  stack := ⟨"go", some "gin"⟩
  routes := [⟨"GET", "/", "handlers/shop.go", some "Index"⟩]
  models := [⟨"Shop", [⟨"Name", "string"⟩], "handlers/shop.go"⟩]
  controllers := [⟨"shop", ["Index"], "handlers/shop.go"⟩]
  components := []
  services := []
  config := [("app_name", .str "shop"), ("type", .str "go")]
  readme := some "Shop"

theorem shop_assembled :
    assembled shop .usual (Location.read "/repo") (.standard (Location.read "/repo"))
      ⟨"go", some "gin"⟩ (some "Shop") = shopAnalysis := by
  have routes : Routes.go.scan.run shopSource = .ok shopAnalysis.routes := by decide +kernel
  have models : Models.go.scan.run shopSource = .ok shopAnalysis.models := by decide +kernel
  have controllers : Controllers.go.scan.run shopSource = .ok shopAnalysis.controllers := by
    decide +kernel
  have services : Services.go.scan.run shopSource = .ok [] := by decide +kernel
  have config : (Manifest.go.scan .usual).run shopSource = .ok (.ok shopAnalysis.config) := rfl
  have found : ofParts (fun i => (parts .usual (.standard (Location.read "/repo"))
      ⟨"go", some "gin"⟩ i).run shopSource) =
        ⟨.ok shopAnalysis.routes, .ok shopAnalysis.models, .ok shopAnalysis.controllers, .ok [],
          .ok [], .ok shopAnalysis.config⟩ := by
    show Findings.mk ((Routes.go.scan.run shopSource).mapError _)
      ((Models.go.scan.run shopSource).mapError _)
      ((Controllers.go.scan.run shopSource).mapError _) _
      ((Services.go.scan.run shopSource).mapError _)
      ((((Manifest.go.scan .usual).run shopSource).mapError _).bind _) = _
    rw [routes, models, controllers, services, config]
    rfl
  show (ofParts fun i => (parts .usual _ _ i).run
    (shop.source 995 (Location.read "/repo") [])).analysis _ _ _ = _
  rw [shop_source, found]
  rfl

/-- With two categories the module has the same stack and no models, and if the search for routes
raises an exception the handlers are still found. -/
theorem shop_chosen :
    (analyze shop plainHost (.str "/repo") (some
      { Settings.standard (Location.read "/repo") with
        categories := [.routes, .controllers], maxWorkers := 1 })).result =
          .ok { shopAnalysis with models := [] } ∧
      ∃ result : (i : Option Category) → Except Fault (Except String (Found i)),
        (ofOutcomes fun i => collected (result i)).analysis "/repo" ⟨"go", some "gin"⟩
          (some "Shop") = { shopAnalysis with models := [], routes := [] } := by
  obtain ⟨same, given, -, raised⟩ := categories_independent shop plainHost (.str "/repo")
    (.standard (Location.read "/repo")) [.routes, .controllers] (n := 1) (m := 5) (by decide)
    (by decide)
  obtain ⟨a, analysed, path, stack, readme⟩ :=
    given _ _ _ (some "Shop") rfl rfl shop_listing shop_stack rfl
  obtain rfl : a = shopAnalysis := by
    obtain ⟨whole, -⟩ := eq_assembled rfl rfl (by decide) analysed
    rw [whole, stack, readme]
    exact shop_assembled
  rw [analysed] at same
  obtain ⟨-, raised⟩ := raised _ _ rfl rfl same (.done ())
  obtain ⟨⟨result, carriedOut⟩, left⟩ := raised (· == some .routes) _ (raiseIn_disturbed _ _ _)
  exact ⟨same, result, left result carriedOut⟩

end Survey

end CodeSurvey
