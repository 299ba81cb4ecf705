import CodeSurvey.Proofs.Listing
import CodeSurvey.Proofs.Records
import CodeSurvey.Proofs.Snapshot

/-!
# What the extractors look at

Most extractors are local, whatever may be read aside (`Extractor.IsOrdinary`): a record depends on
the file that it names and on no other. The routes of Phoenix are local except that a route declared
in two routers counts only in the first of them. The routes of Rails are read from a path that is
given, listed or not, and so are the columns of Rails models. What holds of these three and of all
ordinary extractors holds of all (`Extractor.forall_all`).
-/

namespace CodeSurvey

open Scan

variable {asides : List String}

/-! ## Routes -/

namespace Routes

theorem inVerbDecorators_allIn (file : String) (text : Text) :
    AllIn file (inVerbDecorators file text) := by
  simp [inVerbDecorators]

theorem django_isLocal : IsLocal asides django.scan :=
  isLocal_eachFile fun file text => by simp [inDjango]

theorem flask_isLocal : IsLocal asides flask.scan :=
  isLocal_eachFile fun file text => by simp [inFlask, inVerbDecorators_allIn]

theorem fastApi_isLocal : IsLocal asides fastApi.scan :=
  isLocal_eachFile inVerbDecorators_allIn

theorem node_isLocal : IsLocal asides node.scan :=
  isLocal_eachFile fun file text => by simp [inNode]

theorem spring_isLocal : IsLocal asides spring.scan :=
  isLocal_eachFile fun file text => by simp [inSpring]

theorem jaxrs_isLocal : IsLocal asides jaxrs.scan :=
  isLocal_eachFile fun file text => by simp [inJaxrs, jaxrsRoute]

theorem micronaut_isLocal : IsLocal asides micronaut.scan :=
  isLocal_eachFile fun file text => by rw [inMicronaut]; split <;> simp

theorem laravel_isLocal : IsLocal asides laravel.scan :=
  isLocal_eachFile fun file text => by simp [inLaravel]

theorem symfony_isLocal : IsLocal asides symfony.scan :=
  isLocal_eachFile fun file text => by simp [inSymfony]

theorem rustAttributes_isLocal : IsLocal asides rustAttributes.scan :=
  isLocal_eachFile fun file text => by simp [inRustAttributes]

theorem axum_isLocal : IsLocal asides axum.scan :=
  isLocal_eachFile fun file text => by
    rw [inAxum, allIn_flatMap]
    intro m _
    split <;> simp

theorem actix_isLocal : IsLocal asides actix.scan :=
  isLocal_append rustAttributes_isLocal axum_isLocal

theorem dotNet_isLocal : IsLocal asides dotNet.scan :=
  isLocal_eachFile fun file text => by simp [inDotNet]

theorem go_isLocal : IsLocal asides go.scan :=
  isLocal_visits ((findFiles_choosesEach _).filter _)
    (visitText_isVisit fun file text => by simp [inGo, inGoCalls])

theorem generic_isLocal : IsLocal asides generic.scan :=
  isLocal_after (isLocal_eachFile fun file text => by simp [inAnySource])
    (firstBy_keptIn fun r r' same => congrArg (fun key => key.2.2) same)

/-! ### Routes by file layout -/

theorem run_folderRoutes {s : Source} (folder handlers file : String) :
    (folderRoutes folder handlers file).run s =
      let route := fun method : String =>
        (⟨method, String.ofList (directoryRoute (folderBelow folder file)), file, none⟩ : Route)
      if stem file [] = handlers then
        (s.read file).map fun text => (handlerMethods text).map route
      else .ok [route "GET"] := by
  simp only [folderRoutes]
  split
  · show (s.read file).bind _ = _
    cases s.read file <;> rfl
  · rfl

/-- A page is a route even if it cannot be read, and a file of handlers serves GET then. -/
theorem folderRoutes_isVisit (folder handlers : String) :
    IsVisit (folderRoutes folder handlers) where
  same {file s s'} same := by rw [run_folderRoutes, run_folderRoutes, same]
  allIn {file s records} found := by
    rw [run_folderRoutes] at found
    simp only at found
    split at found
    · cases read : s.read file with
      | error why => rw [read] at found; cases found
      | ok text => rw [read] at found; cases found; simp
    · cases found; simp
  succeeds {file s text} read := by
    rw [run_folderRoutes, read]
    simp only
    split
    · exact ⟨_, rfl⟩
    · exact ⟨_, rfl⟩

theorem nextJs_isLocal : IsLocal asides nextJs.scan :=
  isLocal_append
    (isLocal_collect fun _ _ =>
      isLocal_names ((findFiles_choosesEach _).filter _) fun _ => rfl)
    (isLocal_collect fun folder _ =>
      isLocal_visits (findFiles_choosesEach _) (folderRoutes_isVisit folder "route"))

theorem nuxt_isLocal : IsLocal asides nuxt.scan :=
  isLocal_collect fun _ _ => isLocal_names (findFiles_choosesEach _) fun _ => rfl

theorem svelteKit_isLocal : IsLocal asides svelteKit.scan :=
  isLocal_visits (findFiles_choosesEach _) (folderRoutes_isVisit "src/routes" "+server")

end Routes

/-! ## Models -/

namespace Models

theorem inBraces_allIn (declaration : Pattern) (fields : Text → List Field) (file : String)
    (text : Text) : AllIn file (inBraces declaration fields file text) := by
  rw [inBraces, allIn_flatMap]
  intro m _
  split
  · rw [Model.ofFields]
    split <;> simp
  · simp

theorem ecto_isLocal : IsLocal asides ecto.scan :=
  isLocal_eachFile fun file text => by
    rw [inEcto]
    split
    · split <;> simp
    · simp

theorem django_isLocal : IsLocal asides django.scan :=
  isLocal_eachFile fun file text => by simp [inDjango]

theorem python_isLocal : IsLocal asides python.scan :=
  isLocal_eachFile fun file text => by
    rw [inPython, allIn_flatMap]
    intro m _
    rw [Model.ofFields]
    split <;> simp

theorem prisma_isLocal : IsLocal asides prisma.scan := isLocal_eachFile (inBraces_allIn _ _)

theorem typeScript_isLocal : IsLocal asides typeScript.scan :=
  isLocal_append (isLocal_eachFile (inBraces_allIn _ _)) prisma_isLocal

theorem javaScript_isLocal : IsLocal asides javaScript.scan :=
  isLocal_append
    (isLocal_eachFile fun file text => by
      rw [inMongoose, allIn_map]
      exact inBraces_allIn _ _ file text)
    typeScript_isLocal

theorem go_isLocal : IsLocal asides go.scan :=
  isLocal_visits ((findFiles_choosesEach _).filter _) (visitText_isVisit (inBraces_allIn _ _))

theorem jpa_isLocal : IsLocal asides jpa.scan :=
  isLocal_eachFile fun file text => by
    rw [inJpa]
    split
    · simp
    · split <;> simp

theorem eloquent_isLocal : IsLocal asides eloquent.scan :=
  isLocal_eachFile fun file text => by rw [inEloquent]; split <;> simp

theorem rust_isLocal : IsLocal asides rust.scan := isLocal_eachFile (inBraces_allIn _ _)

theorem entityFramework_isLocal : IsLocal asides entityFramework.scan :=
  isLocal_eachFile fun file text => by
    rw [inEntityFramework]
    split
    · simp
    · exact inBraces_allIn _ _ file text

/-- The path of the schema that Rails models take their columns from. -/
def schemaFile : String := "db/schema.rb"

theorem activeRecord_isLocal (aside : schemaFile ∈ asides) : IsLocal asides activeRecord.scan :=
  isLocal_aside aside fun schema => isLocal_eachFile fun file text => by
    rw [inActiveRecord]
    split <;> simp

end Models

/-! ## Controllers -/

namespace Controllers

theorem inPython_allIn (file : String) (text : Text) : AllIn file (inPython file text) := by
  rw [inPython]
  split <;> simp

theorem phoenix_isLocal : IsLocal asides phoenix.scan :=
  isLocal_eachFile fun file text => by simp [inPhoenix]

theorem django_isLocal : IsLocal asides django.scan := isLocal_eachFile inPython_allIn

theorem python_isLocal : IsLocal asides python.scan := isLocal_eachFile inPython_allIn

theorem express_isLocal : IsLocal asides express.scan :=
  isLocal_eachFile fun file text => by simp [inScript]

theorem rails_isLocal : IsLocal asides rails.scan :=
  isLocal_eachFile fun file text => by simp [inRails]

theorem go_isLocal : IsLocal asides go.scan :=
  isLocal_visits ((findFiles_choosesEach _).filter _)
    (visitText_isVisit fun file text => by simp [inGo])

theorem spring_isLocal : IsLocal asides spring.scan :=
  isLocal_eachFile fun file text => by simp [inSpring]

theorem inPhp_allIn (file : String) (text : Text) : AllIn file (inPhp file text) := by
  simp [inPhp]

theorem laravel_isLocal : IsLocal asides laravel.scan :=
  isLocal_after (isLocal_eachFile inPhp_allIn) fun _ records => List.filter_comm _ _ records

theorem symfony_isLocal : IsLocal asides symfony.scan := isLocal_eachFile inPhp_allIn

theorem dotNet_isLocal : IsLocal asides dotNet.scan :=
  isLocal_eachFile fun file text => by simp [inDotNet]

end Controllers

/-! ## Components -/

namespace Components

theorem phoenix_isLocal : IsLocal asides phoenix.scan :=
  isLocal_eachFile fun file text => by simp [inPhoenix]

theorem react_isLocal : IsLocal asides react.scan :=
  isLocal_eachFile fun file text => by simp [inReact]

theorem vue_isLocal : IsLocal asides vue.scan :=
  isLocal_eachFile fun file text => by simp [inVue]

theorem svelte_isLocal : IsLocal asides svelte.scan :=
  isLocal_eachFile fun file text => by simp [inSvelte]

theorem run_railsView {s : Source} (file : String) :
    (railsView file).run s = (s.read file).map fun text =>
      [⟨viewName file, unique ((railsLocal.all (text.getD [])).map localName), file, []⟩] := by
  show (s.read file).bind _ = _
  cases s.read file <;> rfl

theorem railsView_isVisit : IsVisit railsView where
  same {file s s'} same := by rw [run_railsView, run_railsView, same]
  allIn {file s records} found := by
    rw [run_railsView] at found
    cases read : s.read file with
    | error why => rw [read] at found; cases found
    | ok text => rw [read] at found; cases found; simp
  succeeds {file s text} read := by rw [run_railsView, read]; exact ⟨_, rfl⟩

theorem rails_isLocal : IsLocal asides rails.scan :=
  isLocal_visits (findFiles_choosesEach _) railsView_isVisit

end Components

/-! ## Services -/

namespace Services

theorem ofFunctions_allIn (name : String) (functions : List String) (file : String) :
    AllIn file (Service.ofFunctions name functions file) := by
  rw [Service.ofFunctions]
  split <;> simp

theorem elixir_isLocal : IsLocal asides elixir.scan :=
  isLocal_visits ((findFiles_choosesEach _).filter _)
    (visitText_isVisit fun _ _ => ofFunctions_allIn _ _ _)

theorem python_isLocal : IsLocal asides python.scan :=
  isLocal_eachFile fun _ _ => ofFunctions_allIn _ _ _

theorem script_isLocal : IsLocal asides script.scan :=
  isLocal_eachFile fun _ _ => ofFunctions_allIn _ _ _

theorem ruby_isLocal : IsLocal asides ruby.scan :=
  isLocal_eachFile fun _ _ => ofFunctions_allIn _ _ _

theorem go_isLocal : IsLocal asides go.scan :=
  isLocal_visits ((findFiles_choosesEach _).filter _)
    (visitText_isVisit fun _ _ => ofFunctions_allIn _ _ _)

theorem java_isLocal : IsLocal asides java.scan :=
  isLocal_eachFile fun _ _ => ofFunctions_allIn _ _ _

theorem php_isLocal : IsLocal asides php.scan :=
  isLocal_eachFile fun _ _ => ofFunctions_allIn _ _ _

theorem csharp_isLocal : IsLocal asides csharp.scan :=
  isLocal_eachFile fun _ _ => ofFunctions_allIn _ _ _

end Services

/-! ## The two that are not local -/

namespace Routes

theorem inRouters_isLocal : IsLocal asides (eachFile ["**/router.ex"] inRouter) :=
  isLocal_eachFile fun file text => by simp [inRouter]

theorem run_phoenix (s : Source) :
    phoenix.scan.run s = ((eachFile ["**/router.ex"] inRouter).run s).map
      (firstBy fun r : Route => (r.method, r.path)) :=
  run_after _ _

/-- The routes of Phoenix are among those of the routers; which of several routes with one method
and path are kept depends on the others. -/
theorem phoenix_mem_files {s : Source} {l : List String} {routes : List Route}
    (listed : s.files = .ok l) (found : phoenix.scan.run s = .ok routes) :
    ∀ r ∈ routes, r.file ∈ l := by
  rw [run_phoenix] at found
  obtain ⟨all, declared, rfl⟩ := Except.exists_of_map found
  have inRouters : IsLocal [] (eachFile ["**/router.ex"] inRouter) := inRouters_isLocal
  exact fun r member => inRouters.mem_files listed declared r (mem_firstBy member)

theorem run_rails (s : Source) :
    rails.scan.run s =
      (s.read railsFile).map fun text => (text.map (inRails railsFile)).getD [] :=
  run_visitText _ _

theorem inRails_allIn (file : String) (text : Text) : AllIn railsFile (inRails file text) := by
  rw [inRails, allIn_flatMap]
  intro line _
  rw [railsLine]
  split
  · simp [resourceRoutes]
  · split
    · simp
    · split <;> simp

/-- Whatever file is listed, the routes of Rails name the one that is given. -/
theorem rails_allIn {s : Source} {routes : List Route} (found : rails.scan.run s = .ok routes) :
    AllIn railsFile routes := by
  rw [run_rails] at found
  obtain ⟨text, -, rfl⟩ := Except.exists_of_map found
  cases text with
  | none => simp
  | some text => exact inRails_allIn railsFile text

end Routes

/-! ## All extractors -/

namespace Extractor

/-- Whether an extractor is local, with no path read aside, and not the one for the routes of Rails.
-/
def IsOrdinary {ρ : Type} [Filed ρ] (e : Extractor ρ) : Prop :=
  (∀ asides, IsLocal asides e.scan) ∧ e.label ≠ Routes.rails.label

section
variable {ρ : Type} {P : Stack × Extractor ρ → Prop} {e : Extractor ρ} {frameworks : List String}

theorem forall_forFrameworks {language : String} :
    (∀ entry ∈ forFrameworks language frameworks e, P entry) ↔
      ∀ framework ∈ frameworks, P (⟨language, some framework⟩, e) := List.forall_mem_map

theorem forall_forScripts :
    (∀ entry ∈ forScripts frameworks e, P entry) ↔ ∀ framework ∈ frameworks,
      P (⟨"javascript", some framework⟩, e) ∧ P (⟨"typescript", some framework⟩, e) := by
  constructor
  · intro h framework listed
    exact ⟨h _ (List.mem_flatMap.2 ⟨framework, listed, by simp⟩),
      h _ (List.mem_flatMap.2 ⟨framework, listed, by simp⟩)⟩
  · intro h entry member
    obtain ⟨framework, listed, member⟩ := List.mem_flatMap.1 member
    rcases List.mem_cons.1 member with rfl | member
    · exact (h framework listed).1
    · rw [List.mem_singleton.1 member]
      exact (h framework listed).2

theorem forall_forLanguage {language : String} :
    (∀ entry ∈ forLanguage language e, P entry) ↔ P (⟨language, none⟩, e) := by
  simp [forLanguage]

end

theorem forall_routeTable {P : Extractor Route → Prop} (ordinary : ∀ e, IsOrdinary e → P e)
    (phoenix : P Routes.phoenix) (rails : P Routes.rails) : ∀ entry ∈ routeTable, P entry.2 := by
  delta routeTable
  simp only [List.forall_mem_append, forall_forFrameworks, forall_forScripts, and_assoc]
  exact ⟨fun _ _ => phoenix,
    fun _ _ => ordinary _ ⟨fun _ => Routes.django_isLocal, by decide⟩,
    fun _ _ => ordinary _ ⟨fun _ => Routes.flask_isLocal, by decide⟩,
    fun _ _ => ordinary _ ⟨fun _ => Routes.fastApi_isLocal, by decide⟩,
    fun _ _ => and_self_iff.2 (ordinary _ ⟨fun _ => Routes.node_isLocal, by decide⟩),
    fun _ _ => and_self_iff.2 (ordinary _ ⟨fun _ => Routes.nextJs_isLocal, by decide⟩),
    fun _ _ => and_self_iff.2 (ordinary _ ⟨fun _ => Routes.nuxt_isLocal, by decide⟩),
    fun _ _ => and_self_iff.2 (ordinary _ ⟨fun _ => Routes.svelteKit_isLocal, by decide⟩),
    fun _ _ => rails,
    fun _ _ => ordinary _ ⟨fun _ => Routes.go_isLocal, by decide⟩,
    fun _ _ => ordinary _ ⟨fun _ => Routes.spring_isLocal, by decide⟩,
    fun _ _ => ordinary _ ⟨fun _ => Routes.jaxrs_isLocal, by decide⟩,
    fun _ _ => ordinary _ ⟨fun _ => Routes.micronaut_isLocal, by decide⟩,
    fun _ _ => ordinary _ ⟨fun _ => Routes.laravel_isLocal, by decide⟩,
    fun _ _ => ordinary _ ⟨fun _ => Routes.symfony_isLocal, by decide⟩,
    fun _ _ => ordinary _ ⟨fun _ => Routes.actix_isLocal, by decide⟩,
    fun _ _ => ordinary _ ⟨fun _ => Routes.axum_isLocal, by decide⟩,
    fun _ _ => ordinary _ ⟨fun _ => Routes.rustAttributes_isLocal, by decide⟩,
    fun _ _ => ordinary _ ⟨fun _ => Routes.dotNet_isLocal, by decide⟩⟩

theorem forall_modelTable {P : Extractor Model → Prop} (ordinary : ∀ e, IsOrdinary e → P e)
    (activeRecord : P Models.activeRecord) : ∀ entry ∈ modelTable, P entry.2 := by
  simp only [modelTable, List.forall_mem_append, forall_forFrameworks, forall_forLanguage,
    and_assoc]
  exact ⟨ordinary _ ⟨fun _ => Models.ecto_isLocal, by decide⟩,
    fun _ _ => ordinary _ ⟨fun _ => Models.django_isLocal, by decide⟩,
    ordinary _ ⟨fun _ => Models.python_isLocal, by decide⟩,
    ordinary _ ⟨fun _ => Models.javaScript_isLocal, by decide⟩,
    ordinary _ ⟨fun _ => Models.typeScript_isLocal, by decide⟩,
    fun _ _ => activeRecord,
    ordinary _ ⟨fun _ => Models.go_isLocal, by decide⟩,
    ordinary _ ⟨fun _ => Models.jpa_isLocal, by decide⟩,
    fun _ _ => ordinary _ ⟨fun _ => Models.eloquent_isLocal, by decide⟩,
    ordinary _ ⟨fun _ => Models.rust_isLocal, by decide⟩,
    ordinary _ ⟨fun _ => Models.entityFramework_isLocal, by decide⟩⟩

theorem controllerTable_isOrdinary : ∀ entry ∈ controllerTable, entry.2.IsOrdinary := by
  simp only [controllerTable, List.forall_mem_append, forall_forFrameworks,
    forall_forScripts, forall_forLanguage, and_assoc]
  exact ⟨fun _ _ => ⟨fun _ => Controllers.phoenix_isLocal, by decide⟩,
    fun _ _ => ⟨fun _ => Controllers.django_isLocal, by decide⟩,
    fun _ _ => ⟨fun _ => Controllers.python_isLocal, by decide⟩,
    fun _ _ => and_self_iff.2 ⟨fun _ => Controllers.express_isLocal, by decide⟩,
    fun _ _ => ⟨fun _ => Controllers.rails_isLocal, by decide⟩,
    ⟨fun _ => Controllers.go_isLocal, by decide⟩,
    fun _ _ => ⟨fun _ => Controllers.spring_isLocal, by decide⟩,
    fun _ _ => ⟨fun _ => Controllers.laravel_isLocal, by decide⟩,
    fun _ _ => ⟨fun _ => Controllers.symfony_isLocal, by decide⟩,
    fun _ _ => ⟨fun _ => Controllers.dotNet_isLocal, by decide⟩⟩

theorem componentTable_isOrdinary : ∀ entry ∈ componentTable, entry.2.IsOrdinary := by
  simp only [componentTable, List.forall_mem_append, forall_forFrameworks,
    forall_forScripts, and_assoc]
  exact ⟨fun _ _ => ⟨fun _ => Components.phoenix_isLocal, by decide⟩,
    fun _ _ => and_self_iff.2 ⟨fun _ => Components.react_isLocal, by decide⟩,
    fun _ _ => and_self_iff.2 ⟨fun _ => Components.vue_isLocal, by decide⟩,
    fun _ _ => and_self_iff.2 ⟨fun _ => Components.svelte_isLocal, by decide⟩,
    fun _ _ => ⟨fun _ => Components.rails_isLocal, by decide⟩⟩

theorem serviceTable_isOrdinary : ∀ entry ∈ serviceTable, entry.2.IsOrdinary := by
  simp only [serviceTable, List.forall_mem_append, forall_forLanguage, and_assoc]
  exact ⟨⟨fun _ => Services.elixir_isLocal, by decide⟩,
    ⟨fun _ => Services.python_isLocal, by decide⟩,
    ⟨fun _ => Services.script_isLocal, by decide⟩,
    ⟨fun _ => Services.script_isLocal, by decide⟩,
    ⟨fun _ => Services.ruby_isLocal, by decide⟩,
    ⟨fun _ => Services.go_isLocal, by decide⟩,
    ⟨fun _ => Services.java_isLocal, by decide⟩,
    ⟨fun _ => Services.php_isLocal, by decide⟩,
    ⟨fun _ => Services.csharp_isLocal, by decide⟩⟩

theorem toRecords_isLocal {ρ : Type} [Filed ρ] {kind : ρ → Record} {e : Extractor ρ}
    (sameFile : ∀ r, (kind r).file = Filed.file r) (h : IsLocal asides e.scan) :
    IsLocal asides (e.toRecords kind).scan :=
  isLocal_after h fun _ records => (keptIn_map kind sameFile records).symm

theorem IsOrdinary.toRecords {ρ : Type} [Filed ρ] {kind : ρ → Record} {e : Extractor ρ}
    (sameFile : ∀ r, (kind r).file = Filed.file r) (h : e.IsOrdinary) :
    (e.toRecords kind).IsOrdinary :=
  ⟨fun asides => toRecords_isLocal sameFile (h.1 asides), h.2⟩

/-- What holds of ordinary extractors and of the three others holds of all. -/
theorem forall_all {P : Extractor Record → Prop} (ordinary : ∀ e, IsOrdinary e → P e)
    (phoenix : P (Routes.phoenix.toRecords .route)) (rails : P (Routes.rails.toRecords .route))
    (activeRecord : P (Models.activeRecord.toRecords .model)) : ∀ e ∈ all, P e := by
  have route (e : Extractor Route) (h : e.IsOrdinary) : P (e.toRecords .route) :=
    ordinary _ (h.toRecords fun _ => rfl)
  have model (e : Extractor Model) (h : e.IsOrdinary) : P (e.toRecords .model) :=
    ordinary _ (h.toRecords fun _ => rfl)
  simp only [all, allRoutes, allModels, allControllers, allComponents, allServices,
    List.forall_mem_append, List.forall_mem_map, List.forall_mem_cons, and_assoc]
  exact ⟨route _ ⟨fun _ => Routes.generic_isLocal, by decide⟩,
    forall_routeTable (P := fun e => P (e.toRecords .route)) route phoenix rails,
    model _ ⟨fun _ => Models.prisma_isLocal, by decide⟩,
    forall_modelTable (P := fun e => P (e.toRecords .model)) model activeRecord,
    fun entry member =>
      ordinary _ ((controllerTable_isOrdinary entry member).toRecords fun _ => rfl),
    fun entry member =>
      ordinary _ ((componentTable_isOrdinary entry member).toRecords fun _ => rfl),
    fun entry member =>
      ordinary _ ((serviceTable_isOrdinary entry member).toRecords fun _ => rfl)⟩

end Extractor

end CodeSurvey
