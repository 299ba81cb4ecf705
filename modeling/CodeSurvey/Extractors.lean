import CodeSurvey.Components.Script
import CodeSurvey.Components.Server
import CodeSurvey.Controllers
import CodeSurvey.Manifest
import CodeSurvey.Models.ActiveRecord
import CodeSurvey.Models.Ecto
import CodeSurvey.Models.Eloquent
import CodeSurvey.Models.EntityFramework
import CodeSurvey.Models.Go
import CodeSurvey.Models.Indented
import CodeSurvey.Models.Jpa
import CodeSurvey.Models.Rust
import CodeSurvey.Models.Script
import CodeSurvey.Routes.DotNet
import CodeSurvey.Routes.Generic
import CodeSurvey.Routes.Go
import CodeSurvey.Routes.Jvm
import CodeSurvey.Routes.Pages
import CodeSurvey.Routes.Phoenix
import CodeSurvey.Routes.Php
import CodeSurvey.Routes.Python
import CodeSurvey.Routes.Rails
import CodeSurvey.Routes.Rust
import CodeSurvey.Routes.Script
import CodeSurvey.Services
import CodeSurvey.Stack

/-!
# Extractors

Which extractor finds the records of a category in a tree with a given stack. A table is asked for
the language with its framework first, then for the language alone. Where it has neither, routes
are looked for by the generic extractor, and other records not at all.
-/

namespace CodeSurvey

/-- The kinds of records. -/
inductive Category where
  | routes
  | models
  | controllers
  | components
  | services
  deriving DecidableEq

namespace Category

def all : List Category := [routes, models, controllers, components, services]

def name : Category → String
  | routes => "routes"
  | models => "models"
  | controllers => "controllers"
  | components => "components"
  | services => "services"

def ofName? (name : String) : Option Category := all.find? fun c => c.name == name

end Category

namespace Extractor

/-- The extractor that finds nothing. -/
def nothing {ρ : Type} : Extractor ρ := ⟨"_no_records", .done []⟩

/-- Extractors by language and framework. -/
abbrev Table (ρ : Type) := List (Stack × Extractor ρ)

/-- The same extractor for several frameworks of JavaScript and TypeScript. -/
def forScripts {ρ : Type} (frameworks : List String) (e : Extractor ρ) : Table ρ :=
  frameworks.flatMap fun framework =>
    [(⟨"javascript", some framework⟩, e), (⟨"typescript", some framework⟩, e)]

/-- The same extractor for several frameworks of a language. -/
def forFrameworks {ρ : Type} (language : String) (frameworks : List String) (e : Extractor ρ) :
    Table ρ :=
  frameworks.map fun framework => (⟨language, some framework⟩, e)

/-- An extractor for a language with any framework. -/
def forLanguage {ρ : Type} (language : String) (e : Extractor ρ) : Table ρ :=
  [(⟨language, none⟩, e)]

/-- The entry for a stack, or for its language alone. -/
def Table.find? {ρ : Type} (t : Table ρ) (stack : Stack) : Option (Extractor ρ) :=
  (List.lookup stack t).or (List.lookup ⟨stack.language, none⟩ t)

def routeTable : Table Route :=
  forFrameworks "elixir" ["phoenix"] Routes.phoenix ++
    forFrameworks "python" ["django"] Routes.django ++
    forFrameworks "python" ["flask"] Routes.flask ++
    forFrameworks "python" ["fastapi"] Routes.fastApi ++
    forScripts ["express", "fastify", "hono"] Routes.node ++
    forScripts ["nextjs"] Routes.nextJs ++
    forScripts ["nuxt"] Routes.nuxt ++
    forScripts ["svelte"] Routes.svelteKit ++
    forFrameworks "ruby" ["rails"] Routes.rails ++
    forFrameworks "go" ["gin", "echo", "fiber", "gorilla"] Routes.go ++
    forFrameworks "java" ["spring"] Routes.spring ++
    forFrameworks "java" ["quarkus"] Routes.jaxrs ++
    forFrameworks "java" ["micronaut"] Routes.micronaut ++
    forFrameworks "php" ["laravel"] Routes.laravel ++
    forFrameworks "php" ["symfony"] Routes.symfony ++
    forFrameworks "rust" ["actix"] Routes.actix ++
    forFrameworks "rust" ["axum"] Routes.axum ++
    forFrameworks "rust" ["rocket"] Routes.rustAttributes ++
    forFrameworks "csharp" ["dotnet"] Routes.dotNet

def modelTable : Table Model :=
  forLanguage "elixir" Models.ecto ++
    forFrameworks "python" ["django"] Models.django ++
    forLanguage "python" Models.python ++
    forLanguage "javascript" Models.javaScript ++
    forLanguage "typescript" Models.typeScript ++
    forFrameworks "ruby" ["rails"] Models.activeRecord ++
    forLanguage "go" Models.go ++
    forLanguage "java" Models.jpa ++
    forFrameworks "php" ["laravel"] Models.eloquent ++
    forLanguage "rust" Models.rust ++
    forLanguage "csharp" Models.entityFramework

def controllerTable : Table Controller :=
  forFrameworks "elixir" ["phoenix"] Controllers.phoenix ++
    forFrameworks "python" ["django"] Controllers.django ++
    forFrameworks "python" ["flask", "fastapi"] Controllers.python ++
    forScripts ["express"] Controllers.express ++
    forFrameworks "ruby" ["rails"] Controllers.rails ++
    forLanguage "go" Controllers.go ++
    forFrameworks "java" ["spring"] Controllers.spring ++
    forFrameworks "php" ["laravel"] Controllers.laravel ++
    forFrameworks "php" ["symfony"] Controllers.symfony ++
    forFrameworks "csharp" ["dotnet"] Controllers.dotNet

def componentTable : Table Component :=
  forFrameworks "elixir" ["phoenix"] Components.phoenix ++
    forScripts ["react", "nextjs"] Components.react ++
    forScripts ["vue", "nuxt"] Components.vue ++
    forScripts ["svelte"] Components.svelte ++
    forFrameworks "ruby" ["rails"] Components.rails

def serviceTable : Table Service :=
  forLanguage "elixir" Services.elixir ++
    forLanguage "python" Services.python ++
    forLanguage "javascript" Services.script ++
    forLanguage "typescript" Services.script ++
    forLanguage "ruby" Services.ruby ++
    forLanguage "go" Services.go ++
    forLanguage "java" Services.java ++
    forLanguage "php" Services.php ++
    forLanguage "csharp" Services.csharp

/-! ## All extractors -/

def allRoutes : List (Extractor Route) := Routes.generic :: routeTable.map (·.2)

def allModels : List (Extractor Model) := Models.prisma :: modelTable.map (·.2)

def allControllers : List (Extractor Controller) := controllerTable.map (·.2)

def allComponents : List (Extractor Component) := componentTable.map (·.2)

def allServices : List (Extractor Service) := serviceTable.map (·.2)

end Extractor

namespace Stack

/-! ## The extractors for a stack -/

def routes (s : Stack) : Extractor Route := (Extractor.routeTable.find? s).getD Routes.generic

def models (s : Stack) : Extractor Model := (Extractor.modelTable.find? s).getD .nothing

def controllers (s : Stack) : Extractor Controller :=
  (Extractor.controllerTable.find? s).getD .nothing

def components (s : Stack) : Extractor Component := (Extractor.componentTable.find? s).getD .nothing

def services (s : Stack) : Extractor Service := (Extractor.serviceTable.find? s).getD .nothing

/-- The name of the extractor for a category. -/
def extractorLabel (s : Stack) : Category → String
  | .routes => s.routes.label
  | .models => s.models.label
  | .controllers => s.controllers.label
  | .components => s.components.label
  | .services => s.services.label

end Stack

namespace Manifest

def readers : List (String × Reader) :=
  [("elixir", mix), ("python", python), ("javascript", package), ("typescript", package),
   ("ruby", ruby), ("go", go), ("java", java), ("php", composer), ("rust", cargo),
   ("csharp", dotNet)]

/-- The reader for the manifest of a language. -/
def readerFor (language : String) : Reader :=
  (readers.lookup language).getD ⟨"_no_config", fun _ => .done (.ok [])⟩

end Manifest

end CodeSurvey
