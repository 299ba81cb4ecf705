import CodeSurvey.Quoted
import CodeSurvey.Record

/-!
# Routes of unknown frameworks

Where no framework is known, a route is the name of an HTTP method followed by a quoted path that
starts with a slash.
-/

namespace CodeSurvey.Routes

open Pattern

/-- The first record for each key. -/
def firstBy {ρ κ : Type} [BEq κ] (key : ρ → κ) (records : List ρ) : List ρ :=
  (records.foldl (fun (seen, kept) r =>
    if seen.contains (key r) then (seen, kept) else (key r :: seen, r :: kept)) ([], [])).2.reverse

def genericPatterns : List String :=
  ["**/*.py", "**/*.js", "**/*.ts", "**/*.rb", "**/*.go", "**/*.java", "**/*.php", "**/*.rs",
   "**/*.cs", "**/*.ex"]

/-- The name of a method, in one case throughout, and a path between quotes of either kind. -/
def genericRoute : Pattern :=
  notAfterWord ++
    group 1 (oneOf ["GET", "POST", "PUT", "PATCH", "DELETE", "get", "post", "put", "patch",
      "delete"]) ++
    blanks ++ one (fun c => c == '(' || c == '[') ++ blanks ++ quote ++
    group 2 ("/" ++ some0 (fun c => !isQuote c && !isBlank c)) ++ quote

def inAnySource (file : String) (text : Text) : List Route :=
  (genericRoute.all text).map fun m => ⟨m.upper 1, m.string 2, file, none⟩

def generic : Extractor Route where
  label := "extract_generic_routes"
  scan := do
    let routes ← Scan.eachFile genericPatterns inAnySource
    return firstBy (fun r : Route => (r.method, r.path, r.file)) routes

end CodeSurvey.Routes
