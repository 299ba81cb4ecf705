import CodeSurvey.Routes.Generic

/-!
# Routes of Phoenix applications

A router lists one route a line: the method, the path and perhaps the plug that handles it and its
action. A route that is declared twice counts where it is declared first.
-/

namespace CodeSurvey.Routes

open Pattern

def phoenixRoute : Pattern :=
  lineStart ++ blanks ++ group 1 (oneOf ["get", "post", "put", "patch", "delete", "live"]) ++
    blanks1 ++ "\"" ++ group 2 (some1 (· != '"')) ++ "\"" ++
    opt (blanks ++ "," ++ blanks ++ group 3 (some1 (wordOr ['.'])) ++
      opt (blanks ++ "," ++ blanks ++ ":" ++ group 4 word))

/-- The plug with its action. -/
def phoenixHandler (plug action : Option String) : Option String :=
  plug.map fun plug => match action with
    | some action => plug ++ "." ++ action
    | none => plug

def inRouter (file : String) (text : Text) : List Route :=
  (phoenixRoute.all text).map fun m =>
    ⟨m.upper 1, m.string 2, file, phoenixHandler (m.string? 3) (m.string? 4)⟩

def phoenix : Extractor Route where
  label := "extract_phoenix_routes"
  scan := do
    let routes ← Scan.eachFile ["**/router.ex"] inRouter
    return firstBy (fun r : Route => (r.method, r.path)) routes

end CodeSurvey.Routes
