import CodeSurvey.Text.Blank

/-!
# Paths of routes
-/

namespace CodeSurvey

/-- The path of a route below a common base, with one slash between the two. -/
def joinPaths (base route : Text) : Text :=
  let base := base.trim
  let route := route.trim
  if base.isEmpty then (if route.isEmpty then ['/'] else route)
  else if route.isEmpty then base
  else base.trimRightBy (· == '/') ++ '/' :: route.dropWhile (· == '/')

/-- The path with a slash in front, unless it starts with one. -/
def withSlash (path : Text) : Text := if path.head? = some '/' then path else '/' :: path

end CodeSurvey
