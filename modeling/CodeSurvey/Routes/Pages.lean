import CodeSurvey.Quoted
import CodeSurvey.Record

/-!
# Routes by file layout

Next.js, Nuxt and SvelteKit derive the routes of an application from the layout of its files. A
segment in brackets is a parameter. A file of handlers serves the methods that it exports.
-/

namespace CodeSurvey.Routes

open Pattern

/-- The extension of a page, at the end of a path. -/
def pageExtension : Pattern :=
  "." ++ oneOf ["js", "jsx", "ts", "tsx", "vue", "svelte"] ++ textEnd

/-- A parameter: a name in brackets, or a name after three dots in single or double brackets. -/
def parameter : Pattern :=
  alt ("[" ++ opt "[" ++ "..." ++ group 1 word ++ opt "]" ++ "]") ("[" ++ group 2 word ++ "]")

/-- The parameters of a path written with a colon. -/
def withParameters (path : Text) : Text :=
  parameter.substitute (fun m => ':' :: ((m.group? 1).getD (m.group 2))) path

/-- The path without a last segment `index`. -/
def withoutIndex (path : Text) : Text :=
  let index := Text.of "index"
  if path = index ∨ ('/' :: index).isSuffixOf path then path.take (path.length - index.length)
  else path

/-- The route of a page, given by the path of its file below the folder of all pages. -/
def fileRoutePath (path : Text) : Text :=
  let path := pageExtension.erase path
  '/' :: (withParameters (withoutIndex path)).trimBy (· == '/')

/-- Whether a folder is part of the path of the pages in it: groups, in parentheses, and slots,
marked by an at sign, are not. -/
def isPathSegment (segment : Text) : Bool :=
  !segment.isEmpty && !(segment.head? == some '(' && segment.getLast? == some ')') &&
    segment.head? != some '@'

/-- The route of the pages in a folder below the folder of all pages. -/
def directoryRoute (folder : Text) : Text :=
  fileRoutePath (Text.joinWith ['/'] ((folder.splitOn (· == '/')).filter isPathSegment))

def exportedVerb : Pattern :=
  "export" ++ blanks1 ++ opt ("async" ++ blanks1) ++ oneOf ["function", "const"] ++ blanks1 ++
    group 1 (oneOf ["GET", "POST", "PUT", "PATCH", "DELETE"]) ++ wordEdge

/-- The methods that a file of handlers exports, or else GET. -/
def handlerMethods (text : Option Text) : List String :=
  let methods := match text with
    | some text => unique (exportedVerb.names 1 text)
    | none => []
  if methods.isEmpty then ["GET"] else methods

/-- The part of a path below a folder that it starts with. -/
def below (folder path : String) : Text := path.toList.drop folder.toList.length

/-- The folder of a file below the given one. -/
def folderBelow (folder path : String) : Text :=
  let path := below folder path
  ((path.reverse.dropWhile (· != '/')).drop 1).reverse

def pageExtensions : String := "\x7bjs,jsx,ts,tsx\x7d"

/-- The route of a page that is its own file. -/
def pageRoute (folder file : String) : Route :=
  ⟨"GET", String.ofList (fileRoutePath (below folder file)), file, none⟩

/-- The routes of a file in a folder that is its route: one for each method of a file of handlers,
whose name is given, or GET for a page. -/
def folderRoutes (folder handlers file : String) : Scan (List Route) := do
  let path := String.ofList (directoryRoute (folderBelow folder file))
  if stem file [] = handlers then
    let text ← Scan.readText file
    return (handlerMethods text).map fun method => ⟨method, path, file, none⟩
  else
    return [⟨"GET", path, file, none⟩]

/-- The pages below a folder whose names do not start with an underscore. -/
def nextPages (folder : String) : Scan (List Route) := do
  let files ← Scan.find [folder ++ "/**/*." ++ pageExtensions]
  return (files.filter fun file => (stem file []).toList.head? != some '_').map (pageRoute folder)

def nextFolders (folder : String) : Scan (List Route) := do
  let files ← Scan.find
    [folder ++ "/**/page." ++ pageExtensions, folder ++ "/**/route.\x7bjs,ts\x7d"]
  Scan.collect (folderRoutes folder "route") files

def nextJs : Extractor Route where
  label := "extract_nextjs_routes"
  scan := do
    let pages ← Scan.collect nextPages ["pages", "src/pages"]
    let folders ← Scan.collect nextFolders ["app", "src/app"]
    return pages ++ folders

/-- A segment that starts with an underscore. -/
def underscored : Pattern := group 1 (alt textStart "/") ++ "_" ++ group 2 word

/-- The path with names after an underscore in brackets. -/
def bracketUnderscored (path : Text) : Text :=
  underscored.substitute (fun m => m.group 1 ++ '[' :: (m.group 2 ++ [']'])) path

def nuxtPages (folder : String) : Scan (List Route) := do
  let files ← Scan.find [folder ++ "/**/*.vue"]
  return files.map fun file =>
    ⟨"GET", String.ofList (fileRoutePath (bracketUnderscored (below folder file))), file, none⟩

def nuxt : Extractor Route :=
  ⟨"extract_nuxt_routes", Scan.collect nuxtPages ["pages", "src/pages"]⟩

def svelteKit : Extractor Route where
  label := "extract_sveltekit_routes"
  scan := do
    let files ← Scan.find ["src/routes/**/+page.svelte", "src/routes/**/+server.\x7bjs,ts\x7d"]
    Scan.collect (folderRoutes "src/routes" "+server") files

end CodeSurvey.Routes
