import CodeSurvey.Models.Script
import CodeSurvey.Quoted

/-!
# Components of React, Vue and Svelte applications

A file holds one component. Its properties are the names in an object pattern or an object type
that declares them.
-/

namespace CodeSurvey.Components

open Pattern

/-- The number of names up to which the properties in object patterns and types are reported. -/
def maxProps : Nat := 10

/-- An entry of an object pattern or type: the name. -/
def propEntry : Pattern :=
  textStart ++ opt ("readonly" ++ blanks1) ++ opt quote ++ group 1 word ++ opt quote ++ blanks ++
    opt (one (fun c => c == '?' || c == ':' || c == '=') ++ some0 fun _ => true) ++ textEnd

def entryName (entry : Text) : List String :=
  if Models.startsWithAny ["...", "//", "/*", "*"] entry then []
  else match propEntry.matchAt? (Place.start entry) with
    | some m => [m.string 1]
    | none => []

/-- The names of the entries of the bodies. -/
def propNames (bodies : List Text) : List String :=
  (unique (bodies.flatMap fun body =>
    (splitTopLevel Models.isEntrySeparator body).flatMap entryName)).take maxProps

/-- What stands between the brace that a pattern has read last and the brace that closes it,
without what stands between braces within. -/
def flatBody (m : Match) : List Text :=
  ((bodyAfter? '{' '}' m.last.rest).map (flattenNested '{' '}')).toList

/-! ## React -/

def reactName : Pattern :=
  oneOf ["function", "const", "class"] ++ blanks1 ++
    group 1 (one (fun c => 'A' ≤ c && c ≤ 'Z') ++ word)

/-- The declaration of a component that takes its properties apart, up to the opening brace. -/
def reactSignature (name : String) : Pattern :=
  alt
    ("function" ++ blanks1 ++ lit name.toList ++ blanks ++
      opt ("<" ++ some0 (· != '>') ++ ">") ++ blanks ++ "(" ++ blanks ++ "\x7b")
    (oneOf ["const", "let"] ++ blanks1 ++ lit name.toList ++ blanks ++
      opt (":" ++ some1 (· != '=')) ++ "=" ++ blanks ++ opt "React." ++
      opt (oneOf ["memo(", "forwardRef("]) ++ blanks ++ opt ("async" ++ blanks) ++
      opt ("function" ++ blanks ++ some0 isWord ++ blanks) ++ "(" ++ blanks ++ "\x7b")

/-- A type whose name ends in `Props`, up to the opening brace. -/
def propsType : Pattern :=
  oneOf ["interface", "type"] ++ blanks1 ++ some0 isWord ++ "Props" ++ blanks ++ opt "=" ++
    blanks ++ "\x7b"

def reactProps (name : String) (text : Text) : List String :=
  propNames (((reactSignature name).find text).toList.flatMap flatBody ++
    (propsType.all text).flatMap flatBody)

def inReact (file : String) (text : Text) : List Component :=
  let name := match reactName.find text with
    | some m => m.string 1
    | none => stem file [".jsx", ".tsx"]
  [⟨name, reactProps name text, file, []⟩]

def react : Extractor Component :=
  ⟨"extract_react_components", .eachFile ["**/*.\x7bjsx,tsx\x7d"] inReact⟩

/-! ## Vue -/

/-- A list of properties between brackets. -/
def vueList : Pattern :=
  choice ["props" ++ blanks ++ ":", "defineProps" ++ blanks ++ "("] ++ blanks ++ "[" ++
    group 1 (some1 (· != ']')) ++ "]"

/-- An object or object type of properties, up to the opening brace. -/
def vueObject : Pattern :=
  choice ["props" ++ blanks ++ ":" ++ blanks ++ "\x7b",
    "defineProps" ++ blanks ++ oneOf ["<", "("] ++ blanks ++ "\x7b"]

def inVue (file : String) (text : Text) : List Component :=
  let listed := (vueList.all text).flatMap fun m => quotedStrings (m.group 1)
  let named := propNames ((vueObject.all text).flatMap flatBody)
  [⟨stem file [".vue"], unique (listed ++ named), file, []⟩]

def vue : Extractor Component := ⟨"extract_vue_components", .eachFile ["**/*.vue"] inVue⟩

/-! ## Svelte -/

def svelteExport : Pattern := "export" ++ blanks1 ++ "let" ++ blanks1 ++ group 1 word

def letObject : Pattern := "let" ++ blanks ++ "\x7b"

/-- The properties that the first object pattern takes from the rune `$props`. -/
def runeProps (text : Text) : List String :=
  if text.has (Text.of "$props()") then
    match (letObject.find text).toList.flatMap flatBody with
    | [] => []
    | bodies => propNames bodies
  else []

def inSvelte (file : String) (text : Text) : List Component :=
  [⟨stem file [".svelte"], unique (svelteExport.names 1 text ++ runeProps text), file, []⟩]

def svelte : Extractor Component :=
  ⟨"extract_svelte_components", .eachFile ["**/*.svelte"] inSvelte⟩

end CodeSurvey.Components
