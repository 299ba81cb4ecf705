import CodeSurvey.Models.Braced
import CodeSurvey.Routes.Script
import CodeSurvey.Text.Case
import CodeSurvey.Text.Lines

/-!
# Models of JavaScript and TypeScript applications

Prisma models, TypeScript interfaces and object types, and Mongoose schemas. The models of a
JavaScript application include those of its TypeScript sources, and these include Prisma models.
-/

namespace CodeSurvey.Models

open Pattern

/-! ## Prisma -/

def prismaModel : Pattern :=
  lineStart ++ "model" ++ blanks1 ++ group 1 word ++ blanks ++ "\x7b"

def prismaField : Pattern :=
  textStart ++ blanks ++ group 1 word ++ blanks1 ++ group 2 (some1 (wordOr ['[', ']', '?']))

/-- The field of a line that is neither blank nor a comment nor an attribute of the model. -/
def prismaLineField (line : Text) : List Field :=
  let content := line.trim
  if content.isEmpty || startsWithAny ["//", "@@"] content then []
  else match prismaField.matchAt? (Place.start line) with
    | none => []
    | some m => [⟨m.string 1, m.string 2⟩]

def prismaFields (body : Text) : List Field := body.lines.flatMap prismaLineField

def prisma : Extractor Model :=
  ⟨"extract_prisma_models", .eachFile ["**/*.prisma"] (inBraces prismaModel prismaFields)⟩

/-! ## TypeScript -/

/-- An interface or an object type. -/
def tsDeclaration : Pattern :=
  wordEdge ++ oneOf ["interface", "type"] ++ blanks1 ++ group 1 word ++ blanks ++
    opt ("<" ++ some0 (noneOf ['>', '{', '=']) ++ ">") ++ blanks ++
    opt ("extends" ++ blanks1 ++ many (· != '{') 1 true) ++ blanks ++ opt "=" ++ blanks ++ "\x7b"

/-- A member: the name and what follows the colon, to the end of the text. -/
def tsMember : Pattern :=
  textStart ++ opt ("readonly" ++ blanks1) ++ opt quote ++ group 1 word ++ opt quote ++ blanks ++
    opt "?" ++ blanks ++ ":" ++ blanks ++ group 2 (some1 fun _ => true) ++ textEnd

def isEntrySeparator (c : Char) : Bool := c == ',' || c == ';' || c == '\n'

def tsEntryField (entry : Text) : List Field :=
  if startsWithAny ["//", "/*", "*"] entry then []
  else match tsMember.matchAt? (Place.start entry) with
    | none => []
    | some m =>
      let type := (m.group 2).trim
      [⟨m.string 1, if type = ['{', '}'] then "object" else String.ofList type⟩]

def tsFields (body : Text) : List Field :=
  (splitTopLevel isEntrySeparator (flattenNested '{' '}' body)).flatMap tsEntryField

/-- The interfaces and object types of TypeScript sources, then the Prisma models. -/
def typeScript : Extractor Model where
  label := "extract_ts_models"
  scan := do
    let declared ← Scan.eachFile ["**/*.\x7bts,tsx\x7d"] (inBraces tsDeclaration tsFields)
    let stored ← prisma.scan
    return declared ++ stored

/-! ## Mongoose -/

def mongooseSchema : Pattern :=
  oneOf ["const", "let", "var"] ++ blanks1 ++ group 1 (many isWord 1 true) ++ "Schema" ++ blanks ++
    "=" ++ blanks ++ "new" ++ blanks1 ++ opt "mongoose." ++ "Schema" ++ blanks ++
    opt ("<" ++ some0 (· != '>') ++ ">") ++ blanks ++ "(" ++ blanks ++ "\x7b"

/-- The option `type` of a field. -/
def mongooseType : Pattern :=
  wordEdge ++ "type" ++ blanks ++ ":" ++ blanks ++ group 1 (some1 (wordOr ['.', '[', ']']))

def mongooseEntryField (entry : Text) : List Field :=
  match tsMember.matchAt? (Place.start entry) with
  | none => []
  | some m =>
    let value := (m.group 2).trim
    let type :=
      if value.head? = some '{' then
        match mongooseType.find value with
        | some t => t.group 1
        | none => Text.of "Mixed"
      else value
    [⟨m.string 1, String.ofList type⟩]

def mongooseFields (body : Text) : List Field :=
  (splitTopLevel (fun c => c == ',' || c == '\n') body).flatMap mongooseEntryField

/-- The name with its first character in upper case. -/
def upperFirst (name : String) : String :=
  match name.toList with
  | [] => ""
  | c :: rest => String.ofList (Text.upperChar c ++ rest)

def inMongoose (file : String) (text : Text) : List Model :=
  (inBraces mongooseSchema mongooseFields file text).map fun m =>
    { m with name := upperFirst m.name }

/-- The Mongoose schemas of script files, then what TypeScript sources hold. -/
def javaScript : Extractor Model where
  label := "extract_js_models"
  scan := do
    let schemas ← Scan.eachFile [scriptFiles "**/"] inMongoose
    let declared ← typeScript.scan
    return schemas ++ declared

end CodeSurvey.Models
