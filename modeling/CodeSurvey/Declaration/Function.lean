import CodeSurvey.Declaration.Class

/-!
# Declarations of functions

The names of the functions that a source text declares, one pattern per language, in the order of
the text and with repetitions.
-/

namespace CodeSurvey.Declared

open Pattern

/-! ## Python -/

def pythonDef : Pattern :=
  lineStart ++ blanks ++ opt ("async" ++ blanks1) ++ "def" ++ blanks1 ++ group 1 word ++ blanks ++
    "("

def python (text : Text) : List String := pythonDef.names 1 text

/-- Two underscores on both sides of a word. -/
def dunder : Pattern := textStart ++ "__" ++ word ++ "__" ++ textEnd

def isDunder (name : String) : Bool := (dunder.matchAt? (Place.start name.toList)).isSome

/-! ## Elixir -/

def elixirModuleName : Pattern := "defmodule" ++ blanks1 ++ group 1 (some1 (wordOr ['.']))

/-- The name of the first module of a text. -/
def elixirModule (text : Text) : String :=
  match elixirModuleName.find text with
  | some m => m.string 1
  | none => "Unknown"

/-- A mark that may end the name of a function. -/
def nameMark : Pattern := opt (one fun c => c == '?' || c == '!')

def elixirDef : Pattern :=
  wordEdge ++ "def" ++ blanks1 ++ group 1 (word ++ nameMark) ++ blanks ++
    choice ["(", "," ++ blanks ++ "do:", "do" ++ wordEdge]

def elixir (text : Text) : List String := elixirDef.names 1 text

/-! ## Go -/

/-- A function, perhaps with a receiver. -/
def goFunc : Pattern :=
  lineStart ++ "func" ++ blanks1 ++
    opt ("(" ++ blanks ++ some0 isWord ++ blanks ++ opt "*" ++ word ++ blanks ++ ")" ++ blanks) ++
    group 1 word ++ blanks ++ "("

def go (text : Text) : List String := goFunc.names 1 text

/-! ## JavaScript and TypeScript -/

def scriptFunction : Pattern :=
  lineStart ++ blanks ++ opt ("export" ++ blanks1) ++ opt ("default" ++ blanks1) ++
    opt ("async" ++ blanks1) ++ "function" ++ blanks ++ opt "*" ++ blanks ++ group 1 word

/-- A type annotation that goes on to the end of its line at most. -/
def scriptType (stop : Char) : Pattern := opt (":" ++ some1 (noneOf [stop, '\n']))

/-- A variable whose value is a function. -/
def scriptValue : Pattern :=
  lineStart ++ blanks ++ opt ("export" ++ blanks1) ++ oneOf ["const", "let", "var"] ++ blanks1 ++
    group 2 word ++ blanks ++ scriptType '=' ++ "=" ++ blanks ++ opt ("async" ++ blanks1) ++
    choice ["function" ++ wordEdge,
      "(" ++ some0 (· != ')') ++ ")" ++ blanks ++ scriptType '=' ++ "=>",
      word ++ blanks ++ "=>"]

def scriptExport : Pattern :=
  lineStart ++ blanks ++ opt "module." ++ "exports." ++ group 3 word ++ blanks ++ "="

/-- A method of a class or object, indented. -/
def scriptMethod : Pattern :=
  lineStart ++ some1 isSpace ++ opt ("static" ++ blanks1) ++ opt ("async" ++ blanks1) ++
    group 4 word ++ blanks ++ "(" ++ some0 (· != ')') ++ ")" ++ blanks ++ scriptType '{' ++ "\x7b"

def scriptDeclaration : Pattern := choice [scriptFunction, scriptValue, scriptExport, scriptMethod]

/-- Words that stand before parentheses and braces like the name of a method. -/
def notFunctions : List String :=
  ["if", "for", "while", "switch", "catch", "function", "return", "constructor", "with"]

def scriptName (m : Match) : String := ([1, 2, 3, 4].findSome? m.string?).getD ""

def script (text : Text) : List String :=
  ((scriptDeclaration.all text).map scriptName).filter fun name => !notFunctions.contains name

/-! ## Java, Kotlin and C# -/

def jvmPublic : Pattern :=
  lineStart ++ blanks ++ "public" ++ blanks1 ++
    star (oneOf ["static", "final", "synchronized", "abstract"] ++ blanks1) ++
    opt (typeArguments ++ blanks1) ++ jvmType ++ blanks1 ++ group 1 word ++ blanks ++ "("

def csharpPublic : Pattern :=
  lineStart ++ blanks ++ "public" ++ blanks1 ++
    star (oneOf ["static", "virtual", "override", "async", "sealed"] ++ blanks1) ++
    csharpType ++ blanks1 ++ group 1 word ++ blanks ++ opt ("<" ++ some0 (· != '>') ++ ">") ++
    blanks ++ "("

/-- The public methods of a class, without its constructors. -/
def publicMethods (method : Pattern) (className : String) (text : Text) : List String :=
  unique ((method.names 1 text).filter (· != className))

/-! ## PHP -/

def phpPublic : Pattern :=
  lineStart ++ blanks ++ opt (oneOf ["final", "abstract"] ++ blanks1) ++ "public" ++ blanks1 ++
    opt ("static" ++ blanks1) ++ "function" ++ blanks1 ++ group 1 word ++ blanks ++ "("

/-- The public functions that the language does not call by itself. -/
def php (text : Text) : List String :=
  unique ((phpPublic.names 1 text).filter fun name => !(Text.of "__").isPrefixOf name.toList)

/-! ## Ruby -/

/-- A method: what marks one of the class itself, and the name. -/
def rubyDef : Pattern :=
  lineStart ++ blanks ++ "def" ++ blanks1 ++ opt (group 1 "self.") ++ group 2 (word ++ nameMark)

def ruby (text : Text) : List String := rubyDef.names 2 text

/-- A line that makes the methods below it private or protected. -/
def rubyVisibility : Pattern :=
  lineStart ++ blanks ++ oneOf ["private", "protected"] ++ blanks ++ lineEnd

/-- The methods of instances above the first line that hides those below it. -/
def rubyPublic (text : Text) : List String :=
  let shown := match rubyVisibility.find text with
    | some m => (Place.start text).upTo m.first
    | none => text
  ((rubyDef.all shown).filter fun m => (m.group? 1).isNone).map (·.string 2)

end CodeSurvey.Declared

namespace CodeSurvey

/-- Whether a name starts with an underscore. -/
def isHidden (name : String) : Bool := name.toList.head? = some '_'

end CodeSurvey
