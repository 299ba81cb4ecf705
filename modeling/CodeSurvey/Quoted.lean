import CodeSurvey.Pattern.Vocabulary
import CodeSurvey.Text.Case

/-!
# Quoted text

Strings between two equal quotes, and the lists of HTTP methods that are written with them.
-/

namespace CodeSurvey

open Pattern

/-- A string between quotes of one kind that holds no quote of either kind. -/
def quoted : Pattern := group 1 quote ++ group 2 (some0 (!isQuote ·)) ++ same 1

def quotedStrings (text : Text) : List String := quoted.names 2 text

def httpVerbs : List String := ["GET", "POST", "PUT", "PATCH", "DELETE"]

def upperOf (s : String) : String := String.ofList (Text.upper s.toList)

/-- The text of group `n` in upper case. -/
def Match.upper (m : Match) (n : Nat) : String := upperOf (m.string n)

/-- The HTTP methods quoted in the text, or the given ones if there are none. -/
def methodList (text : Text) (otherwise : List String) : List String :=
  let verbs := ((quotedStrings text).map upperOf).filter httpVerbs.contains
  if verbs.isEmpty then otherwise else verbs

/-- The methods in a list of arguments: those quoted in the part that the pattern records as group
1, and GET where it has none. -/
def methodsIn (argument : Pattern) (arguments : Text) : List String :=
  match argument.find arguments with
  | some m => methodList (m.group 1) ["GET"]
  | none => ["GET"]

end CodeSurvey
