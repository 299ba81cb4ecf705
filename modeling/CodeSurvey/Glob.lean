import CodeSurvey.Text.Blank

/-!
# Globs

A glob names files by their path. `*` and `?` stay within one segment of the path, `**` spans
segments, and `{a,b}` lists alternatives. `Glob.read` takes a glob apart and `Glob.fits` decides
whether a path, as a whole, is one of those named.
-/

namespace CodeSurvey

/-- A piece of a glob and what it stands for. -/
inductive GlobPiece where
  /-- `**/`: nothing, or any number of whole segments. -/
  | segments
  /-- `**`: any text without a line feed. -/
  | anything
  /-- `*`: any text within a segment. -/
  | run
  /-- `?`: one character within a segment. -/
  | single
  /-- `{a,b}`: one of the texts. -/
  | choice (options : List Text)
  | char (c : Char)
  deriving DecidableEq

abbrev Glob := List GlobPiece

namespace Glob

/-- The text up to the next closing brace, and the number of its characters. -/
def group? (text : Text) : Option Text :=
  if text.contains '}' then some (text.takeWhile (· != '}')) else none

def read (text : Text) : Glob :=
  let text := text.trim
  go (if ['.', '/'].isPrefixOf text then text.drop 2 else text) 0
where
  /-- `skip` characters belong to the piece before. -/
  go : Text → Nat → Glob
    | [], _ => []
    | _ :: rest, skip + 1 => go rest skip
    | c :: rest, 0 =>
      if c = '*' then
        if ['*', '/'].isPrefixOf rest then .segments :: go rest 2
        else if ['*'].isPrefixOf rest then .anything :: go rest 1
        else .run :: go rest 0
      else if c = '?' then .single :: go rest 0
      else if c = '{' then
        match group? rest with
        | some body => .choice (body.splitOn (· == ',')) :: go rest (body.length + 1)
        | none => .char c :: go rest 0
      else .char c :: go rest 0

/-- The text and what is left of it after each of its first characters of the class. -/
def tails (ok : Char → Bool) : Text → List Text
  | [] => [[]]
  | c :: rest => (c :: rest) :: if ok c then tails ok rest else []

/-- What is left of the text after each slash before the first line feed. -/
def afterSlashes : Text → List Text
  | [] => []
  | c :: rest =>
    if c = '\n' then []
    else if c = '/' then rest :: afterSlashes rest
    else afterSlashes rest

/-- Whether the glob stands for the text as a whole. -/
def fits : Glob → Text → Bool
  | [], text => text.isEmpty
  | .segments :: pieces, text => fits pieces text || (afterSlashes text).any (fits pieces)
  | .anything :: pieces, text => (tails (· != '\n') text).any (fits pieces)
  | .run :: pieces, text => (tails (· != '/') text).any (fits pieces)
  | .single :: pieces, text =>
    match text with
    | [] => false
    | c :: rest => c != '/' && fits pieces rest
  | .choice options :: pieces, text =>
    options.any fun option => option.isPrefixOf text && fits pieces (text.drop option.length)
  | .char c :: pieces, text =>
    match text with
    | [] => false
    | d :: rest => c == d && fits pieces rest

/-- The paths that the glob stands for, in their order. -/
def select (pattern : String) (paths : List String) : List String :=
  let glob := read pattern.toList
  paths.filter fun path => glob.fits path.toList

end Glob

end CodeSurvey
