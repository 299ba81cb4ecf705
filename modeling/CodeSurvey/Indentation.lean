import CodeSurvey.Text.Lines
import CodeSurvey.Pattern.Vocabulary

/-!
# Indented blocks

In an indented language the body of a declaration is the run of lines below it that are indented
at least as far as the first of them. Blank lines belong to the block they stand in.
-/

namespace CodeSurvey

/-- The lines of the block that starts with the first line that is not blank. -/
def blockLines (lines : List Text) : List Text :=
  go lines none []
where
  /-- `base` is the indentation of the block, once a line has set it. -/
  go : List Text → Option Nat → List Text → List Text
    | [], _, block => block.reverse
    | line :: rest, base, block =>
      if line.isBlankText then go rest base (line :: block)
      else
        match base with
        | none =>
          if line.indent = 0 then block.reverse else go rest (some line.indent) (line :: block)
        | some base =>
          if line.indent < base then block.reverse else go rest (some base) (line :: block)

def joinedLines (lines : List Text) : Text := Text.joinWith ['\n'] lines

/-- The block that starts on the line below the front of the text. -/
def indentedBlock (text : Text) : Text :=
  match text.dropWhile (· != '\n') with
  | [] => []
  | _ :: below => joinedLines (blockLines (Text.lines below))

/-- A text between two triple quotes. -/
def docString : Pattern :=
  .group 1 (.oneOf ["\"\"\"", "'''"]) ++ .shortestText ++ .same 1

/-- The lines of a block that are indented least, without the texts between triple quotes. -/
def topLevelLines (body : Text) : Text :=
  let lines := ((docString.erase body).lines).filter (!·.isBlankText)
  match (lines.map Text.indent).min? with
  | none => []
  | some base => joinedLines (lines.filter (·.indent == base))

end CodeSurvey
