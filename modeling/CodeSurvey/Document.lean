import CodeSurvey.Listing
import CodeSurvey.Pattern.Vocabulary

/-!
# Documentation

The documents of a folder are its Markdown and HTML files at any depth. The title of a document is
its first heading, or the title that an HTML file declares, or else a name made from the file's.
-/

namespace CodeSurvey

open Pattern

structure Document where
  title : String
  content : String
  /-- The path of the file below the folder. -/
  source : String
  deriving DecidableEq

namespace Document

def endings : List String := [".md", ".markdown", ".html"]

/-- A heading of the first level; number signs at its end do not belong to the title. -/
def heading : Pattern :=
  lineStart ++ "#" ++ blanks1 ++
    group 1 (many (· != '\n') 1 true) ++ blanks ++ some0 (· == '#') ++ blanks ++ lineEnd

/-- Reads a word of lower case letters in any case. The dotted and the dotless i are an i, too. -/
def anyCase (word : String) : Pattern :=
  word.toList.foldr
    (fun w rest =>
      (one fun c => c == w || c == w.toUpper || (w == 'i' && (c == 'İ' || c == 'ı'))) ++ rest)
    .empty

def declaredTitle : Pattern :=
  "<" ++ anyCase "title" ++ ">" ++ group 1 shortestText ++ "</" ++ anyCase "title" ++ ">"

/-- A name made from that of a file: without the extension, underscores and hyphens as spaces. -/
def nameTitle (file : String) : String :=
  String.ofList ((withoutExtension file).toList.map fun c =>
    if c == '_' || c == '-' then ' ' else c)

/-- The title of a document in a file of the given name. -/
def titleOf (file : String) (content : Text) : String :=
  let pattern := if extensionOf file = ".html" then declaredTitle else heading
  let title := ((pattern.find content).map fun m => (m.group 1).trim).getD []
  if title.isEmpty then nameTitle file else String.ofList title

/-- The document at a path, given by its segments, below a folder. -/
def load? (d : Disk) (folder : Location) (segments : List String) :
    Except Fault (Option Document) :=
  let source := String.intercalate "/" segments
  (d.text? (folder.join source)).map fun content =>
    content.map fun content =>
      ⟨titleOf (segments.getLast?.getD "") content, String.ofList content, source⟩

/-- Whether a path, given by its segments, is another one or comes before it: the first segments
that differ decide, and a path comes before those below it. -/
def isInOrder : List String → List String → Bool
  | [], _ => true
  | _ :: _, [] => false
  | a :: rest, b :: other => if a = b then isInOrder rest other else decide (Text.Precedes a b)

/-- The paths, by their segments, of the files and links below a folder. Its folders may stand in
each other `depth` deep, and none of them may have a path that is too long. In a folder where both
is so, the enumeration decides what shows first; here the depth counts. -/
def paths (d : Disk) (depth : Nat) (folder : Location) : Except Fault (List (List String)) :=
  let size := byteSize (folder.entry "").text
  (d.walk size folder fun _ => false).bind fun found =>
    let folders := found.filter fun f => f.kind = .folder
    if folders.any fun f => depth < f.names.length then .error .tooDeep
    else if folders.any fun f => !pathFits size f.names then .error .nameTooLong
    else .ok (Found.files found)

/-- The documents of a folder, ordered by the segments of their paths. -/
def loadAll (d : Disk) (depth : Nat) (folder : Location) : Except Fault (List Document) := do
  let isDocument (segments : List String) : Bool :=
    endings.any (hasEnding (segments.getLast?.getD ""))
  let paths := (← paths d depth folder).filter isDocument
  let documents ← (paths.mergeSort isInOrder).mapM (load? d folder)
  return documents.filterMap id

end Document

/-! ## The readme -/

def readmeNames : List String := ["README.md", "readme.md", "README", "README.txt"]

/-- The text of the first file at the root of a tree that has one of the names. -/
def Disk.firstText (d : Disk) (root : Location) : List String → Except Fault (Option Text)
  | [] => .ok none
  | name :: rest =>
    match d.text? (root.join name) with
    | .ok none => d.firstText root rest
    | outcome => outcome

/-- The text of the readme at the root of a tree. -/
def Disk.readme (d : Disk) (root : Location) : Except Fault (Option String) :=
  (d.firstText root readmeNames).map fun text => text.map String.ofList

end CodeSurvey
