import CodeSurvey.Glob
import CodeSurvey.Listing

/-!
# Sources and scans

A `Source` is what can be seen of the tree under survey: the listed files, which paths exist, and
the texts that can be read. Each look may also fail. A `Scan` is a program that looks at a source
step by step; its later steps may depend on what the earlier ones have seen. `Scan.run` carries it
out on a source that does not change, up to the first look that fails.
-/

namespace CodeSurvey

structure Source where
  /-- The paths of the files, relative to the root of the tree. -/
  files : Except Fault (List String)
  /-- Whether something stands at a path, listed or not. -/
  present : String → Except Fault Bool
  /-- The text at a path, if it can be read. -/
  read : String → Except Fault (Option Text)

/-- The size in bytes up to which a file is read. -/
def maxFileSize : Nat := 1000000

/-- Why a path has no text. -/
inductive Unread where
  | tooLarge
  | folder
  | fault (why : Fault)
  deriving DecidableEq

/-- The text of the file at a location. -/
def Disk.load (d : Disk) (l : Location) : Except Unread Text :=
  match d.locate l with
  | .error why => .error (.fault why)
  | .ok (.file content :: _) =>
    if content.length ≤ maxFileSize then .ok content.decode.joinLines else .error .tooLarge
  | .ok _ => .error .folder

/-- What comes of the outcome of a read. A path that no disk can have makes the read fail. -/
def readResult : Except Unread Text → Except Fault (Option Text)
  | .ok text => .ok (some text)
  | .error (.fault (.badName why)) => .error (.badName why)
  | .error _ => .ok none

/-- The tree at a location of the disk. Directories may stand in each other `depth` deep. -/
def Disk.source (d : Disk) (depth : Nat) (root : Location) (exclude : List String) : Source where
  files := d.listing depth root exclude
  present path := d.present (root.join path)
  read path := readResult (d.load (root.join path))

theorem Disk.source_files (d : Disk) (depth : Nat) (root : Location) (exclude : List String) :
    (d.source depth root exclude).files = d.listing depth root exclude := by rw [source]

theorem Disk.source_present (d : Disk) (depth : Nat) (root : Location) (exclude : List String)
    (path : String) : (d.source depth root exclude).present path = d.present (root.join path) := by
  rw [source]

theorem Disk.source_read (d : Disk) (depth : Nat) (root : Location) (exclude : List String)
    (path : String) :
    (d.source depth root exclude).read path = readResult (d.load (root.join path)) := by
  rw [source]

/-- The files that one of the patterns names, those of the first pattern first, each once. -/
def findFiles (patterns : List String) (files : List String) : List String :=
  (patterns.flatMap fun pattern => Glob.select pattern files).eraseDups

/-- A program that looks at a source. -/
inductive Scan (α : Type) where
  | done (result : α)
  /-- Asks for the list of files. -/
  | files (next : List String → Scan α)
  /-- Asks whether something stands at a path. -/
  | present (path : String) (next : Bool → Scan α)
  /-- Asks for the text at a path. -/
  | read (path : String) (next : Option Text → Scan α)

namespace Scan

variable {α β : Type}

def bind : Scan α → (α → Scan β) → Scan β
  | done a, f => f a
  | files next, f => files fun l => (next l).bind f
  | present path next, f => present path fun b => (next b).bind f
  | read path next, f => read path fun t => (next t).bind f

instance : Monad Scan where
  pure := done
  bind := bind

/-- The result of a scan of a source that does not change, or the fault of the first look that
fails. -/
def run (s : Source) : Scan α → Except Fault α
  | done a => .ok a
  | files next => s.files.bind fun l => (next l).run s
  | present path next => (s.present path).bind fun b => (next b).run s
  | read path next => (s.read path).bind fun t => (next t).run s

/-- The paths that a scan of a source reads, in order. -/
def reads (s : Source) : Scan α → List String
  | done _ => []
  | files next =>
    match s.files with
    | .ok l => (next l).reads s
    | .error _ => []
  | present path next =>
    match s.present path with
    | .ok b => (next b).reads s
    | .error _ => []
  | read path next =>
    path :: match s.read path with
      | .ok t => (next t).reads s
      | .error _ => []

def listFiles : Scan (List String) := files done

def isPresent (path : String) : Scan Bool := present path done

def readText (path : String) : Scan (Option Text) := read path done

/-- The files that one of the patterns names. -/
def find (patterns : List String) : Scan (List String) := files fun l => done (findFiles patterns l)

/-- The results of visiting each item, in order. -/
def collect {ι : Type} (visit : ι → Scan (List β)) : List ι → Scan (List β)
  | [] => done []
  | i :: rest => do
    let found ← visit i
    let later ← collect visit rest
    return found ++ later

/-- The results of visiting the text at a path; what cannot be read has none. -/
def visitText (visit : String → Text → List β) (path : String) : Scan (List β) := do
  let text ← readText path
  return match text with
    | some text => visit path text
    | none => []

/-- The results of visiting the texts at the paths, in order. -/
def eachText (visit : String → Text → List β) (paths : List String) : Scan (List β) :=
  collect (visitText visit) paths

/-- The results of visiting the files that the patterns name. -/
def eachFile (patterns : List String) (visit : String → Text → List β) : Scan (List β) := do
  let paths ← find patterns
  eachText visit paths

end Scan

end CodeSurvey
