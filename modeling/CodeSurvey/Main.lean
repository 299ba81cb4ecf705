import CodeSurvey.CommandLine.Help
import CodeSurvey.CommandLine.Run

/-!
# The program

Reads the folders that a request is about from the real disk, carries out the request, and writes
what it prints and reports.
-/

namespace CodeSurvey.Program

/-! ## Reading the disk -/

/-- What is known of a link: the file behind it, or the path of the folder it leads to. A link that
leads nowhere is kept as one to itself. -/
def loadLink (e : IO.FS.DirEntry) : IO (Node × List String) := do
  try
    let real ← IO.FS.realPath e.path
    let info ← real.metadata
    match info.type with
    | .dir => return (.link real.toString, [real.toString])
    | _ => return (.file (← IO.FS.readBinFile real).toList, [])
  catch _ => return (.link e.fileName, [])

/-- The node of an entry, and the folders that links in it lead to. Folders that cannot be entered
are empty. -/
partial def loadNode (e : IO.FS.DirEntry) : IO (Node × List String) := do
  let info ← e.path.symlinkMetadata
  match info.type with
  | .dir =>
    let entries ← try e.path.readDir catch _ => pure #[]
    let mut nodes : List (String × Node) := []
    let mut linked : List String := []
    for entry in entries do
      let (node, more) ← loadNode entry
      nodes := (entry.fileName, node) :: nodes
      linked := more ++ linked
    return (.folder nodes, linked)
  | .symlink => loadLink e
  | _ =>
    try
      return (.file (← IO.FS.readBinFile e.path).toList, [])
    catch _ => return (.link e.fileName, [])

/-- The disk with the folders at the given real paths, and those that links in them lead to. -/
partial def loadFolders (d : Disk) (done : List String) : List String → IO Disk
  | [] => return d
  | path :: rest => do
    if done.contains path then loadFolders d done rest
    else
      let (node, linked) ← loadNode ⟨path, ""⟩
      let d := { d with top := node.put (Location.namesIn path) (some d.top) }
      loadFolders d (path :: done) (rest ++ linked)

/-- The disk with what stands at a location. -/
def loadAt (d : Disk) (l : Location) : IO Disk := do
  try
    let real ← IO.FS.realPath l.text
    let d ← loadFolders d [] [real.toString]
    let names := match l.anchor with
      | .here => d.current ++ l.names
      | _ => l.names
    if names.contains ".." || names = Location.namesIn real.toString then return d
    else return { d with top := (Node.link real.toString).put names (some d.top) }
  catch _ => return d

/-- The locations that a request is about. -/
def locations (homes : Homes) : Command → List Location
  | .analyze path _ _ => expanded path
  | .detect path => expanded path
  | .gaps path docs => expanded path ++ docs.toList.map Location.read
  | .serve _ _ => []
where
  expanded (path : String) : List Location :=
    ((Location.read path).expand homes).toOption.toList

/-- The disk as far as a request is about it. -/
def loadDisk (homes : Homes) (command : Command) : IO Disk := do
  let current := Location.namesIn (← IO.FS.realPath ".").toString
  let mut d : Disk := ⟨(Node.folder []).put current none, current⟩
  for l in locations homes command do
    d ← loadAt d l
  return d

/-- A user and the home directory in a line of the table of users. -/
def userHome? (line : String) : Option (String × String) :=
  match (Text.splitOn line.toList (· == ':')).map String.ofList with
  | name :: _ :: _ :: _ :: _ :: home :: _ => some (name, home)
  | _ => none

def loadHomes : IO Homes := do
  let table ← try IO.FS.readFile "/etc/passwd" catch _ => pure ""
  let users := (Text.lines table.toList).filterMap fun line => userHome? (String.ofList line)
  return ⟨(← IO.getEnv "HOME").getD "/", users⟩

/-! ## Writing -/

def faultText : RequestFault → String
  | .survey (.root fault) => fault.message
  | .survey (.settings .notText) => Settings.fileName ++ " is not UTF-8"
  | .survey (.settings (.value fault)) => Settings.fileName ++ ": " ++ fault.message
  | .survey (.settings _) => Settings.fileName ++ " cannot be read"
  | .survey (.package fault) => "package.json: " ++ fault.message []
  | .survey .noWorkers => "max_workers must be greater than 0"
  | .survey (.disk why) => why.description
  | .survey .tooDeep => "the manifest cannot be reported"
  | .logFile _ => "the log file cannot be written"
  | .noDocuments => "no folder of documents is named"
  | .server => "no server is started"

/-- Writes an outcome. Lines are added to the log file without their times. -/
def write (r : Request) (outcome : Outcome) : IO UInt32 := do
  for line in outcome.console do
    (← IO.getStderr).putStrLn line
  match r.logFile with
  | some path =>
    let log ← IO.FS.Handle.mk path .append
    for line in outcome.log do
      log.putStrLn line
  | none => pure ()
  (← IO.getStdout).putStr (String.ofList outcome.output)
  return outcome.code.toUInt32

def run (args : List String) : IO UInt32 := do
  match Request.ofArguments args with
  | .error (.help command) =>
    (← IO.getStdout).putStr (String.ofList (Help.text command))
    return 0
  | .error .noLogFile =>
    (← IO.getStderr).putStrLn "codeingest: no log file is named"
    return 1
  | .error .wrong =>
    (← IO.getStderr).putStr (String.ofList (Help.text none))
    return 2
  | .ok request =>
    let homes ← loadHomes
    let d ← loadDisk homes request.command
    match request.run d ⟨homes, .usual⟩ with
    | .ok outcome => write request outcome
    | .error fault =>
      (← IO.getStderr).putStrLn ("codeingest " ++ request.command.name ++ ": " ++ faultText fault)
      return 1

end CodeSurvey.Program

def main (args : List String) : IO UInt32 := CodeSurvey.Program.run args
