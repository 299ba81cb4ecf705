import CodeSurvey.Disk.Basic

/-!
# Changing a disk

`Node.put` sets what stands at a path and makes the folders on the way. The changes of a `Disk` are
those that its user can make: writing a file, making folders and links, and removing what is no
folder. Links on the way to a location are followed, and a file is written where the link that
stands for it leads.
-/

namespace CodeSurvey.Node

/-- The entries with `name` set to what `change` makes of the present entry. -/
def changeEntry (name : String) (change : Option Node → Node) :
    List (String × Node) → List (String × Node)
  | [] => [(name, change none)]
  | (other, node) :: rest =>
    if other = name then (name, change (some node)) :: rest
    else (other, node) :: changeEntry name change rest

/-- Sets the node at a path below a folder. What is no folder gives way to one. -/
def put (new : Node) : List String → Option Node → Node
  | [], _ => new
  | name :: rest, old =>
    let entries := match old with
      | some (.folder entries) => entries
      | _ => []
    .folder (changeEntry name (put new rest) entries)

/-- The node at a path that passes only through folders. -/
def at? : List String → Node → Option Node
  | [], node => some node
  | name :: rest, .folder entries => (entries.lookup name).bind (at? rest)
  | _ :: _, _ => none

/-- The path from the top to where the names lead from a folder, through folders only; the last name
may be that of nothing yet. `here` is the path of the folder, the last name first, and at most
`links` links are followed. -/
def wayFrom (top : Node) (links : Nat) (here : List String) :
    List String → Except Fault (List String)
  | [] => .ok here.reverse
  | name :: rest =>
    match top.at? here.reverse with
    | some (.folder entries) =>
      if name = "." then wayFrom top links here rest
      else if name = ".." then wayFrom top links here.tail rest
      else if maxNameSize < byteSize name then .error .nameTooLong
      else
        match entries.lookup name, links with
        | none, _ => if rest.isEmpty then .ok (name :: here).reverse else .error .absent
        | some (.link _), 0 => .error .tooManyLinks
        | some (.link target), links + 1 =>
          let start := if (Location.read target).anchor = .here then here else []
          wayFrom top links start (Trail.namesTo target ++ rest)
        | some _, links => wayFrom top links (name :: here) rest
    | some _ => .error .notFolder
    | none => .error .absent
termination_by names => (links, names.length)

end CodeSurvey.Node

namespace CodeSurvey.Disk

/-- The disk with a node set at a path from the top. -/
def putAt (d : Disk) (path : List String) (new : Node) : Disk :=
  { d with top := new.put path (some d.top) }

/-- Why a change cannot be made. -/
inductive Unwritable where
  | fault (why : Fault)
  /-- A folder stands where a file is asked for. -/
  | folder
  /-- Something stands where a folder or a link is to be made. -/
  | taken
  deriving DecidableEq

/-- The path from the top to a location, through folders only. -/
def wayTo (d : Disk) (l : Location) : Except Fault (List String) :=
  match l.fault?, l.anchor with
  | some why, _ => .error why
  | none, .here => d.top.wayFrom Trail.maxLinks [] (d.current ++ l.names)
  | none, _ => d.top.wayFrom Trail.maxLinks [] l.names

/-- The folder that the last name of a location stands in: the path from the top and the entries. -/
def folderOf (d : Disk) (l : Location) : Except Fault (List String × List (String × Node)) :=
  match d.wayTo l.parent with
  | .error why => .error why
  | .ok way =>
    match d.top.at? way with
    | some (.folder entries) =>
      if maxNameSize < byteSize l.name then .error .nameTooLong else .ok (way, entries)
    | some _ => .error .notFolder
    | none => .error .absent

/-! ## Files -/

/-- The disk with a file at a location, in a folder that is there. -/
def write? (d : Disk) (l : Location) (content : Bytes) : Except Unwritable Disk :=
  match d.locate l with
  | .ok (.folder _ :: _) => .error .folder
  | .ok _ | .error .absent =>
    match d.wayTo l with
    | .ok way => .ok (d.putAt way (.file content))
    | .error why => .error (.fault why)
  | .error why => .error (.fault why)

/-- The location from the top of the disk, with the double dots taken out of it. -/
def fromTop (d : Disk) (l : Location) : Location :=
  match l.anchor with
  | .here => Location.settled ⟨.top, d.current ++ l.names⟩
  | _ => l.settled

/-- The disk on which a file at a location is open for writing: if there was none, it is empty.
Double dots in the location count as written. -/
def open? (d : Disk) (l : Location) : Except Unwritable Disk :=
  let l := d.fromTop l
  match d.locate l with
  | .ok (.file _ :: _) => .ok d
  | _ => d.write? l []

/-- The disk without the file or link at a location. -/
def remove? (d : Disk) (l : Location) : Except Unwritable Disk :=
  match d.folderOf l with
  | .error why => .error (.fault why)
  | .ok (way, entries) =>
    match entries.lookup l.name with
    | none => .error (.fault .absent)
    | some (.folder _) => .error .folder
    | some _ => .ok (d.putAt way (.folder (entries.filter (·.1 != l.name))))

/-! ## Folders and links -/

/-- The disk with a new entry at a location at which nothing stands, not even a link. -/
def putNew? (d : Disk) (l : Location) (new : Node) : Except Unwritable Disk :=
  match d.folderOf l with
  | .error why => .error (.fault why)
  | .ok (way, entries) =>
    if (entries.lookup l.name).isSome then .error .taken
    else .ok (d.putAt (way ++ [l.name]) new)

/-- The disk with a folder at a location. -/
def makeFolder? (d : Disk) (l : Location) : Except Unwritable Disk :=
  match d.locate l with
  | .ok (.folder _ :: _) => .ok d
  | _ => d.putNew? l (.folder [])

/-- The disk with a folder at a location, and with those on the way to it. -/
def makeFolders? (d : Disk) (l : Location) : Except Unwritable Disk :=
  match d.locate l with
  | .ok (.folder _ :: _) => .ok d
  | .ok _ => .error .taken
  | .error .absent =>
    (List.range l.names.length).foldlM
      (fun d n => d.makeFolder? ⟨l.anchor, l.names.take (n + 1)⟩) d
  | .error why => .error (.fault why)

end CodeSurvey.Disk
