import CodeSurvey.Location
import CodeSurvey.Text.Encoding

/-!
# The disk

A `Disk` is a tree of files, symbolic links and folders with a current directory. A `Trail` is a
way from the top to a folder or file that passes only through folders; `Disk.locate` finds the
trail of a location and follows the links it meets.
-/

namespace CodeSurvey

inductive Node where
  | file (content : Bytes)
  | link (target : String)
  | folder (entries : List (String × Node))

namespace Node

def isFolder : Node → Bool
  | folder _ => true
  | _ => false

def isFile : Node → Bool
  | file _ => true
  | _ => false

end Node

structure Disk where
  top : Node
  /-- The names on the way from the top to the current directory. -/
  current : List String

/-- The nodes from a place on the disk up to the top, the place itself first. -/
abbrev Trail := List Node

/-- Why a location names nothing, or a tree cannot be walked. -/
inductive Fault where
  | absent
  | notFolder
  | tooManyLinks
  | nameTooLong
  | badName (why : NameFault)
  /-- The directories of the tree stand in each other more deeply than a walk can go. -/
  | tooDeep
  deriving DecidableEq

/-- How many bytes a name may have. -/
def maxNameSize : Nat := 255

/-- How many bytes a path may have. -/
def maxPathSize : Nat := 4095

/-- Why a location names nothing on any disk. -/
def Location.fault? (l : Location) : Option Fault :=
  match nameFault? l.text with
  | some why => some (.badName why)
  | none => if maxPathSize < byteSize l.text then some .nameTooLong else none

namespace Trail

/-- How far a walk along names gets. -/
inductive Reached where
  | goal (trail : Trail)
  | fault (why : Fault)
  /-- A link stands in the way; the rest of the names is still to be walked. -/
  | link (trail : Trail) (target : String) (rest : List String)

/-- Walks along the names up to the first link. A dot stays where it is, which has to be a
folder. -/
def walk : Trail → List String → Reached
  | trail, [] => .goal trail
  | trail, name :: rest =>
    match trail with
    | [] => .fault .absent
    | node :: above =>
      match node with
      | .folder entries =>
        if name = "." then walk trail rest
        else if name = ".." then walk (if above.isEmpty then trail else above) rest
        else if maxNameSize < byteSize name then .fault .nameTooLong
        else
          match entries.lookup name with
          | none => .fault .absent
          | some (.link target) => .link trail target rest
          | some next => walk (next :: trail) rest
      | _ => .fault .notFolder

/-- Where a path read in the last folder of the trail starts. -/
def origin (trail : Trail) : Anchor → Trail
  | .here => trail
  | _ => trail.getLast?.toList

/-- The names on the way that the target of a link describes. A slash or a dot at its end asks for a
folder. -/
def namesTo (target : String) : List String :=
  let lastPiece := target.toList.reverse.takeWhile (· != '/')
  (Location.read target).names ++ if lastPiece.isEmpty || lastPiece = ['.'] then ["."] else []

/-- Walks along the names and follows at most `links` links. -/
def follow : (links : Nat) → Trail → List String → Except Fault Trail
  | links, trail, names =>
    match walk trail names with
    | .goal trail => .ok trail
    | .fault why => .error why
    | .link trail target rest =>
      match links with
      | 0 => .error .tooManyLinks
      | links + 1 =>
        follow links (trail.origin (Location.read target).anchor) (namesTo target ++ rest)

/-- The number of links that are followed on the way to one place. -/
def maxLinks : Nat := 40

/-- Whether a link with this target, in the last folder of the trail, leads to a folder. -/
def leadsToFolder (trail : Trail) (target : String) : Bool :=
  match follow (maxLinks - 1) (trail.origin (Location.read target).anchor) (namesTo target) with
  | .ok (.folder _ :: _) => true
  | _ => false

end Trail

namespace Disk

/-- The trail of the current directory. -/
def here (d : Disk) : Except Fault Trail := Trail.follow Trail.maxLinks [d.top] d.current

def locate (d : Disk) (l : Location) : Except Fault Trail :=
  match l.fault?, l.anchor with
  | some why, _ => .error why
  | none, .here =>
    match d.here with
    | .ok trail => Trail.follow Trail.maxLinks trail l.names
    | .error why => .error why
  | none, _ => Trail.follow Trail.maxLinks [d.top] l.names

/-- What stands at a location, if anything does. Only a name that is too long leaves that open. -/
def node? (d : Disk) (l : Location) : Except Fault (Option Node) :=
  match d.locate l with
  | .ok trail => .ok trail.head?
  | .error .nameTooLong => .error .nameTooLong
  | .error _ => .ok none

def isFolder (d : Disk) (l : Location) : Except Fault Bool :=
  (d.node? l).map fun node => node.any Node.isFolder

def present (d : Disk) (l : Location) : Except Fault Bool := (d.node? l).map Option.isSome

/-- The bytes of the file at a location, if it is one. -/
def bytes? (d : Disk) (l : Location) : Except Fault (Option Bytes) :=
  (d.node? l).map fun
    | some (.file content) => some content
    | _ => none

/-- The text of the file at a location: what is not UTF-8 is left out, and every line end becomes a
line feed. -/
def text? (d : Disk) (l : Location) : Except Fault (Option Text) :=
  (d.bytes? l).map fun content => content.map fun content => content.decode.joinLines

end Disk

end CodeSurvey
