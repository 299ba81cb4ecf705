import CodeSurvey.Text.Blank
import CodeSurvey.Text.Half

/-!
# Locations

A `Location` is a path as a user writes it: where it starts and the names on the way. Empty names
and single dots are left out; double dots are kept, because what they mean depends on the links on
the disk.
-/

namespace CodeSurvey

inductive Anchor where
  /-- The current directory. -/
  | here
  /-- The top of the disk. -/
  | top
  /-- The top of the disk, written with exactly two slashes. -/
  | twoSlashes
  deriving DecidableEq

structure Location where
  anchor : Anchor
  names : List String
  deriving DecidableEq

namespace Location

/-- The names between the slashes of a path, without the empty ones and the single dots. -/
def namesIn (path : String) : List String :=
  (((Text.of path).splitOn (· == '/')).map String.ofList).filter fun name =>
    !name.isEmpty && name != "."

def read (path : String) : Location :=
  let slashes := (path.toList.takeWhile (· == '/')).length
  ⟨if slashes = 0 then .here else if slashes = 2 then .twoSlashes else .top, namesIn path⟩

def text (l : Location) : String :=
  let names := String.intercalate "/" l.names
  match l.anchor with
  | .here => if l.names.isEmpty then "." else names
  | .top => "/" ++ names
  | .twoSlashes => "//" ++ names

/-- The location of a path that is written relative to `l`. -/
def join (l : Location) (path : String) : Location :=
  let other := read path
  match other.anchor with
  | .here => ⟨l.anchor, l.names ++ other.names⟩
  | _ => other

/-- The location of an entry. -/
def entry (l : Location) (name : String) : Location := ⟨l.anchor, l.names ++ [name]⟩

/-- The last name; empty if there is none. -/
def name (l : Location) : String := l.names.getLast?.getD ""

def parent (l : Location) : Location := ⟨l.anchor, l.names.dropLast⟩

/-- The location without double dots, each of which is taken to lead back from the name before it.
At the start they lead nowhere. -/
def settled (l : Location) : Location :=
  ⟨l.anchor, (l.names.foldl (fun kept name => if name = ".." then kept.tail else name :: kept)
    []).reverse⟩

end Location

/-! ## Impossible names -/

/-- Why a text names nothing on any disk. -/
inductive NameFault where
  /-- It holds a null character, with which names end. -/
  | null
  /-- It holds half of a pair, which has no bytes. -/
  | half
  deriving DecidableEq

def NameFault.message : NameFault → String
  | null => "embedded null byte"
  | half => "surrogates not allowed"

/-- Whether a character stands for a half that no byte is named by. The last 128 halves name the
bytes that belong to no character. A name on a disk may have one of the characters that stand for
halves here; such a name is refused. -/
def isNamelessHalf (c : Char) : Bool := (Text.half? c).any fun n => n < 0xDC80 || 0xDCFF < n

/-- Why a text can be no name or path, if it cannot. -/
def nameFault? (name : String) : Option NameFault :=
  if name.toList.any isNamelessHalf then some .half
  else if name.toList.contains (Char.ofNat 0) then some .null
  else none

/-- How many bytes a name or path has. A half is the one byte that it names. -/
def byteSize (name : String) : Nat :=
  name.toList.foldl (fun size c => size + if Text.isHalf c then 1 else c.utf8Size) 0

/-! ## File names -/

/-- The name without its last extension. A dot at either end starts no extension. -/
def withoutExtension (name : String) : String :=
  let chars := name.toList
  let extension := (chars.reverse.takeWhile (· != '.')).length
  if 0 < extension ∧ extension + 1 < chars.length then
    String.ofList (chars.take (chars.length - extension - 1))
  else name

/-- The last extension of a name with its dot; empty if there is none. -/
def extensionOf (name : String) : String :=
  String.ofList (name.toList.drop (withoutExtension name).toList.length)

def hasEnding (path ending : String) : Bool := (Text.of ending).isSuffixOf path.toList

/-- The name of a file without the first of the endings that it has, or else without its last
extension. An empty ending takes the whole name. -/
def stem (path : String) (endings : List String) : String :=
  let name := (Location.read path).name
  match endings.find? (hasEnding name) with
  | some ending =>
    if ending.isEmpty then ""
    else String.ofList (name.toList.take (name.toList.length - ending.toList.length))
  | none => withoutExtension name

end CodeSurvey
