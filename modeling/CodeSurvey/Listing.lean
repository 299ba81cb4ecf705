import CodeSurvey.Disk.Basic

/-!
# Listing the files of a tree

A listing holds the paths of the files and links below a folder, relative to it, in ascending
order. Entries with an excluded name are left out, with everything below them. A link that leads
to a folder is neither listed nor entered.

The walk through the tree asks for each folder by its whole path. What stands in a folder whose path
is too long is passed over without a fault. The walk calls itself for each folder, so that there is
no listing of a tree whose directories stand in each other too deeply.
-/

namespace CodeSurvey

/-- The names of directories that hold no sources of their own: dependencies, build products and
the stores of version control. -/
def excludedNames : List String :=
  [".git", ".hg", ".svn", "node_modules", "bower_components", "_build", "deps", "vendor",
   "__pycache__", ".venv", "venv", ".tox", ".mypy_cache", ".pytest_cache", "dist", "build",
   "target", "bin", "obj", ".next", ".nuxt", ".svelte-kit"]

/-- Whether entries of this name are left out. -/
def isExcluded (exclude : List String) (name : String) : Bool :=
  excludedNames.contains name || (!name.isEmpty && exclude.contains name)

/-- Whether a path can be asked for that consists of `size` bytes and the names, with a slash
between each name and the next. -/
def pathFits (size : Nat) (names : List String) : Bool :=
  names.foldl (fun size name => size + byteSize name + 1) size ≤ maxPathSize + 1

/-- What a walk takes an entry for. -/
inductive Kind where
  /-- A file, or a link that is not seen to lead to a folder. -/
  | file
  /-- A link to a folder. -/
  | link
  | folder
  deriving DecidableEq

/-- An entry that a walk comes to, with the names that lead to it. -/
structure Found where
  names : List String
  kind : Kind
  deriving DecidableEq

namespace Found

/-- What is found in a folder of this name. -/
def under (name : String) (f : Found) : Found := { f with names := name :: f.names }

def isDirectory (f : Found) : Bool := f.kind != .file

/-- The names that lead to the files among what is found. -/
def files (found : List Found) : List (List String) :=
  (found.filter fun f => !f.isDirectory).map (·.names)

/-- Whether a directory among what is found stands deeper than `depth`. -/
def anyDeeper (depth : Nat) (found : List Found) : Bool :=
  found.any fun f => f.isDirectory && depth < f.names.length

end Found

mutual
/-- What a walk comes to at an entry of the last folder of the trail. In the paths of the entries
`size` bytes stand before their names. -/
def walkEntry (skip : String → Bool) (size : Nat) (trail : Trail) (name : String) :
    Node → List Found
  | .file _ => [⟨[name], .file⟩]
  | .link target =>
    [⟨[name], if pathFits size [name] && trail.leadsToFolder target then .link else .file⟩]
  | .folder entries =>
    ⟨[name], .folder⟩ ::
      if pathFits size [name] then
        (walkEntries skip (size + byteSize name + 1) (.folder entries :: trail) entries).map
          (Found.under name)
      else []

/-- What a walk comes to below the last folder of the trail, which has these entries. -/
def walkEntries (skip : String → Bool) (size : Nat) (trail : Trail) :
    List (String × Node) → List Found
  | [] => []
  | (name, node) :: rest =>
    (if skip name then [] else walkEntry skip size trail name node) ++
      walkEntries skip size trail rest
end

/-- What a walk comes to below a location. Below what is no folder there is nothing. -/
def Disk.walk (d : Disk) (size : Nat) (root : Location) (skip : String → Bool) :
    Except Fault (List Found) :=
  match d.locate root with
  | .ok (.folder entries :: above) => .ok (walkEntries skip size (.folder entries :: above) entries)
  | .error .nameTooLong => .error .nameTooLong
  | _ => .ok []

/-- How many bytes stand before the first name in the paths that a walk below a location asks
for. -/
def Location.lead (l : Location) : Nat := byteSize l.text + if hasEnding l.text "/" then 0 else 1

/-- The paths of the files below a location, in ascending order. Directories may stand in each other
`depth` deep. -/
def Disk.listing (d : Disk) (depth : Nat) (root : Location) (exclude : List String) :
    Except Fault (List String) :=
  (d.walk root.lead root (isExcluded exclude)).bind fun found =>
    if Found.anyDeeper depth found then .error .tooDeep
    else .ok (((Found.files found).map (String.intercalate "/")).mergeSort Text.inOrder)

end CodeSurvey
