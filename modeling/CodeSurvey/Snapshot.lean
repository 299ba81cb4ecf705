import CodeSurvey.Source

/-!
# Snapshots

A `Snapshot` is a source that is filled in while it is looked at: the listing is made when it is
first asked for, a text is loaded when it is first read, and both stay as they were then, whatever
happens to the disk afterwards. Only the presence of a path is asked of the disk every time.
-/

namespace CodeSurvey

structure Snapshot where
  root : Location
  exclude : List String
  /-- The listing, once it was asked for. -/
  listed : Option (List String)
  /-- The outcome of the first read of each path that was read, the last one first. -/
  loaded : List (String × Except Unread Text)

namespace Snapshot

def new (root : Location) (exclude : List String) : Snapshot := ⟨root, exclude, none, []⟩

def files (d : Disk) (depth : Nat) (s : Snapshot) : Except Fault (List String) × Snapshot :=
  match s.listed with
  | some files => (.ok files, s)
  | none =>
    match d.listing depth s.root s.exclude with
    | .ok files => (.ok files, { s with listed := some files })
    | .error why => (.error why, s)

def present (d : Disk) (s : Snapshot) (path : String) : Except Fault Bool :=
  d.present (s.root.join path)

def read (d : Disk) (s : Snapshot) (path : String) : Except Fault (Option Text) × Snapshot :=
  match s.loaded.lookup path with
  | some outcome => (readResult outcome, s)
  | none =>
    let outcome := d.load (s.root.join path)
    match readResult outcome with
    | .ok text => (.ok text, { s with loaded := (path, outcome) :: s.loaded })
    | .error why => (.error why, s)

/-- The paths whose first read gave no text, in the order of these reads. -/
def unread (s : Snapshot) : List (String × Unread) :=
  s.loaded.reverse.filterMap fun (path, outcome) =>
    match outcome with
    | .error why => some (path, why)
    | .ok _ => none

/-- Goes on with what a look found, unless it failed. -/
def andThen {α β : Type} (look : Except Fault β × Snapshot)
    (next : β → Snapshot → Except Fault α × Snapshot) : Except Fault α × Snapshot :=
  match look with
  | (.ok found, s) => next found s
  | (.error why, s) => (.error why, s)

/-- Carries out a scan on a disk that does not change in the meantime, up to the first look that
fails. What was seen before it is kept. In a tree that is listed directories may stand in each other
`depth` deep. -/
def perform {α : Type} (d : Disk) (depth : Nat) : Scan α → Snapshot → Except Fault α × Snapshot
  | .done a, s => (.ok a, s)
  | .files next, s => andThen (s.files d depth) fun l s => perform d depth (next l) s
  | .present path next, s => andThen (s.present d path, s) fun b s => perform d depth (next b) s
  | .read path next, s => andThen (s.read d path) fun text s => perform d depth (next text) s

end Snapshot

end CodeSurvey
