import CodeSurvey.Disk.Edit

/-!
# Proper trees

A tree as a disk can hold it: the entries of a folder have different names, and each name is one
that an entry can have. `Node.everyFolder` tests the entries of all folders of a node; what holds of
all folders of a node holds of all folders of the nodes below it.
-/

namespace CodeSurvey

/-- Whether an entry of a folder can have the name. This shuts out names that a disk may have, those
with a character that stands for a half of a pair (`isNamelessHalf`): what holds of proper trees is
said of trees without such names. -/
def isEntryName (name : String) : Bool :=
  !name.isEmpty && name != "." && name != ".." && !name.toList.contains '/' &&
    (nameFault? name).isNone && byteSize name ≤ maxNameSize

theorem mem_of_lookup {κ α : Type} [BEq κ] [LawfulBEq κ] {entries : List (κ × α)} {key : κ} {a : α}
    (found : entries.lookup key = some a) : (key, a) ∈ entries := by
  obtain ⟨before, after, rfl, _⟩ := List.lookup_eq_some_iff.1 found
  simp

namespace Node

mutual
/-- Whether the entries of the node, and those of every folder below it, pass the test. -/
def everyFolder (ok : List (String × Node) → Bool) : Node → Bool
  | folder entries => ok entries && everyFolderBelow ok entries
  | _ => true

/-- Whether the entries of every folder among these, and below them, pass the test. -/
def everyFolderBelow (ok : List (String × Node) → Bool) : List (String × Node) → Bool
  | [] => true
  | (_, node) :: rest => node.everyFolder ok && everyFolderBelow ok rest
end

/-- Whether no two entries of a folder have the same name, and each has one that it can have. -/
def isProper : Node → Bool :=
  everyFolder fun entries =>
    decide (entries.map (·.1)).Nodup && entries.all fun entry => isEntryName entry.1

def isLink : Node → Bool
  | link _ => true
  | _ => false

/-- Whether there is no link below a node. -/
def isLinkFree : Node → Bool := everyFolder fun entries => entries.all fun entry => !entry.2.isLink

/-! ## Tests of all folders -/

section
variable {ok : List (String × Node) → Bool}

theorem everyFolderBelow_iff {entries : List (String × Node)} :
    everyFolderBelow ok entries = true ↔ ∀ entry ∈ entries, entry.2.everyFolder ok = true := by
  induction entries with
  | nil => simp [everyFolderBelow]
  | cons entry rest ih =>
    obtain ⟨name, node⟩ := entry
    simp only [everyFolderBelow, Bool.and_eq_true, ih, List.forall_mem_cons]

theorem everyFolder_folder {entries : List (String × Node)} :
    (folder entries).everyFolder ok = true ↔
      ok entries = true ∧ ∀ entry ∈ entries, entry.2.everyFolder ok = true := by
  simp only [everyFolder, Bool.and_eq_true, everyFolderBelow_iff]

theorem everyFolder_lookup {entries : List (String × Node)} {name : String} {node : Node}
    (h : (folder entries).everyFolder ok = true) (found : entries.lookup name = some node) :
    node.everyFolder ok = true :=
  (everyFolder_folder.1 h).2 _ (mem_of_lookup found)

theorem everyFolder_at? {path : List String} {node below : Node} (h : node.everyFolder ok = true)
    (found : node.at? path = some below) : below.everyFolder ok = true := by
  induction path generalizing node with
  | nil => cases found; exact h
  | cons name path ih =>
    cases node with
    | folder entries =>
      obtain ⟨next, looked, found⟩ := Option.bind_eq_some_iff.1 found
      exact ih (everyFolder_lookup h looked) found
    | file content => cases found
    | link target => cases found

end

/-! ## Names -/

theorem isProper_folder {entries : List (String × Node)} :
    (folder entries).isProper = true ↔ (entries.map (·.1)).Nodup ∧
      ∀ entry ∈ entries, isEntryName entry.1 = true ∧ entry.2.isProper = true := by
  simp only [isProper, everyFolder_folder, Bool.and_eq_true, decide_eq_true_eq, List.all_eq_true]
  exact ⟨fun ⟨⟨h1, h2⟩, h3⟩ => ⟨h1, fun e he => ⟨h2 e he, h3 e he⟩⟩,
    fun ⟨h1, h2⟩ => ⟨⟨h1, fun e he => (h2 e he).1⟩, fun e he => (h2 e he).2⟩⟩

theorem isLinkFree_folder {entries : List (String × Node)} :
    (folder entries).isLinkFree = true ↔
      ∀ entry ∈ entries, entry.2.isLink = false ∧ entry.2.isLinkFree = true := by
  simp only [isLinkFree, everyFolder_folder, List.all_eq_true, Bool.not_eq_true']
  exact ⟨fun ⟨h1, h2⟩ e he => ⟨h1 e he, h2 e he⟩,
    fun h => ⟨fun e he => (h e he).1, fun e he => (h e he).2⟩⟩

/-- With different names, looking up the name of an entry finds the entry. -/
theorem lookup_of_mem {entries : List (String × Node)} {name : String} {node : Node}
    (distinct : (entries.map (·.1)).Nodup) (h : (name, node) ∈ entries) :
    entries.lookup name = some node := by
  obtain ⟨before, after, rfl⟩ := List.append_of_mem h
  refine List.lookup_eq_some_iff.2 ⟨before, after, rfl, fun entry he => ?_⟩
  simp only [List.map_append, List.map_cons, List.nodup_append, List.mem_map] at distinct
  have := distinct.2.2 entry.1 ⟨entry, he, rfl⟩ name (by simp)
  simpa using Ne.symm this

theorem isEntryName_of_lookup {entries : List (String × Node)} {name : String} {node : Node}
    (h : (folder entries).isProper = true) (found : entries.lookup name = some node) :
    isEntryName name = true :=
  ((isProper_folder.1 h).2 _ (mem_of_lookup found)).1

end Node

/-- What makes a name one that an entry can have. -/
structure IsEntryName (name : String) : Prop where
  full : name ≠ ""
  notDot : name ≠ "."
  notDots : name ≠ ".."
  noSlash : '/' ∉ name.toList
  faultless : nameFault? name = none
  short : byteSize name ≤ maxNameSize

theorem isEntryName_iff {name : String} : isEntryName name = true ↔ IsEntryName name := by
  have tests : isEntryName name = true ↔ name ≠ "" ∧ name ≠ "." ∧ name ≠ ".." ∧
      '/' ∉ name.toList ∧ nameFault? name = none ∧ byteSize name ≤ maxNameSize := by
    simp [isEntryName, and_assoc]
  rw [tests]
  exact ⟨fun ⟨full, dot, dots, slash, fault, short⟩ => ⟨full, dot, dots, slash, fault, short⟩,
    fun h => ⟨h.full, h.notDot, h.notDots, h.noSlash, h.faultless, h.short⟩⟩

end CodeSurvey
