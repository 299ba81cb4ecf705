import CodeSurvey.Proofs.Disk.Reordered
import CodeSurvey.Proofs.SeenAlike
import Mathlib.Data.List.Lex
import Mathlib.Order.Lattice

/-!
# The order of enumeration

Nothing that is reported depends on the order in which folders enumerate their entries. A walk finds
the same in another order (`Trail.Shuffled.walkEntries`), and all that is made of it is sorted
first. So the two disks give the same listing and the same documents, and are seen alike
(`Disk.Shuffled.seenAlike`).
-/

namespace CodeSurvey

open Trail

/-! ## Sorting -/

/-- What is sorted by a key that tells its members apart does not depend on the order before. -/
theorem mergeSort_eq_of_perm {α κ : Type} [LinearOrder κ] {key : α → κ}
    (apart : Function.Injective key) {before : α → α → Bool}
    (byKey : ∀ a b, before a b = true ↔ key a ≤ key b) {l l' : List α} (h : l.Perm l') :
    l.mergeSort before = l'.mergeSort before := by
  have trans (a b c : α) (first : before a b = true) (later : before b c = true) :
      before a c = true := by
    rw [byKey] at first later ⊢
    exact first.trans later
  have total (a b : α) : (before a b || before b a) = true := by
    rw [Bool.or_eq_true, byKey, byKey]
    exact le_total (key a) (key b)
  refine List.Perm.eq_of_pairwise (fun a b _ _ less more => ?_)
    (List.pairwise_mergeSort trans total l) (List.pairwise_mergeSort trans total l')
    (((List.mergeSort_perm l _).trans h).trans (List.mergeSort_perm l' _).symm)
  exact apart (le_antisymm ((byKey a b).1 less) ((byKey b a).1 more))

theorem precedes_iff_codes (a b : String) : Text.Precedes a b ↔ Text.codes a < Text.codes b :=
  Iff.rfl

theorem inOrder_iff_codes (a b : String) :
    Text.inOrder a b = true ↔ Text.codes a ≤ Text.codes b := by
  rw [inOrder_iff, precedes_iff_codes, not_lt]

theorem cons_le_cons_iff {κ : Type} [LinearOrder κ] {a b : κ} {l l' : List κ} :
    a :: l ≤ b :: l' ↔ a < b ∨ a = b ∧ l ≤ l' := by
  have less : b :: l' < a :: l ↔ b < a ∨ b = a ∧ l' < l := List.cons_lex_cons_iff
  rw [← not_lt, less]
  rcases lt_trichotomy a b with before | rfl | after
  · simp [before, before.ne', before.asymm]
  · simp
  · simp [after, after.ne', after.asymm]

theorem isInOrder_iff_codes (path other : List String) :
    Document.isInOrder path other = true ↔ path.map Text.codes ≤ other.map Text.codes := by
  induction path generalizing other with
  | nil =>
    have first : [] ≤ other.map Text.codes := not_lt.1 List.not_lex_nil
    exact iff_of_true rfl first
  | cons a rest ih =>
    cases other with
    | nil => exact iff_of_false nofun (not_le.2 List.nil_lex_cons')
    | cons b other =>
      rw [Document.isInOrder, List.map_cons, List.map_cons, cons_le_cons_iff]
      split
      · next same => simp [same, ih]
      · next apart => simp [codes_injective.ne apart, precedes_iff_codes]

/-! ## Walks -/

namespace Trail

variable {trail trail' : Trail}

/-- What names lead to on one side they lead to on the other. -/
theorem Leads.shuffled {place : Trail} {names : List String} {node : Node}
    (h : Leads trail names place node) (same : Shuffled trail trail') :
    ∃ place' node', Leads trail' names place' node' ∧ Shuffled place place' ∧
      Node.Shuffled node node' := by
  induction h generalizing trail' with
  | entry member =>
    cases same with | cons first later => ?_
    cases first.reordered
    obtain ⟨node', member', below⟩ := first.entry member
    exact ⟨_, node', .entry member', .cons first later, below⟩
  | inside member _ ih =>
    cases same with | cons first later => ?_
    cases first.reordered
    obtain ⟨node', member', below⟩ := first.entry member
    cases below.reordered
    obtain ⟨place', found, leads, samePlace, sameNode⟩ := ih (.cons below (.cons first later))
    exact ⟨place', found, .inside member' leads, samePlace, sameNode⟩

theorem kindOf_shuffled {node node' : Node} (places : Shuffled trail trail')
    (nodes : Node.Shuffled node node') (fits : Bool) :
    trail.kindOf fits node = trail'.kindOf fits node' := by
  cases nodes.reordered with
  | file content => rfl
  | link target =>
    rw [kindOf, kindOf, Trail.Related.leadsToFolder Node.Shuffled.isUnseen places target]
  | folder names inner => rfl

/-- A walk finds the same. -/
theorem Shuffled.walkEntries {entries entries' : List (String × Node)} {above above' : Trail}
    (h : Shuffled (.folder entries :: above) (.folder entries' :: above')) {size : Nat}
    (room : pathFits size [] = true) (skip : String → Bool) :
    (walkEntries skip size (.folder entries :: above) entries).Perm
      (walkEntries skip size (.folder entries' :: above') entries') := by
  have transfer {entries entries' : List (String × Node)} {above above' : Trail}
      (h : Shuffled (.folder entries :: above) (.folder entries' :: above')) (f : Found)
      (member : f ∈ CodeSurvey.walkEntries skip size (.folder entries :: above) entries) :
      f ∈ CodeSurvey.walkEntries skip size (.folder entries' :: above') entries' := by
    obtain ⟨place, node, ⟨leads, kept, fits⟩, taken⟩ := (mem_walk room).1 member
    obtain ⟨place', node', leads', places, nodes⟩ := leads.shuffled h
    exact (mem_walk room).2 ⟨place', node', ⟨leads', kept, fits⟩,
      (kindOf_shuffled places nodes _).symm.trans taken⟩
  have back : Shuffled (.folder entries' :: above') (.folder entries :: above) :=
    List.Forall₂.flip (h.imp fun _ _ same => same.symm)
  cases h with | cons first later => ?_
  have distinct := (nodup_walk skip size (.folder entries :: above) first.proper).of_map
  have distinct' := (nodup_walk skip size (.folder entries' :: above') first.symm.proper).of_map
  exact (List.perm_ext_iff_of_nodup distinct distinct').2
    fun f => ⟨transfer (.cons first later) f, transfer back f⟩

end Trail

namespace Found

variable {found found' : List Found}

theorem anyDeeper_perm (h : found.Perm found') (depth : Nat) :
    anyDeeper depth found = anyDeeper depth found' := h.any_eq

theorem files_perm (h : found.Perm found') : (files found).Perm (files found') :=
  (h.filter _).map _

end Found

namespace Disk.Shuffled

variable {d d' : Disk}

/-- What is made of a walk is the same if the order of what is found does not matter for it. -/
theorem walk_bind (h : Shuffled d d') {size : Nat} {root : Location}
    (room : ∀ trail, d.locate root = .ok trail → pathFits size [] = true) (skip : String → Bool)
    {β : Type} {use : List Found → Except Fault β}
    (blind : ∀ found found', found.Perm found' → use found = use found') :
    (d.walk size root skip).bind use = (d'.walk size root skip).bind use := by
  have same := h.locate root
  rw [Disk.walk, Disk.walk]
  generalize d.locate root = place, d'.locate root = place' at same room
  cases same with
  | fault why => cases why <;> rfl
  | goal same =>
    cases same with
    | nil => rfl
    | cons first later =>
      cases first.reordered with
      | file content => rfl
      | link target => rfl
      | folder names inner =>
        exact blind _ _ (Trail.Shuffled.walkEntries (.cons first later) (room _ rfl) skip)

theorem listing (h : Shuffled d d') : d.listing = d'.listing := by
  funext depth root exclude
  refine h.walk_bind (fun _ => room_of_located) (isExcluded exclude) fun found found' same => ?_
  rw [Found.anyDeeper_perm same, mergeSort_eq_of_perm codes_injective inOrder_iff_codes
    ((Found.files_perm same).map _)]

/-- What is made of the paths of documents is the same if their order does not matter for it. -/
theorem paths_map (h : Shuffled d d') (depth : Nat) (folder : Location) {β : Type}
    {use : List (List String) → β}
    (blind : ∀ found found', found.Perm found' → use found = use found') :
    (Document.paths d depth folder).map use = (Document.paths d' depth folder).map use := by
  have room (trail : Trail) (located : d.locate folder = .ok trail) :
      pathFits (byteSize (folder.entry "").text) [] = true := by
    have short := (Location.fault?_eq_none_iff.1 (fault?_of_located located)).2
    obtain ⟨size, entries, -, whole⟩ := folder.exists_size
    have none_added : byteSize "" = 0 := by decide
    rw [pathFits_nil, entries]
    omega
  have after {α : Type} (x : Except Fault α) (f : α → Except Fault (List (List String))) :
      (x.bind f).map use = x.bind fun a => (f a).map use := by cases x <;> rfl
  rw [Document.paths, Document.paths, after, after]
  refine h.walk_bind room _ fun found found' same => ?_
  have folders := same.filter fun f => f.kind = .folder
  simp only [folders.any_eq]
  split
  · rfl
  · split
    · rfl
    · exact congrArg Except.ok (blind _ _ (Found.files_perm same))

theorem loadAll (h : Shuffled d d') : Document.loadAll d = Document.loadAll d' := by
  have loads : Document.load? d = Document.load? d' := by
    funext folder segments
    rw [Document.load?, Document.load?, h.related.text?]
  funext depth folder
  -- The paths are sorted before any document is loaded.
  rw [Document.loadAll_eq, Document.loadAll_eq, loads]
  congr 1
  refine h.paths_map depth folder fun found found' same => ?_
  exact mergeSort_eq_of_perm (List.map_injective_iff.2 codes_injective) isInOrder_iff_codes
    (same.filter _)

/-! ## Surveys -/

theorem seenAlike (h : Shuffled d d') : SeenAlike d d' :=
  h.related.seenAlike h.listing h.loadAll

theorem isFolder (h : Shuffled d d') : d.isFolder = d'.isFolder := h.seenAlike.isFolder

theorem settingsAt (h : Shuffled d d') : Survey.settingsAt d = Survey.settingsAt d' :=
  h.seenAlike.settingsAt

theorem detectIn (h : Shuffled d d') : Survey.detectIn d = Survey.detectIn d' :=
  h.seenAlike.detectIn

theorem analyzeTree (h : Shuffled d d') : Survey.analyzeTree d = Survey.analyzeTree d' :=
  h.seenAlike.analyzeTree

end Disk.Shuffled

end CodeSurvey
