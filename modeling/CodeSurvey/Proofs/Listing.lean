import CodeSurvey.Listing
import CodeSurvey.Proofs.Disk.Way
import CodeSurvey.Proofs.Location
import Mathlib.Data.List.Nodup

/-!
# What a listing holds

`Trail.Leads` says which entry some names lead to from a folder, and `Trail.Reaches` which of these
entries a walk comes to: those past no skipped name, in folders whose paths are not too long
(`mem_walk`). It comes to each of them once in a proper tree (`nodup_walkEntries`), and skipping
more names only filters what is found (`walkEntries_or`). The listing has the paths of the files
among it in the order of their codes, which leaves one list only (`eq_of_ascending`), unless a
directory stands too deep (`Disk.listing_exact`).
-/

namespace CodeSurvey

/-! ## Sizes of paths -/

section
variable {size : Nat} {name : String} {names more : List String}

theorem pathFits_nil : pathFits size [] = true ↔ size ≤ maxPathSize + 1 := decide_eq_true_iff

/-- A name adds its bytes and those of a slash. -/
theorem pathFits_cons :
    pathFits size (name :: names) = pathFits (size + byteSize name + 1) names := rfl

theorem pathFits_of_append (h : pathFits size (names ++ more) = true) :
    pathFits size names = true := by
  induction names generalizing size with
  | nil =>
    rw [List.nil_append] at h
    induction more generalizing size with
    | nil => exact h
    | cons name more ih =>
      have later : size + byteSize name + 1 ≤ maxPathSize + 1 := pathFits_nil.1 (ih h)
      rw [pathFits_nil]
      omega
  | cons name names ih => exact ih h

end

namespace Trail

/-- From the last folder of a trail the names lead to an entry `node` of the last folder of `place`.
They pass through folders only, and follow no link. -/
inductive Leads : Trail → List String → Trail → Node → Prop
  | entry {entries : List (String × Node)} {above : Trail} {name : String} {node : Node}
      (member : (name, node) ∈ entries) :
      Leads (.folder entries :: above) [name] (.folder entries :: above) node
  | inside {entries inner : List (String × Node)} {above place : Trail} {name : String}
      {names : List String} {node : Node} (member : (name, .folder inner) ∈ entries)
      (later : Leads (.folder inner :: .folder entries :: above) names place node) :
      Leads (.folder entries :: above) (name :: names) place node

/-- What an entry of the last folder of a trail is taken for. A link is seen to lead to a folder
only if its own path fits. -/
def kindOf (place : Trail) (fits : Bool) : Node → Kind
  | .file _ => .file
  | .link target => if fits && place.leadsToFolder target then .link else .file
  | .folder _ => .folder

theorem Leads.ne_nil {trail place : Trail} {names : List String} {node : Node}
    (h : Leads trail names place node) : names ≠ [] := by
  cases h <;> simp

/-- The names on the way are those of entries. -/
theorem Leads.isEntryName {entries : List (String × Node)} {above place : Trail}
    {names : List String} {node : Node} (proper : (Node.folder entries).isProper = true)
    (h : Leads (.folder entries :: above) names place node) :
    ∀ name ∈ names, CodeSurvey.isEntryName name = true := by
  generalize start : Node.folder entries :: above = trail at h
  induction h generalizing entries above with
  | entry member =>
    cases start
    simpa using ((Node.isProper_folder.1 proper).2 _ member).1
  | inside member later ih =>
    cases start
    obtain ⟨named, inner⟩ := (Node.isProper_folder.1 proper).2 _ member
    simpa using ⟨named, ih inner rfl⟩

/-- Whether a walk comes to an entry: names that are not skipped lead to it, and the path of its
folder can be asked for. -/
structure Reaches (skip : String → Bool) (size : Nat) (trail : Trail) (names : List String)
    (place : Trail) (node : Node) : Prop where
  leads : Leads trail names place node
  kept : ∀ name ∈ names, skip name = false
  fits : pathFits size names.dropLast = true

/-- Whether a walk comes to a directory deeper than `depth`. -/
def IsDeeper (depth : Nat) (skip : String → Bool) (size : Nat) (trail : Trail) : Prop :=
  ∃ names place node, Reaches skip size trail names place node ∧
    place.kindOf (pathFits size names) node ≠ .file ∧ depth < names.length

end Trail

open Trail

/-! ## Ascending lists -/

theorem codeOf_eq (c : Char) :
    Text.codeOf c =
      if Text.firstHalf ≤ c.toNat then c.toNat - Text.firstHalf + 0xD800 else c.toNat := by
  rw [Text.codeOf, Text.half?]
  split <;> rfl

/-- The codes of halves are no codes of characters. -/
theorem codeOf_injective : Function.Injective Text.codeOf := by
  intro a b same
  have range (c : Char) : c.toNat < 0xD800 ∨ 0xDFFF < c.toNat ∧ c.toNat < 0x110000 := c.valid
  have first := range a
  have second := range b
  rw [codeOf_eq, codeOf_eq, Text.firstHalf] at same
  refine Char.toNat_inj.1 ?_
  split at same <;> split at same <;> omega

theorem codes_injective : Function.Injective Text.codes :=
  (List.map_injective_iff.2 codeOf_injective).comp fun _ _ => String.toList_inj.1

/-- Whether each string comes before all later ones in the order of the codes. -/
def IsAscending (l : List String) : Prop := l.Pairwise Text.Precedes

instance (l : List String) : Decidable (IsAscending l) :=
  inferInstanceAs (Decidable (l.Pairwise Text.Precedes))

theorem inOrder_iff {a b : String} : Text.inOrder a b = true ↔ ¬ Text.Precedes b a := by
  simp [Text.inOrder]

theorem IsAscending.filter {l : List String} (h : IsAscending l) (ok : String → Bool) :
    IsAscending (l.filter ok) :=
  List.Pairwise.filter ok h

/-- An ascending list has no string twice. -/
theorem IsAscending.nodup {l : List String} (h : IsAscending l) : l.Nodup := by
  refine List.Pairwise.imp (fun less => ?_) h
  rintro rfl
  exact List.lt_irrefl _ less

/-- An ascending list is determined by its members. -/
theorem eq_of_ascending {l l' : List String} (h : IsAscending l) (h' : IsAscending l')
    (same : ∀ path, path ∈ l ↔ path ∈ l') : l = l' := by
  refine List.Perm.eq_of_pairwise (fun a b _ _ less more => ?_) h h'
    ((List.perm_ext_iff_of_nodup h.nodup h'.nodup).2 same)
  exact absurd more (List.lt_asymm less)

theorem mergeSort_of_ascending {l : List String} (h : IsAscending l) :
    l.mergeSort Text.inOrder = l :=
  List.mergeSort_of_pairwise
    (List.Pairwise.imp (fun less => inOrder_iff.2 (List.lt_asymm less)) h)

/-- Sorting what is all different makes it ascending. -/
theorem mergeSort_ascending {l : List String} (h : l.Nodup) :
    IsAscending (l.mergeSort Text.inOrder) := by
  have ordered : (l.mergeSort Text.inOrder).Pairwise fun a b => Text.inOrder a b = true := by
    refine List.pairwise_mergeSort (fun a b c h h' => ?_) (fun a b => ?_) l
    · rw [inOrder_iff] at h h' ⊢
      exact List.le_trans h h'
    · rw [Bool.or_eq_true, inOrder_iff, inOrder_iff]
      exact List.le_total (Text.codes a) (Text.codes b)
  have distinct := (List.mergeSort_perm l Text.inOrder).nodup_iff.2 h
  refine (ordered.and distinct).imp fun ⟨le, ne⟩ => ?_
  by_contra ge
  exact ne (codes_injective (List.le_antisymm (inOrder_iff.1 le) ge))

/-! ## Walks -/

section
variable {skip : String → Bool} {size : Nat} {trail above : Trail}
  {entries : List (String × Node)} {f : Found}

theorem mem_walkEntries :
    f ∈ walkEntries skip size trail entries ↔
      ∃ name node, (name, node) ∈ entries ∧ skip name = false ∧
        f ∈ walkEntry skip size trail name node := by
  induction entries with
  | nil => simp [walkEntries]
  | cons entry rest ih =>
    obtain ⟨name, node⟩ := entry
    rw [walkEntries, List.mem_append, ih]
    constructor
    · rintro (h | ⟨name, node, member, kept, h⟩)
      · split at h
        · cases h
        · next kept => exact ⟨name, node, by simp, by simpa using kept, h⟩
      · exact ⟨name, node, by simp [member], kept, h⟩
    · rintro ⟨name', node', member, kept, h⟩
      cases member with
      | head => exact .inl (by simpa [kept] using h)
      | tail _ member => exact .inr ⟨name', node', member, kept, h⟩

/-- At an entry a walk comes to the entry itself and, if it is a folder that can be asked for, to
what stands in it. -/
theorem mem_walkEntry {name : String} {node : Node} :
    f ∈ walkEntry skip size trail name node ↔
      f = ⟨[name], trail.kindOf (pathFits size [name]) node⟩ ∨
        ∃ inner, node = .folder inner ∧ pathFits size [name] = true ∧
          ∃ g ∈ walkEntries skip (size + byteSize name + 1) (.folder inner :: trail) inner,
            g.under name = f := by
  cases node with
  | file content => simp [walkEntry, kindOf]
  | link target => simp [walkEntry, kindOf]
  | folder entries =>
    rw [walkEntry, List.mem_cons]
    refine or_congr .rfl ?_
    split
    · next fits => simp [fits]
    · next long => simp [long]

theorem walkEntry_starts {name : String} {node : Node}
    (h : f ∈ walkEntry skip size trail name node) : ∃ rest, f.names = name :: rest := by
  rcases mem_walkEntry.1 h with rfl | ⟨inner, -, -, g, -, rfl⟩
  · exact ⟨[], rfl⟩
  · exact ⟨g.names, rfl⟩

theorem names_ne_nil (h : f ∈ walkEntries skip size trail entries) : f.names ≠ [] := by
  obtain ⟨name, node, -, -, h⟩ := mem_walkEntries.1 h
  obtain ⟨rest, names⟩ := walkEntry_starts h
  simp [names]

/-- A walk finds the entries that it reaches, each as what it is taken for. Both directions go along
the names. -/
theorem mem_walk (room : pathFits size [] = true) :
    f ∈ walkEntries skip size (.folder entries :: above) entries ↔
      ∃ place node, Reaches skip size (.folder entries :: above) f.names place node ∧
        place.kindOf (pathFits size f.names) node = f.kind := by
  obtain ⟨names, kind⟩ := f
  constructor
  · intro h
    induction names generalizing size entries above with
    | nil => exact absurd rfl (names_ne_nil h)
    | cons name rest ih =>
      obtain ⟨name', node, member, kept, h⟩ := mem_walkEntries.1 h
      rcases mem_walkEntry.1 h with same | ⟨inner, rfl, fits, ⟨names, kind'⟩, found, same⟩
      · cases same
        exact ⟨_, node, ⟨.entry member, by simpa using kept, room⟩, rfl⟩
      · cases same
        rw [pathFits_cons] at fits
        obtain ⟨place, node, ⟨leads, later, below⟩, taken⟩ := ih fits found
        refine ⟨place, node, ⟨.inside member leads, by simpa [kept] using later, ?_⟩, ?_⟩
        · rwa [List.dropLast_cons_of_ne_nil leads.ne_nil, pathFits_cons]
        · rwa [pathFits_cons]
  · rintro ⟨place, node, ⟨leads, kept, fits⟩, taken⟩
    simp only at leads kept fits taken
    generalize start : Node.folder entries :: above = trail at leads
    induction leads generalizing size entries above with
    | @entry _ _ name node member =>
      cases start
      refine mem_walkEntries.2 ⟨name, node, member, kept name (by simp), mem_walkEntry.2 (.inl ?_)⟩
      rw [← taken]
    | @inside _ inner _ place name names node member later ih =>
      cases start
      simp only [List.forall_mem_cons] at kept
      rw [List.dropLast_cons_of_ne_nil later.ne_nil, pathFits_cons] at fits
      rw [pathFits_cons] at taken
      have first : pathFits (size + byteSize name + 1) [] = true := pathFits_of_append fits
      refine mem_walkEntries.2 ⟨name, _, member, kept.1, mem_walkEntry.2 (.inr ⟨inner, rfl, ?_,
        ⟨names, kind⟩, ih first taken kept.2 fits rfl, rfl⟩)⟩
      rwa [pathFits_cons]

end

/-! ## Skipping more -/

mutual
/-- The walk that skips the names of both tests is the one that skips those of the first, without
the entries to which a name of the second leads. -/
theorem walkEntry_or (skip more : String → Bool) (size : Nat) (trail : Trail) (name : String) :
    ∀ node : Node,
      (if more name then []
        else walkEntry (fun name => skip name || more name) size trail name node) =
        (walkEntry skip size trail name node).filter fun f => f.names.all fun name => !more name
  | .file content => by cases h : more name <;> simp [walkEntry, h]
  | .link target => by cases h : more name <;> simp [walkEntry, h]
  | .folder entries => by
    have inner := walkEntries_or skip more (size + byteSize name + 1) (.folder entries :: trail)
      entries
    rw [walkEntry, walkEntry, inner, List.filter_cons]
    cases h : more name <;> cases fits : pathFits size [name] <;>
      simp [h, List.filter_map, Function.comp_def, Found.under]

theorem walkEntries_or (skip more : String → Bool) (size : Nat) (trail : Trail) :
    ∀ entries : List (String × Node),
      walkEntries (fun name => skip name || more name) size trail entries =
        (walkEntries skip size trail entries).filter fun f => f.names.all fun name => !more name
  | [] => rfl
  | (name, node) :: rest => by
    have first := walkEntry_or skip more size trail name node
    have later := walkEntries_or skip more size trail rest
    rw [walkEntries, walkEntries, List.filter_append, later]
    cases h : skip name with
    | true => simp
    | false => simpa [h] using first
end

/-! ## No path twice -/

mutual
theorem nodup_walkEntry (skip : String → Bool) (size : Nat) (trail : Trail) (name : String) :
    ∀ node : Node, node.isProper = true →
      ((walkEntry skip size trail name node).map Found.names).Nodup
  | .file content, _ => List.nodup_singleton _
  | .link target, _ => List.nodup_singleton _
  | .folder entries, proper => by
    obtain ⟨distinct, inner⟩ := Node.isProper_folder.1 proper
    have below := nodup_walkEntries skip (size + byteSize name + 1) (.folder entries :: trail)
      entries distinct fun entry member => (inner entry member).2
    rw [walkEntry]
    split
    · -- What stands in the folder has further names.
      refine List.nodup_cons.2 ⟨?_, ?_⟩
      · simp only [List.map_map, List.mem_map, not_exists, not_and]
        intro g found same
        exact names_ne_nil found (List.cons_inj_right name |>.1 same)
      · rw [List.map_map]
        have shifted := below.map (List.cons_injective (a := name))
        rwa [List.map_map] at shifted
    · exact List.nodup_singleton _

theorem nodup_walkEntries (skip : String → Bool) (size : Nat) (trail : Trail) :
    ∀ entries : List (String × Node), (entries.map (·.1)).Nodup →
      (∀ entry ∈ entries, entry.2.isProper = true) →
        ((walkEntries skip size trail entries).map Found.names).Nodup
  | [], _, _ => List.nodup_nil
  | (name, node) :: rest, distinct, proper => by
    obtain ⟨fresh, distinct⟩ := List.nodup_cons.1 distinct
    have later := nodup_walkEntries skip size trail rest distinct
      fun entry member => proper entry (.tail _ member)
    rw [walkEntries]
    split
    · exact later
    · rw [List.map_append]
      refine List.nodup_append.2
        ⟨nodup_walkEntry skip size trail name node (proper _ (.head _)), later, ?_⟩
      -- Paths through different entries of a folder start with different names.
      intro path inside _ outside same
      obtain ⟨f, here, rfl⟩ := List.mem_map.1 inside
      obtain ⟨g, there, rfl⟩ := List.mem_map.1 outside
      obtain ⟨names, e⟩ := walkEntry_starts here
      obtain ⟨other, node', member, -, there⟩ := mem_walkEntries.1 there
      obtain ⟨names', e'⟩ := walkEntry_starts there
      rw [e, e'] at same
      cases same
      exact fresh (List.mem_map.2 ⟨_, member, rfl⟩)
end

theorem nodup_walk (skip : String → Bool) (size : Nat) (trail : Trail)
    {entries : List (String × Node)} (proper : (Node.folder entries).isProper = true) :
    ((walkEntries skip size trail entries).map Found.names).Nodup := by
  obtain ⟨distinct, inner⟩ := Node.isProper_folder.1 proper
  exact nodup_walkEntries skip size trail entries distinct
    fun entry member => (inner entry member).2

/-! ## The listing -/

theorem isExcluded_eq_false_iff {exclude : List String} {name : String} :
    isExcluded exclude name = false ↔ name ∉ excludedNames ∧ (name ≠ "" → name ∉ exclude) := by
  simp only [isExcluded, Bool.or_eq_false_iff, Bool.and_eq_false_imp]
  simp

/-- Excluding more is skipping more. -/
theorem isExcluded_append (exclude more : List String) :
    isExcluded (exclude ++ more) =
      fun name => isExcluded exclude name || isExcluded more name := by
  funext name
  simp only [isExcluded, List.contains_append]
  cases excludedNames.contains name <;> cases name.isEmpty <;> simp

namespace Found

variable {found : List Found}

theorem isDirectory_iff {f : Found} : f.isDirectory = true ↔ f.kind ≠ .file := by
  simp [isDirectory]

theorem mem_files {names : List String} : names ∈ files found ↔ ⟨names, .file⟩ ∈ found := by
  simp only [files, List.mem_map, List.mem_filter, Bool.not_eq_true', ← Bool.not_eq_true,
    isDirectory_iff, not_not]
  constructor
  · rintro ⟨f, ⟨member, kind⟩, rfl⟩
    rwa [← kind]
  · exact fun member => ⟨_, ⟨member, rfl⟩, rfl⟩

theorem files_sublist (found : List Found) : (files found).Sublist (found.map names) :=
  List.filter_sublist.map names

end Found

namespace Disk

section
variable {d : Disk} {depth : Nat} {root : Location} {entries : List (String × Node)}
  {above : Trail} {exclude l : List String}

theorem walk_eq (located : d.locate root = .ok (.folder entries :: above)) (size : Nat)
    (skip : String → Bool) :
    d.walk size root skip = .ok (walkEntries skip size (.folder entries :: above) entries) := by
  rw [walk, located]

theorem fault?_of_located {trail : Trail} (located : d.locate root = .ok trail) :
    root.fault? = none := by
  rw [locate] at located
  split at located
  · cases located
  · next fault _ => exact fault
  · next fault _ => exact fault

theorem locate_of_free {l : Location} (free : l.fault? = none) :
    d.locate l = (if l.anchor = .here then d.here else .ok [d.top]).bind fun trail =>
      Trail.follow Trail.maxLinks trail l.names := by
  rw [locate, free]
  cases l.anchor with
  | here => cases d.here <;> rfl
  | top => rfl
  | twoSlashes => rfl

/-- The path of what is located can be asked for. -/
theorem room_of_located {trail : Trail} (located : d.locate root = .ok trail) :
    pathFits root.lead [] = true := by
  have short := (Location.fault?_eq_none_iff.1 (fault?_of_located located)).2
  rw [pathFits_nil, Location.lead]
  split <;> omega

theorem anyDeeper_iff (located : d.locate root = .ok (.folder entries :: above))
    (skip : String → Bool) :
    Found.anyDeeper depth (walkEntries skip root.lead (.folder entries :: above) entries) = true ↔
      IsDeeper depth skip root.lead (.folder entries :: above) := by
  have walked {f : Found} := @mem_walk skip root.lead above entries f (room_of_located located)
  simp only [Found.anyDeeper, List.any_eq_true, Bool.and_eq_true, Found.isDirectory_iff,
    decide_eq_true_eq, walked, IsDeeper]
  constructor
  · rintro ⟨f, ⟨place, node, reached, taken⟩, directory, deep⟩
    exact ⟨f.names, place, node, reached, by rwa [taken], deep⟩
  · rintro ⟨names, place, node, reached, directory, deep⟩
    exact ⟨⟨names, _⟩, ⟨place, node, reached, rfl⟩, directory, deep⟩

theorem listing_eq (located : d.locate root = .ok (.folder entries :: above)) (depth : Nat)
    (exclude : List String) :
    d.listing depth root exclude =
      let found := walkEntries (isExcluded exclude) root.lead (.folder entries :: above) entries
      if Found.anyDeeper depth found then .error .tooDeep
      else .ok (((Found.files found).map (String.intercalate "/")).mergeSort Text.inOrder) := by
  rw [listing, walk_eq located]
  rfl

/-- A tree is listed exactly if no directory in it stands too deep. -/
theorem listing_outcome (located : d.locate root = .ok (.folder entries :: above)) (depth : Nat)
    (exclude : List String) :
    (d.listing depth root exclude = .error .tooDeep ∧
      IsDeeper depth (isExcluded exclude) root.lead (.folder entries :: above)) ∨
    (∃ l, d.listing depth root exclude = .ok l) ∧
      ¬ IsDeeper depth (isExcluded exclude) root.lead (.folder entries :: above) := by
  rw [listing_eq located, ← anyDeeper_iff located]
  simp only
  split
  · next deep => exact .inl ⟨rfl, deep⟩
  · next shallow => exact .inr ⟨⟨_, rfl⟩, shallow⟩

theorem listing_eq_tooDeep_iff (located : d.locate root = .ok (.folder entries :: above)) :
    d.listing depth root exclude = .error .tooDeep ↔
      IsDeeper depth (isExcluded exclude) root.lead (.folder entries :: above) := by
  rcases listing_outcome located depth exclude with ⟨failed, deep⟩ | ⟨⟨l, listed⟩, shallow⟩
  · exact iff_of_true failed deep
  · exact iff_of_false (by simp [listed]) shallow

/-- Whether a folder stands at the root, and directories that are not excluded stand in it too
deeply. -/
def IsTooDeep (d : Disk) (depth : Nat) (root : Location) (exclude : List String) : Prop :=
  ∃ entries above, d.locate root = .ok (.folder entries :: above) ∧
    IsDeeper depth (isExcluded exclude) root.lead (.folder entries :: above)

theorem isTooDeep_iff (located : d.locate root = .ok (.folder entries :: above)) :
    d.IsTooDeep depth root exclude ↔
      IsDeeper depth (isExcluded exclude) root.lead (.folder entries :: above) := by
  constructor
  · rintro ⟨entries', above', located', deep⟩
    rw [located] at located'
    cases located'
    exact deep
  · exact fun deep => ⟨entries, above, located, deep⟩

/-- Whatever the bound, a tree that is listed is listed the same. -/
theorem listing_eq_or {l : List String} (listed : d.listing depth root exclude = .ok l)
    (depth' : Nat) : d.listing depth' root exclude = .ok l ∨
      d.listing depth' root exclude = .error .tooDeep := by
  rw [listing] at listed ⊢
  cases walked : d.walk root.lead root (isExcluded exclude) with
  | error why =>
    rw [walked] at listed
    cases listed
  | ok found =>
    rw [walked, Except.bind] at listed
    rw [Except.bind]
    split at listed
    · cases listed
    · split
      · exact .inr rfl
      · exact .inl listed

/-- Where a walk finds the paths in ascending order, and no directory too deep, it finds the
listing. -/
theorem listing_of_walk (found : List Found)
    (walked : d.walk root.lead root (isExcluded exclude) = .ok found)
    (shallow : Found.anyDeeper depth found = false)
    (paths : (Found.files found).map (String.intercalate "/") = l) (ascending : IsAscending l) :
    d.listing depth root exclude = .ok l := by
  rw [listing, walked, Except.bind]
  simp only [shallow, paths, mergeSort_of_ascending ascending]
  rfl

/-- Where there is no folder, nothing is listed. -/
theorem located_or_nil (listed : d.listing depth root exclude = .ok l) :
    (∃ entries above, d.locate root = .ok (.folder entries :: above)) ∨ l = [] := by
  rw [listing, walk] at listed
  split at listed
  · next entries above located => exact .inl ⟨entries, above, located⟩
  · cases listed
  · exact .inr (by simpa [Except.bind, Found.files, Found.anyDeeper] using listed.symm)

theorem located_isProper (proper : d.isProper = true)
    (located : d.locate root = .ok (.folder entries :: above)) :
    (Node.folder entries).isProper = true := by
  obtain ⟨way, -, placed⟩ := locate_eq_ok proper located
  exact Node.everyFolder_at? (isProper_iff.1 proper).1 placed

/-- What is listed are the paths of the files that a walk finds. -/
theorem listing_eq_ok (located : d.locate root = .ok (.folder entries :: above))
    (listed : d.listing depth root exclude = .ok l) :
    l = ((Found.files (walkEntries (isExcluded exclude) root.lead (.folder entries :: above)
      entries)).map (String.intercalate "/")).mergeSort Text.inOrder := by
  rw [listing_eq located] at listed
  simp only at listed
  split at listed
  · cases listed
  · cases listed
    rfl

theorem mem_listing {path : String} (located : d.locate root = .ok (.folder entries :: above))
    (listed : d.listing depth root exclude = .ok l) :
    path ∈ l ↔ ∃ names place node,
      Reaches (isExcluded exclude) root.lead (.folder entries :: above) names place node ∧
      place.kindOf (pathFits root.lead names) node = .file ∧ path = "/".intercalate names := by
  have walked {f : Found} :=
    @mem_walk (isExcluded exclude) root.lead above entries f (room_of_located located)
  rw [listing_eq_ok located listed]
  simp only [List.mem_mergeSort, List.mem_map, Found.mem_files, walked]
  constructor
  · rintro ⟨names, ⟨place, node, reached, taken⟩, rfl⟩
    exact ⟨names, place, node, reached, taken, rfl⟩
  · rintro ⟨names, place, node, reached, taken, rfl⟩
    exact ⟨names, ⟨place, node, reached, taken⟩, rfl⟩

/-- The path of an entry that is reached has the names that lead to it as its segments. -/
theorem segments_of_reaches {skip : String → Bool} {size : Nat} {names : List String}
    {place : Trail} {node : Node} (proper : (Node.folder entries).isProper = true)
    (h : Reaches skip size (.folder entries :: above) names place node) :
    segments ("/".intercalate names) = names :=
  segments_intercalate (h.leads.isEntryName proper) h.leads.ne_nil

theorem listing_ascending (proper : d.isProper = true)
    (located : d.locate root = .ok (.folder entries :: above))
    (listed : d.listing depth root exclude = .ok l) : IsAscending l := by
  have proper := located_isProper proper located
  have walked {f : Found} :=
    @mem_walk (isExcluded exclude) root.lead above entries f (room_of_located located)
  rw [listing_eq_ok located listed]
  have distinct := (nodup_walk (isExcluded exclude) root.lead (.folder entries :: above)
    proper).sublist (Found.files_sublist _)
  refine mergeSort_ascending (List.Nodup.map_on (fun names here names' there same => ?_) distinct)
  obtain ⟨place, node, here, -⟩ := walked.1 (Found.mem_files.1 here)
  obtain ⟨place', node', there, -⟩ := walked.1 (Found.mem_files.1 there)
  have parts : segments ("/".intercalate names) = names := segments_of_reaches proper here
  rw [← parts, same]
  exact segments_of_reaches proper there

/-- A listed path has the names of entries as its segments, none of them excluded. -/
theorem segments_of_listed {path : String} (proper : d.isProper = true)
    (listed : d.listing depth root exclude = .ok l) (member : path ∈ l) :
    ∀ name ∈ segments path, name ∉ excludedNames ∧ name ∉ exclude := by
  rcases located_or_nil listed with ⟨entries, above, located⟩ | rfl
  · obtain ⟨names, place, node, reached, -, rfl⟩ := (mem_listing located listed).1 member
    have proper := located_isProper proper located
    rw [segments_of_reaches proper reached]
    intro name inNames
    obtain ⟨other, free⟩ := isExcluded_eq_false_iff.1 (reached.kept name inNames)
    exact ⟨other, free (isEntryName_iff.1 (reached.leads.isEntryName proper name inNames)).full⟩
  · cases member

theorem nodup_listing (proper : d.isProper = true)
    (listed : d.listing depth root exclude = .ok l) : l.Nodup := by
  rcases located_or_nil listed with ⟨entries, above, located⟩ | rfl
  · exact (listing_ascending proper located listed).nodup
  · exact List.nodup_nil

/-- What is reached past more names is what is reached past fewer and has none of the rest. -/
theorem reaches_append {more names : List String} {size : Nat} {place : Trail} {node : Node}
    (proper : (Node.folder entries).isProper = true) :
    Reaches (isExcluded (exclude ++ more)) size (.folder entries :: above) names place node ↔
      Reaches (isExcluded exclude) size (.folder entries :: above) names place node ∧
        ∀ name ∈ names, name ∉ more := by
  rw [isExcluded_append]
  constructor
  · rintro ⟨leads, kept, fits⟩
    simp only [Bool.or_eq_false_iff] at kept
    refine ⟨⟨leads, fun name member => (kept name member).1, fits⟩, fun name member => ?_⟩
    -- Of the names of entries, none is empty, so that an empty excluded name excludes nothing.
    have full := (isEntryName_iff.1 (leads.isEntryName proper name member)).full
    exact (isExcluded_eq_false_iff.1 (kept name member).2).2 full
  · rintro ⟨⟨leads, kept, fits⟩, others⟩
    refine ⟨leads, fun name member => ?_, fits⟩
    rw [Bool.or_eq_false_iff]
    exact ⟨kept name member, isExcluded_eq_false_iff.2
      ⟨(isExcluded_eq_false_iff.1 (kept name member)).1, fun _ => others name member⟩⟩

/-- What is listed under more excluded names is what is listed under fewer and has none of the rest
among its segments. -/
theorem listing_append (proper : d.isProper = true)
    (located : d.locate root = .ok (.folder entries :: above))
    (listed : d.listing depth root exclude = .ok l) (more : List String) :
    d.listing depth root (exclude ++ more) =
      .ok (l.filter fun path => (segments path).all fun name => !more.contains name) := by
  have whole := located_isProper proper located
  have shallow : ¬ IsDeeper depth (isExcluded (exclude ++ more)) root.lead
      (.folder entries :: above) := by
    rintro ⟨names, place, node, reached, directory, deep⟩
    have failed := listing_eq_tooDeep_iff located |>.2
      ⟨names, place, node, ((reaches_append whole).1 reached).1, directory, deep⟩
    rw [listed] at failed
    cases failed
  rcases listing_outcome located depth (exclude ++ more) with ⟨-, deep⟩ | ⟨⟨l', listed'⟩, -⟩
  · exact absurd deep shallow
  · rw [listed']
    refine congrArg Except.ok (eq_of_ascending (listing_ascending proper located listed')
      ((listing_ascending proper located listed).filter _) fun path => ?_)
    rw [List.mem_filter, mem_listing located listed', mem_listing located listed]
    simp only [List.all_eq_true, Bool.not_eq_true', List.contains_eq_mem, decide_eq_false_iff_not]
    constructor
    · rintro ⟨names, place, node, reached, taken, rfl⟩
      obtain ⟨reached, others⟩ := (reaches_append whole).1 reached
      exact ⟨⟨names, place, node, reached, taken, rfl⟩, by rwa [segments_of_reaches whole reached]⟩
    · rintro ⟨⟨names, place, node, reached, taken, rfl⟩, others⟩
      rw [segments_of_reaches whole reached] at others
      exact ⟨names, place, node, (reaches_append whole).2 ⟨reached, others⟩, taken, rfl⟩

/-- What a walk finds past the excluded names is what it finds past none, less the entries to which
an excluded name leads. -/
theorem walk_excluded (located : d.locate root = .ok (.folder entries :: above)) (size : Nat)
    (exclude : List String) :
    d.walk size root (isExcluded exclude) =
      (d.walk size root fun _ => false).map
        (List.filter fun f => f.names.all fun name => !isExcluded exclude name) := by
  rw [walk_eq located, walk_eq located]
  exact congrArg Except.ok
    (walkEntries_or (fun _ => false) (isExcluded exclude) size (.folder entries :: above) entries)

/-- A folder in a proper tree is listed exactly if no directory below it that is not excluded stands
too deep. The listing is then the ascending list of the paths of all entries in folders with paths
that can be asked for, if they are seen to be no directories and have no excluded segment; excluding
more names only takes paths out of it. The walk that passes over the excluded names finds what the
walk of everything does, less the entries with such a segment. Where no path is too long and none
too deep, nothing is missing. -/
theorem listing_exact (proper : d.isProper = true)
    (located : d.locate root = .ok (.folder entries :: above)) (depth : Nat)
    (exclude more : List String) :
    (d.listing depth root exclude = .error .tooDeep ↔
      IsDeeper depth (isExcluded exclude) root.lead (.folder entries :: above)) ∧
    (¬ IsDeeper depth (isExcluded exclude) root.lead (.folder entries :: above) →
      ∃ l, d.listing depth root exclude = .ok l ∧ IsAscending l ∧
        (∀ path, path ∈ l ↔ ∃ names place node,
          Leads (.folder entries :: above) names place node ∧
            pathFits root.lead names.dropLast = true ∧
            place.kindOf (pathFits root.lead names) node = .file ∧
            (∀ name ∈ names, name ∉ excludedNames ∧ (name ≠ "" → name ∉ exclude)) ∧
            path = "/".intercalate names) ∧
        d.listing depth root (exclude ++ more) =
          .ok (l.filter fun path => (segments path).all fun name => !more.contains name)) ∧
    d.walk root.lead root (isExcluded exclude) =
      (d.walk root.lead root fun _ => false).map
        (List.filter fun f => f.names.all fun name => !isExcluded exclude name) ∧
    ((∀ names place node, Leads (.folder entries :: above) names place node →
        pathFits root.lead names = true ∧ names.length ≤ depth) →
      ∃ l, d.listing depth root exclude = .ok l ∧ IsAscending l ∧
        ∀ path, path ∈ l ↔ ∃ names place node,
          Leads (.folder entries :: above) names place node ∧ place.kindOf true node = .file ∧
            (∀ name ∈ names, name ∉ excludedNames ∧ (name ≠ "" → name ∉ exclude)) ∧
            path = "/".intercalate names) := by
  have members {l : List String} (listed : d.listing depth root exclude = .ok l) (path : String) :
      path ∈ l ↔ ∃ names place node, Leads (.folder entries :: above) names place node ∧
        pathFits root.lead names.dropLast = true ∧
        place.kindOf (pathFits root.lead names) node = .file ∧
        (∀ name ∈ names, name ∉ excludedNames ∧ (name ≠ "" → name ∉ exclude)) ∧
        path = "/".intercalate names := by
    simp only [mem_listing located listed, ← isExcluded_eq_false_iff]
    constructor
    · rintro ⟨names, place, node, ⟨leads, kept, fits⟩, taken, same⟩
      exact ⟨names, place, node, leads, fits, taken, kept, same⟩
    · rintro ⟨names, place, node, leads, fits, taken, kept, same⟩
      exact ⟨names, place, node, ⟨leads, kept, fits⟩, taken, same⟩
  have outcome := listing_outcome located depth exclude
  refine ⟨listing_eq_tooDeep_iff located, fun shallow => ?_, walk_excluded located _ exclude,
    fun within => ?_⟩
  · obtain ⟨-, deep⟩ | ⟨⟨l, listed⟩, -⟩ := outcome
    · exact absurd deep shallow
    · exact ⟨l, listed, listing_ascending proper located listed, members listed,
        listing_append proper located listed more⟩
  · obtain ⟨-, names, place, node, reached, -, deep⟩ | ⟨⟨l, listed⟩, -⟩ := outcome
    · exact absurd (within names place node reached.leads).2 (Nat.not_le.2 deep)
    · refine ⟨l, listed, listing_ascending proper located listed, fun path => ?_⟩
      rw [members listed]
      constructor
      · rintro ⟨names, place, node, leads, -, taken, kept, same⟩
        rw [(within names place node leads).1] at taken
        exact ⟨names, place, node, leads, taken, kept, same⟩
      · rintro ⟨names, place, node, leads, taken, kept, same⟩
        have fits := (within names place node leads).1
        refine ⟨names, place, node, leads, ?_, by rwa [fits], kept, same⟩
        rw [← List.dropLast_append_getLast leads.ne_nil] at fits
        exact pathFits_of_append fits

/-- A folder of dependencies, a link to a folder, a link to nothing, and two files. -/
def sampleTree : Disk :=
  ⟨.folder [("app", .folder
    [("here", .link "web"), ("main.py", .file []), ("old", .link "nowhere"),
     ("vendor", .folder [("lib.py", .file [])]), ("web", .folder [("page.py", .file [])])])], []⟩

theorem sampleTree_listing :
    ∃ l, sampleTree.listing 1 (Location.read "/app") [] = .ok l ∧ IsAscending l ∧
      l = ["main.py", "old", "web/page.py"] ∧
      sampleTree.listing 1 (Location.read "/app") ["web"] =
        .ok (l.filter fun path => (segments path).all fun name => !(["web"].contains name)) := by
  obtain ⟨entries, above, located⟩ : ∃ entries above,
      sampleTree.locate (Location.read "/app") = .ok (.folder entries :: above) := ⟨_, _, rfl⟩
  obtain ⟨deep, whole, -⟩ := listing_exact (by decide) located 1 [] ["web"]
  have walked : sampleTree.walk (Location.read "/app").lead (Location.read "/app") (isExcluded []) =
      .ok [⟨["here"], .link⟩, ⟨["main.py"], .file⟩, ⟨["old"], .file⟩, ⟨["web"], .folder⟩,
        ⟨["web", "page.py"], .file⟩] := rfl
  have sorted : sampleTree.listing 1 (Location.read "/app") [] =
      .ok ["main.py", "old", "web/page.py"] := listing_of_walk _ walked (by decide) rfl (by decide)
  have shallow := mt deep.2 (by simp [sorted])
  obtain ⟨l, listed, ascending, -, fewer⟩ := whole shallow
  refine ⟨l, listed, ascending, ?_, fewer⟩
  rw [sorted] at listed
  cases listed
  rfl

/-! ## A root with a long path -/

/-- A file, and a folder with another one. -/
def twoFiles : List (String × Node) :=
  [("d", .folder [("x.py", .file [])]), ("main.py", .file [])]

/-- A disk with these in a folder `repo` of the current directory. -/
def workDisk : Disk := ⟨.folder [("work", .folder [("repo", .folder twoFiles)])], ["work"]⟩

/-- The trail of the folder `repo`. -/
def repoTrail : Trail := [.folder twoFiles, .folder [("repo", .folder twoFiles)], workDisk.top]

/-- The folder `repo`, by a path that enters its folder and leaves it again `n` times. -/
def winding (n : Nat) : Location := ⟨.here, "repo" :: (List.replicate n ["d", ".."]).flatten⟩

theorem winding_text (n : Nat) :
    (winding (n + 1)).text = (winding n).text ++ "/" ++ "d" ++ "/" ++ ".." := by
  have text (n : Nat) : (winding n).text = "/".intercalate (winding n).names := rfl
  have names : (winding (n + 1)).names = (winding n).names ++ ["d"] ++ [".."] := by
    simp [winding, List.replicate_succ']
  rw [text, text, names, intercalate_concat (by simp), intercalate_concat (by simp [winding])]

theorem byteSize_winding (n : Nat) : byteSize (winding n).text = 5 * n + 4 := by
  have parts : byteSize "/" = 1 ∧ byteSize "d" = 1 ∧ byteSize ".." = 2 := by decide
  induction n with
  | zero => decide
  | succ n ih =>
    rw [winding_text]
    simp only [byteSize_append, ih, parts]
    omega

theorem winding_lead (n : Nat) : (winding (n + 1)).lead = 5 * n + 10 := by
  have noSlash : hasEnding (winding (n + 1)).text "/" = false := by
    rw [winding_text]
    simp [hasEnding, Text.of, List.isSuffixOf, List.isPrefixOf]
  rw [Location.lead, noSlash, byteSize_winding]
  rfl

theorem winding_clean (n : Nat) : nameFault? (winding n).text = none := by
  refine @Location.nameFault?_below ⟨.here, []⟩ _ (by decide) fun name member => ?_
  simp only [List.mem_cons, List.mem_flatten, List.mem_replicate] at member
  rcases member with rfl | ⟨_, ⟨-, rfl⟩, member⟩
  · decide
  · simp only [List.mem_cons, List.not_mem_nil, or_false] at member
    rcases member with rfl | rfl <;> decide

/-- Each detour leads back to where it started. -/
theorem follow_detours (links n : Nat) :
    Trail.follow links repoTrail (List.replicate n ["d", ".."]).flatten = .ok repoTrail := by
  induction n with
  | zero => exact Trail.follow_nil _ _
  | succ n ih =>
    rw [List.replicate_succ, List.flatten_cons, List.cons_append, List.cons_append, List.nil_append,
      repoTrail, Trail.follow_cons, if_neg (by decide), if_neg (by decide), if_neg (by decide)]
    show Trail.follow links _ (".." :: _) = _
    rw [Trail.follow_cons, if_neg (by decide), if_pos rfl, if_neg (by simp)]
    exact ih

theorem winding_located {n : Nat} (fits : 5 * n + 4 ≤ maxPathSize) :
    workDisk.locate (winding n) = .ok repoTrail := by
  have free : (winding n).fault? = none :=
    Location.fault?_eq_none_iff.2 ⟨winding_clean n, by rwa [byteSize_winding]⟩
  have here : workDisk.here = .ok repoTrail.tail := rfl
  have start : (if (winding n).anchor = .here then workDisk.here else .ok [workDisk.top]) =
      .ok repoTrail.tail := here
  rw [locate_of_free free, start]
  show Trail.follow Trail.maxLinks repoTrail.tail ("repo" :: _) = _
  rw [repoTrail, List.tail_cons, Trail.follow_cons, if_neg (by decide), if_neg (by decide),
    if_neg (by decide)]
  exact follow_detours _ n

/-- With a path of 4094 bytes the folder in `repo` cannot be asked for, and what stands in it is not
listed. -/
theorem winding_listing {depth : Nat} (some_ : 1 ≤ depth) :
    workDisk.listing depth (winding 818) [] = .ok ["main.py"] := by
  have walked : workDisk.walk (winding 818).lead (winding 818) (isExcluded []) =
      .ok [⟨["d"], .folder⟩, ⟨["main.py"], .file⟩] := by
    have located := winding_located (n := 818) (by decide)
    rw [walk_eq located, winding_lead 817]
    rfl
  refine listing_of_walk _ walked ?_ rfl (by decide)
  simpa [Found.anyDeeper, Found.isDirectory] using Nat.ne_of_gt some_

/-- So it is not true that all files below a folder are listed. -/
theorem not_all_listed :
    ¬ ∀ (d : Disk) (depth : Nat) (root : Location) (entries : List (String × Node)) (above : Trail)
        (exclude l : List String), d.isProper = true →
      d.locate root = .ok (.folder entries :: above) → d.listing depth root exclude = .ok l →
      ∀ names place node, Leads (.folder entries :: above) names place node →
        place.kindOf true node = .file →
        (∀ name ∈ names, name ∉ excludedNames ∧ (name ≠ "" → name ∉ exclude)) →
        "/".intercalate names ∈ l := by
  intro complete
  have inside : Leads repoTrail ["d", "x.py"] (.folder [("x.py", .file [])] :: repoTrail)
      (.file []) := .inside (.head _) (.entry (.head _))
  have listed := complete workDisk 1 (winding 818) _ _ [] _ (by decide)
    (winding_located (by decide)) (winding_listing (by decide)) _ _ _ inside rfl (by decide)
  exact absurd listed (by decide)

end

end Disk

end CodeSurvey
