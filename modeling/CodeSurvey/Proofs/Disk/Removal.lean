import CodeSurvey.Proofs.Disk.LinkFree

/-!
# Removing a file

Taking the entry of a file out of its folder takes away what stands at the path of the file, and at
every other path there stands what stood there (`Node.Without`). All that can be found on the disk
is told from this: the ways to folders stay (`Node.Without.wayFrom`), and with them the trees that
they lead to (`Disk.TreeAt.remove?_treeAt`).
-/

namespace CodeSurvey

namespace Node

/-- What can be seen of a node without entering it. -/
def outside : Node → Node
  | folder _ => folder []
  | node => node

/-- Whether `top'` is `top` without the file at a path. The folders on the way to it are still
folders. -/
structure Without (top top' : Node) (gone : List String) : Prop where
  file : ∃ content, top.at? gone = some (.file content)
  absent : top'.at? gone = none
  others : ∀ path, path ≠ gone → (top'.at? path).map outside = (top.at? path).map outside

/-! ## Changing an entry -/

section
variable {entries : List (String × Node)} {name other : String}

theorem lookup_filter :
    (entries.filter fun entry => entry.1 != name).lookup other =
      if other = name then none else entries.lookup other := by
  induction entries with
  | nil => simp
  | cons entry rest ih =>
    obtain ⟨first, node⟩ := entry
    by_cases same : first = name
    · subst same
      rw [List.filter_cons_of_neg (by simp), ih, List.lookup_cons]
      by_cases found : other = first
      · simp [found]
      · simp [found, beq_false_of_ne found]
    · rw [List.filter_cons_of_pos (by simpa using same), List.lookup_cons, List.lookup_cons, ih]
      by_cases found : other = first
      · simp [found, same]
      · simp [beq_false_of_ne found]

theorem lookup_changeEntry {change : Option Node → Node} :
    (changeEntry name change entries).lookup other =
      if other = name then some (change (entries.lookup name)) else entries.lookup other := by
  induction entries with
  | nil =>
    by_cases found : other = name
    · simp [changeEntry, found]
    · simp [changeEntry, List.lookup_cons, found, beq_false_of_ne found]
  | cons entry rest ih =>
    obtain ⟨first, node⟩ := entry
    rw [changeEntry]
    by_cases same : first = name
    · subst same
      by_cases found : other = first
      · simp [found]
      · simp [List.lookup_cons, found, beq_false_of_ne found]
    · rw [if_neg same, List.lookup_cons, ih, List.lookup_cons, List.lookup_cons,
        beq_false_of_ne (Ne.symm same)]
      by_cases found : other = first
      · simp [found, same]
      · simp [beq_false_of_ne found]

theorem map_fst_changeEntry {change : Option Node → Node} {node : Node}
    (looked : entries.lookup name = some node) :
    (changeEntry name change entries).map (·.1) = entries.map (·.1) := by
  induction entries with
  | nil => cases looked
  | cons entry rest ih =>
    obtain ⟨first, node⟩ := entry
    rw [changeEntry]
    by_cases same : first = name
    · simp [same]
    · rw [List.lookup_cons, beq_false_of_ne (Ne.symm same)] at looked
      rw [if_neg same, List.map_cons, ih looked]
      rfl

theorem mem_changeEntry {change : Option Node → Node} {node : Node} {entry : String × Node}
    (looked : entries.lookup name = some node) (member : entry ∈ changeEntry name change entries) :
    entry ∈ entries ∨ entry = (name, change (some node)) := by
  induction entries with
  | nil => cases looked
  | cons first rest ih =>
    obtain ⟨other, node'⟩ := first
    rw [changeEntry] at member
    by_cases same : other = name
    · subst same
      rw [List.lookup_cons_self] at looked
      cases looked
      rw [if_pos rfl] at member
      rcases List.mem_cons.1 member with rfl | member
      · exact .inr rfl
      · exact .inl (.tail _ member)
    · rw [List.lookup_cons, beq_false_of_ne (Ne.symm same)] at looked
      rw [if_neg same] at member
      rcases List.mem_cons.1 member with rfl | member
      · exact .inl (.head _)
      · exact (ih looked member).imp (.tail _) id

end

/-! ## Putting a folder -/

/-- Putting a proper node at a path of a proper tree where something stands leaves it proper. -/
theorem isProper_put {top old new : Node} {path : List String} (proper : top.isProper = true)
    (placed : top.at? path = some old) (isProper : new.isProper = true) :
    (put new path (some top)).isProper = true := by
  induction path generalizing top with
  | nil => exact isProper
  | cons name path ih =>
    cases top with
    | file content => cases placed
    | link target => cases placed
    | folder entries =>
      obtain ⟨next, looked, placed⟩ := Option.bind_eq_some_iff.1 placed
      obtain ⟨distinct, inner⟩ := isProper_folder.1 proper
      have named := inner _ (mem_of_lookup looked)
      refine isProper_folder.2 ⟨by rw [map_fst_changeEntry looked]; exact distinct, ?_⟩
      intro entry member
      rcases mem_changeEntry looked member with old | rfl
      · exact inner entry old
      · exact ⟨named.1, ih named.2 placed⟩

theorem isProper_filter {entries : List (String × Node)} (ok : String × Node → Bool)
    (proper : (folder entries).isProper = true) : (folder (entries.filter ok)).isProper = true := by
  obtain ⟨distinct, inner⟩ := isProper_folder.1 proper
  refine isProper_folder.2 ⟨?_, fun entry member => inner entry (List.mem_filter.1 member).1⟩
  exact distinct.sublist (List.filter_sublist.map _)

/-- The induction is on the way to the folder that loses its entry. -/
theorem without_put {top : Node} {way : List String} {entries : List (String × Node)}
    {name : String} {content : Bytes} (placed : top.at? way = some (folder entries))
    (looked : entries.lookup name = some (file content)) :
    Without top (put (folder (entries.filter fun entry => entry.1 != name)) way (some top))
      (way ++ [name]) := by
  induction way generalizing top with
  | nil =>
    cases placed
    refine ⟨⟨content, ?_⟩, ?_, fun path other => ?_⟩
    · rw [List.nil_append, at?, looked]; rfl
    · rw [List.nil_append, put, at?, lookup_filter, if_pos rfl]; rfl
    · cases path with
      | nil => rfl
      | cons first rest =>
        rw [put, at?, at?, lookup_filter]
        split
        · next same =>
          subst same
          cases rest with
          | nil => exact absurd rfl other
          | cons second rest => rw [looked]; rfl
        · rfl
  | cons first way ih =>
    cases top with
    | file content => cases placed
    | link target => cases placed
    | folder outer =>
      obtain ⟨next, found, placed⟩ := Option.bind_eq_some_iff.1 placed
      obtain ⟨⟨bytes, file⟩, absent, others⟩ := ih placed
      refine ⟨⟨bytes, ?_⟩, ?_, fun path other => ?_⟩
      · rw [List.cons_append, at?, found]; exact file
      · rw [List.cons_append, put, at?, lookup_changeEntry, if_pos rfl, found]; exact absent
      · cases path with
        | nil => rfl
        | cons name' rest =>
          rw [put, at?, at?, lookup_changeEntry]
          split
          · next same =>
            subst same
            rw [found]
            exact others rest fun same => other (by rw [same, List.cons_append])
          · rfl

/-! ## What stays -/

namespace Without

variable {top top' : Node} {gone path : List String} {entries : List (String × Node)}

/-- What is no file is seen as before. -/
theorem seen (h : Without top top' gone) {node : Node} (placed : top.at? path = some node)
    (notFile : node.isFile = false) :
    ∃ node', top'.at? path = some node' ∧ node'.outside = node.outside := by
  have other : path ≠ gone := by
    rintro rfl
    obtain ⟨content, file⟩ := h.file
    rw [file] at placed
    cases placed
    cases notFile
  have same := h.others path other
  rw [placed] at same
  exact Option.map_eq_some_iff.1 same

theorem folder (h : Without top top' gone) (placed : top.at? path = some (folder entries)) :
    ∃ entries', top'.at? path = some (folder entries') := by
  obtain ⟨node, found, same⟩ := h.seen placed rfl
  cases node with
  | folder entries' => exact ⟨entries', found⟩
  | file content => cases same
  | link target => cases same

theorem link {target : String} (h : Without top top' gone)
    (placed : top.at? path = some (link target)) : top'.at? path = some (Node.link target) := by
  obtain ⟨node, found, same⟩ := h.seen placed rfl
  cases node with
  | folder entries' => cases same
  | file content => cases same
  | link target' => cases same; exact found

/-- No link comes up where none was. -/
theorem of_link {target : String} (h : Without top top' gone)
    (placed : top'.at? path = some (Node.link target)) :
    top.at? path = some (Node.link target) := by
  have other : path ≠ gone := by
    rintro rfl
    rw [h.absent] at placed
    cases placed
  have same := h.others path other
  rw [placed] at same
  obtain ⟨node, found, same⟩ := Option.map_eq_some_iff.1 same.symm
  cases node with
  | folder entries => cases same
  | file content => cases same
  | link target' => cases same; exact found

/-- The way to a folder does not pass through a file, so it stays. -/
theorem passes (h : Without top top' gone) {links left : Nat} {here names there : List String}
    (passes : top.Passes links here names left there) :
    top'.Passes links here names left there := by
  induction passes with
  | arrive placed =>
    obtain ⟨entries', placed'⟩ := h.folder placed
    exact .arrive placed'
  | dot placed later ih =>
    obtain ⟨entries', placed'⟩ := h.folder placed
    exact .dot placed' ih
  | dots placed later ih =>
    obtain ⟨entries', placed'⟩ := h.folder placed
    exact .dots placed' ih
  | inside placed dot dots short looked later ih =>
    obtain ⟨entries', placed'⟩ := h.folder placed
    obtain ⟨inner', there⟩ := h.folder ((at?_snoc placed _).trans looked)
    exact .inside placed' dot dots short ((at?_snoc placed' _).symm.trans there) ih
  | link placed dot dots short looked later ih =>
    obtain ⟨entries', placed'⟩ := h.folder placed
    have there := h.link ((at?_snoc placed _).trans looked)
    exact .link placed' dot dots short ((at?_snoc placed' _).symm.trans there) ih

theorem wayFrom (h : Without top top' gone) {links : Nat} {here names way : List String}
    (found : top.wayFrom links here names = .ok way)
    (placed : top.at? way = some (Node.folder entries)) :
    top'.wayFrom links here names = .ok way := by
  obtain ⟨left, passes⟩ := passes_of_wayFrom found placed
  rw [(h.passes passes).wayFrom, List.reverse_reverse]

end Without

end Node

/-! ## Removing -/

namespace Disk

namespace TreeAt

variable {d d' : Disk} {root : Location} {way init : List String} {last : String}
  {entries : List (String × Node)} {content : Bytes}

/-- A file of a tree is removed by taking its entry out of its folder. It cannot be removed if the
path of this folder is too long. -/
theorem remove?_eq (tree : d.TreeAt root way entries)
    (placed : (Node.folder entries).at? (init ++ [last]) = some (.file content)) :
    ∃ inner, (Node.folder entries).at? init = some (.folder inner) ∧
      inner.lookup last = some (.file content) ∧
      d.remove? (root.join ("/".intercalate (init ++ [last]))) =
        match (⟨root.anchor, root.names ++ init⟩ : Location).fault? with
        | some why => .error (.fault why)
        | none => .ok (d.putAt (way ++ init)
            (.folder (inner.filter fun entry => entry.1 != last))) := by
  obtain ⟨inner, outer, looked⟩ := Node.at?_snoc_eq_some placed
  have named := tree.isEntryName placed
  have short := (isEntryName_iff.1 (named last (by simp))).short
  refine ⟨inner, outer, looked, ?_⟩
  rw [remove?, folderOf, Location.parent_join root named, Location.name_join root named]
  cases fault : (⟨root.anchor, root.names ++ init⟩ : Location).fault? with
  | some why =>
    rw [show d.wayTo ⟨root.anchor, root.names ++ init⟩ = .error why by rw [wayTo, fault]]
  | none =>
    have found : d.wayTo ⟨root.anchor, root.names ++ init⟩ = .ok (way ++ init) := by
      rcases tree.wayTo_or (fun name member => named name (by simp [member])) fault with
        found | ⟨absent, -⟩
      · exact found
      · rw [absent] at outer
        cases outer
    rw [found]
    simp only [tree.at?_below, outer, if_neg (Nat.not_lt.2 short), looked]

/-- Without one of its files a tree is still one, at the same place of a disk on which nothing else
changes. -/
theorem remove?_treeAt (tree : d.TreeAt root way entries) {names : List String}
    (nonempty : names ≠ []) (placed : (Node.folder entries).at? names = some (.file content))
    (removed : d.remove? (root.join ("/".intercalate names)) = .ok d') :
    (∃ entries', d'.TreeAt root way entries') ∧ Node.Without d.top d'.top (way ++ names) := by
  obtain ⟨init, last, rfl⟩ : ∃ init last, names = init ++ [last] :=
    ⟨_, _, (List.dropLast_append_getLast nonempty).symm⟩
  obtain ⟨inner, outer, looked, result⟩ := tree.remove?_eq placed
  rw [result] at removed
  split at removed
  · cases removed
  · cases removed
    have there : d.top.at? (way ++ init) = some (.folder inner) := by rw [tree.at?_below, outer]
    have without := Node.without_put there looked
    rw [List.append_assoc] at without
    refine ⟨?_, without⟩
    obtain ⟨proper, current, here⟩ := isProper_iff.1 tree.proper
    obtain ⟨entries', placed'⟩ := without.folder tree.placed
    have proper' := Node.isProper_put proper there
      (Node.isProper_filter (fun entry => entry.1 != last) (Node.everyFolder_at? proper there))
    refine ⟨entries', isProper_iff.2 ⟨proper', without.folder here⟩, ?_, placed', ?_⟩
    · have found := tree.found
      have short := fault?_of_wayTo found
      rw [wayTo_eq short] at found ⊢
      exact without.wayFrom found tree.placed
    · refine Node.isLinkFree_of_at? _ (Node.everyFolder_at? proper' placed') ?_
      intro names target _ link
      have linked : d.top.at? (way ++ names) = some (.link target) := by
        refine without.of_link ?_
        rw [Node.at?_append, placed']
        exact link
      rw [tree.at?_below] at linked
      exact Node.at?_ne_link tree.free names target linked

end TreeAt

end Disk

end CodeSurvey
