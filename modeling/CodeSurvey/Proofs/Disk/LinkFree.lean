import CodeSurvey.Proofs.Listing
import CodeSurvey.Source

/-!
# Trees without links

Below a folder without links, a path leads where its names lead through the entries of folders
(`Node.wayFrom_linkFree`). So what is read there and what is listed there can be told from the nodes
at the paths (`Disk.TreeAt.read`, `Disk.TreeAt.mem_listing`), and so can whether it can be listed
(`Disk.TreeAt.listing_eq_tooDeep_iff`).
-/

namespace CodeSurvey

namespace Node

/-- Below a folder without links names lead to the path that they make up. If nothing stands there,
they may lead nowhere. -/
theorem wayFrom_linkFree {top : Node} (links : Nat) {here names : List String}
    {entries : List (String × Node)} (placed : top.at? here.reverse = some (folder entries))
    (free : (folder entries).isLinkFree = true) (named : ∀ name ∈ names, isEntryName name = true) :
    top.wayFrom links here names = .ok (here.reverse ++ names) ∨
      top.at? (here.reverse ++ names) = none ∧
        (top.wayFrom links here names = .error .absent ∨
          top.wayFrom links here names = .error .notFolder) := by
  induction names generalizing here entries with
  | nil => exact .inl (by rw [wayFrom, List.append_nil])
  | cons name names ih =>
    obtain ⟨first, named⟩ := List.forall_mem_cons.1 named
    obtain ⟨-, dot, dots, -, -, short⟩ := isEntryName_iff.1 first
    have stepped : here.reverse ++ name :: names = (name :: here).reverse ++ names := by simp
    have next : top.at? (name :: here).reverse = entries.lookup name := by
      rw [List.reverse_cons, at?_snoc placed]
    rw [wayFrom_cons placed, if_neg dot, if_neg dots, if_neg (Nat.not_lt.2 short), stepped]
    cases looked : entries.lookup name with
    | none =>
      rw [looked] at next
      cases names with
      | nil => exact .inl (by simp)
      | cons second rest => exact .inr ⟨by rw [at?_append, next]; rfl, .inl rfl⟩
    | some node =>
      rw [looked] at next
      cases node with
      | link target =>
        have noLink := (isLinkFree_folder.1 free _ (mem_of_lookup looked)).1
        cases noLink
      | folder inner =>
        exact ih next (isLinkFree_folder.1 free _ (mem_of_lookup looked)).2 named
      | file content =>
        cases names with
        | nil => exact .inl (by simp only [wayFrom, List.append_nil])
        | cons second rest =>
          refine .inr ⟨by rw [at?_append, next]; rfl, .inr ?_⟩
          exact wayFrom_notFolder next (by simp) links second rest

/-- A tree is free of links if none of its paths leads to one. -/
theorem isLinkFree_of_at? (node : Node) (proper : node.isProper = true)
    (h : ∀ names target, names ≠ [] → node.at? names ≠ some (link target)) :
    node.isLinkFree = true := by
  match node with
  | file content => rfl
  | link target => rfl
  | folder entries =>
    obtain ⟨distinct, inner⟩ := isProper_folder.1 proper
    refine isLinkFree_folder.2 fun ⟨name, next⟩ member => ?_
    have looked := lookup_of_mem distinct member
    have below (names : List String) : (folder entries).at? (name :: names) = next.at? names := by
      rw [at?, looked]
      rfl
    constructor
    · cases next with
      | link target => exact absurd (below []) (h [name] target (by simp))
      | file content => rfl
      | folder inner => rfl
    · refine isLinkFree_of_at? next (inner _ member).2 fun names target _ => ?_
      rw [← below]
      exact h (name :: names) target (by simp)
termination_by sizeOf node
decreasing_by
  have := List.sizeOf_lt_of_mem member
  simp at this ⊢
  omega

theorem at?_ne_link {entries : List (String × Node)} (free : (folder entries).isLinkFree = true)
    (names : List String) (target : String) : (folder entries).at? names ≠ some (link target) := by
  induction names generalizing entries with
  | nil => simp [at?]
  | cons name names ih =>
    intro found
    obtain ⟨next, looked, found⟩ := Option.bind_eq_some_iff.1 found
    obtain ⟨noLink, inner⟩ := isLinkFree_folder.1 free _ (mem_of_lookup looked)
    cases next with
    | folder inner' => exact ih inner found
    | link target' => cases noLink
    | file content => cases names <;> cases found

theorem isEntryName_of_at? {node below : Node} {names : List String} (proper : node.isProper = true)
    (found : node.at? names = some below) : ∀ name ∈ names, isEntryName name = true := by
  induction names generalizing node with
  | nil => exact fun name member => by cases member
  | cons name names ih =>
    cases node with
    | folder outer =>
      obtain ⟨next, looked, found⟩ := Option.bind_eq_some_iff.1 found
      exact List.forall_mem_cons.2 ⟨isEntryName_of_lookup proper looked,
        ih (everyFolder_lookup proper looked) found⟩
    | file content => cases found
    | link target => cases found

/-- What is not at the top is an entry of a folder. -/
theorem at?_snoc_eq_some {node below : Node} {names : List String} {name : String}
    (found : node.at? (names ++ [name]) = some below) :
    ∃ entries, node.at? names = some (folder entries) ∧ entries.lookup name = some below := by
  rw [at?_append] at found
  obtain ⟨outer, placed, found⟩ := Option.bind_eq_some_iff.1 found
  cases outer with
  | folder entries =>
    refine ⟨entries, placed, ?_⟩
    obtain ⟨next, looked, found⟩ := Option.bind_eq_some_iff.1 found
    cases found
    exact looked
  | file content => cases found
  | link target => cases found

theorem trailTo_some {top node : Node} {way : List String} (placed : top.at? way = some node) :
    ∃ above, top.trailTo way = .ok (node :: above) := by
  have h := at?_reverse top way.reverse
  rw [List.reverse_reverse, placed] at h
  obtain ⟨trail, trailed, head⟩ := Option.bind_eq_some_iff.1 h.symm
  obtain ⟨above, rfl⟩ := List.head?_eq_some_iff.1 head
  exact ⟨above, by rw [trailTo, trailed]⟩

theorem trailTo_none {top : Node} {way : List String} (absent : top.at? way = none) :
    top.trailTo way = .error .absent := by
  have h := at?_reverse top way.reverse
  rw [List.reverse_reverse, absent] at h
  rw [trailTo]
  cases trailed : top.trailAt way.reverse with
  | none => rfl
  | some trail =>
    obtain ⟨node, above, rfl, -⟩ := trailAt_eq_cons trailed
    rw [trailed] at h
    cases h

/-- The text of a node, if it is a file and not too large. -/
def text? : Node → Option Text
  | file content => if content.length ≤ maxFileSize then some content.decode.joinLines else none
  | _ => none

end Node

/-! ## What names lead to -/

section
variable {entries : List (String × Node)} {above place : Trail} {names : List String} {node : Node}

theorem at?_of_leads (proper : (Node.folder entries).isProper = true)
    (leads : Trail.Leads (.folder entries :: above) names place node) :
    (Node.folder entries).at? names = some node := by
  generalize start : Node.folder entries :: above = trail at leads
  induction leads generalizing entries above with
  | @entry _ _ _ node member =>
    cases start
    rw [Node.at?, Node.lookup_of_mem (Node.isProper_folder.1 proper).1 member, Option.bind_some]
    cases node <;> rfl
  | inside member later ih =>
    cases start
    rw [Node.at?, Node.lookup_of_mem (Node.isProper_folder.1 proper).1 member]
    exact ih ((Node.isProper_folder.1 proper).2 _ member).2 rfl

theorem leads_of_at? (above : Trail) (nonempty : names ≠ [])
    (found : (Node.folder entries).at? names = some node) :
    ∃ place, Trail.Leads (.folder entries :: above) names place node := by
  induction names generalizing entries above with
  | nil => exact absurd rfl nonempty
  | cons name names ih =>
    obtain ⟨next, looked, found⟩ := Option.bind_eq_some_iff.1 found
    have member := mem_of_lookup looked
    cases names with
    | nil => cases next <;> cases found <;> exact ⟨_, .entry member⟩
    | cons second rest =>
      cases next with
      | folder inner =>
        obtain ⟨place, leads⟩ := ih (.folder entries :: above) (by simp) found
        exact ⟨place, .inside member leads⟩
      | file content => cases found
      | link target => cases found

end

namespace Disk

/-- A folder without links stands at a location of a proper tree, at the path `way`. -/
structure TreeAt (d : Disk) (root : Location) (way : List String)
    (entries : List (String × Node)) : Prop where
  proper : d.isProper = true
  found : d.wayTo root = .ok way
  placed : d.top.at? way = some (.folder entries)
  free : (Node.folder entries).isLinkFree = true

namespace TreeAt

variable {d : Disk} {root : Location} {way names : List String} {entries : List (String × Node)}

theorem of_located {above : Trail} (proper : d.isProper = true)
    (located : d.locate root = .ok (.folder entries :: above))
    (free : (Node.folder entries).isLinkFree = true) : ∃ way, d.TreeAt root way entries := by
  obtain ⟨way, found, placed⟩ := locate_eq_ok proper located
  exact ⟨way, proper, found, placed, free⟩

theorem located (h : d.TreeAt root way entries) :
    ∃ above, d.locate root = .ok (.folder entries :: above) := by
  rw [locate_eq_wayTo h.proper, h.found]
  exact Node.trailTo_some h.placed

theorem isProper_entries (h : d.TreeAt root way entries) :
    (Node.folder entries).isProper = true :=
  Node.everyFolder_at? (isProper_iff.1 h.proper).1 h.placed

theorem at?_below (h : d.TreeAt root way entries) (names : List String) :
    d.top.at? (way ++ names) = (Node.folder entries).at? names := by
  rw [Node.at?_append, h.placed]
  rfl

/-- The names on a path below the folder that leads to something are those of entries. -/
theorem isEntryName (h : d.TreeAt root way entries) {node : Node}
    (found : (Node.folder entries).at? names = some node) :
    ∀ name ∈ names, CodeSurvey.isEntryName name = true :=
  Node.isEntryName_of_at? h.isProper_entries found

theorem nameFault?_of_fault? {l : Location} (h : l.fault? = none) : nameFault? l.text = none := by
  rw [Location.fault?] at h
  split at h
  · cases h
  · next clean => exact clean

/-- The way to a location below the folder goes on from that to the folder, unless nothing stands
there. -/
theorem wayTo_or (h : d.TreeAt root way entries)
    (named : ∀ name ∈ names, CodeSurvey.isEntryName name = true)
    (short : (⟨root.anchor, root.names ++ names⟩ : Location).fault? = none) :
    d.wayTo ⟨root.anchor, root.names ++ names⟩ = .ok (way ++ names) ∨
      (Node.folder entries).at? names = none ∧
        (d.wayTo ⟨root.anchor, root.names ++ names⟩ = .error .absent ∨
          d.wayTo ⟨root.anchor, root.names ++ names⟩ = .error .notFolder) := by
  obtain ⟨left, later⟩ := wayTo_below h.found h.placed
  have start : d.top.at? way.reverse.reverse = some (.folder entries) := by
    rw [List.reverse_reverse, h.placed]
  have ways := Node.wayFrom_linkFree left start h.free named
  rwa [← later names short, List.reverse_reverse, h.at?_below] at ways

/-- Where the search for a path below the folder may end. -/
inductive Search (d : Disk) (entries : List (String × Node)) (names : List String)
    (l : Location) : Prop
  | found {node : Node} {above : Trail} (placed : (Node.folder entries).at? names = some node)
      (short : l.fault? = none) (located : d.locate l = .ok (node :: above))
  | absent {why : Fault} (nothing : (Node.folder entries).at? names = none)
      (short : l.fault? = none) (missing : why = .absent ∨ why = .notFolder)
      (located : d.locate l = .error why)
  | tooLong (long : l.fault? = some .nameTooLong) (located : d.locate l = .error .nameTooLong)

/-- The search for a path finds what stands there, unless the path is too long. -/
theorem search (h : d.TreeAt root way entries)
    (named : ∀ name ∈ names, CodeSurvey.isEntryName name = true) :
    Search d entries names ⟨root.anchor, root.names ++ names⟩ := by
  by_cases fault : (⟨root.anchor, root.names ++ names⟩ : Location).fault? = none
  · have located := locate_eq_wayTo h.proper ⟨root.anchor, root.names ++ names⟩
    rcases h.wayTo_or named fault with e | ⟨absent, e | e⟩
    · rw [e, Except.bind] at located
      cases placed : (Node.folder entries).at? names with
      | none =>
        rw [← h.at?_below] at placed
        rw [Node.trailTo_none placed] at located
        exact .absent (by rw [← h.at?_below, placed]) fault (.inl rfl) located
      | some node =>
        obtain ⟨above, trail⟩ := Node.trailTo_some ((h.at?_below names).trans placed)
        exact .found placed fault (located.trans trail)
    · rw [e] at located
      exact .absent absent fault (.inl rfl) located
    · rw [e] at located
      exact .absent absent fault (.inr rfl) located
  · have clean := Location.nameFault?_below (nameFault?_of_fault? (fault?_of_wayTo h.found))
      fun name member => (isEntryName_iff.1 (named name member)).faultless
    have long : (⟨root.anchor, root.names ++ names⟩ : Location).fault? = some .nameTooLong := by
      rw [Location.fault?, clean] at fault ⊢
      simpa using fault
    exact .tooLong long (by rw [locate, long])

/-- What is read below the folder is the text at the path, unless the path is too long. -/
theorem read (h : d.TreeAt root way entries) {depth : Nat} (exclude : List String)
    (named : ∀ name ∈ names, CodeSurvey.isEntryName name = true) (nonempty : names ≠ []) :
    (d.source depth root exclude).read ("/".intercalate names) =
      .ok (if (⟨root.anchor, root.names ++ names⟩ : Location).fault? = none then
        ((Node.folder entries).at? names).bind Node.text? else none) := by
  rw [source_read, Location.join_intercalate root named nonempty, load]
  cases h.search named with
  | @found node above placed short located =>
    rw [located, if_pos short, placed, Option.bind_some]
    cases node with
    | file content => simp only [Node.text?]; split <;> rfl
    | folder inner => rfl
    | link target => rfl
  | absent nothing short missing located =>
    rw [located, if_pos short, nothing]
    rcases missing with rfl | rfl <;> rfl
  | tooLong long located =>
    rw [located, long]
    rfl

/-- Nothing else stands at a path below the folder than what its names lead to. -/
theorem node? (h : d.TreeAt root way entries)
    (named : ∀ name ∈ names, CodeSurvey.isEntryName name = true) :
    d.node? ⟨root.anchor, root.names ++ names⟩ =
      if (⟨root.anchor, root.names ++ names⟩ : Location).fault? = none then
        .ok ((Node.folder entries).at? names)
      else .error .nameTooLong := by
  rw [Disk.node?]
  cases h.search named with
  | found placed short located => rw [located, if_pos short, placed]; rfl
  | absent nothing short missing located =>
    rw [located, if_pos short, nothing]
    rcases missing with rfl | rfl <;> rfl
  | tooLong long located =>
    rw [located, long]
    rfl

/-- Without links, a walk comes to what stands at a path past no excluded name and in a folder that
can be asked for. -/
theorem reaches_iff (h : d.TreeAt root way entries) (above : Trail) {exclude : List String}
    {size : Nat} {node : Node} :
    (∃ place, Trail.Reaches (isExcluded exclude) size (.folder entries :: above) names place node) ↔
      names ≠ [] ∧ (Node.folder entries).at? names = some node ∧
        (∀ name ∈ names, isExcluded exclude name = false) ∧
          pathFits size names.dropLast = true := by
  constructor
  · rintro ⟨place, leads, kept, fits⟩
    exact ⟨leads.ne_nil, at?_of_leads h.isProper_entries leads, kept, fits⟩
  · rintro ⟨nonempty, found, kept, fits⟩
    obtain ⟨place, leads⟩ := leads_of_at? above nonempty found
    exact ⟨place, leads, kept, fits⟩

/-- Without links, the listed paths are those at which files stand. -/
theorem mem_listing (h : d.TreeAt root way entries) {depth : Nat} {exclude l : List String}
    {path : String} (listed : d.listing depth root exclude = .ok l) :
    path ∈ l ↔ ∃ names content, names ≠ [] ∧
      (Node.folder entries).at? names = some (.file content) ∧
      (∀ name ∈ names, isExcluded exclude name = false) ∧
      pathFits root.lead names.dropLast = true ∧ path = "/".intercalate names := by
  obtain ⟨above, located⟩ := h.located
  rw [Disk.mem_listing located listed]
  constructor
  · rintro ⟨names, place, node, reached, taken, rfl⟩
    obtain ⟨nonempty, found, kept, fits⟩ := (h.reaches_iff above).1 ⟨place, reached⟩
    cases node with
    | file content => exact ⟨names, content, nonempty, found, kept, fits, rfl⟩
    | link target => exact absurd found (Node.at?_ne_link h.free _ _)
    | folder inner => cases taken
  · rintro ⟨names, content, nonempty, found, kept, fits, rfl⟩
    obtain ⟨place, reached⟩ := (h.reaches_iff above).2 ⟨nonempty, found, kept, fits⟩
    exact ⟨names, place, _, reached, rfl, rfl⟩

/-- Without links, there is no listing exactly if a folder stands too deep. -/
theorem listing_eq_tooDeep_iff (h : d.TreeAt root way entries) {depth : Nat}
    {exclude : List String} :
    d.listing depth root exclude = .error .tooDeep ↔ ∃ names, names ≠ [] ∧
      (∃ inner, (Node.folder entries).at? names = some (.folder inner)) ∧
      (∀ name ∈ names, isExcluded exclude name = false) ∧
      pathFits root.lead names.dropLast = true ∧ depth < names.length := by
  obtain ⟨above, located⟩ := h.located
  rw [Disk.listing_eq_tooDeep_iff located]
  constructor
  · rintro ⟨names, place, node, reached, directory, deep⟩
    obtain ⟨nonempty, found, kept, fits⟩ := (h.reaches_iff above).1 ⟨place, reached⟩
    cases node with
    | file content => exact absurd rfl directory
    | link target => exact absurd found (Node.at?_ne_link h.free _ _)
    | folder inner => exact ⟨names, nonempty, ⟨inner, found⟩, kept, fits, deep⟩
  · rintro ⟨names, nonempty, ⟨inner, found⟩, kept, fits, deep⟩
    obtain ⟨place, reached⟩ := (h.reaches_iff above).2 ⟨nonempty, found, kept, fits⟩
    exact ⟨names, place, _, reached, by simp [Trail.kindOf], deep⟩

/-- A walk below a folder without links fails for no other reason. -/
theorem listing_outcome (h : d.TreeAt root way entries) (depth : Nat) (exclude : List String) :
    d.listing depth root exclude = .error .tooDeep ∨ ∃ l, d.listing depth root exclude = .ok l := by
  obtain ⟨above, located⟩ := h.located
  rcases Disk.listing_outcome located depth exclude with ⟨failed, -⟩ | ⟨listed, -⟩
  · exact .inl failed
  · exact .inr listed

end TreeAt

end Disk

end CodeSurvey
