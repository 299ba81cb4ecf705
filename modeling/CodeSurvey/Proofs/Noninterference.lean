import CodeSurvey.Proofs.Deletion
import CodeSurvey.Proofs.Failures
import CodeSurvey.Proofs.Visible

/-!
# What stands inside excluded folders

Two trees without links are visibly equal if the same stands in both wherever names do not enter a
folder with an excluded name (`Node.VisiblyEqual`). Their files inside such folders may differ in
any way. As sources the trees are alike for all that a survey looks at
(`Disk.VisiblyEqualTrees.visiblyAlike`), so that the survey of one comes to what the survey of the
other does.
-/

namespace CodeSurvey

namespace Node

/-- Whether the same stands in two trees wherever names lead without entering a folder with an
excluded name: the same file, a folder in both, or nothing in either. -/
def VisiblyEqual (node node' : Node) : Prop :=
  ∀ names, IsVisible names → (node'.at? names).map outside = (node.at? names).map outside

/-- Folders are visibly equal if each name stands for the same, seen from outside, and what is not
excluded is visibly equal. -/
theorem VisiblyEqual.of_entries {entries entries' : List (String × Node)}
    (seen : ∀ name, (entries'.lookup name).map outside = (entries.lookup name).map outside)
    (inner : ∀ name node node', name ∉ excludedNames → entries.lookup name = some node →
      entries'.lookup name = some node' → VisiblyEqual node node') :
    VisiblyEqual (folder entries) (folder entries') := by
  intro names visible
  match names with
  | [] => rfl
  | [name] =>
    have alone (entries : List (String × Node)) :
        (folder entries).at? [name] = entries.lookup name := by
      rw [at?]
      cases entries.lookup name <;> rfl
    rw [alone, alone, seen]
  | name :: second :: rest =>
    obtain ⟨other, visible⟩ := List.forall_mem_cons.1 visible
    have step := seen name
    rw [at?, at?]
    cases looked : entries.lookup name with
    | none =>
      rw [looked, Option.map_none, Option.map_eq_none_iff] at step
      rw [step]
    | some node =>
      rw [looked] at step
      obtain ⟨node', looked', -⟩ := Option.map_eq_some_iff.1 step
      rw [looked']
      exact inner name node node' other looked looked' (second :: rest) visible

end Node

theorem IsVisible.of_kept {exclude names : List String}
    (kept : ∀ name ∈ names, isExcluded exclude name = false) : IsVisible names :=
  fun name member => (isExcluded_eq_false_iff.1 (kept name (List.dropLast_subset names member))).1

theorem Location.join_visible (l : Location) {path : String} (visible : IsVisiblePath path) :
    l.join path = ⟨l.anchor, l.names ++ segments path⟩ := by
  have joined := join_intercalate l visible.1 (segments_ne_nil path)
  rwa [intercalate_segments] at joined

theorem readmeNames_visible : ∀ name ∈ readmeNames, IsVisiblePath name := by decide +kernel

/-- The settings file of a root stands directly in it, or the root itself is taken for it. -/
theorem Settings.file_visible {host : Host} {root : Location}
    (expanded : root.expand host.homes = .ok root) :
    ∃ names, (∀ name ∈ names, isEntryName name = true) ∧ IsVisible names ∧
      file host.homes root = .ok ⟨root.anchor, root.names ++ names⟩ := by
  rw [file, expanded, Except.map]
  by_cases itself : root.name = fileName
  · refine ⟨[], List.forall_mem_nil _, List.forall_mem_nil _, ?_⟩
    rw [if_pos itself, List.append_nil]
  · have visible : IsVisiblePath fileName := by decide +kernel
    refine ⟨segments fileName, visible.1, visible.2, ?_⟩
    rw [if_neg itself, root.join_visible visible]

namespace Disk

/-- Trees without links at a location of two disks that are visibly equal, and agree on whether
there is a `bin/rails`. -/
structure VisiblyEqualTrees (d d' : Disk) (root : Location) (way way' : List String)
    (entries entries' : List (String × Node)) : Prop where
  tree : d.TreeAt root way entries
  tree' : d'.TreeAt root way' entries'
  same : Node.VisiblyEqual (.folder entries) (.folder entries')
  rails : ((Node.folder entries').at? ["bin", "rails"]).isSome =
    ((Node.folder entries).at? ["bin", "rails"]).isSome

namespace VisiblyEqualTrees

variable {d d' : Disk} {depth : Nat} {root : Location} {way way' names : List String}
  {path : String} {entries entries' : List (String × Node)} {exclude l : List String}

/-! ## Single places -/

/-- What is said of the place at visible names without entering it is the same on both disks. -/
theorem view (h : VisiblyEqualTrees d d' root way way' entries entries')
    (named : ∀ name ∈ names, isEntryName name = true) (visible : IsVisible names) {β : Type}
    {view : Option Node → β} (outside : ∀ o, view (o.map Node.outside) = view o) :
    (d'.node? ⟨root.anchor, root.names ++ names⟩).map view =
      (d.node? ⟨root.anchor, root.names ++ names⟩).map view := by
  have same : view ((Node.folder entries').at? names) = view ((Node.folder entries).at? names) := by
    rw [← outside, h.same names visible, outside]
  rw [h.tree.node? named, h.tree'.node? named]
  split
  · exact congrArg Except.ok same
  · rfl

theorem bytes? (h : VisiblyEqualTrees d d' root way way' entries entries')
    (named : ∀ name ∈ names, isEntryName name = true) (visible : IsVisible names) :
    d'.bytes? ⟨root.anchor, root.names ++ names⟩ = d.bytes? ⟨root.anchor, root.names ++ names⟩ := by
  refine h.view named visible fun o => ?_
  cases o with
  | none => rfl
  | some node => cases node <;> rfl

theorem present (h : VisiblyEqualTrees d d' root way way' entries entries')
    (visible : IsVisiblePath path) : d'.present (root.join path) = d.present (root.join path) := by
  rw [root.join_visible visible]
  refine h.view visible.1 visible.2 fun o => ?_
  cases o <;> rfl

theorem text? (h : VisiblyEqualTrees d d' root way way' entries entries')
    (visible : IsVisiblePath path) : d'.text? (root.join path) = d.text? (root.join path) := by
  rw [Disk.text?, Disk.text?, root.join_visible visible, h.bytes? visible.1 visible.2]

theorem read (h : VisiblyEqualTrees d d' root way way' entries entries')
    (visible : IsVisiblePath path) :
    (d'.source depth root exclude).read path = (d.source depth root exclude).read path := by
  have seen (o : Option Node) : o.bind Node.text? = (o.map Node.outside).bind Node.text? := by
    cases o with
    | none => rfl
    | some node => exact (node.text?_outside).symm
  have reads : (d.source depth root exclude).read ("/".intercalate (segments path)) = _ :=
    h.tree.read exclude visible.1 (segments_ne_nil path)
  have reads' : (d'.source depth root exclude).read ("/".intercalate (segments path)) = _ :=
    h.tree'.read exclude visible.1 (segments_ne_nil path)
  rw [intercalate_segments] at reads reads'
  rw [reads, reads', seen, h.same _ visible.2, ← seen]

/-- The one invisible path that is asked for is there on both disks or on neither. -/
theorem present_rails (h : VisiblyEqualTrees d d' root way way' entries entries') :
    d'.present (root.join "bin/rails") = d.present (root.join "bin/rails") := by
  have named : ∀ name ∈ ["bin", "rails"], isEntryName name = true := by decide
  have joined := root.join_intercalate named (by simp)
  rw [show "/".intercalate ["bin", "rails"] = "bin/rails" by decide] at joined
  rw [joined, Disk.present, Disk.present, h.tree.node? named, h.tree'.node? named]
  split
  · exact congrArg Except.ok h.rails
  · rfl

/-! ## The listing -/

theorem at?_eq_file_iff (h : VisiblyEqualTrees d d' root way way' entries entries')
    (visible : IsVisible names) {content : Bytes} :
    (Node.folder entries').at? names = some (.file content) ↔
      (Node.folder entries).at? names = some (.file content) := by
  have seen (o : Option Node) :
      o = some (.file content) ↔ o.map Node.outside = some (.file content) := by
    cases o <;> simp [Node.outside_eq_file]
  rw [seen, seen ((Node.folder entries).at? names), h.same names visible]

theorem at?_eq_folder_iff (h : VisiblyEqualTrees d d' root way way' entries entries')
    (visible : IsVisible names) :
    (∃ inner, (Node.folder entries').at? names = some (.folder inner)) ↔
      ∃ inner, (Node.folder entries).at? names = some (.folder inner) := by
  have seen (o : Option Node) :
      (∃ inner, o = some (.folder inner)) ↔ o.map Node.outside = some (.folder []) := by
    cases o with
    | none => simp
    | some node => cases node <;> simp [Node.outside]
  rw [seen, seen ((Node.folder entries).at? names), h.same names visible]

/-- The same directories stand too deep, if any, and the same files are listed. -/
theorem listing (h : VisiblyEqualTrees d d' root way way' entries entries') :
    d'.listing depth root exclude = d.listing depth root exclude := by
  have deep_iff : d'.listing depth root exclude = .error .tooDeep ↔
      d.listing depth root exclude = .error .tooDeep := by
    rw [h.tree'.listing_eq_tooDeep_iff, h.tree.listing_eq_tooDeep_iff]
    refine exists_congr fun names => and_congr_right fun _ => ?_
    rw [and_left_comm, and_left_comm (b := ∀ name ∈ names, isExcluded exclude name = false)]
    exact and_congr_right fun kept => and_congr_left' (h.at?_eq_folder_iff (.of_kept kept))
  rcases h.tree.listing_outcome depth exclude with deep | ⟨l, listed⟩
  · rw [deep, deep_iff.2 deep]
  rcases h.tree'.listing_outcome depth exclude with deep' | ⟨l', listed'⟩
  · rw [deep', deep_iff.1 deep']
  obtain ⟨above, located⟩ := h.tree.located
  obtain ⟨above', located'⟩ := h.tree'.located
  rw [listed, listed']
  refine congrArg Except.ok (eq_of_ascending (listing_ascending h.tree'.proper located' listed')
    (listing_ascending h.tree.proper located listed) fun path => ?_)
  rw [h.tree'.mem_listing listed', h.tree.mem_listing listed]
  constructor
  · rintro ⟨names, content, nonempty, placed, kept, same⟩
    exact ⟨names, content, nonempty, (h.at?_eq_file_iff (.of_kept kept)).1 placed, kept, same⟩
  · rintro ⟨names, content, nonempty, placed, kept, same⟩
    exact ⟨names, content, nonempty, (h.at?_eq_file_iff (.of_kept kept)).2 placed, kept, same⟩

theorem visiblyAlike (h : VisiblyEqualTrees d d' root way way' entries entries')
    (listed : d.listing depth root exclude = .ok l) :
    (d.source depth root exclude).VisiblyAlike l (d'.source depth root exclude) where
  files := listed
  files' := h.listing.trans listed
  listed path member := by
    obtain ⟨names, content, nonempty, placed, kept, -, rfl⟩ :=
      (h.tree.mem_listing listed).1 member
    rw [IsVisiblePath, h.tree.segments_eq nonempty placed]
    exact ⟨h.tree.isEntryName placed, .of_kept kept⟩
  present path visible := by rw [source_present, source_present, h.present visible]
  read path visible := h.read visible
  rails := by rw [source_present, source_present, h.present_rails]

/-! ## Surveys -/

theorem load (h : VisiblyEqualTrees d d' root way way' entries entries') {host : Host}
    (expanded : root.expand host.homes = .ok root) :
    Settings.load d' host root = Settings.load d host root := by
  obtain ⟨names, named, visible, file⟩ := Settings.file_visible expanded
  simp only [Settings.load, file, h.bytes? named visible]

theorem readme (h : VisiblyEqualTrees d d' root way way' entries entries') :
    d'.readme root = d.readme root := by
  have first (names : List String) (visible : ∀ name ∈ names, IsVisiblePath name) :
      d'.firstText root names = d.firstText root names := by
    induction names with
    | nil => rw [firstText_nil, firstText_nil]
    | cons name rest ih =>
      obtain ⟨here, visible⟩ := List.forall_mem_cons.1 visible
      rw [firstText_cons, firstText_cons, h.text? here, ih visible]
  rw [Disk.readme, Disk.readme, first readmeNames readmeNames_visible]

theorem analyzeTree (h : VisiblyEqualTrees d d' root way way' entries entries') (host : Host)
    {settings : Settings} (workers : 1 ≤ settings.maxWorkers) :
    (Survey.analyzeTree d' host root settings).result =
      (Survey.analyzeTree d host root settings).result := by
  rw [Survey.analyzeTree_result d' host root workers, Survey.analyzeTree_result d host root workers,
    h.listing]
  cases listed : d.listing host.depths.listing root settings.exclude with
  | error why => rfl
  | ok l =>
    have alike := h.visiblyAlike listed
    have assembled (stack : Stack) : Survey.assembled d' host.depths root settings stack =
        Survey.assembled d host.depths root settings stack := by
      funext readme
      rw [Survey.assembled, Survey.assembled]
      congr 2
      funext i
      exact alike.parts host.depths settings stack i
    rw [alike.stackOf, h.readme]
    simp only [assembled]

end VisiblyEqualTrees

end Disk

namespace Survey

/-- The survey of a tree without links does not depend on what stands inside folders with an
excluded name, at any depth, beyond whether there is a `bin/rails`. The trees may be at different
places of different disks, as long as the path names the root of each, and no home directory has to
be found for this root. -/
theorem analyze_noninterference {d d' : Disk} {host : Host} {path : Value} {root : Location}
    {entries entries' : List (String × Node)} {above above' : Trail}
    (proper : d.isProper = true) (proper' : d'.isProper = true)
    (named : Location.ofValue host.homes path = .ok root)
    (expanded : root.expand host.homes = .ok root)
    (located : d.locate root = .ok (.folder entries :: above))
    (located' : d'.locate root = .ok (.folder entries' :: above'))
    (free : (Node.folder entries).isLinkFree = true)
    (free' : (Node.folder entries').isLinkFree = true)
    (same : Node.VisiblyEqual (.folder entries) (.folder entries'))
    (rails : ((Node.folder entries').at? ["bin", "rails"]).isSome =
      ((Node.folder entries).at? ["bin", "rails"]).isSome) :
    (analyze d' host path none).result = (analyze d host path none).result := by
  obtain ⟨way, tree⟩ := Disk.TreeAt.of_located proper located free
  obtain ⟨way', tree'⟩ := Disk.TreeAt.of_located proper' located' free'
  have trees : Disk.VisiblyEqualTrees d d' root way way' entries entries' :=
    ⟨tree, tree', same, rails⟩
  have settings : (settingsAt d' host root).result = (settingsAt d host root).result := by
    rw [settingsAt, settingsAt, trees.load expanded]
  rw [analyze_folder named (Disk.isFolder_iff.2 ⟨entries', above', located'⟩),
    analyze_folder named (Disk.isFolder_iff.2 ⟨entries, above, located⟩), Option.elim_none,
    Option.elim_none, settings]
  cases settled : (settingsAt d host root).result with
  | error fault => rfl
  | ok settings =>
    exact trees.analyzeTree host (Settings.settingsAt_eq_ok_iff.1 settled).one_le_workers

def flaskText : Text := Text.of "@app.route('/hidden')\ndef hidden():\n    pass\n"

/-- A project, with the folder of the libraries that it depends on. -/
def flaskProject (libraries : List (String × Node)) : List (String × Node) :=
  [("requirements.txt", .file "flask\n".toUTF8.toList), ("vendor", .folder libraries)]

/-- A library that declares a route and has a manifest of its own. -/
def library : List (String × Node) :=
  [("routes.py", .file (flaskText.map fun c => UInt8.ofNat c.toNat)), ("setup.py", .file [])]

def withLibrary : Disk := ⟨.folder [("repo", .folder (flaskProject library))], []⟩

/-- The same project before the library is fetched. -/
def withoutLibrary : Disk := ⟨.folder [("repo", .folder (flaskProject []))], []⟩

theorem libraries_visiblyEqual :
    Node.VisiblyEqual (.folder (flaskProject library)) (.folder (flaskProject [])) := by
  refine .of_entries (fun name => ?_) fun name node node' other looked looked' => ?_
  · by_cases manifest : name = "requirements.txt"
    · rw [manifest]
      rfl
    · by_cases vendor : name = "vendor"
      · rw [vendor]
        rfl
      · simp [flaskProject, List.lookup_cons, beq_false_of_ne manifest, beq_false_of_ne vendor]
  · by_cases manifest : name = "requirements.txt"
    · subst manifest
      cases looked
      cases looked'
      exact fun _ _ => rfl
    · by_cases vendor : name = "vendor"
      · exact absurd (by rw [vendor]; decide) other
      · simp [flaskProject, List.lookup_cons, beq_false_of_ne manifest, beq_false_of_ne vendor]
          at looked

/-- The library is not seen, though its file can be read and declares a route of the framework. -/
theorem withoutLibrary_same :
    (withLibrary.source 995 (Location.read "/repo") []).read "vendor/routes.py" =
      .ok (some flaskText) ∧
    Routes.inFlask "vendor/routes.py" flaskText =
      [⟨"GET", "/hidden", "vendor/routes.py", some "hidden"⟩] ∧
    (analyze withoutLibrary plainHost (.str "/repo") none).result =
      (analyze withLibrary plainHost (.str "/repo") none).result := by
  have named : Location.ofValue plainHost.homes (.str "/repo") = .ok ⟨.top, ["repo"]⟩ := rfl
  refine ⟨by decide +kernel, by decide +kernel, ?_⟩
  exact analyze_noninterference (by decide) (by decide) named rfl rfl rfl (by decide) (by decide)
    libraries_visiblyEqual rfl

end Survey

end CodeSurvey
