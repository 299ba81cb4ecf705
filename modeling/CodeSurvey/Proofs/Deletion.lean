import CodeSurvey.Proofs.Disk.Removal
import CodeSurvey.Proofs.Extractors

/-!
# Surveys without a file

After a listed file is removed, the tree lists the other files and they read as before
(`Disk.TreeAt.restricts`). So a local extractor finds what it found, less the records of the file
(`Scan.IsLocal.findsKept`), and so does the one for the routes of Rails, which are all in one file
(`Scan.rails_findsKept`).
-/

namespace CodeSurvey

open Scan

/-! ## Seeing a file -/

namespace Node

theorem outside_eq_file {node : Node} {content : Bytes} :
    node.outside = file content ↔ node = file content := by
  cases node <;> simp [outside]

theorem outside_eq_folder {node : Node} :
    node.outside = folder [] ↔ ∃ inner, node = folder inner := by
  cases node <;> simp [outside]

/-- The text of a file can be seen without entering any folder. -/
theorem text?_outside (node : Node) : node.outside.text? = node.text? := by
  cases node <;> rfl

end Node

/-- Whether a path is made of names of entries, and not of the names that are gone. -/
def IsApart (gone : List String) (path : String) : Prop :=
  ∃ names, (∀ name ∈ names, isEntryName name = true) ∧ names ≠ [] ∧ names ≠ gone ∧
    path = "/".intercalate names

theorem isApart_of_ne {names gone : List String} (named : ∀ name ∈ names, isEntryName name = true)
    (nonempty : names ≠ []) (other : "/".intercalate names ≠ "/".intercalate gone) :
    IsApart gone ("/".intercalate names) :=
  ⟨names, named, nonempty, fun same => other (by rw [same]), rfl⟩

namespace Disk.TreeAt

variable {d d' : Disk} {root : Location} {way names gone : List String}
  {entries entries' : List (String × Node)} {depth : Nat} {exclude l : List String}

/-! ## The paths of files -/

theorem segments_eq (tree : d.TreeAt root way entries) (nonempty : names ≠ []) {node : Node}
    (placed : (Node.folder entries).at? names = some node) :
    segments ("/".intercalate names) = names :=
  segments_intercalate (tree.isEntryName placed) nonempty

theorem exists_read (tree : d.TreeAt root way entries)
    (listed : d.listing depth root exclude = .ok l) {path : String} (member : path ∈ l) :
    ∃ text, (d.source depth root exclude).read path = .ok text := by
  obtain ⟨names, content, nonempty, placed, -, -, rfl⟩ := (tree.mem_listing listed).1 member
  exact ⟨_, tree.read exclude (tree.isEntryName placed) nonempty⟩

/-- Every listed file can be removed, unless the path of its folder is too long. -/
theorem remove?_listed (tree : d.TreeAt root way entries)
    (listed : d.listing depth root exclude = .ok l) {path : String} (member : path ∈ l)
    (short : (root.join path).parent.fault? = none) :
    ∃ d', d.remove? (root.join path) = .ok d' := by
  obtain ⟨names, content, nonempty, placed, -, -, rfl⟩ := (tree.mem_listing listed).1 member
  obtain ⟨init, last, rfl⟩ : ∃ init last, names = init ++ [last] :=
    ⟨_, _, (List.dropLast_append_getLast nonempty).symm⟩
  rw [Location.parent_join root (tree.isEntryName placed)] at short
  obtain ⟨inner, -, -, result⟩ := tree.remove?_eq placed
  rw [short] at result
  exact ⟨_, result⟩

/-! ## Without one of them -/

theorem at?_gone (tree' : d'.TreeAt root way entries')
    (without : Node.Without d.top d'.top (way ++ gone)) :
    (Node.folder entries').at? gone = none := by
  rw [← tree'.at?_below]
  exact without.absent

theorem read_gone (tree' : d'.TreeAt root way entries') (exclude : List String)
    (without : Node.Without d.top d'.top (way ++ gone))
    (named : ∀ name ∈ gone, CodeSurvey.isEntryName name = true) (nonempty : gone ≠ []) :
    (d'.source depth root exclude).read ("/".intercalate gone) = .ok none := by
  rw [tree'.read exclude named nonempty, tree'.at?_gone without]
  split <;> rfl

section
variable (tree : d.TreeAt root way entries) (tree' : d'.TreeAt root way entries')
  (without : Node.Without d.top d'.top (way ++ gone))
include tree tree' without

theorem at?_without (other : names ≠ gone) :
    ((Node.folder entries').at? names).map Node.outside =
      ((Node.folder entries).at? names).map Node.outside := by
  rw [← tree.at?_below, ← tree'.at?_below]
  exact without.others _ fun same => other (List.append_cancel_left same)

/-- At another path there is a file if there was one, and it is the same. -/
theorem at?_eq_file_iff (other : names ≠ gone) {content : Bytes} :
    (Node.folder entries').at? names = some (.file content) ↔
      (Node.folder entries).at? names = some (.file content) := by
  have same := tree.at?_without tree' without other
  have seen (o : Option Node) :
      o = some (.file content) ↔ o.map Node.outside = some (.file content) := by
    cases o <;> simp [Node.outside_eq_file]
  rw [seen, seen ((Node.folder entries).at? names), same]

/-- Another path reads as before. -/
theorem read_without {path : String} (apart : IsApart gone path) :
    (d'.source depth root exclude).read path = (d.source depth root exclude).read path := by
  obtain ⟨names, named, nonempty, other, rfl⟩ := apart
  have seen (o : Option Node) : o.bind Node.text? = (o.map Node.outside).bind Node.text? := by
    cases o with
    | none => rfl
    | some node => exact (node.text?_outside).symm
  rw [tree.read exclude named nonempty, tree'.read exclude named nonempty, seen,
    tree.at?_without tree' without other, ← seen]

/-- There are folders where there were folders. -/
theorem folder_at?_iff :
    (∃ inner, (Node.folder entries').at? names = some (.folder inner)) ↔
      ∃ inner, (Node.folder entries).at? names = some (.folder inner) := by
  have seen (o : Option Node) :
      (∃ inner, o = some (.folder inner)) ↔ o.map Node.outside = some (.folder []) := by
    cases o <;> simp [Node.outside_eq_folder]
  by_cases other : names = gone
  · obtain ⟨content, file⟩ := without.file
    rw [tree.at?_below] at file
    rw [other, tree'.at?_gone without, file]
    simp
  · rw [seen, seen ((Node.folder entries).at? names), tree.at?_without tree' without other]

/-- The tree is as deep as it was. -/
theorem listing_eq_tooDeep_without :
    d'.listing depth root exclude = .error .tooDeep ↔
      d.listing depth root exclude = .error .tooDeep := by
  simp only [tree'.listing_eq_tooDeep_iff, tree.listing_eq_tooDeep_iff,
    tree.folder_at?_iff tree' without]

/-- The listing is the old one without the path that is gone. -/
theorem listing_without (nonempty : gone ≠ []) (listed : d.listing depth root exclude = .ok l) :
    d'.listing depth root exclude = .ok (l.filter (· != "/".intercalate gone)) := by
  obtain ⟨above, located⟩ := tree.located
  obtain ⟨above', located'⟩ := tree'.located
  rcases tree'.listing_outcome depth exclude with deep | ⟨l', listed'⟩
  · rw [tree.listing_eq_tooDeep_without tree' without, listed] at deep
    cases deep
  obtain ⟨content, file⟩ := without.file
  rw [tree.at?_below] at file
  refine listed'.trans (congrArg Except.ok (eq_of_ascending
    (listing_ascending tree'.proper located' listed')
    ((listing_ascending tree.proper located listed).filter _) fun path => ?_))
  rw [tree'.mem_listing listed', List.mem_filter, tree.mem_listing listed]
  constructor
  · rintro ⟨names, content, full, placed, kept, fits, rfl⟩
    have other : names ≠ gone := by
      rintro rfl
      rw [tree'.at?_gone without] at placed
      cases placed
    have before := (tree.at?_eq_file_iff tree' without other).1 placed
    refine ⟨⟨names, content, full, before, kept, fits, rfl⟩, bne_iff_ne.2 fun same => other ?_⟩
    rw [← tree.segments_eq full before, same, tree.segments_eq nonempty file]
  · rintro ⟨⟨names, content, full, placed, kept, fits, rfl⟩, differs⟩
    have other : names ≠ gone := by
      rintro rfl
      simp at differs
    exact ⟨names, content, full, (tree.at?_eq_file_iff tree' without other).2 placed, kept, fits,
      rfl⟩

/-- What is seen of the tree is what was seen of it, less one file. -/
theorem restricts (nonempty : gone ≠ []) (listed : d.listing depth root exclude = .ok l)
    {asides : List String} (apart : ∀ path ∈ asides, IsApart gone path) :
    (d.source depth root exclude).Restricts (· != "/".intercalate gone) asides l
      (d'.source depth root exclude) where
  files := listed
  files' := tree.listing_without tree' without nonempty listed
  same path member kept := by
    obtain ⟨names, content, full, placed, -, -, rfl⟩ := (tree.mem_listing listed).1 member
    exact tree.read_without tree' without
      (isApart_of_ne (tree.isEntryName placed) full (bne_iff_ne.1 kept))
  asides path aside := tree.read_without tree' without (apart path aside)
  reads path member _ := tree.exists_read listed member

end

end Disk.TreeAt

/-! ## Records -/

namespace Scan

variable {ρ : Type} [Filed ρ] {keep : String → Bool} {asides l : List String} {s s' : Source}

/-- Whether a scan finds records in a source, and in another one those of them whose file is kept.
-/
def FindsKept (keep : String → Bool) (s s' : Source) (scan : Scan (List ρ)) : Prop :=
  ∃ records, scan.run s = .ok records ∧ scan.run s' = .ok (keptIn keep records)

theorem IsLocal.findsKept {scan : Scan (List ρ)} (isLocal : IsLocal asides scan)
    (h : s.Restricts keep asides l s')
    (read : ∀ path, path ∈ l ∨ path ∈ asides → ∃ text, s.read path = .ok text) :
    FindsKept keep s s' scan := by
  obtain ⟨records, found⟩ := isLocal.succeeds h.files read
  exact ⟨records, found, by rw [isLocal h, found]; rfl⟩

theorem FindsKept.toRecords {kind : ρ → Record} {e : Extractor ρ}
    (sameFile : ∀ r, (kind r).file = Filed.file r) (h : FindsKept keep s s' e.scan) :
    FindsKept keep s s' (e.toRecords kind).scan := by
  obtain ⟨records, found, found'⟩ := h
  refine ⟨records.map kind, by rw [Extractor.run_toRecords, found]; rfl, ?_⟩
  rw [Extractor.run_toRecords, found', keptIn_map kind sameFile]
  rfl

/-- The routes of Rails go with their file, and only with it. -/
theorem rails_findsKept (read : ∃ text, s.read Routes.railsFile = .ok text)
    (kept : keep Routes.railsFile = true → s'.read Routes.railsFile = s.read Routes.railsFile)
    (dropped : keep Routes.railsFile = false → s'.read Routes.railsFile = .ok none) :
    FindsKept keep s s' Routes.rails.scan := by
  obtain ⟨text, read⟩ := read
  have found : Routes.rails.scan.run s =
      .ok ((text.map (Routes.inRails Routes.railsFile)).getD []) := by
    rw [Routes.run_rails, read]
    rfl
  refine ⟨_, found, ?_⟩
  cases keeps : keep Routes.railsFile with
  | true =>
    rw [(Routes.rails_allIn found).keptIn_pos keeps, Routes.run_rails, kept keeps, read]
    rfl
  | false =>
    rw [(Routes.rails_allIn found).keptIn_neg keeps, Routes.run_rails, dropped keeps]
    rfl

end Scan

namespace Extractor

theorem railsFile_eq : Routes.railsFile = "/".intercalate ["config", "routes.rb"] := by decide

theorem schemaFile_eq : Models.schemaFile = "/".intercalate ["db", "schema.rb"] := by decide

/-- In a tree without links, every extractor but the one for the routes of Phoenix finds records,
and after a listed file is removed it finds the same records less those of the file. For the models
of Rails the file is not the schema that they take their columns from. -/
theorem records_without_file {d d' : Disk} {depth : Nat} {root : Location}
    {entries : List (String × Node)} {above : Trail} {exclude l : List String} {file : String}
    (proper : d.isProper = true) (located : d.locate root = .ok (.folder entries :: above))
    (free : (Node.folder entries).isLinkFree = true) (listed : d.listing depth root exclude = .ok l)
    (member : file ∈ l) (removed : d.remove? (root.join file) = .ok d') {e : Extractor Record}
    (extractor : e ∈ all) (notPhoenix : e.label ≠ "extract_phoenix_routes")
    (notSchema : e.label = "extract_rails_models" → file ≠ "db/schema.rb") :
    ∃ records, ((Snapshot.new root exclude).perform d depth e.scan).1 = .ok records ∧
      ((Snapshot.new root exclude).perform d' depth e.scan).1 =
        .ok (records.filter fun r => r.file != file) := by
  obtain ⟨way, tree⟩ := Disk.TreeAt.of_located proper located free
  obtain ⟨gone, content, nonempty, placed, -, -, rfl⟩ := (tree.mem_listing listed).1 member
  obtain ⟨⟨entries', tree'⟩, without⟩ := tree.remove?_treeAt nonempty placed removed
  have listedRead (path : String) (inside : path ∈ l) :
      ∃ text, (d.source depth root exclude).read path = .ok text := tree.exists_read listed inside
  rw [Snapshot.perform_new, Snapshot.perform_new]
  revert notPhoenix notSchema
  refine forall_all (P := fun e => e.label ≠ "extract_phoenix_routes" →
    (e.label = "extract_rails_models" → "/".intercalate gone ≠ "db/schema.rb") →
    FindsKept (· != "/".intercalate gone) (d.source depth root exclude)
      (d'.source depth root exclude) e.scan)
    ?ordinary ?phoenix ?rails ?activeRecord e extractor
  case ordinary =>
    intro e ordinary _ _
    have restricts := tree.restricts tree' without nonempty listed (List.forall_mem_nil _)
    exact IsLocal.findsKept (ordinary.1 []) restricts fun path inside =>
      listedRead path (inside.resolve_right List.not_mem_nil)
  case phoenix =>
    intro notPhoenix _
    exact absurd rfl notPhoenix
  case rails =>
    intro _ _
    have named : ∀ name ∈ ["config", "routes.rb"], isEntryName name = true := by decide
    refine FindsKept.toRecords (fun _ => rfl) (rails_findsKept ?_ (fun keeps => ?_) fun drops => ?_)
    · rw [railsFile_eq]
      exact ⟨_, tree.read exclude named (by simp)⟩
    · rw [railsFile_eq] at keeps ⊢
      exact tree.read_without tree' without (isApart_of_ne named (by simp) (bne_iff_ne.1 keeps))
    · rw [bne_eq_false_iff_eq.1 drops]
      exact tree'.read_gone exclude without (tree.isEntryName placed) nonempty
  case activeRecord =>
    intro _ notSchema
    have named : ∀ name ∈ ["db", "schema.rb"], isEntryName name = true := by decide
    have apart : IsApart gone Models.schemaFile := by
      rw [schemaFile_eq]
      exact isApart_of_ne named (by simp) fun same => notSchema rfl (same.symm.trans (by decide))
    have restricts := tree.restricts tree' without nonempty listed
      (List.forall_mem_singleton.2 apart)
    refine FindsKept.toRecords (fun _ => rfl) (IsLocal.findsKept
      (Models.activeRecord_isLocal (.head _)) restricts fun path inside => ?_)
    rcases inside with inList | aside
    · exact listedRead path inList
    · rw [List.mem_singleton.1 aside, schemaFile_eq]
      exact ⟨_, tree.read exclude named (by simp)⟩

/-- Two components, the first with a property. -/
def cards : Disk :=
  ⟨.folder [("repo", .folder
    [("Card.svelte", .file ((Text.of "export let title").map fun c => UInt8.ofNat c.toNat)),
     ("List.svelte", .file [])])], []⟩

theorem cards_listing :
    cards.listing 10 (Location.read "/repo") [] = .ok ["Card.svelte", "List.svelte"] :=
  Disk.listing_of_walk [⟨["Card.svelte"], .file⟩, ⟨["List.svelte"], .file⟩] rfl rfl rfl
    (by decide)

theorem svelte_mem_all : Components.svelte.toRecords .component ∈ all := by
  have entry : (⟨"javascript", some "svelte"⟩, Components.svelte) ∈ componentTable := by
    simp [componentTable, forScripts, forFrameworks]
  simp only [all, allComponents, List.mem_append, List.mem_map]
  exact .inl (.inr ⟨_, ⟨_, entry, rfl⟩, rfl⟩)

theorem cards_found :
    ((Snapshot.new (Location.read "/repo") []).perform cards 10
      (Components.svelte.toRecords .component).scan).1 =
        .ok [.component ⟨"Card", ["title"], "Card.svelte", []⟩,
          .component ⟨"List", [], "List.svelte", []⟩] := by
  have card : (cards.source 10 (Location.read "/repo") []).read "Card.svelte" =
      .ok (some (Text.of "export let title")) := rfl
  have list : (cards.source 10 (Location.read "/repo") []).read "List.svelte" = .ok (some []) := rfl
  have chosen : findFiles ["**/*.svelte"] ["Card.svelte", "List.svelte"] =
      ["Card.svelte", "List.svelte"] := by decide +kernel
  have inCard : Components.inSvelte "Card.svelte" (Text.of "export let title") =
      [⟨"Card", ["title"], "Card.svelte", []⟩] := by decide +kernel
  have inList : Components.inSvelte "List.svelte" [] = [⟨"List", [], "List.svelte", []⟩] := by
    decide +kernel
  rw [Snapshot.perform_new, run_toRecords, Components.svelte, run_eachFile cards_listing, chosen,
    run_collect_cons, run_collect_cons, run_visitText, run_visitText, card, list]
  simp only [Except.map, Except.bind, Option.map_some, Option.getD_some, inCard, inList]
  rfl

/-- Without the first component the second one is found as before. -/
theorem cards_without_card :
    ∃ d', cards.remove? ((Location.read "/repo").join "Card.svelte") = .ok d' ∧
      ((Snapshot.new (Location.read "/repo") []).perform d' 10
        (Components.svelte.toRecords .component).scan).1 =
          .ok [.component ⟨"List", [], "List.svelte", []⟩] := by
  obtain ⟨entries, above, located, free⟩ : ∃ entries above,
      cards.locate (Location.read "/repo") = .ok (.folder entries :: above) ∧
        (Node.folder entries).isLinkFree = true := ⟨_, _, rfl, by decide⟩
  obtain ⟨way, tree⟩ := Disk.TreeAt.of_located (by decide) located free
  obtain ⟨d', removed⟩ := tree.remove?_listed cards_listing (.head _) (by decide)
  obtain ⟨records, before, after⟩ := records_without_file (by decide) located free cards_listing
    (.head _) removed svelte_mem_all (by decide) (by decide)
  rw [cards_found] at before
  cases before
  exact ⟨d', removed, after⟩

end Extractor

end CodeSurvey
