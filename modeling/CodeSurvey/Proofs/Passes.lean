import CodeSurvey.Proofs.FirstRoutes
import CodeSurvey.Proofs.Looks
import CodeSurvey.Proofs.Sampling

/-!
# Passes over the files found

The files that some of several globs name are found once each, however many of the globs name them:
those that the first glob names come first, in the order of the listing, then those that the second
one names and the first does not, and so on (`AreFound`). An extractor finds the files of some globs
and visits each file found once, in this order (`Scan.pass`); it does so once or several times and
does not come back to a file in between (`Scan.IsMadeOfPasses`, `Extractor.all_isMadeOfPasses`).
-/

namespace CodeSurvey

/-! ## The order of the files found -/

/-- Whether a glob names a file. -/
def Glob.names (pattern file : String) : Bool := (Glob.read pattern.toList).fits file.toList

theorem Glob.select_eq (pattern : String) (files : List String) :
    Glob.select pattern files = files.filter (Glob.names pattern) := rfl

/-- Where a file comes among those found: by the first pattern that names it, and of those with the
same first pattern by its place in the listing. -/
def foundAt (patterns files : List String) (file : String) : Nat × Nat :=
  (patterns.findIdx (Glob.names · file), files.idxOf file)

/-- Whether files are those of a listing that some of the patterns name, each once and in order. -/
structure AreFound (patterns files found : List String) : Prop where
  mem : ∀ file, file ∈ found ↔
    file ∈ files ∧ ∃ pattern ∈ patterns, Glob.names pattern file = true
  nodup : found.Nodup
  ordered : found.Pairwise fun file later =>
    Prod.Lex (· < ·) (· < ·) (foundAt patterns files file) (foundAt patterns files later)

section
variable {patterns files : List String} {pattern : String}

/-- The files of the first pattern come first, and no other pattern finds them again. -/
theorem findFiles_cons (nodup : files.Nodup) : findFiles (pattern :: patterns) files =
    files.filter (Glob.names pattern) ++
      (findFiles patterns files).filter fun file => !Glob.names pattern file := by
  have others : (patterns.flatMap (Glob.select · files)).removeAll (Glob.select pattern files) =
      (patterns.flatMap (Glob.select · files)).filter fun file => !Glob.names pattern file := by
    refine List.filter_congr fun file member => ?_
    obtain ⟨other, -, selected⟩ := List.mem_flatMap.1 member
    rw [Glob.select_eq, List.elem_eq_mem]
    simp [List.mem_filter, (List.mem_filter.1 selected).1]
  rw [findFiles, List.flatMap_cons, List.eraseDups_append, others, Scan.eraseDups_filter,
    Glob.select_eq, eraseDups_of_nodup (nodup.filter _), findFiles]

theorem foundAt_cons_of_names {file : String} (names : Glob.names pattern file = true) :
    foundAt (pattern :: patterns) files file = (0, files.idxOf file) := by
  rw [foundAt, List.findIdx_cons, names, cond_true]

theorem foundAt_cons_of_not_names {file : String} (names : Glob.names pattern file = false) :
    foundAt (pattern :: patterns) files file =
      ((foundAt patterns files file).1 + 1, files.idxOf file) := by
  rw [foundAt, List.findIdx_cons, names, cond_false]
  rfl

theorem pairwise_idxOf (nodup : files.Nodup) :
    files.Pairwise fun file later => files.idxOf file < files.idxOf later := by
  rw [List.pairwise_iff_getElem]
  intro i j inside inside' before
  rwa [nodup.idxOf_getElem, nodup.idxOf_getElem]

theorem pairwise_findFiles (nodup : files.Nodup) (patterns : List String) :
    (findFiles patterns files).Pairwise fun file later =>
      Prod.Lex (· < ·) (· < ·) (foundAt patterns files file) (foundAt patterns files later) := by
  induction patterns with
  | nil => exact .nil
  | cons pattern patterns ih =>
    rw [findFiles_cons nodup, List.pairwise_append]
    refine ⟨?_, ?_, fun file first later other => ?_⟩
    · refine ((pairwise_idxOf nodup).filter _).imp_of_mem fun named named' before => ?_
      rw [foundAt_cons_of_names (List.mem_filter.1 named).2,
        foundAt_cons_of_names (List.mem_filter.1 named').2]
      exact .right _ before
    · refine (ih.filter _).imp_of_mem fun other other' before => ?_
      have unnamed := (List.mem_filter.1 other).2
      have unnamed' := (List.mem_filter.1 other').2
      rw [foundAt_cons_of_not_names (by simpa using unnamed),
        foundAt_cons_of_not_names (by simpa using unnamed')]
      rcases Prod.lex_def.1 before with earlier | ⟨same, before⟩
      · exact .left _ _ (Nat.succ_lt_succ earlier)
      · exact Prod.lex_def.2 (.inr ⟨congrArg (· + 1) same, before⟩)
    · have unnamed := (List.mem_filter.1 other).2
      rw [foundAt_cons_of_names (List.mem_filter.1 first).2,
        foundAt_cons_of_not_names (by simpa using unnamed)]
      exact .left _ _ (Nat.succ_pos _)

theorem areFound_findFiles (nodup : files.Nodup) (patterns : List String) :
    AreFound patterns files (findFiles patterns files) where
  mem _ := mem_findFiles
  nodup := nodup_eraseDups _
  ordered := pairwise_findFiles nodup patterns

end

/-! ## Passes -/

namespace Scan

variable {α β ρ ι : Type} {s : Source} {l : List String}

/-- Whether a scan looks at nothing but the text of a file. -/
structure StaysAt (file : String) (scan : Scan α) : Prop where
  keepsTo : ∀ l, scan.KeepsTo l (fun _ => False) (· = file) fun _ => True

theorem staysAt_done (file : String) (result : α) : (Scan.done result).StaysAt file :=
  ⟨fun _ => trivial⟩

theorem staysAt_after_read (file : String) (g : Option Text → α) :
    StaysAt file (do let text ← readText file; return g text) :=
  ⟨fun _ => KeepsTo.bind (KeepsTo.readText rfl) fun _ _ => trivial⟩

/-- A visit to a file that can be looked at does not fail. -/
theorem StaysAt.exists_run {file : String} {scan : Scan α} (h : scan.StaysAt file)
    (listed : s.files = .ok l) {text : Option Text} (read : s.read file = .ok text) :
    ∃ result, scan.run s = .ok result := by
  cases ran : scan.run s with
  | ok result => exact ⟨result, rfl⟩
  | error why =>
    obtain ⟨path, asked, -⟩ :=
      (h.keepsTo l).fault listed (fun path same => ⟨text, by rw [same, read]⟩) ran
    exact asked.elim

/-- The files that some patterns name are found, and the wanted ones visited one after another. -/
def pass (patterns : List String) (wanted : String → Bool) (visit : String → Scan (List ρ)) :
    Scan (List ρ) := do
  let found ← find patterns
  collect visit (found.filter wanted)

/-- Where every visit gives something, all visits read what each of them reads. -/
theorem reads_collect {visit : ι → Scan (List ρ)} {items : List ι} {found : ι → List ρ}
    (runs : ∀ i ∈ items, (visit i).run s = .ok (found i)) :
    (collect visit items).reads s = items.flatMap fun i => (visit i).reads s := by
  induction items with
  | nil => rfl
  | cons i items ih =>
    obtain ⟨here, later⟩ := List.forall_mem_cons.1 runs
    show ((visit i).bind fun first => (collect visit items).bind fun others =>
      done (first ++ others)).reads s = _
    rw [reads_bind, here, List.flatMap_cons]
    exact congrArg _ (reads_bind_done.trans (ih later))

theorem collect_done (record : ι → ρ) (items : List ι) :
    collect (fun i => done [record i]) items = done (items.map record) := by
  induction items with
  | nil => rfl
  | cons i items ih =>
    show (collect _ items).bind _ = _
    rw [ih]
    rfl

theorem run_find (listed : s.files = .ok l) (patterns : List String) :
    (find patterns).run s = .ok (findFiles patterns l) := by
  show s.files.bind _ = _
  rw [listed]
  rfl

/-- A pass takes one visit to each of the wanted files that are found, in the order of these. -/
theorem pass_visits {patterns : List String} {wanted : String → Bool}
    {visit : String → Scan (List ρ)} {found : String → List ρ} (listed : s.files = .ok l)
    (runs : ∀ file ∈ findFiles patterns l, (visit file).run s = .ok (found file)) :
    (pass patterns wanted visit).run s =
        .ok (((findFiles patterns l).filter wanted).flatMap found) ∧
      (pass patterns wanted visit).reads s =
        ((findFiles patterns l).filter wanted).flatMap fun file => (visit file).reads s := by
  have wantedRuns : ∀ file ∈ (findFiles patterns l).filter wanted,
      (visit file).run s = .ok (found file) :=
    fun file member => runs file (List.mem_filter.1 member).1
  constructor
  · show s.files.bind _ = _
    rw [listed]
    exact run_collect_of_runs wantedRuns
  · show (files fun l => collect visit ((findFiles patterns l).filter wanted)).reads s = _
    rw [reads, listed]
    exact reads_collect wantedRuns

/-- Scans that are made of passes one after another. Texts at given paths may be read aside. -/
inductive IsMadeOfPasses : {α : Type} → Scan α → Prop where
  | done {α : Type} (result : α) : IsMadeOfPasses (.done result)
  | pass {ρ : Type} (patterns : List String) (wanted : String → Bool)
      {visit : String → Scan (List ρ)} (stays : ∀ file, (visit file).StaysAt file) :
      IsMadeOfPasses (.pass patterns wanted visit)
  | aside {α : Type} (path : String) {next : Option Text → Scan α}
      (later : ∀ text, (next text).IsMadeOfPasses) : IsMadeOfPasses (.read path next)
  | append {ρ : Type} {a b : Scan (List ρ)} (first : a.IsMadeOfPasses)
      (second : b.IsMadeOfPasses) :
      IsMadeOfPasses (do let first ← a; let second ← b; return first ++ second)
  | after {α β : Type} {scan : Scan α} (h : scan.IsMadeOfPasses) (g : α → β) :
      IsMadeOfPasses (do let a ← scan; return g a)

namespace IsMadeOfPasses

/-- Visits to the texts of the wanted files. -/
theorem chosen (patterns : List String) (wanted : String → Bool)
    (visit : String → Text → List ρ) : IsMadeOfPasses
      (.files fun l => .collect (.visitText visit) ((findFiles patterns l).filter wanted)) :=
  pass patterns wanted fun file => staysAt_after_read file _

/-- Every file that is found is wanted. -/
theorem eachFound (patterns : List String) {visit : String → Scan (List ρ)}
    (stays : ∀ file, (visit file).StaysAt file) :
    IsMadeOfPasses (do let files ← Scan.find patterns; Scan.collect visit files) := by
  have all := pass patterns (fun _ => true) stays
  simp only [Scan.pass, List.filter_true] at all
  exact all

theorem eachFile (patterns : List String) (visit : String → Text → List ρ) :
    (Scan.eachFile patterns visit).IsMadeOfPasses :=
  eachFound patterns fun file => staysAt_after_read file _

theorem collect {visit : ι → Scan (List ρ)} (visits : ∀ i, (visit i).IsMadeOfPasses)
    (items : List ι) : (Scan.collect visit items).IsMadeOfPasses := by
  induction items with
  | nil => exact .done []
  | cons i items ih => exact .append (visits i) ih

/-- One record for each of the wanted files, without a look at it. -/
theorem named (patterns : List String) (wanted : String → Bool) (record : String → ρ) :
    IsMadeOfPasses
      (do let files ← Scan.find patterns; return (files.filter wanted).map record) := by
  have all := pass patterns wanted fun file => staysAt_done file [record file]
  simp only [Scan.pass, collect_done] at all
  exact all

theorem eachNamed (patterns : List String) (record : String → ρ) :
    IsMadeOfPasses (do let files ← Scan.find patterns; return files.map record) := by
  have all := named patterns (fun _ => true) record
  simp only [List.filter_true] at all
  exact all

end IsMadeOfPasses

end Scan

/-! ## Extractors -/

namespace Extractor

open Scan Scan.IsMadeOfPasses

theorem folderRoutes_staysAt (folder handlers file : String) :
    (Routes.folderRoutes folder handlers file).StaysAt file := by
  rw [Routes.folderRoutes]
  split
  · exact staysAt_after_read file _
  · exact staysAt_done file _

theorem nuxtPages_isMadeOfPasses (folder : String) :
    (Routes.nuxtPages folder).IsMadeOfPasses := by
  rw [Routes.nuxtPages]
  exact eachNamed _ _

theorem nextPages_isMadeOfPasses (folder : String) :
    (Routes.nextPages folder).IsMadeOfPasses := by
  rw [Routes.nextPages]
  exact named _ _ _

theorem nextFolders_isMadeOfPasses (folder : String) :
    (Routes.nextFolders folder).IsMadeOfPasses := by
  rw [Routes.nextFolders]
  exact eachFound _ fun file => folderRoutes_staysAt folder "route" file

theorem nextJs_isMadeOfPasses : Routes.nextJs.scan.IsMadeOfPasses :=
  append (collect nextPages_isMadeOfPasses _) (collect nextFolders_isMadeOfPasses _)

theorem svelteKit_isMadeOfPasses : Routes.svelteKit.scan.IsMadeOfPasses :=
  eachFound _ fun file => folderRoutes_staysAt "src/routes" "+server" file

theorem routeTable_isMadeOfPasses : ∀ entry ∈ routeTable, entry.2.scan.IsMadeOfPasses := by
  delta routeTable
  simp only [List.forall_mem_append, forall_forFrameworks, forall_forScripts, and_assoc, and_self]
  exact ⟨fun _ _ => after (eachFile _ _) _,
    fun _ _ => eachFile _ _,
    fun _ _ => eachFile _ _,
    fun _ _ => eachFile _ _,
    fun _ _ => eachFile _ _,
    fun _ _ => nextJs_isMadeOfPasses,
    fun _ _ => collect nuxtPages_isMadeOfPasses _,
    fun _ _ => svelteKit_isMadeOfPasses,
    fun _ _ => aside _ fun _ => .done _,
    fun _ _ => chosen _ _ _,
    fun _ _ => eachFile _ _,
    fun _ _ => eachFile _ _,
    fun _ _ => eachFile _ _,
    fun _ _ => eachFile _ _,
    fun _ _ => eachFile _ _,
    fun _ _ => append (eachFile _ _) (eachFile _ _),
    fun _ _ => eachFile _ _,
    fun _ _ => eachFile _ _,
    fun _ _ => eachFile _ _⟩

theorem modelTable_isMadeOfPasses : ∀ entry ∈ modelTable, entry.2.scan.IsMadeOfPasses := by
  simp only [modelTable, List.forall_mem_append, forall_forFrameworks, forall_forLanguage,
    and_assoc]
  have typeScript : Models.typeScript.scan.IsMadeOfPasses := append (eachFile _ _) (eachFile _ _)
  exact ⟨eachFile _ _,
    fun _ _ => eachFile _ _,
    eachFile _ _,
    append (eachFile _ _) typeScript,
    typeScript,
    fun _ _ => aside _ fun _ => eachFile _ _,
    chosen _ _ _,
    eachFile _ _,
    fun _ _ => eachFile _ _,
    eachFile _ _,
    eachFile _ _⟩

theorem controllerTable_isMadeOfPasses :
    ∀ entry ∈ controllerTable, entry.2.scan.IsMadeOfPasses := by
  simp only [controllerTable, List.forall_mem_append, forall_forFrameworks, forall_forScripts,
    forall_forLanguage, and_assoc, and_self]
  exact ⟨fun _ _ => eachFile _ _,
    fun _ _ => eachFile _ _,
    fun _ _ => eachFile _ _,
    fun _ _ => eachFile _ _,
    fun _ _ => eachFile _ _,
    chosen _ _ _,
    fun _ _ => eachFile _ _,
    fun _ _ => after (eachFile _ _) _,
    fun _ _ => eachFile _ _,
    fun _ _ => eachFile _ _⟩

theorem componentTable_isMadeOfPasses :
    ∀ entry ∈ componentTable, entry.2.scan.IsMadeOfPasses := by
  simp only [componentTable, List.forall_mem_append, forall_forFrameworks, forall_forScripts,
    and_assoc, and_self]
  exact ⟨fun _ _ => eachFile _ _,
    fun _ _ => eachFile _ _,
    fun _ _ => eachFile _ _,
    fun _ _ => eachFile _ _,
    fun _ _ => eachFound _ fun file => staysAt_after_read file _⟩

theorem serviceTable_isMadeOfPasses : ∀ entry ∈ serviceTable, entry.2.scan.IsMadeOfPasses := by
  simp only [serviceTable, List.forall_mem_append, forall_forLanguage, and_assoc]
  exact ⟨chosen _ _ _,
    eachFile _ _,
    eachFile _ _,
    eachFile _ _,
    eachFile _ _,
    chosen _ _ _,
    eachFile _ _,
    eachFile _ _,
    eachFile _ _⟩

theorem all_isMadeOfPasses : ∀ e ∈ all, e.scan.IsMadeOfPasses := by
  simp only [all, allRoutes, allModels, allControllers, allComponents, allServices,
    List.forall_mem_append, List.forall_mem_map, List.forall_mem_cons, and_assoc]
  exact ⟨after (after (eachFile _ _) _) _,
    fun entry member => after (routeTable_isMadeOfPasses entry member) _,
    after (eachFile _ _) _,
    fun entry member => after (modelTable_isMadeOfPasses entry member) _,
    fun entry member => after (controllerTable_isMadeOfPasses entry member) _,
    fun entry member => after (componentTable_isMadeOfPasses entry member) _,
    fun entry member => after (serviceTable_isMadeOfPasses entry member) _⟩

end Extractor

/-! ## Trees -/

/-- On every tree the files that some patterns name are found once each, in the order of the first
pattern that names them and, for one pattern, of the listing. A pass over the files of the patterns
takes one visit to each of them that is wanted, and all extractors are made of such passes. -/
theorem found_visited_once {d : Disk} {depth : Nat} {root : Location} {exclude l : List String}
    (proper : d.isProper = true) (listed : d.listing depth root exclude = .ok l) :
    (∀ patterns, ∃ found,
      ((Snapshot.new root exclude).perform d depth (Scan.find patterns)).1 = .ok found ∧
      AreFound patterns l found ∧
      ∀ (ρ : Type) (wanted : String → Bool) (visit : String → Scan (List ρ)),
        (∀ file, (visit file).StaysAt file) → ∃ records : String → List ρ,
          (∀ file ∈ found, (visit file).run (d.source depth root exclude) = .ok (records file)) ∧
          ((Snapshot.new root exclude).perform d depth (Scan.pass patterns wanted visit)).1 =
            .ok ((found.filter wanted).flatMap records) ∧
          (Scan.pass patterns wanted visit).reads (d.source depth root exclude) =
            (found.filter wanted).flatMap fun file =>
              (visit file).reads (d.source depth root exclude)) ∧
    ∀ e ∈ Extractor.all, e.scan.IsMadeOfPasses := by
  obtain ⟨texts, reads⟩ := Routes.exists_texts proper listed
  have files := (Disk.source_files d depth root exclude).trans listed
  have found := areFound_findFiles (Disk.nodup_listing proper listed)
  refine ⟨fun patterns => ⟨findFiles patterns l, ?_, found patterns, ?_⟩,
    Extractor.all_isMadeOfPasses⟩
  · rw [Snapshot.perform_new, Scan.run_find files]
  · intro ρ wanted visit stays
    have runs : ∀ file ∈ findFiles patterns l, ∃ records,
        (visit file).run (d.source depth root exclude) = .ok records :=
      fun file member => (stays file).exists_run files (reads file (mem_findFiles.1 member).1)
    choose! records runs using runs
    rw [Snapshot.perform_new]
    exact ⟨records, runs, Scan.pass_visits files runs⟩

/-- Views that several patterns name. -/
def nestedViews : Disk :=
  ⟨.folder [("repo", .folder
    [("admin.py", .file []), ("views.py", .file []),
     ("views", .folder [("list.py", .file []), ("views.py", .file [])])])], []⟩

def nestedViewsListing : List String := ["admin.py", "views.py", "views/list.py", "views/views.py"]

theorem nestedViews_listing :
    nestedViews.listing 10 (Location.read "/repo") [] = .ok nestedViewsListing :=
  Disk.listing_of_walk
    [⟨["admin.py"], .file⟩, ⟨["views.py"], .file⟩, ⟨["views"], .folder⟩,
      ⟨["views", "list.py"], .file⟩, ⟨["views", "views.py"], .file⟩]
    rfl rfl rfl (by decide)

def viewPatterns : List String := ["**/views.py", "**/views/*.py", "**/*.py"]

def nestedViewsFound : List String :=
  ["views.py", "views/views.py", "views/list.py", "admin.py"]

/-- A visit that reports the name of the file visits each of them once. -/
theorem nestedViews_found : AreFound viewPatterns nestedViewsListing nestedViewsFound ∧
    ((Snapshot.new (Location.read "/repo") []).perform nestedViews 10
      (Scan.pass viewPatterns (fun _ => true) (Scan.visitText fun file _ => [file]))).1 =
        .ok nestedViewsFound := by
  have listed := (Disk.source_files nestedViews 10 (Location.read "/repo") []).trans
    nestedViews_listing
  have chosen : findFiles viewPatterns nestedViewsListing = nestedViewsFound := by decide +kernel
  obtain ⟨found, ran, areFound, visited⟩ :=
    (found_visited_once (d := nestedViews) (by decide) nestedViews_listing).1 viewPatterns
  rw [Snapshot.perform_new, Scan.run_find listed, chosen] at ran
  cases ran
  refine ⟨areFound, ?_⟩
  obtain ⟨records, runs, passed, -⟩ := visited String (fun _ => true)
    (Scan.visitText fun file _ => [file]) fun file => Scan.staysAt_after_read file _
  have each : ∀ file ∈ nestedViewsFound,
      (Scan.visitText (fun file _ => [file]) file).run
        (nestedViews.source 10 (Location.read "/repo") []) = .ok [file] := by
    simp only [nestedViewsFound, List.forall_mem_cons]
    exact ⟨rfl, rfl, rfl, rfl, List.forall_mem_nil _⟩
  have same : nestedViewsFound.flatMap records = nestedViewsFound.flatMap fun file => [file] :=
    List.flatMap_congr fun file member =>
      Except.ok.inj ((runs file member).symm.trans (each file member))
  rw [passed, List.filter_true, same, List.flatMap_singleton']

end CodeSurvey
