import CodeSurvey.Proofs.Layouts
import CodeSurvey.Proofs.Reports

/-!
# Routes that are declared more than once

Phoenix has one route for a method and a path, and where no framework is known there is one for a
method, a path and a file. Of several declarations of one route the first counts: what is reported
are the declarations at the places where a route is declared for the first time, in the order of
these places (`Routes.first_declarations_reported`).
-/

namespace CodeSurvey

/-! ## The first record for each key -/

section
variable {ρ σ κ : Type} {key : ρ → κ} {records : List ρ}

/-- Whether at a place a key occurs for the first time. -/
def IsFirstAt (key : ρ → κ) (records : List ρ) (i : Nat) : Prop :=
  ∃ r, records[i]? = some r ∧ key r ∉ (records.take i).map key

/-- Whether what is kept of some records stands at the places where a key occurs for the first time,
in the order of these places. -/
def AreFirsts (key : ρ → κ) (records kept : List ρ) : Prop :=
  ∃ places : List Nat, places.Pairwise (· < ·) ∧ (∀ i, i ∈ places ↔ IsFirstAt key records i) ∧
    places.map (records[·]?) = kept.map some

theorem IsFirstAt.lt_length {i : Nat} (h : IsFirstAt key records i) : i < records.length := by
  obtain ⟨r, here, -⟩ := h
  exact (List.getElem?_eq_some_iff.1 here).1

/-- One more record makes at most one more place. -/
theorem isFirstAt_concat_iff {r : ρ} {i : Nat} : IsFirstAt key (records ++ [r]) i ↔
    IsFirstAt key records i ∨ i = records.length ∧ key r ∉ records.map key := by
  rcases Nat.lt_trichotomy i records.length with inside | rfl | outside
  · have same : IsFirstAt key (records ++ [r]) i ↔ IsFirstAt key records i := by
      simp only [IsFirstAt, List.getElem?_append_left inside,
        List.take_append_of_le_length (Nat.le_of_lt inside)]
    rw [same, or_iff_left fun last => absurd last.1 (Nat.ne_of_lt inside)]
  · have last : IsFirstAt key (records ++ [r]) records.length ↔ key r ∉ records.map key := by
      simp [IsFirstAt]
    have notBefore : ¬ IsFirstAt key records records.length := fun h => Nat.lt_irrefl _ h.lt_length
    rw [last, or_iff_right notBefore, and_iff_right rfl]
  · refine iff_of_false (fun h => ?_) ?_
    · have short := h.lt_length
      rw [List.length_append, List.length_singleton] at short
      omega
    · rintro (h | ⟨rfl, -⟩)
      · exact Nat.lt_asymm h.lt_length outside
      · exact Nat.lt_irrefl _ outside

variable [BEq κ] [LawfulBEq κ]

theorem mem_seen {k : κ} :
    k ∈ (records.foldl (firstStep key) ([], [])).1 ↔ k ∈ records.map key := by
  induction records using List.reverseRecOn with
  | nil => simp
  | append_singleton records r ih =>
    rw [List.foldl_append, List.foldl_cons, List.foldl_nil, firstStep, List.map_append,
      List.mem_append, List.map_singleton, List.mem_singleton, ← ih]
    split
    · next seen =>
      refine (or_iff_left_of_imp ?_).symm
      rintro rfl
      exact List.contains_iff_mem.1 seen
    · rw [List.mem_cons, or_comm]

theorem firstBy_concat_of_mem {r : ρ} (seen : key r ∈ records.map key) :
    Routes.firstBy key (records ++ [r]) = Routes.firstBy key records := by
  rw [firstBy_eq, List.foldl_append, List.foldl_cons, List.foldl_nil, firstStep,
    if_pos (List.contains_iff_mem.2 (mem_seen.2 seen)), firstBy_eq]

theorem firstBy_concat_of_not_mem {r : ρ} (fresh : key r ∉ records.map key) :
    Routes.firstBy key (records ++ [r]) = Routes.firstBy key records ++ [r] := by
  rw [firstBy_eq, List.foldl_append, List.foldl_cons, List.foldl_nil, firstStep,
    if_neg (mt (fun h => mem_seen.1 (List.contains_iff_mem.1 h)) fresh), List.reverse_cons,
    firstBy_eq]

theorem areFirsts_firstBy (records : List ρ) :
    AreFirsts key records (Routes.firstBy key records) := by
  induction records using List.reverseRecOn with
  | nil => exact ⟨[], .nil, fun i => by simp [IsFirstAt], rfl⟩
  | append_singleton records r ih =>
    obtain ⟨places, ascending, mem, kept⟩ := ih
    have before : ∀ i ∈ places, i < records.length := fun i member => ((mem i).1 member).lt_length
    have same : places.map ((records ++ [r])[·]?) = places.map (records[·]?) :=
      List.map_congr_left fun i member => List.getElem?_append_left (before i member)
    by_cases seen : key r ∈ records.map key
    · rw [firstBy_concat_of_mem seen]
      refine ⟨places, ascending, fun i => ?_, same.trans kept⟩
      rw [isFirstAt_concat_iff, mem, or_iff_left fun last => last.2 seen]
    · rw [firstBy_concat_of_not_mem seen]
      refine ⟨places ++ [records.length], ?_, fun i => ?_, ?_⟩
      · exact List.pairwise_append.2 ⟨ascending, List.pairwise_singleton _ _,
          fun i member j last => by rw [List.mem_singleton.1 last]; exact before i member⟩
      · rw [isFirstAt_concat_iff, List.mem_append, mem, List.mem_singleton, and_iff_left seen]
      · rw [List.map_append, List.map_append, same, kept]
        simp

theorem mem_map_firstBy {k : κ} :
    k ∈ (Routes.firstBy key records).map key ↔ k ∈ records.map key := by
  induction records using List.reverseRecOn with
  | nil => rfl
  | append_singleton records r ih =>
    rw [List.map_append, List.mem_append, ← ih]
    by_cases seen : key r ∈ records.map key
    · rw [firstBy_concat_of_mem seen]
      refine (or_iff_left_of_imp fun last => ?_).symm
      rw [ih, List.mem_singleton.1 last]
      exact seen
    · rw [firstBy_concat_of_not_mem seen, List.map_append, List.mem_append]

theorem nodup_map_firstBy (records : List ρ) : ((Routes.firstBy key records).map key).Nodup := by
  induction records using List.reverseRecOn with
  | nil => exact .nil
  | append_singleton records r ih =>
    by_cases seen : key r ∈ records.map key
    · rwa [firstBy_concat_of_mem seen]
    · rw [firstBy_concat_of_not_mem seen, List.map_append, List.map_singleton, List.nodup_append]
      refine ⟨ih, List.nodup_singleton _, fun k member k' last => ?_⟩
      rw [List.mem_singleton.1 last]
      rintro rfl
      exact seen (mem_map_firstBy.1 member)

theorem firstBy_map (f : σ → ρ) (records : List σ) :
    Routes.firstBy key (records.map f) = (Routes.firstBy (key ∘ f) records).map f := by
  induction records using List.reverseRecOn with
  | nil => rfl
  | append_singleton records r ih =>
    rw [List.map_append, List.map_singleton]
    by_cases seen : key (f r) ∈ (records.map f).map key
    · have seen' : (key ∘ f) r ∈ records.map (key ∘ f) := by rwa [List.map_map] at seen
      rw [firstBy_concat_of_mem seen, firstBy_concat_of_mem seen', ih]
    · have fresh' : (key ∘ f) r ∉ records.map (key ∘ f) := by rwa [List.map_map] at seen
      rw [firstBy_concat_of_not_mem seen, firstBy_concat_of_not_mem fresh', List.map_append, ih]
      rfl

end

/-! ## Files in the order of the listing -/

theorem eraseDups_of_nodup {names : List String} (nodup : names.Nodup) :
    names.eraseDups = names := by
  induction names with
  | nil => rfl
  | cons name rest ih =>
    obtain ⟨fresh, nodup⟩ := List.nodup_cons.1 nodup
    have others : ∀ other ∈ rest, (!other == name) = true := by
      intro other member
      rw [Bool.not_eq_true', beq_eq_false_iff_ne]
      rintro rfl
      exact fresh member
    rw [List.eraseDups_cons, List.filter_eq_self.2 others, ih nodup]

/-- The files that one glob names are in the order of the listing. -/
theorem findFiles_singleton (pattern : String) {l : List String} (nodup : l.Nodup) :
    findFiles [pattern] l = Glob.select pattern l := by
  rw [findFiles, List.flatMap_singleton]
  exact eraseDups_of_nodup (nodup.filter _)

/-! ## Declarations -/

namespace Routes

open Pattern

/-- How routes are declared that are reported once: in which of the listed files, by which pattern,
with which handler, and what makes two routes the same. -/
structure Declaring (κ : Type) where
  files : List String → List String
  declaration : Pattern
  handler : Match → Option String
  key : Route → κ

def phoenixDeclaring : Declaring (String × String) where
  files := Glob.select "**/router.ex"
  declaration := phoenixRoute
  handler m := phoenixHandler (m.string? 3) (m.string? 4)
  key r := (r.method, r.path)

def genericDeclaring : Declaring (String × String × String) where
  files := findFiles genericPatterns
  declaration := genericRoute
  handler _ := none
  key r := (r.method, r.path, r.file)

namespace Declaring

variable {κ : Type}

/-- The route that a match in a file declares. -/
def route (x : Declaring κ) : String × Match → Route
  | (file, m) => ⟨m.upper 1, m.string 2, file, x.handler m⟩

/-- The declarations in the files that can be read, file by file and match by match. -/
def declared (x : Declaring κ) (l : List String) (texts : String → Option Text) :
    List (String × Match) :=
  (x.files l).flatMap
    (Scan.visited (fun file text => (x.declaration.all text).map fun m => (file, m)) texts)

/-- Whether routes are those of the declarations that come first. -/
structure AreReported (x : Declaring κ) (l : List String) (texts : String → Option Text)
    (routes : List Route) : Prop where
  leftToRight : ∀ text, (x.declaration.all text).Pairwise fun m m' => m'.first.rest <:+ m.last.rest
  firsts : ∃ kept, AreFirsts (x.key ∘ x.route) (x.declared l texts) kept ∧
    routes = kept.map x.route
  nodup : (routes.map x.key).Nodup
  mem : ∀ found ∈ x.declared l texts, x.key (x.route found) ∈ routes.map x.key

variable [BEq κ] [LawfulBEq κ]

theorem areReported_firstBy (x : Declaring κ) (l : List String) (texts : String → Option Text) :
    x.AreReported l texts (firstBy x.key ((x.declared l texts).map x.route)) where
  leftToRight _ := pairwise_findAll _ _
  firsts := ⟨_, areFirsts_firstBy _, firstBy_map _ _⟩
  nodup := nodup_map_firstBy _
  mem _ member := mem_map_firstBy.2 (List.mem_map_of_mem (List.mem_map_of_mem member))

/-- An extractor that visits the files and keeps the first route for each key reports the
declarations that come first. -/
theorem exists_areReported (x : Declaring κ) {s : Source} {l patterns : List String}
    {texts : String → Option Text} (listed : s.files = .ok l)
    (reads : ∀ path ∈ l, s.read path = .ok (texts path)) (files : findFiles patterns l = x.files l)
    {visit : String → Text → List Route} (visits : ∀ file text, visit file text =
      (x.declaration.all text).map fun m => x.route (file, m)) :
    ∃ routes, ((Scan.eachFile patterns visit).run s).map (firstBy x.key) = .ok routes ∧
      x.AreReported l texts routes := by
  refine ⟨_, ?_, x.areReported_firstBy l texts⟩
  have all : (x.files l).flatMap (Scan.visited visit texts) =
      (x.declared l texts).map x.route := by
    rw [declared, List.map_flatMap]
    refine List.flatMap_congr fun file _ => ?_
    rw [Scan.visited, Scan.visited]
    cases texts file with
    | none => rfl
    | some text =>
      show visit file text = _
      rw [visits, Option.map_some, Option.getD_some, List.map_map]
      rfl
  rw [Scan.run_eachFile_of_reads listed reads, files, all]
  rfl

end Declaring

theorem run_generic (s : Source) :
    generic.scan.run s = ((Scan.eachFile genericPatterns inAnySource).run s).map
      (firstBy fun r : Route => (r.method, r.path, r.file)) :=
  Scan.run_after _ _

/-- On every tree the routes of Phoenix and those of unknown frameworks are found, and they are
those that are declared first: for a method and a path, or for these and a file. -/
theorem first_declarations_reported {d : Disk} {depth : Nat} {root : Location}
    {exclude l : List String} (proper : d.isProper = true)
    (listed : d.listing depth root exclude = .ok l) :
    ∃ texts : String → Option Text,
      (∀ file ∈ l, (d.source depth root exclude).read file = .ok (texts file)) ∧
      (∃ routes, ((Snapshot.new root exclude).perform d depth phoenix.scan).1 = .ok routes ∧
        phoenixDeclaring.AreReported l texts routes) ∧
      ∃ routes, ((Snapshot.new root exclude).perform d depth generic.scan).1 = .ok routes ∧
        genericDeclaring.AreReported l texts routes := by
  obtain ⟨texts, reads⟩ := exists_texts proper listed
  have files := (Disk.source_files d depth root exclude).trans listed
  rw [Snapshot.perform_new, Snapshot.perform_new, run_generic, run_phoenix]
  refine ⟨texts, reads, ?_, ?_⟩
  · exact phoenixDeclaring.exists_areReported files reads
      (findFiles_singleton _ (Disk.nodup_listing proper listed)) fun _ _ => rfl
  · exact genericDeclaring.exists_areReported files reads rfl fun _ _ => rfl

/-- Two routers that repeat routes, in themselves and of each other. -/
def twoRouters : Disk :=
  ⟨.folder [("repo", .folder
    [("a", .folder [("router.ex",
      .file "get \"/x\", A, :index\nget \"/x\", B, :show\n".toUTF8.toList)]),
     ("b", .folder [("router.ex",
      .file "get \"/x\", C\npost \"/x\", D\nget(\"/y\")\nget [\"/y\"]\n".toUTF8.toList)])])],
    []⟩

def twoRoutersListing : List String := ["a/router.ex", "b/router.ex"]

def twoRoutersPhoenix : List Route :=
  [⟨"GET", "/x", "a/router.ex", some "A.index"⟩, ⟨"POST", "/x", "b/router.ex", some "D"⟩]

def twoRoutersGeneric : List Route := [⟨"GET", "/y", "b/router.ex", none⟩]

theorem twoRouters_listing : twoRouters.listing 10 (Location.read "/repo") [] =
    .ok twoRoutersListing :=
  Disk.listing_of_walk
    [⟨["a"], .folder⟩, ⟨["a", "router.ex"], .file⟩, ⟨["b"], .folder⟩,
      ⟨["b", "router.ex"], .file⟩]
    rfl rfl rfl (by decide)

theorem twoRouters_phoenix :
    ((Snapshot.new (Location.read "/repo") []).perform twoRouters 10 phoenix.scan).1 =
      .ok twoRoutersPhoenix := by
  have listed := (Disk.source_files twoRouters 10 (Location.read "/repo") []).trans
    twoRouters_listing
  have chosen : findFiles ["**/router.ex"] twoRoutersListing = twoRoutersListing := by
    decide +kernel
  rw [Snapshot.perform_new, run_phoenix, Scan.run_eachFile listed, chosen]
  decide +kernel

theorem twoRouters_generic :
    ((Snapshot.new (Location.read "/repo") []).perform twoRouters 10 generic.scan).1 =
      .ok twoRoutersGeneric := by
  have listed := (Disk.source_files twoRouters 10 (Location.read "/repo") []).trans
    twoRouters_listing
  have chosen : findFiles genericPatterns twoRoutersListing = twoRoutersListing := by
    decide +kernel
  rw [Snapshot.perform_new, run_generic, Scan.run_eachFile listed, chosen]
  decide +kernel

theorem twoRouters_reported : ∃ texts : String → Option Text,
    (∀ file ∈ twoRoutersListing,
      (twoRouters.source 10 (Location.read "/repo") []).read file = .ok (texts file)) ∧
    phoenixDeclaring.AreReported twoRoutersListing texts twoRoutersPhoenix ∧
    genericDeclaring.AreReported twoRoutersListing texts twoRoutersGeneric := by
  obtain ⟨texts, reads, ⟨routes, ran, reported⟩, routes', ran', reported'⟩ :=
    first_declarations_reported (by decide) twoRouters_listing
  rw [twoRouters_phoenix] at ran
  rw [twoRouters_generic] at ran'
  cases ran
  cases ran'
  exact ⟨texts, reads, reported, reported'⟩

end Routes

end CodeSurvey
