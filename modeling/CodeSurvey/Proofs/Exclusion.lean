import CodeSurvey.Proofs.Extractors

/-!
# Records in excluded places

What an extractor finds in a tree lies in listed files, and a listed file has no excluded segment.
The routes of Rails are the exception: they are read from their path whether it is listed or not
(`Extractor.mem_files_iff`). `Extractor.hiddenRoutes` is a tree where this shows.
-/

namespace CodeSurvey

open Scan

namespace Extractor

/-- A run of any extractor but the one for the routes of Rails finds records in listed files only,
and the routes of Rails are found in their file whether it is listed or not. -/
theorem mem_files_iff {s : Source} {l : List String} (listed : s.files = .ok l)
    {e : Extractor Record} (member : e ∈ all) {records : List Record}
    (found : e.scan.run s = .ok records) :
    (∀ r ∈ records, r.file ∈ l) ↔
      (e.label = Routes.rails.label → records = [] ∨ Routes.railsFile ∈ l) := by
  refine forall_all (P := fun e => ∀ records, e.scan.run s = .ok records →
    ((∀ r ∈ records, r.file ∈ l) ↔
      (e.label = Routes.rails.label → records = [] ∨ Routes.railsFile ∈ l)))
    ?ordinary ?phoenix ?rails ?activeRecord e member records found
  case ordinary =>
    intro e ordinary records found
    exact iff_of_true (IsLocal.mem_files (ordinary.1 []) listed found)
      fun same => absurd same ordinary.2
  case phoenix =>
    intro records found
    rw [run_toRecords] at found
    obtain ⟨routes, run, rfl⟩ := Except.exists_of_map found
    have inside := Routes.phoenix_mem_files listed run
    refine iff_of_true (List.forall_mem_map.2 inside) fun same => ?_
    exact absurd same (by decide)
  case rails =>
    intro records found
    rw [run_toRecords] at found
    obtain ⟨routes, run, rfl⟩ := Except.exists_of_map found
    have allIn := Routes.rails_allIn run
    constructor
    · intro inside _
      cases routes with
      | nil => exact .inl rfl
      | cons r rest =>
        have := inside (.route r) (.head _)
        rw [show (Record.route r).file = Routes.railsFile from allIn r (.head _)] at this
        exact .inr this
    · intro condition
      rcases condition rfl with none | listed
      · rw [none]; exact fun r member => by cases member
      · refine List.forall_mem_map.2 fun r member => ?_
        rw [show (Record.route r).file = Routes.railsFile from allIn r member]
        exact listed
  case activeRecord =>
    intro records found
    have isLocal : IsLocal [Models.schemaFile] (Models.activeRecord.toRecords .model).scan :=
      toRecords_isLocal (fun _ => rfl) (Models.activeRecord_isLocal (.head _))
    exact iff_of_true (isLocal.mem_files listed found) fun same => absurd same (by decide)

/-- The file of the routes of Rails, with one route, in a folder that can be excluded. -/
def hiddenRoutes : Disk :=
  ⟨.folder [("repo", .folder [("config", .folder [("routes.rb",
    .file ((Text.of "root \"home#index\"").map fun c => UInt8.ofNat c.toNat))])])], []⟩

theorem hiddenRoutes_listing :
    hiddenRoutes.listing 10 (Location.read "repo") ["config"] = .ok [] :=
  Disk.listing_of_walk [] rfl rfl rfl (by decide)

theorem hiddenRoutes_found :
    ((Snapshot.new (Location.read "repo") ["config"]).perform hiddenRoutes 10
      (Routes.rails.toRecords .route).scan).1 =
        .ok [.route ⟨"GET", "/", "config/routes.rb", some "home#index"⟩] := by
  have read : (hiddenRoutes.source 10 (Location.read "repo") ["config"]).read Routes.railsFile =
      .ok (some (Text.of "root \"home#index\"")) := rfl
  have routes : Routes.inRails Routes.railsFile (Text.of "root \"home#index\"") =
      [⟨"GET", "/", "config/routes.rb", some "home#index"⟩] := by decide +kernel
  rw [Snapshot.perform_new, run_toRecords, Routes.run_rails, read]
  simp [Except.map, routes]

theorem rails_mem_all : Routes.rails.toRecords .route ∈ all := by
  have entry : (⟨"ruby", some "rails"⟩, Routes.rails) ∈ routeTable := by
    delta routeTable
    simp [forFrameworks]
  simp only [all, allRoutes, List.mem_append, List.mem_map, List.mem_cons]
  exact .inl (.inl (.inl (.inl ⟨_, .inr ⟨_, entry, rfl⟩, rfl⟩)))

/-- The records that an extractor finds in a proper tree are all from listed files, none of them
with an excluded segment, exactly if the extractor is not the one for the routes of Rails, or finds
nothing, or the file of these routes is listed. -/
theorem listed_iff {d : Disk} {depth : Nat} {root : Location} {exclude l : List String}
    (proper : d.isProper = true) (listed : d.listing depth root exclude = .ok l)
    {e : Extractor Record} (member : e ∈ all) {records : List Record}
    (found : ((Snapshot.new root exclude).perform d depth e.scan).1 = .ok records) :
    (∀ r ∈ records, r.file ∈ l ∧
      ∀ name ∈ segments r.file, name ∉ excludedNames ∧ name ∉ exclude) ↔
        (e.label = "extract_rails_routes" → records = [] ∨ Routes.railsFile ∈ l) := by
  rw [Snapshot.perform_new] at found
  have files : (d.source depth root exclude).files = .ok l := by
    rw [Disk.source_files, listed]
  have inFiles := mem_files_iff files member found
  constructor
  · exact fun inside => inFiles.1 fun r inRecords => (inside r inRecords).1
  · intro condition r inRecords
    have inside := inFiles.2 condition r inRecords
    exact ⟨inside, Disk.segments_of_listed proper listed inside⟩

/-- With the folder excluded, the route is from a file that is not listed. -/
theorem hiddenRoutes_outside :
    ¬ ∀ r ∈ [Record.route ⟨"GET", "/", "config/routes.rb", some "home#index"⟩],
      r.file ∈ ([] : List String) ∧
        ∀ name ∈ segments r.file, name ∉ excludedNames ∧ name ∉ ["config"] := by
  rw [listed_iff (by decide) hiddenRoutes_listing rails_mem_all hiddenRoutes_found]
  simp [toRecords, Routes.rails]

/-- So it is not true that an exclusion keeps all records out. -/
theorem exclusion_incomplete :
    ¬ ∀ (d : Disk) (depth : Nat) (root : Location) (exclude l : List String), d.isProper = true →
      d.listing depth root exclude = .ok l → ∀ e ∈ all, ∀ records,
        ((Snapshot.new root exclude).perform d depth e.scan).1 = .ok records →
          ∀ r ∈ records, r.file ∈ l ∧
            ∀ name ∈ segments r.file, name ∉ excludedNames ∧ name ∉ exclude := by
  intro all_inside
  have inside := all_inside hiddenRoutes _ _ _ _ (by decide) hiddenRoutes_listing _ rails_mem_all _
    hiddenRoutes_found
  exact absurd (inside _ (.head _)).1 (by simp)

end Extractor

end CodeSurvey
