import CodeSurvey.Proofs.Exclusion
import CodeSurvey.Proofs.Textual

/-!
# Files that cannot be read

A listed file may have no text: it is too large, or a link that leads nowhere. A textual scan finds
what it would find if such files were not listed (`Scan.IsTextual.run_readable`), so that no record
names one of them. The four extractors that go by paths have records of such files all the same:
those that they take by their layout (`Extractor.unread_found_iff`).
-/

namespace CodeSurvey

variable {s : Source} {l : List String} {file : String}

/-! ## What can be read -/

theorem readResult_eq_some {outcome : Except Unread Text} {text : Text} :
    readResult outcome = .ok (some text) ↔ outcome = .ok text := by
  rw [readResult.eq_def]
  split <;> simp

theorem Disk.load_eq_ok {d : Disk} {place : Location} {text : Text} :
    d.load place = .ok text ↔ ∃ content above, d.locate place = .ok (.file content :: above) ∧
      content.length ≤ maxFileSize ∧ content.decode.joinLines = text := by
  rw [load]
  split
  · next why fault => simp [fault]
  · next content above located =>
    simp only [located]
    split
    · next fits => simp [fits]
    · next large => simp [large]
  · next trail other located =>
    simp only [located, reduceCtorEq, false_iff]
    rintro ⟨content, above, same, -⟩
    cases same
    exact other content above rfl

/-! ## Textual scans -/

/-- Whether a path has no text, without the read failing. -/
def Source.isUnread (s : Source) (file : String) : Bool :=
  match s.read file with
  | .ok none => true
  | _ => false

theorem Source.isUnread_iff : s.isUnread file = true ↔ s.read file = .ok none := by
  rw [isUnread]
  split
  · next unread => simp [unread]
  · next readable => simpa using readable

/-- The source with only those files listed that can be read. -/
def Source.readable (s : Source) : Source :=
  { s with files := s.files.map (List.filter fun file => !s.isUnread file) }

theorem Source.readable_files (s : Source) :
    s.readable.files = s.files.map (List.filter fun file => !s.isUnread file) := by rw [readable]

namespace Scan

/-- A visit to a text that is not there has no part in the result. -/
theorem run_collect_readable {ρ : Type} (visit : String → Text → List ρ) (paths : List String) :
    (collect (visitText visit) (paths.filter fun file => !s.isUnread file)).run s.readable =
      (collect (visitText visit) paths).run s := by
  induction paths with
  | nil => rfl
  | cons path rest ih =>
    rw [run_collect_cons]
    cases unread : s.isUnread path with
    | true =>
      rw [List.filter_cons_of_neg (by simp [unread]), ih, run_visitText,
        Source.isUnread_iff.1 unread]
      cases (collect (visitText visit) rest).run s <;> rfl
    | false =>
      rw [List.filter_cons_of_pos (by simp [unread]), run_collect_cons, ih]
      rfl

/-- To a textual scan files that cannot be read are as good as not listed. -/
theorem IsTextual.run_readable {α : Type} {scan : Scan α} (h : scan.IsTextual) (s : Source) :
    scan.run s.readable = scan.run s := by
  induction h with
  | done result => rfl
  | text path => rfl
  | visits chooses visit =>
    rw [run, run, Source.readable_files]
    cases s.files with
    | error why => rfl
    | ok l =>
      simp only [Except.map, Except.bind]
      rw [chooses, run_collect_readable]
  | bind first later ihFirst ihLater =>
    rw [run_bind, run_bind, ihFirst]
    exact congrArg _ (funext ihLater)

/-- What is collected is what the visits have found. -/
theorem mem_collect {ρ ι : Type} {visit : ι → Scan (List ρ)} {items : List ι} {records : List ρ}
    (h : (collect visit items).run s = .ok records) :
    (∀ i ∈ items, ∃ found, (visit i).run s = .ok found ∧ ∀ r ∈ found, r ∈ records) ∧
      ∀ r ∈ records, ∃ i ∈ items, ∃ found, (visit i).run s = .ok found ∧ r ∈ found := by
  induction items generalizing records with
  | nil =>
    cases h
    simp
  | cons i rest ih =>
    rw [run_collect_cons] at h
    obtain ⟨found, first, h⟩ := Except.exists_of_bind h
    obtain ⟨later, others, rfl⟩ := Except.exists_of_map h
    obtain ⟨all, only⟩ := ih others
    constructor
    · refine List.forall_mem_cons.2 ⟨⟨found, first, fun r => List.mem_append_left _⟩, ?_⟩
      intro j member
      obtain ⟨found', ran, inside⟩ := all j member
      exact ⟨found', ran, fun r member => List.mem_append_right _ (inside r member)⟩
    · intro r member
      rcases List.mem_append.1 member with member | member
      · exact ⟨i, .head _, found, first, member⟩
      · obtain ⟨j, inRest, found', ran, inside⟩ := only r member
        exact ⟨j, .tail _ inRest, found', ran, inside⟩

/-! ## Files that are taken unread -/

/-- Whether of the files that cannot be read those have a record that are taken, and no others. -/
def TakesUnread {ρ : Type} [Filed ρ] (scan : Scan (List ρ))
    (taken : List String → List String) : Prop :=
  ∀ ⦃s : Source⦄ ⦃l : List String⦄ ⦃records : List ρ⦄, s.files = .ok l →
    scan.run s = .ok records → ∀ file, s.read file = .ok none →
      ((∃ r ∈ records, Filed.file r = file) ↔ file ∈ taken l)

section
variable {ρ : Type} [Filed ρ] {visit : String → Scan (List ρ)} {choose : List String → List String}

theorem takesUnread_names {record : String → ρ} (h : ∀ path, Filed.file (record path) = path) :
    TakesUnread (files fun l => done ((choose l).map record)) choose := by
  intro s l records listed found file unread
  rw [run, listed] at found
  cases found
  simp [h]

theorem takesUnread_visits (visits : IsVisit visit)
    (always : ∀ {path s records}, s.read path = .ok none → (visit path).run s = .ok records →
      records ≠ []) :
    TakesUnread (files fun l => collect visit (choose l)) choose := by
  intro s l records listed found file unread
  rw [run, listed] at found
  obtain ⟨all, only⟩ := mem_collect found
  constructor
  · rintro ⟨r, member, rfl⟩
    obtain ⟨path, chosen, records, ran, inside⟩ := only r member
    rwa [visits.allIn ran r inside]
  · intro chosen
    obtain ⟨records, ran, inside⟩ := all file chosen
    obtain ⟨r, member⟩ := List.exists_mem_of_ne_nil records (always unread ran)
    exact ⟨r, inside r member, visits.allIn ran r member⟩

theorem takesUnread_collect {ι : Type} {visit : ι → Scan (List ρ)} {items : List ι}
    {taken : ι → List String → List String} (h : ∀ i, TakesUnread (visit i) (taken i)) :
    TakesUnread (collect visit items) fun l => items.flatMap fun i => taken i l := by
  intro s l records listed found file unread
  obtain ⟨all, only⟩ := mem_collect found
  rw [List.mem_flatMap]
  constructor
  · rintro ⟨r, member, same⟩
    obtain ⟨i, inItems, records, ran, inside⟩ := only r member
    exact ⟨i, inItems, (h i listed ran file unread).1 ⟨r, inside, same⟩⟩
  · rintro ⟨i, inItems, taken⟩
    obtain ⟨records, ran, inside⟩ := all i inItems
    obtain ⟨r, member, same⟩ := (h i listed ran file unread).2 taken
    exact ⟨r, inside r member, same⟩

theorem takesUnread_append {a b : Scan (List ρ)} {first second : List String → List String}
    (ha : TakesUnread a first) (hb : TakesUnread b second) :
    TakesUnread (do let x ← a; let y ← b; return x ++ y) fun l => first l ++ second l := by
  intro s l records listed found file unread
  rw [show (do let x ← a; let y ← b; return x ++ y) =
    a.bind fun x => b.bind fun y => done (x ++ y) from rfl, run_bind] at found
  obtain ⟨x, ranA, found⟩ := Except.exists_of_bind found
  rw [run_bind] at found
  obtain ⟨y, ranB, found⟩ := Except.exists_of_bind found
  cases found
  simp only [List.mem_append, or_and_right, exists_or, ha listed ranA file unread,
    hb listed ranB file unread]

end

end Scan

namespace Extractor

open Scan

theorem toRecords_takesUnread {ρ : Type} [Filed ρ] {kind : ρ → Record} {e : Extractor ρ}
    {taken : List String → List String} (sameFile : ∀ r, (kind r).file = Filed.file r)
    (h : TakesUnread e.scan taken) : TakesUnread (e.toRecords kind).scan taken := by
  intro s l records listed found file unread
  rw [run_toRecords] at found
  obtain ⟨found', ran, rfl⟩ := Except.exists_of_map found
  rw [← h listed ran file unread]
  simp [Filed.file, sameFile]

/-! ### The four layouts -/

/-- The pages of Next.js below the folders of pages, and the files of routes below those of apps. -/
def nextJsFiles (l : List String) : List String :=
  (["pages", "src/pages"].flatMap fun folder =>
    (findFiles [folder ++ "/**/*." ++ Routes.pageExtensions] l).filter
      fun file => (stem file []).toList.head? != some '_') ++
  ["app", "src/app"].flatMap fun folder =>
    findFiles [folder ++ "/**/page." ++ Routes.pageExtensions,
      folder ++ "/**/route.\x7bjs,ts\x7d"] l

def nuxtFiles (l : List String) : List String :=
  ["pages", "src/pages"].flatMap fun folder => findFiles [folder ++ "/**/*.vue"] l

def svelteKitFiles (l : List String) : List String :=
  findFiles ["src/routes/**/+page.svelte", "src/routes/**/+server.\x7bjs,ts\x7d"] l

def railsViewFiles (l : List String) : List String :=
  findFiles ["app/views/**/*.html.erb", "app/views/**/*.html.haml", "app/views/**/*.html.slim"] l

/-- The layouts that extractors go by. -/
def layouts : List (String × (List String → List String)) :=
  [("extract_nextjs_routes", nextJsFiles), ("extract_nuxt_routes", nuxtFiles),
    ("extract_sveltekit_routes", svelteKitFiles), ("extract_rails_views", railsViewFiles)]

/-- The files that an extractor takes by its layout, whether they can be read or not. -/
def layoutFiles (label : String) : List String → List String :=
  (layouts.lookup label).getD fun _ => []

theorem folderRoutes_always (folder handlers : String) {path : String} {records : List Route}
    (unread : s.read path = .ok none)
    (found : (Routes.folderRoutes folder handlers path).run s = .ok records) : records ≠ [] := by
  rw [Routes.run_folderRoutes, unread] at found
  simp only at found
  split at found
  · cases found
    simp [Routes.handlerMethods]
  · cases found
    simp

theorem nextJs_takesUnread : TakesUnread Routes.nextJs.scan nextJsFiles :=
  takesUnread_append
    (takesUnread_collect fun _ => takesUnread_names fun _ => rfl)
    (takesUnread_collect fun folder =>
      takesUnread_visits (Routes.folderRoutes_isVisit folder "route") (folderRoutes_always _ _))

theorem nuxt_takesUnread : TakesUnread Routes.nuxt.scan nuxtFiles :=
  takesUnread_collect fun _ => takesUnread_names fun _ => rfl

theorem svelteKit_takesUnread : TakesUnread Routes.svelteKit.scan svelteKitFiles :=
  takesUnread_visits (Routes.folderRoutes_isVisit "src/routes" "+server") (folderRoutes_always _ _)

theorem railsView_always {path : String} {records : List Component}
    (unread : s.read path = .ok none) (found : (Components.railsView path).run s = .ok records) :
    records ≠ [] := by
  rw [Components.run_railsView, unread] at found
  cases found
  simp

theorem railsViews_takesUnread : TakesUnread Components.rails.scan railsViewFiles :=
  takesUnread_visits Components.railsView_isVisit railsView_always

/-! ### All extractors -/

theorem eq_rails_of_label : ∀ e ∈ all, e.label = Routes.rails.label →
    e = Routes.rails.toRecords .route := by
  apply forall_all
  case ordinary => exact fun e ordinary same => absurd same ordinary.2
  case phoenix => exact fun same => absurd same (by decide)
  case rails => exact fun _ => rfl
  case activeRecord => exact fun same => absurd same (by decide)

/-- What a textual extractor finds names no file that cannot be read. -/
theorem takesUnread_textual {e : Extractor Record} (member : e ∈ all) (h : e.scan.IsTextual) :
    TakesUnread e.scan fun _ => [] := by
  intro s l records listed found file unread
  have listed' : s.readable.files = .ok (l.filter fun file => !s.isUnread file) := by
    rw [Source.readable_files, listed]
    rfl
  have inside := mem_files_iff listed' member ((h.run_readable s).trans found)
  refine iff_of_false ?_ List.not_mem_nil
  rintro ⟨r, inRecords, rfl⟩
  by_cases rails : e.label = Routes.rails.label
  · obtain rfl := eq_rails_of_label e member rails
    rw [run_toRecords] at found
    obtain ⟨routes, ran, rfl⟩ := Except.exists_of_map found
    obtain ⟨route, inRoutes, rfl⟩ := List.mem_map.1 inRecords
    rw [show Filed.file (Record.route route) = Routes.railsFile from
      Routes.rails_allIn ran route inRoutes] at unread
    rw [Routes.run_rails, unread] at ran
    cases ran
    cases inRoutes
  · have kept := inside.2 (fun same => absurd same rails) r inRecords
    have readable := (List.mem_filter.1 kept).2
    rw [show s.isUnread r.file = true from Source.isUnread_iff.2 unread] at readable
    cases readable

theorem takesUnread_all : ∀ e ∈ all, TakesUnread e.scan (layoutFiles e.label) := by
  have cases : ∀ e ∈ all, e.IsTextual ∨ TakesUnread e.scan (layoutFiles e.label) := by
    apply forall_all_textual
    case textual => exact fun e h => .inl h
    case nextJs => exact .inr (toRecords_takesUnread (fun _ => rfl) nextJs_takesUnread)
    case nuxt => exact .inr (toRecords_takesUnread (fun _ => rfl) nuxt_takesUnread)
    case svelteKit => exact .inr (toRecords_takesUnread (fun _ => rfl) svelteKit_takesUnread)
    case views => exact .inr (toRecords_takesUnread (fun _ => rfl) railsViews_takesUnread)
  intro e member
  rcases cases e member with textual | takes
  · have noLayout : layouts.lookup e.label = none := by
      refine List.lookup_eq_none_iff.2 fun layout named => bne_iff_ne.2 fun same => ?_
      have labelled : layout.1 ∈ pathLabels := List.mem_map_of_mem (f := (·.1)) named
      exact textual.2 (same ▸ labelled)
    rw [layoutFiles, noLayout]
    exact takesUnread_textual member textual.1
  · exact takes

/-- A file that cannot be read has a record exactly if the extractor takes it by its layout. A file
up to the largest size can be read. -/
theorem unread_found_iff {d : Disk} {depth : Nat} {root : Location} {exclude l : List String}
    (listed : d.listing depth root exclude = .ok l) {e : Extractor Record} (member : e ∈ all)
    {records : List Record}
    (found : ((Snapshot.new root exclude).perform d depth e.scan).1 = .ok records) (file : String) :
    ((d.source depth root exclude).read file = .ok none →
      ((∃ r ∈ records, r.file = file) ↔ file ∈ layoutFiles e.label l)) ∧
    ∀ text, (d.source depth root exclude).read file = .ok (some text) ↔
      ∃ content above, d.locate (root.join file) = .ok (.file content :: above) ∧
        content.length ≤ 1000000 ∧ content.decode.joinLines = text := by
  rw [Snapshot.perform_new] at found
  constructor
  · exact takesUnread_all e member ((Disk.source_files ..).trans listed) found file
  · intro text
    rw [Disk.source_read, readResult_eq_some, Disk.load_eq_ok]
    rfl

/-- A view that is a link to nowhere. -/
def lostView : Disk :=
  ⟨.folder [("repo", .folder [("app", .folder [("views", .folder
    [("home.html.erb", .link "gone")])])])], []⟩

theorem lostView_listing :
    lostView.listing 10 (Location.read "/repo") [] = .ok ["app/views/home.html.erb"] :=
  Disk.listing_of_walk
    [⟨["app"], .folder⟩, ⟨["app", "views"], .folder⟩,
      ⟨["app", "views", "home.html.erb"], .file⟩]
    rfl rfl rfl (by decide)

theorem railsViews_mem_all : Components.rails.toRecords .component ∈ all := by
  have entry : (⟨"ruby", some "rails"⟩, Components.rails) ∈ componentTable := by
    simp [componentTable, forFrameworks]
  simp only [all, allComponents, List.mem_append, List.mem_map]
  exact .inl (.inr ⟨_, ⟨_, entry, rfl⟩, rfl⟩)

theorem lostView_unread :
    (lostView.source 10 (Location.read "/repo") []).read "app/views/home.html.erb" = .ok none := rfl

theorem lostView_found :
    ((Snapshot.new (Location.read "/repo") []).perform lostView 10
      (Components.rails.toRecords .component).scan).1 =
        .ok [.component ⟨"home", [], "app/views/home.html.erb", []⟩] := by
  have chosen : railsViewFiles ["app/views/home.html.erb"] = ["app/views/home.html.erb"] := by
    decide +kernel
  have noProps : unique ((Components.railsLocal.all []).map Components.localName) = [] := by
    decide +kernel
  have name : Components.viewName "app/views/home.html.erb" = "home" := by decide +kernel
  rw [Snapshot.perform_new, run_toRecords]
  show Except.map _ (((lostView.source _ _ _).files).bind fun l =>
    (collect Components.railsView (railsViewFiles l)).run _) = _
  rw [Disk.source_files, lostView_listing]
  simp only [Except.bind]
  rw [chosen, run_collect_cons, Components.run_railsView, lostView_unread]
  simp only [Except.map, Option.getD_none, noProps, name]
  rfl

/-- The view has a record though it has no text. -/
theorem lostView_has_record :
    (∃ r ∈ [Record.component ⟨"home", [], "app/views/home.html.erb", []⟩],
      r.file = "app/views/home.html.erb") ↔
        "app/views/home.html.erb" ∈ layoutFiles "extract_rails_views" ["app/views/home.html.erb"] :=
  (unread_found_iff lostView_listing railsViews_mem_all lostView_found _).1 lostView_unread

/-- So it is not true that records name only files that can be read. -/
theorem unread_not_without_records :
    ¬ ∀ (d : Disk) (depth : Nat) (root : Location) (exclude : List String), d.isProper = true →
      ∀ e ∈ all, ∀ records, ((Snapshot.new root exclude).perform d depth e.scan).1 = .ok records →
        ∀ r ∈ records, (d.source depth root exclude).read r.file ≠ .ok none := by
  intro all_read
  exact all_read lostView _ (Location.read "/repo") [] (by decide) _ railsViews_mem_all _
    lostView_found _ (.head _) lostView_unread

end Extractor

end CodeSurvey
