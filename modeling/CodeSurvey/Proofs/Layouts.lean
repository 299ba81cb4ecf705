import CodeSurvey.Proofs.Exports
import CodeSurvey.Proofs.Failures
import CodeSurvey.Proofs.Glob

/-!
# Routes by file layout

For Next.js and SvelteKit a `Layout` says which files are pages and which handle requests, by the
folder that a file is below and by its name. Each page has one route, for GET, and each file of
handlers one for each method that it serves; no other file has any (`Layout.Requires`). So it is for
all files but those in a folder with a line feed in its name, which the globs pass over
(`Routes.layout_routes_iff`).
-/

namespace CodeSurvey

/-! ## Files below a folder -/

namespace Glob

theorem spells_chars_append {front : Text} {parts : List Part} {text : Text} :
    Spells (front.map .char ++ parts) text ↔ ∃ rest, text = front ++ rest ∧ Spells parts rest := by
  induction front generalizing text with
  | nil => exact ⟨fun spells => ⟨text, rfl, spells⟩, fun ⟨_, same, spells⟩ => same ▸ spells⟩
  | cons c front ih =>
    constructor
    · rintro ⟨⟩
      next text later =>
        obtain ⟨rest, rfl, spells⟩ := ih.1 later
        exact ⟨rest, rfl, spells⟩
    · rintro ⟨rest, rfl, spells⟩
      exact .char (ih.2 ⟨rest, rfl, spells⟩)

theorem spells_chars {chars text : Text} : Spells (chars.map .char) text ↔ text = chars := by
  rw [← List.append_nil (chars.map Part.char), spells_chars_append]
  constructor
  · rintro ⟨_, rfl, ⟨⟩⟩
    exact List.append_nil chars
  · rintro rfl
    exact ⟨[], (List.append_nil text).symm, .nil⟩

theorem spells_choice {options : List Text} {text : Text} :
    Spells [.choice options] text ↔ text ∈ options := by
  constructor
  · intro spells
    cases spells with | choice member none => ?_
    cases none
    rwa [List.append_nil]
  · intro member
    rw [← List.append_nil text]
    exact .choice member .nil

/-- The files below a folder, at any depth, whose names the parts stand for. -/
def belowFolder (folder : List String) (parts : List Part) : List Segment :=
  folder.map (fun name => .one (name.toList.map .char)) ++ [.stars, .one parts]

/-- Of the folders between the given one and the file none has a line feed in its name. -/
theorem fits_ofSegments_belowFolder_iff {folder : List String} {parts : List Part}
    (legible : ∀ segment ∈ belowFolder folder parts, segment.IsLegible) {names : List Text}
    (someName : names ≠ []) (noSlash : ∀ name ∈ names, '/' ∉ name) :
    fits (ofSegments (belowFolder folder parts)) (Text.joinWith ['/'] names) = true ↔
      ∃ inner name, names = folder.map String.toList ++ (inner ++ [name]) ∧
        (∀ name ∈ inner, '\n' ∉ name) ∧ Spells parts name := by
  induction folder generalizing names with
  | nil =>
    have legible : ∀ part ∈ parts, part.IsLegible :=
      (legible (.one parts) (by simp [belowFolder])).1
    show fits (.segments :: parts.map Part.piece) _ = true ↔ _
    rw [fits_segments_iff someName noSlash]
    constructor
    · rintro ⟨inner, later, rfl, someAfter, plain, fit⟩
      obtain ⟨name, rfl, spells⟩ :=
        (fits_last_iff legible someAfter (List.forall_mem_append.1 noSlash).2).1 fit
      exact ⟨inner, name, rfl, plain, spells⟩
    · rintro ⟨inner, name, rfl, plain, spells⟩
      have last : ∀ name' ∈ [name], '/' ∉ name' := fun name' member =>
        noSlash name' (List.mem_append_right _ (List.mem_append_right _ member))
      exact ⟨inner, [name], rfl, List.cons_ne_nil _ _, plain,
        (fits_last_iff legible (List.cons_ne_nil _ _) last).2 ⟨name, rfl, spells⟩⟩
  | cons first folder ih =>
    obtain ⟨here, legible⟩ := List.forall_mem_cons.1 legible
    have glob : ofSegments (belowFolder (first :: folder) parts) =
        (first.toList.map Part.char).map Part.piece ++
          .char '/' :: ofSegments (belowFolder folder parts) := by
      obtain ⟨second, rest, more⟩ := List.exists_cons_of_ne_nil
        (l := belowFolder folder parts) (by simp [belowFolder])
      show ofSegments (.one (first.toList.map .char) :: belowFolder folder parts) = _
      rw [more]
      rfl
    rw [glob, fits_one_iff here.1 someName noSlash]
    constructor
    · rintro ⟨name, later, rfl, someAfter, spells, fit⟩
      obtain rfl := spells_chars.1 spells
      obtain ⟨inner, name, rfl, plain, spells⟩ :=
        (ih legible someAfter (List.forall_mem_cons.1 noSlash).2).1 fit
      exact ⟨inner, name, rfl, plain, spells⟩
    · rintro ⟨inner, name, rfl, plain, spells⟩
      refine ⟨_, _, rfl, by simp, spells_chars.2 rfl, ?_⟩
      exact (ih legible (by simp) (List.forall_mem_cons.1 noSlash).2).2
        ⟨inner, name, rfl, plain, spells⟩

end Glob

theorem toList_eq_joinWith (path : String) :
    path.toList = Text.joinWith ['/'] ((segments path).map String.toList) := by
  rw [map_segments]
  exact (List.intercalate_splitOn '/').symm

/-- Whether a file with this name is below a folder, at any depth. -/
def IsBelow (folder file name : String) : Prop :=
  ∃ inner, segments file = segments folder ++ (inner ++ [name])

/-- Whether a file is in a folder with a line feed in its name. -/
def InFeedFolder (file : String) : Prop :=
  ∃ folder ∈ (segments file).dropLast, '\n' ∈ folder.toList

theorem inFeedFolder_iff {folder file name : String} {inner : List String}
    (oneLine : '\n' ∉ folder.toList)
    (below : segments file = segments folder ++ (inner ++ [name])) :
    InFeedFolder file ↔ ∃ between ∈ inner, '\n' ∈ between.toList := by
  have above (segment : String) (member : segment ∈ segments folder) : '\n' ∉ segment.toList :=
    fun feed => oneLine (intercalate_segments folder ▸ mem_intercalate_of_mem member feed)
  rw [InFeedFolder, below, ← List.append_assoc, List.dropLast_concat]
  simp only [List.mem_append, or_and_right, exists_or]
  exact or_iff_right fun ⟨segment, member, feed⟩ => above segment member feed

theorem IsBelow.name_eq {folder folder' file name name' : String} (below : IsBelow folder file name)
    (below' : IsBelow folder' file name') : name = name' := by
  obtain ⟨inner, below⟩ := below
  obtain ⟨inner', below'⟩ := below'
  have last := congrArg List.getLast? (below.symm.trans below')
  simpa [← List.append_assoc] using last

/-- A file is below but one of some folders if none of them is below another. -/
theorem IsBelow.folder_eq {folders : List String}
    (apart : ∀ a ∈ folders, ∀ b ∈ folders, segments a <+: segments b → a = b)
    {folder folder' file name name' : String} (known : folder ∈ folders)
    (known' : folder' ∈ folders) (below : IsBelow folder file name)
    (below' : IsBelow folder' file name') : folder = folder' := by
  obtain ⟨inner, below⟩ := below
  obtain ⟨inner', below'⟩ := below'
  have inFront : segments folder <+: segments file := ⟨_, below.symm⟩
  rcases List.prefix_or_prefix_of_prefix inFront ⟨_, below'.symm⟩ with short | long
  · exact apart _ known _ known' short
  · exact (apart _ known' _ known long).symm

/-- A glob for the files below a folder passes over folders with a line feed in their names. -/
theorem fits_belowFolder_iff {folder pattern : String} {parts : List Glob.Part}
    (oneLine : '\n' ∉ folder.toList)
    (writes : Glob.bare (Text.of pattern) = Glob.written (Glob.belowFolder (segments folder) parts))
    (legible : ∀ segment ∈ Glob.belowFolder (segments folder) parts, segment.IsLegible)
    (file : String) : (Glob.read pattern.toList).fits file.toList = true ↔
      (∃ name, IsBelow folder file name ∧ Glob.Spells parts name.toList) ∧ ¬ InFeedFolder file := by
  have reading : Glob.read pattern.toList =
      Glob.ofSegments (Glob.belowFolder (segments folder) parts) :=
    Glob.read_eq_of_bare writes legible
  have someSegment : (segments file).map String.toList ≠ [] := by simpa using segments_ne_nil file
  have noSlash : ∀ name ∈ (segments file).map String.toList, '/' ∉ name := fun name member =>
    Glob.not_mem_of_mem_splitOn (map_segments file ▸ member)
  rw [reading, toList_eq_joinWith file,
    Glob.fits_ofSegments_belowFolder_iff legible someSegment noSlash]
  constructor
  · rintro ⟨inner, name, names, plain, spells⟩
    have below : segments file =
        segments folder ++ (inner.map String.ofList ++ [String.ofList name]) := by
      have back := congrArg (List.map String.ofList) names
      simpa [Function.comp_def] using back
    refine ⟨⟨String.ofList name, ⟨_, below⟩, by simpa using spells⟩, ?_⟩
    rw [inFeedFolder_iff oneLine below]
    simpa using plain
  · rintro ⟨⟨name, ⟨inner, below⟩, spells⟩, outside⟩
    rw [inFeedFolder_iff oneLine below] at outside
    refine ⟨inner.map String.toList, name.toList, by simp [below], ?_, spells⟩
    simpa using outside

theorem mem_findFiles {patterns files : List String} {file : String} :
    file ∈ findFiles patterns files ↔
      file ∈ files ∧ ∃ pattern ∈ patterns, (Glob.read pattern.toList).fits file.toList = true := by
  simp only [findFiles, List.mem_eraseDups, List.mem_flatMap, Glob.select, List.mem_filter]
  constructor
  · rintro ⟨pattern, listed, inFiles, fits⟩
    exact ⟨inFiles, pattern, listed, fits⟩
  · rintro ⟨inFiles, pattern, listed, fits⟩
    exact ⟨pattern, listed, inFiles, fits⟩

/-! ## Names of files -/

theorem IsBelow.stem_eq {folder file name : String} (below : IsBelow folder file name)
    (full : name ≠ "") (notDot : name ≠ ".") : stem file [] = withoutExtension name := by
  obtain ⟨inner, below⟩ := below
  let kept := fun name : String => !name.isEmpty && name != "."
  have names : Location.namesIn file = (segments folder ++ inner).filter kept ++ [name] := by
    rw [Location.namesIn_eq_filter, below, ← List.append_assoc, List.filter_append,
      List.filter_cons_of_pos (by simp [full, notDot]), List.filter_nil]
  show withoutExtension ((Location.namesIn file).getLast?.getD "") = _
  rw [names, List.getLast?_concat]
  rfl

/-- A name and its stem start alike. -/
theorem head?_withoutExtension (name : String) :
    (withoutExtension name).toList.head? = name.toList.head? := by
  rw [withoutExtension]
  split
  · next h =>
    rw [String.toList_ofList, List.head?_take, if_neg (by omega)]
  · rfl

namespace Routes

/-- The extensions of the pages of Next.js. -/
def scriptExtensions : List String := ["js", "jsx", "ts", "tsx"]

/-- A name with one of the extensions that does not start with an underscore. -/
def IsPageName (name : String) : Prop :=
  ∃ base, ∃ extension ∈ scriptExtensions,
    name = base ++ "." ++ extension ∧ base.toList.head? ≠ some '_'

theorem isPageName_iff {name : String} : IsPageName name ↔
    (∃ base, ∃ extension ∈ scriptExtensions, name = base ++ "." ++ extension) ∧
      (withoutExtension name).toList.head? ≠ some '_' := by
  have starts (base extension : String) :
      (base ++ "." ++ extension).toList.head? = some '_' ↔ base.toList.head? = some '_' := by
    rw [String.toList_append, String.toList_append]
    cases base.toList with
    | nil => exact iff_of_false (by simp) (by simp)
    | cons c chars => exact Iff.rfl
  rw [head?_withoutExtension]
  constructor
  · rintro ⟨base, extension, known, rfl, other⟩
    exact ⟨⟨base, extension, known, rfl⟩, mt (starts base extension).1 other⟩
  · rintro ⟨⟨base, extension, known, rfl⟩, other⟩
    exact ⟨base, extension, known, rfl, mt (starts base extension).2 other⟩

/-! ## Methods by file -/

/-- The methods of the routes of a file. -/
def methodsOf (routes : List Route) (file : String) : List String :=
  (routes.filter fun r => r.file == file).map (·.method)

theorem methodsOf_append (a b : List Route) (file : String) :
    methodsOf (a ++ b) file = methodsOf a file ++ methodsOf b file := by
  rw [methodsOf, List.filter_append, List.map_append]
  rfl

theorem methodsOf_own {routes : List Route} {file : String} (own : ∀ r ∈ routes, r.file = file) :
    methodsOf routes file = routes.map (·.method) := by
  rw [methodsOf, List.filter_eq_self.2 fun r member => by simp [own r member]]

theorem methodsOf_other {routes : List Route} {file : String}
    (other : ∀ r ∈ routes, r.file ≠ file) : methodsOf routes file = [] := by
  rw [methodsOf, List.filter_eq_nil_iff.2 fun r member => by simp [other r member], List.map_nil]

theorem methodsOf_cons (r : Route) (rest : List Route) (file : String) :
    methodsOf (r :: rest) file =
      if r.file = file then r.method :: methodsOf rest file else methodsOf rest file := by
  split
  · next here => rw [methodsOf, List.filter_cons_of_pos (by simp [here]), List.map_cons]; rfl
  · next other => rw [methodsOf, List.filter_cons_of_neg (by simp [other])]; rfl

theorem mem_methodsOf {routes : List Route} {file method : String} :
    method ∈ methodsOf routes file ↔ (method, file) ∈ routes.map fun r => (r.method, r.file) := by
  simp only [methodsOf, List.mem_map, List.mem_filter, beq_iff_eq, Prod.mk.injEq, and_assoc]
  exact exists_congr fun r => and_congr_right fun _ => and_comm

/-- No method is given twice for a file exactly if that is so for each file. -/
theorem nodup_iff_methodsOf {routes : List Route} :
    (routes.map fun r => (r.method, r.file)).Nodup ↔ ∀ file, (methodsOf routes file).Nodup := by
  induction routes with
  | nil => exact iff_of_true .nil fun _ => .nil
  | cons r rest ih =>
    rw [List.map_cons, List.nodup_cons, ← mem_methodsOf, ih]
    constructor
    · rintro ⟨fresh, later⟩ file
      rw [methodsOf_cons]
      split
      · next here =>
        subst here
        exact List.nodup_cons.2 ⟨fresh, later r.file⟩
      · exact later file
    · intro all
      refine ⟨?_, fun file => ?_⟩
      · have here := all r.file
        rw [methodsOf_cons, if_pos rfl] at here
        exact (List.nodup_cons.1 here).1
      · have here := all file
        rw [methodsOf_cons] at here
        split at here
        · exact (List.nodup_cons.1 here).2
        · exact here

/-- Files below a folder that are chosen together, and the routes of each. -/
structure Family where
  folder : String
  files : List String
  routes : String → List Route

namespace Family

variable {x : Family} {families : List Family} {file : String}

structure IsProper (x : Family) : Prop where
  nodup : x.files.Nodup
  own : ∀ file, ∀ r ∈ x.routes file, r.file = file
  below : ∀ file ∈ x.files, ∃ name, IsBelow x.folder file name

/-- All routes of a family. -/
def all (x : Family) : List Route := x.files.flatMap x.routes

theorem IsProper.methodsOf (proper : x.IsProper) (file : String) :
    Routes.methodsOf x.all file =
      if file ∈ x.files then (x.routes file).map (·.method) else [] := by
  obtain ⟨nodup, own, -⟩ := proper
  rw [all]
  generalize x.files = files at nodup
  induction files with
  | nil => rfl
  | cons first files ih =>
    obtain ⟨fresh, nodup⟩ := List.nodup_cons.1 nodup
    rw [List.flatMap_cons, methodsOf_append, ih nodup]
    by_cases here : first = file
    · subst here
      rw [methodsOf_own (own first), if_neg fresh, if_pos (.head _), List.append_nil]
    · have other : ∀ r ∈ x.routes first, r.file ≠ file := fun r member => by
        rw [own first r member]
        exact here
      rw [methodsOf_other other, List.nil_append]
      exact if_congr (by simp [Ne.symm here]) rfl rfl

/-- Families of folders of which none is below another have no file in common. -/
theorem pairwise_apart (proper : ∀ x ∈ families, x.IsProper)
    (distinct : (families.map folder).Nodup)
    (apart : ∀ a ∈ families.map folder, ∀ b ∈ families.map folder,
      segments a <+: segments b → a = b) :
    families.Pairwise fun x y => ∀ file ∈ x.files, file ∉ y.files := by
  refine (List.pairwise_map.1 distinct).imp_of_mem fun {x y} inX inY differ file here there => ?_
  obtain ⟨name, below⟩ := (proper x inX).below file here
  obtain ⟨name', below'⟩ := (proper y inY).below file there
  exact differ (below.folder_eq apart (List.mem_map_of_mem inX) (List.mem_map_of_mem inY) below')

/-- If no file is in two families, the methods of a file are those that its family gives. -/
theorem methodsOf_flatMap_all (proper : ∀ x ∈ families, x.IsProper)
    (apart : families.Pairwise fun x y => ∀ file ∈ x.files, file ∉ y.files) (file : String) :
    (∀ x ∈ families, file ∈ x.files →
      Routes.methodsOf (families.flatMap all) file = (x.routes file).map (·.method)) ∧
    ((∀ x ∈ families, file ∉ x.files) → Routes.methodsOf (families.flatMap all) file = []) := by
  induction families with
  | nil => exact ⟨nofun, fun _ => rfl⟩
  | cons first families ih =>
    obtain ⟨here, proper⟩ := List.forall_mem_cons.1 proper
    obtain ⟨others, apart⟩ := List.pairwise_cons.1 apart
    obtain ⟨some, none⟩ := ih proper apart
    rw [List.flatMap_cons, methodsOf_append, here.methodsOf]
    by_cases inFirst : file ∈ first.files
    · have rest := none fun x member => others x member file inFirst
      rw [if_pos inFirst, rest, List.append_nil]
      refine ⟨List.forall_mem_cons.2 ⟨fun _ => rfl, fun x member inX => ?_⟩, fun nowhere => ?_⟩
      · exact absurd inX (others x member file inFirst)
      · exact absurd inFirst (nowhere first (.head _))
    · rw [if_neg inFirst, List.nil_append]
      exact ⟨List.forall_mem_cons.2 ⟨fun inX => absurd inX inFirst, some⟩,
        fun nowhere => none fun x member => nowhere x (.tail _ member)⟩

end Family

/-! ## Layouts -/

/-- Which files a framework takes for pages and for files of handlers. -/
structure Layout where
  /-- The folders below which a page is its own file. -/
  pageFolders : List String
  /-- The folders below which a page or a file of handlers stands for its folder. -/
  folders : List String
  pageNames : List String
  handlerNames : List String

def nextJsLayout : Layout where
  pageFolders := ["pages", "src/pages"]
  folders := ["app", "src/app"]
  pageNames := ["page.js", "page.jsx", "page.ts", "page.tsx"]
  handlerNames := ["route.js", "route.ts"]

def svelteKitLayout : Layout where
  pageFolders := []
  folders := ["src/routes"]
  pageNames := ["+page.svelte"]
  handlerNames := ["+server.js", "+server.ts"]

/-- The frameworks whose routes are pages and files of handlers. -/
def pageLayouts : List (Extractor Route × Layout) :=
  [(nextJs, nextJsLayout), (svelteKit, svelteKitLayout)]

namespace Layout

def IsPage (x : Layout) (file : String) : Prop :=
  (∃ folder ∈ x.pageFolders, ∃ name, IsBelow folder file name ∧ IsPageName name) ∨
  ∃ folder ∈ x.folders, ∃ name ∈ x.pageNames, IsBelow folder file name

def HasHandlers (x : Layout) (file : String) : Prop :=
  ∃ folder ∈ x.folders, ∃ name ∈ x.handlerNames, IsBelow folder file name

def Serves (x : Layout) (file : String) : Prop := x.IsPage file ∨ x.HasHandlers file

/-- Which methods the routes of a file are to have: a page serves GET, a file of handlers what it
exports, and any other file nothing. -/
structure Requires (x : Layout) (s : Source) (l : List String) (file : String)
    (methods : List String) : Prop where
  page : file ∈ l → x.IsPage file → methods = ["GET"]
  handlers : file ∈ l → x.HasHandlers file →
    ∃ text, s.read file = .ok text ∧ AreServed (text.getD []) methods
  other : ¬ (file ∈ l ∧ x.Serves file) → methods = []

/-- Whether a file that serves requests is passed over for the name of a folder. -/
def Hides (x : Layout) (l : List String) (file : String) : Prop :=
  file ∈ l ∧ x.Serves file ∧ InFeedFolder file

end Layout

/-! ## Families of a layout -/

section
variable {l : List String} {file : String}

/-- The parts of a name with one of some extensions. -/
def extensionParts (front : String) (extensions : List String) : List Glob.Part :=
  front.toList.map .char ++ [.choice (extensions.map String.toList)]

theorem spells_extensionParts {front name : String} {extensions : List String} :
    Glob.Spells (extensionParts front extensions) name.toList ↔
      ∃ extension ∈ extensions, name = front ++ extension := by
  simp only [extensionParts, Glob.spells_chars_append, Glob.spells_choice, List.mem_map]
  constructor
  · rintro ⟨_, same, extension, known, rfl⟩
    exact ⟨extension, known, by rw [← String.toList_inj, same, String.toList_append]⟩
  · rintro ⟨extension, known, rfl⟩
    exact ⟨_, String.toList_append, extension, known, rfl⟩

theorem spells_run_extensionParts {front name : String} {extensions : List String} :
    Glob.Spells (.run :: extensionParts front extensions) name.toList ↔
      ∃ base, ∃ extension ∈ extensions, name = base ++ front ++ extension := by
  rw [Glob.spells_cons_iff]
  constructor
  · rintro ⟨head, rest, split, -, spells⟩
    have rest_ : rest = (String.ofList rest).toList := String.toList_ofList.symm
    rw [rest_, spells_extensionParts] at spells
    obtain ⟨extension, known, same⟩ := spells
    refine ⟨String.ofList head, extension, known, ?_⟩
    rw [← String.toList_inj, split, rest_, same]
    simp
  · rintro ⟨base, extension, known, rfl⟩
    refine ⟨base.toList, (front ++ extension).toList, by simp, ?_, ?_⟩
    · have all : Glob.Spells [.run] (base.toList ++ []) := .run .nil
      rwa [List.append_nil] at all
    · exact spells_extensionParts.2 ⟨extension, known, rfl⟩

/-- The pages below a folder in which a page is its own file. -/
def pagesFamily (l : List String) (folder : String) : Family where
  folder := folder
  files := (findFiles [folder ++ "/**/*." ++ pageExtensions] l).filter fun file =>
    (stem file []).toList.head? != some '_'
  routes file := [pageRoute folder file]

/-- Whether a glob stands for the files below a folder whose names the parts stand for. -/
def NamesBelow (folder pattern : String) (parts : List Glob.Part) : Prop :=
  Glob.bare (Text.of pattern) = Glob.written (Glob.belowFolder (segments folder) parts) ∧
    ∀ segment ∈ Glob.belowFolder (segments folder) parts, segment.IsLegible

instance (folder pattern : String) (parts : List Glob.Part) :
    Decidable (NamesBelow folder pattern parts) :=
  inferInstanceAs (Decidable (_ ∧ ∀ segment ∈ Glob.belowFolder _ _, segment.IsLegible))

theorem mem_pagesFamily {folder : String} (known : folder ∈ nextJsLayout.pageFolders) :
    file ∈ (pagesFamily l folder).files ↔
      file ∈ l ∧ (∃ name, IsBelow folder file name ∧ IsPageName name) ∧ ¬ InFeedFolder file := by
  have globs : ∀ folder ∈ nextJsLayout.pageFolders, '\n' ∉ folder.toList ∧
      NamesBelow folder (folder ++ "/**/*." ++ pageExtensions)
        (.run :: extensionParts "." scriptExtensions) := by decide
  obtain ⟨oneLine, writes, legible⟩ := globs folder known
  have stem {name : String} (below : IsBelow folder file name)
      (named : ∃ base, ∃ extension ∈ scriptExtensions, name = base ++ "." ++ extension) :
      stem file [] = withoutExtension name := by
    obtain ⟨base, extension, isExtension, rfl⟩ := named
    have someExtension : ∀ extension ∈ scriptExtensions, extension.toList ≠ [] := by decide
    have long : 2 ≤ (base ++ "." ++ extension).toList.length := by
      have some := List.length_pos_of_ne_nil (someExtension extension isExtension)
      simp only [String.toList_append, List.length_append, show ".".toList.length = 1 from rfl]
      omega
    exact below.stem_eq (fun none => by simp [none] at long) (fun dot => by simp [dot] at long)
  simp only [pagesFamily, List.mem_filter, mem_findFiles, List.mem_singleton, exists_eq_left,
    fits_belowFolder_iff oneLine writes legible, spells_run_extensionParts, bne_iff_ne, and_assoc]
  refine and_congr_right fun _ => ?_
  constructor
  · rintro ⟨⟨name, below, named⟩, outside, other⟩
    rw [stem below named] at other
    exact ⟨⟨name, below, isPageName_iff.2 ⟨named, other⟩⟩, outside⟩
  · rintro ⟨⟨name, below, isPageName⟩, outside⟩
    obtain ⟨named, other⟩ := isPageName_iff.1 isPageName
    rw [stem below named]
    exact ⟨⟨name, below, named⟩, outside, other⟩

/-- The routes of a file that stands for its folder. -/
def routesInFolder (folder handlers : String) (text : Option Text) (file : String) : List Route :=
  (if stem file [] = handlers then handlerMethods text else ["GET"]).map fun method =>
    ⟨method, String.ofList (directoryRoute (folderBelow folder file)), file, none⟩

theorem map_method_routesInFolder (folder handlers : String) (text : Option Text) (file : String) :
    (routesInFolder folder handlers text file).map (·.method) =
      if stem file [] = handlers then handlerMethods text else ["GET"] := by
  rw [routesInFolder, List.map_map]
  exact List.map_id _

theorem file_of_mem_routesInFolder {folder handlers : String} {text : Option Text} {r : Route}
    (member : r ∈ routesInFolder folder handlers text file) : r.file = file := by
  rw [routesInFolder] at member
  obtain ⟨method, -, rfl⟩ := List.mem_map.1 member
  rfl

/-- The pages and the files of handlers below a folder in which they stand for their folders. -/
def foldersFamily (globs : String → List String) (handlers : String) (l : List String)
    (texts : String → Option Text) (folder : String) : Family where
  folder := folder
  files := findFiles (globs folder) l
  routes file := routesInFolder folder handlers (texts file) file

theorem foldersFamily_routes (globs : String → List String) (handlers : String) (l : List String)
    (texts : String → Option Text) (folder file : String) :
    (foldersFamily globs handlers l texts folder).routes file =
      routesInFolder folder handlers (texts file) file := by rw [foldersFamily]

theorem foldersFamily_all (globs : String → List String) (handlers : String) (l : List String)
    (texts : String → Option Text) (folder : String) :
    (foldersFamily globs handlers l texts folder).all = (findFiles (globs folder) l).flatMap
      fun file => routesInFolder folder handlers (texts file) file := by
  rw [foldersFamily, Family.all]

theorem mem_findFiles_pair {folder first second : String} {parts parts' : List Glob.Part}
    {names names' : List String} (oneLine : '\n' ∉ folder.toList)
    (below : NamesBelow folder first parts) (below' : NamesBelow folder second parts')
    (spells : ∀ name : String, Glob.Spells parts name.toList ↔ name ∈ names)
    (spells' : ∀ name : String, Glob.Spells parts' name.toList ↔ name ∈ names') :
    file ∈ findFiles [first, second] l ↔
      file ∈ l ∧ (∃ name ∈ names ++ names', IsBelow folder file name) ∧ ¬ InFeedFolder file := by
  simp only [mem_findFiles, List.exists_mem_cons_iff, List.not_mem_nil, false_and, exists_false,
    or_false, fits_belowFolder_iff oneLine below.1 below.2,
    fits_belowFolder_iff oneLine below'.1 below'.2, spells, spells', List.mem_append, exists_or,
    or_and_right, and_comm (a := IsBelow folder file _)]

end

namespace Layout

variable {x : Layout} {globs : String → List String} {handlers : String} {l : List String}
  {texts : String → Option Text} {file : String}

/-- Whether the files of a layout are found by these globs, and its files of handlers have this
stem. -/
structure IsReadBy (x : Layout) (globs : String → List String) (handlers : String) : Prop where
  pages : ∀ folder ∈ x.pageFolders, folder ∈ nextJsLayout.pageFolders
  chosen : ∀ folder ∈ x.folders, ∀ l file, file ∈ findFiles (globs folder) l ↔ file ∈ l ∧
    (∃ name ∈ x.pageNames ++ x.handlerNames, IsBelow folder file name) ∧ ¬ InFeedFolder file
  names : ∀ name ∈ x.pageNames ++ x.handlerNames, name ≠ "" ∧ name ≠ "."
  pageStem : ∀ name ∈ x.pageNames, withoutExtension name ≠ handlers
  handlersStem : ∀ name ∈ x.handlerNames, withoutExtension name = handlers
  distinct : (x.pageFolders ++ x.folders).Nodup
  apart : ∀ a ∈ x.pageFolders ++ x.folders, ∀ b ∈ x.pageFolders ++ x.folders,
    segments a <+: segments b → a = b

/-- The families of the files of a layout. -/
def families (x : Layout) (globs : String → List String) (handlers : String) (l : List String)
    (texts : String → Option Text) : List Family :=
  x.pageFolders.map (pagesFamily l) ++ x.folders.map (foldersFamily globs handlers l texts)

theorem families_folders : (x.families globs handlers l texts).map (·.folder) =
    x.pageFolders ++ x.folders := by
  simp [families, pagesFamily, foldersFamily, Function.comp_def]

theorem IsReadBy.isProper (h : x.IsReadBy globs handlers) :
    ∀ f ∈ x.families globs handlers l texts, f.IsProper := by
  rw [families, List.forall_mem_append, List.forall_mem_map, List.forall_mem_map]
  refine ⟨fun folder known => ?_, fun folder known => ?_⟩
  · refine ⟨(nodup_eraseDups _).filter _, fun file r member => ?_, fun file member => ?_⟩
    · rw [List.mem_singleton.1 member]
      rfl
    · obtain ⟨-, ⟨name, below, -⟩, -⟩ := (mem_pagesFamily (h.pages folder known)).1 member
      exact ⟨name, below⟩
  · refine ⟨nodup_eraseDups _, fun file r member => ?_, fun file member => ?_⟩
    · rw [foldersFamily_routes] at member
      exact file_of_mem_routesInFolder member
    · obtain ⟨-, ⟨name, -, below⟩, -⟩ := (h.chosen folder known l file).1 member
      exact ⟨name, below⟩

/-- What a file is that is in a family, and which methods it has. -/
theorem IsReadBy.sound (h : x.IsReadBy globs handlers) :
    ∀ f ∈ x.families globs handlers l texts, file ∈ f.files →
      file ∈ l ∧ ¬ InFeedFolder file ∧
        (x.IsPage file ∧ (f.routes file).map (·.method) = ["GET"] ∨
          x.HasHandlers file ∧ (f.routes file).map (·.method) = handlerMethods (texts file)) := by
  rw [families, List.forall_mem_append, List.forall_mem_map, List.forall_mem_map]
  refine ⟨fun folder known member => ?_, fun folder known member => ?_⟩
  · obtain ⟨listed, page, outside⟩ := (mem_pagesFamily (h.pages folder known)).1 member
    exact ⟨listed, outside, .inl ⟨.inl ⟨folder, known, page⟩, rfl⟩⟩
  · obtain ⟨listed, ⟨name, named, below⟩, outside⟩ := (h.chosen folder known l file).1 member
    have stem := below.stem_eq (h.names name named).1 (h.names name named).2
    have methods := map_method_routesInFolder folder handlers (texts file) file
    rw [stem] at methods
    rw [foldersFamily_routes]
    refine ⟨listed, outside, ?_⟩
    rcases List.mem_append.1 named with isPage | isHandlers
    · rw [if_neg (h.pageStem name isPage)] at methods
      exact .inl ⟨.inr ⟨folder, known, name, isPage, below⟩, methods⟩
    · rw [if_pos (h.handlersStem name isHandlers)] at methods
      exact .inr ⟨⟨folder, known, name, isHandlers, below⟩, methods⟩

theorem IsReadBy.complete (h : x.IsReadBy globs handlers) (listed : file ∈ l)
    (outside : ¬ InFeedFolder file) (serves : x.Serves file) :
    ∃ f ∈ x.families globs handlers l texts, file ∈ f.files := by
  have inFolder {folder name : String} (known : folder ∈ x.folders)
      (named : name ∈ x.pageNames ++ x.handlerNames) (below : IsBelow folder file name) :
      ∃ f ∈ x.families globs handlers l texts, file ∈ f.files :=
    ⟨_, List.mem_append_right _ (List.mem_map_of_mem known),
      (h.chosen folder known l file).2 ⟨listed, ⟨name, named, below⟩, outside⟩⟩
  rcases serves with (⟨folder, known, page⟩ | ⟨folder, known, name, named, below⟩) |
    ⟨folder, known, name, named, below⟩
  · exact ⟨_, List.mem_append_left _ (List.mem_map_of_mem known),
      (mem_pagesFamily (h.pages folder known)).2 ⟨listed, page, outside⟩⟩
  · exact inFolder known (List.mem_append_left _ named) below
  · exact inFolder known (List.mem_append_right _ named) below

/-- No file is both a page and a file of handlers. -/
theorem IsReadBy.not_both (h : x.IsReadBy globs handlers) (page : x.IsPage file) :
    ¬ x.HasHandlers file := by
  rintro ⟨folder, known, name, isHandlers, below⟩
  rcases page with ⟨folder', known', name', below', -⟩ | ⟨folder', known', name', isPage, below'⟩
  · have same := below.folder_eq h.apart (List.mem_append_right _ known)
      (List.mem_append_left _ known') below'
    exact List.disjoint_of_nodup_append h.distinct known' (same ▸ known)
  · obtain rfl := below.name_eq below'
    exact h.pageStem name isPage (h.handlersStem name isHandlers)

/-- The methods of a file are those that its family gives. -/
theorem IsReadBy.methodsOf_eq (h : x.IsReadBy globs handlers) (file : String) :
    (∀ f ∈ x.families globs handlers l texts, file ∈ f.files →
      methodsOf ((x.families globs handlers l texts).flatMap Family.all) file =
        (f.routes file).map (·.method)) ∧
    ((∀ f ∈ x.families globs handlers l texts, file ∉ f.files) →
      methodsOf ((x.families globs handlers l texts).flatMap Family.all) file = []) :=
  Family.methodsOf_flatMap_all h.isProper
    (Family.pairwise_apart h.isProper (families_folders ▸ h.distinct) (families_folders ▸ h.apart))
    file

/-- The methods of a file that is not hidden are those that it is to have, and a hidden file has
none. -/
theorem IsReadBy.methodsOf_families (h : x.IsReadBy globs handlers) {s : Source}
    (reads : ∀ file ∈ l, s.read file = .ok (texts file)) (file : String) :
    let methods := methodsOf ((x.families globs handlers l texts).flatMap Family.all) file
    (x.Hides l file → methods = []) ∧ (x.Requires s l file methods ↔ ¬ x.Hides l file) := by
  obtain ⟨some, none⟩ := h.methodsOf_eq file
  generalize methodsOf _ file = methods at some none
  have hidden (hides : x.Hides l file) : methods = [] := by
    refine none fun f known member => ?_
    exact (h.sound f known member).2.1 hides.2.2
  refine ⟨hidden, fun requires hides => ?_, fun shown => ⟨fun listed page => ?_,
    fun listed isHandlers => ?_, fun unserved => ?_⟩⟩
  · have nothing := hidden hides
    obtain ⟨listed, page | isHandlers, -⟩ := hides
    · exact absurd ((requires.page listed page).symm.trans nothing) (List.cons_ne_nil _ _)
    · obtain ⟨text, -, served⟩ := requires.handlers listed isHandlers
      exact served.ne_nil nothing
  · have outside : ¬ InFeedFolder file := fun feed => shown ⟨listed, .inl page, feed⟩
    obtain ⟨f, known, member⟩ := h.complete listed outside (.inl page)
    rcases (h.sound f known member).2.2 with ⟨-, methods⟩ | ⟨isHandlers, -⟩
    · exact (some f known member).trans methods
    · exact absurd isHandlers (h.not_both page)
  · have outside : ¬ InFeedFolder file := fun feed => shown ⟨listed, .inr isHandlers, feed⟩
    obtain ⟨f, known, member⟩ := h.complete listed outside (.inr isHandlers)
    rcases (h.sound f known member).2.2 with ⟨page, -⟩ | ⟨-, methods⟩
    · exact absurd isHandlers (h.not_both page)
    · refine ⟨texts file, reads file listed, ?_⟩
      rw [some f known member, methods]
      exact areServed_handlerMethods (texts file)
  · refine none fun f known member => unserved ?_
    obtain ⟨listed, -, ⟨page, -⟩ | ⟨isHandlers, -⟩⟩ := h.sound f known member
    · exact ⟨listed, .inl page⟩
    · exact ⟨listed, .inr isHandlers⟩

/-- No method is given twice for a file. -/
theorem IsReadBy.nodup (h : x.IsReadBy globs handlers) :
    (((x.families globs handlers l texts).flatMap Family.all).map fun r =>
      (r.method, r.file)).Nodup := by
  rw [nodup_iff_methodsOf]
  intro file
  obtain ⟨some, none⟩ := h.methodsOf_eq file
  by_cases inFamily : ∃ f ∈ x.families globs handlers l texts, file ∈ f.files
  · obtain ⟨f, known, member⟩ := inFamily
    rw [some f known member]
    obtain ⟨-, -, ⟨-, methods⟩ | ⟨-, methods⟩⟩ := h.sound f known member
    · rw [methods]
      exact List.nodup_singleton _
    · rw [methods]
      exact (areServed_handlerMethods _).nodup
  · rw [none fun f known member => inFamily ⟨f, known, member⟩]
    exact .nil

end Layout

/-! ## The two frameworks -/

def nextJsGlobs (folder : String) : List String :=
  [folder ++ "/**/page." ++ pageExtensions, folder ++ "/**/route.\x7bjs,ts\x7d"]

def svelteKitGlobs (folder : String) : List String :=
  [folder ++ "/**/+page.svelte", folder ++ "/**/+server.\x7bjs,ts\x7d"]

theorem nextJs_isReadBy : nextJsLayout.IsReadBy nextJsGlobs "route" where
  pages _ known := known
  chosen folder known l file := by
    have globs : ∀ folder ∈ nextJsLayout.folders, '\n' ∉ folder.toList ∧
        NamesBelow folder (folder ++ "/**/page." ++ pageExtensions)
          (extensionParts "page." scriptExtensions) ∧
        NamesBelow folder (folder ++ "/**/route.\x7bjs,ts\x7d")
          (extensionParts "route." ["js", "ts"]) := by decide
    obtain ⟨oneLine, pages, handlers⟩ := globs folder known
    refine mem_findFiles_pair oneLine pages handlers (fun name => ?_) (fun name => ?_)
    · simp [spells_extensionParts, scriptExtensions, nextJsLayout]
    · simp [spells_extensionParts, nextJsLayout]
  names := by decide
  pageStem := by decide
  handlersStem := by decide
  distinct := by decide
  apart := by decide

theorem svelteKit_isReadBy : svelteKitLayout.IsReadBy svelteKitGlobs "+server" where
  pages := nofun
  chosen folder known l file := by
    have globs : ∀ folder ∈ svelteKitLayout.folders, '\n' ∉ folder.toList ∧
        NamesBelow folder (folder ++ "/**/+page.svelte") ("+page.svelte".toList.map .char) ∧
        NamesBelow folder (folder ++ "/**/+server.\x7bjs,ts\x7d")
          (extensionParts "+server." ["js", "ts"]) := by decide
    obtain ⟨oneLine, pages, handlers⟩ := globs folder known
    refine mem_findFiles_pair oneLine pages handlers (fun name => ?_) (fun name => ?_)
    · rw [Glob.spells_chars, String.toList_inj]
      exact List.mem_singleton.symm
    · simp [spells_extensionParts, svelteKitLayout]
  names := by decide
  pageStem := by decide
  handlersStem := by decide
  distinct := by decide
  apart := by decide

section
variable {s : Source} {l : List String} {texts : String → Option Text}

theorem run_folderRoutes_of_read {file : String} (read : s.read file = .ok (texts file))
    (folder handlers : String) :
    (folderRoutes folder handlers file).run s =
      .ok (routesInFolder folder handlers (texts file) file) := by
  rw [run_folderRoutes, routesInFolder, read]
  simp only
  split <;> rfl

theorem run_nextPages (listed : s.files = .ok l) (folder : String) :
    (nextPages folder).run s = .ok (pagesFamily l folder).all := by
  show s.files.bind _ = _
  rw [listed]
  exact congrArg Except.ok List.map_eq_flatMap

theorem run_foldersFamily (listed : s.files = .ok l)
    (reads : ∀ file ∈ l, s.read file = .ok (texts file)) (globs : String → List String)
    (handlers folder : String) :
    ((Scan.find (globs folder)).bind (Scan.collect (folderRoutes folder handlers))).run s =
      .ok (foldersFamily globs handlers l texts folder).all := by
  show s.files.bind _ = _
  rw [listed, foldersFamily_all]
  refine Scan.run_collect_of_runs fun file member => ?_
  exact run_folderRoutes_of_read (reads file (mem_findFiles.1 member).1) folder handlers

theorem run_nextJs (listed : s.files = .ok l)
    (reads : ∀ file ∈ l, s.read file = .ok (texts file)) : nextJs.scan.run s =
      .ok ((nextJsLayout.families nextJsGlobs "route" l texts).flatMap Family.all) := by
  have pages : (Scan.collect nextPages nextJsLayout.pageFolders).run s = _ :=
    Scan.run_collect_of_runs fun folder _ => run_nextPages listed folder
  have folders : (Scan.collect nextFolders nextJsLayout.folders).run s = _ :=
    Scan.run_collect_of_runs fun folder _ =>
      run_foldersFamily listed reads nextJsGlobs "route" folder
  show ((Scan.collect nextPages nextJsLayout.pageFolders).bind fun pages =>
    (Scan.collect nextFolders nextJsLayout.folders).bind fun folders =>
      .done (pages ++ folders)).run s = _
  rw [Scan.run_bind, pages]
  show ((Scan.collect nextFolders nextJsLayout.folders).bind _).run s = _
  rw [Scan.run_bind, folders, Layout.families, List.flatMap_append, List.flatMap_map,
    List.flatMap_map]
  rfl

theorem run_svelteKit (listed : s.files = .ok l)
    (reads : ∀ file ∈ l, s.read file = .ok (texts file)) : svelteKit.scan.run s =
      .ok ((svelteKitLayout.families svelteKitGlobs "+server" l texts).flatMap Family.all) := by
  have globs : svelteKitGlobs "src/routes" =
      ["src/routes/**/+page.svelte", "src/routes/**/+server.\x7bjs,ts\x7d"] := by decide
  have found := run_foldersFamily listed reads svelteKitGlobs "+server" "src/routes"
  rw [globs] at found
  refine found.trans (congrArg Except.ok ?_)
  rw [Layout.families]
  exact (List.append_nil _).symm

theorem exists_texts {d : Disk} {depth : Nat} {root : Location} {exclude : List String}
    (proper : d.isProper = true) (listed : d.listing depth root exclude = .ok l) :
    ∃ texts : String → Option Text, ∀ file ∈ l,
      (d.source depth root exclude).read file = .ok (texts file) := by
  refine ⟨fun file => ((d.source depth root exclude).read file).toOption.getD none,
    fun file member => ?_⟩
  rcases Disk.located_or_nil listed with ⟨entries, above, located⟩ | rfl
  · obtain ⟨text, read⟩ := (Survey.isReadable proper located depth exclude).files l
      ((Disk.source_files d depth root exclude).trans listed) file member
    show _ = Except.ok (((d.source depth root exclude).read file).toOption.getD none)
    rw [read]
    rfl
  · cases member

end

/-- On every tree the routes are found, none with the method and file of another, and those of a
file are as its layout requires unless it is hidden in a folder with a line feed in its name. -/
theorem layout_routes_iff {e : Extractor Route} {x : Layout} (known : (e, x) ∈ pageLayouts)
    {d : Disk} {depth : Nat} {root : Location} {exclude l : List String}
    (proper : d.isProper = true) (listed : d.listing depth root exclude = .ok l) : ∃ routes,
      ((Snapshot.new root exclude).perform d depth e.scan).1 = .ok routes ∧
      (routes.map fun r => (r.method, r.file)).Nodup ∧
      ∀ file, (x.Hides l file → methodsOf routes file = []) ∧
        (x.Requires (d.source depth root exclude) l file (methodsOf routes file) ↔
          ¬ x.Hides l file) := by
  obtain ⟨texts, reads⟩ := exists_texts proper listed
  have files := (Disk.source_files d depth root exclude).trans listed
  rw [Snapshot.perform_new]
  simp only [pageLayouts, List.mem_cons, List.not_mem_nil, or_false, Prod.mk.injEq] at known
  rcases known with ⟨rfl, rfl⟩ | ⟨rfl, rfl⟩
  · exact ⟨_, run_nextJs files reads, nextJs_isReadBy.nodup,
      nextJs_isReadBy.methodsOf_families reads⟩
  · exact ⟨_, run_svelteKit files reads, svelteKit_isReadBy.nodup,
      svelteKit_isReadBy.methodsOf_families reads⟩

/-- A folder of pages within which one folder has a line feed in its name, and a file of
handlers. -/
def feedPages : Disk :=
  ⟨.folder [("repo", .folder
    [("app", .folder [("route.ts",
      .file "export const POST = 1\nexport async function GET() {}\n".toUTF8.toList)]),
     ("pages", .folder
      [("_app.tsx", .file []), ("a\nb", .folder [("c.tsx", .file [])]),
       ("index.tsx", .file [])])])],
    []⟩

def feedListing : List String :=
  ["app/route.ts", "pages/_app.tsx", "pages/a\nb/c.tsx", "pages/index.tsx"]

theorem feedPages_listing : feedPages.listing 10 (Location.read "/repo") [] =
    .ok feedListing :=
  Disk.listing_of_walk
    [⟨["app"], .folder⟩, ⟨["app", "route.ts"], .file⟩, ⟨["pages"], .folder⟩,
      ⟨["pages", "_app.tsx"], .file⟩, ⟨["pages", "a\nb"], .folder⟩,
      ⟨["pages", "a\nb", "c.tsx"], .file⟩, ⟨["pages", "index.tsx"], .file⟩]
    rfl rfl rfl (by decide)

theorem feedPages_routes : ∃ routes,
    ((Snapshot.new (Location.read "/repo") []).perform feedPages 10 nextJs.scan).1 = .ok routes ∧
    (routes.map fun r => (r.method, r.file)).Nodup ∧
    ∀ file, (nextJsLayout.Hides feedListing file → methodsOf routes file = []) ∧
      (nextJsLayout.Requires (feedPages.source 10 (Location.read "/repo") []) feedListing file
        (methodsOf routes file) ↔ ¬ nextJsLayout.Hides feedListing file) :=
  layout_routes_iff (.head _) (by decide) feedPages_listing

/-- The page in the folder with a line feed in its name has no route. -/
theorem not_all_required : ¬ ∀ e x, (e, x) ∈ pageLayouts →
    ∀ (d : Disk) (depth : Nat) (root : Location) (exclude l : List String) (routes : List Route),
      d.isProper = true → d.listing depth root exclude = .ok l →
      ((Snapshot.new root exclude).perform d depth e.scan).1 = .ok routes →
      ∀ file, x.Requires (d.source depth root exclude) l file (methodsOf routes file) := by
  intro required
  have proper : feedPages.isProper = true := by decide
  obtain ⟨texts, reads⟩ := exists_texts proper feedPages_listing
  have files := (Disk.source_files feedPages 10 (Location.read "/repo") []).trans feedPages_listing
  have ran := (Snapshot.perform_new feedPages 10 (Location.read "/repo") [] nextJs.scan).trans
    (run_nextJs files reads)
  have page := required _ _ (.head _) _ _ _ _ _ _ proper feedPages_listing ran
    "pages/a\nb/c.tsx"
  refine ((nextJs_isReadBy.methodsOf_families reads _).2.1 page) ⟨by decide, .inl (.inl ?_), ?_⟩
  · refine ⟨"pages", .head _, "c.tsx", ⟨["a\nb"], by decide⟩, "c", "tsx", by decide, rfl, by decide⟩
  · exact ⟨"a\nb", by decide, by decide⟩

end Routes

end CodeSurvey
