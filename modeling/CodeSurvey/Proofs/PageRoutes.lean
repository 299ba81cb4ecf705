import CodeSurvey.Proofs.Lines
import CodeSurvey.Proofs.Parameters

/-!
# Routes of pages and of folders

The route of a page is told from the segments of its path: each is translated, without the extension
of the last one, and a page of the name `index` is that of its folder (`Routes.fileRoutePath_page`).
The route of a folder is made in the same way, as if the last folder in it were a page. So that
folder loses what looks like the extension of a page, and a folder of the name `index` is lost
(`Routes.directoryRoute_iff`).
-/

namespace CodeSurvey

/-- The path `/s₁/…/sₙ`. -/
def pathTo (segments : List Text) : Text := segments.flatMap ('/' :: ·)

/-- What can stand between the slashes of a path. -/
def IsPart (segment : Text) : Prop := segment ≠ [] ∧ '/' ∉ segment

instance : DecidablePred IsPart := fun segment =>
  inferInstanceAs (Decidable (segment ≠ [] ∧ '/' ∉ segment))

/-! ## Paths -/

theorem pathTo_concat (segments : List Text) (last : Text) :
    pathTo (segments ++ [last]) = pathTo segments ++ '/' :: last := by
  rw [pathTo, List.flatMap_append, List.flatMap_singleton, pathTo]

/-- A path is the path after its first slash with the slash before it. -/
theorem pathTo_cons (first : Text) (others : List Text) :
    pathTo (first :: others) = '/' :: Text.joinWith ['/'] (first :: others) := by
  rw [Text.joinWith_cons]
  rfl

/-- A path is joined from its segments, with slashes before them at most. -/
theorem exists_pathTo_eq (segments : List Text) : ∃ before, (∀ c ∈ before, c = '/') ∧
    pathTo segments = before ++ Text.joinWith ['/'] segments := by
  cases segments with
  | nil => exact ⟨[], List.forall_mem_nil _, rfl⟩
  | cons first others => exact ⟨['/'], by simp, pathTo_cons first others⟩

theorem joinWith_concat (segments : List Text) (last : Text) :
    '/' :: Text.joinWith ['/'] (segments ++ [last]) = pathTo segments ++ '/' :: last := by
  rw [← pathTo_concat]
  cases segments with
  | nil => rw [List.nil_append, pathTo_cons]
  | cons first others => rw [List.cons_append, pathTo_cons]

theorem splitOn_joinWith_slash {segments : List Text} (some : segments ≠ [])
    (noSlash : ∀ s ∈ segments, '/' ∉ s) :
    (Text.joinWith ['/'] segments).splitOn (· == '/') = segments := by
  have pieces := List.splitOn_intercalate '/' noSlash some
  rwa [List.splitOn_eq_splitOnP, ← Text.splitOn_eq_splitOnP] at pieces

theorem splitOn_pathTo {segments : List Text} (noSlash : ∀ s ∈ segments, '/' ∉ s) :
    (pathTo segments).splitOn (· == '/') = [] :: segments := by
  have whole : pathTo segments = Text.joinWith ['/'] ([] :: segments) :=
    (Text.joinWith_cons ['/'] [] segments).symm
  rw [whole]
  exact splitOn_joinWith_slash nofun (List.forall_mem_cons.2 ⟨nofun, noSlash⟩)

theorem head?_joinWith {segments : List Text} (parts : ∀ s ∈ segments, IsPart s) {c : Char}
    (first : (Text.joinWith ['/'] segments).head? = some c) : c ≠ '/' := by
  cases segments with
  | nil => cases first
  | cons segment others =>
    obtain ⟨nonempty, noSlash⟩ := parts segment (.head _)
    obtain ⟨d, rest, rfl⟩ := List.exists_cons_of_ne_nil nonempty
    rw [Text.joinWith_cons] at first
    cases first
    rintro rfl
    exact noSlash (.head _)

theorem getLast?_joinWith {segments : List Text} (parts : ∀ s ∈ segments, IsPart s) {c : Char}
    (last : (Text.joinWith ['/'] segments).getLast? = some c) : c ≠ '/' := by
  cases segments using List.reverseRecOn with
  | nil => cases last
  | append_singleton before segment =>
    obtain ⟨nonempty, noSlash⟩ := parts segment (List.mem_append_right _ (.head _))
    have whole : (pathTo before ++ '/' :: segment).getLast? = some c := by
      rw [← joinWith_concat, List.getLast?_cons, last]
      rfl
    rw [List.append_cons, List.getLast?_append_of_ne_nil _ nonempty] at whole
    rintro rfl
    exact noSlash (List.mem_of_getLast? whole)

/-- Slashes around joined segments are trimmed away. -/
theorem trimBy_joinWith {segments : List Text} (parts : ∀ s ∈ segments, IsPart s)
    {before after : Text} (slashes : ∀ c ∈ before, c = '/') (slashes' : ∀ c ∈ after, c = '/') :
    (before ++ (Text.joinWith ['/'] segments ++ after)).trimBy (· == '/') =
      Text.joinWith ['/'] segments := by
  apply Text.trimBy_around
  · simpa using slashes
  · simpa using slashes'
  · intro c first
    simpa using head?_joinWith parts first
  · intro c last
    simpa using getLast?_joinWith parts last

namespace Routes

open Pattern Place

/-! ## Translated paths -/

theorem withParameters_append_slash (s t : Text) :
    withParameters (s ++ '/' :: t) = withParameters s ++ '/' :: withParameters t :=
  translates_iff.1 ((translates_withParameters s).append_slash (translates_withParameters t))

/-- A path is translated segment by segment. -/
theorem withParameters_append_pathTo (s : Text) (segments : List Text) :
    withParameters (s ++ pathTo segments) =
      withParameters s ++ pathTo (segments.map withParameters) := by
  induction segments generalizing s with
  | nil => rw [List.map_nil, show pathTo [] = [] from rfl, List.append_nil, List.append_nil]
  | cons first others ih =>
    have whole (t : Text) (l : List Text) : pathTo (t :: l) = '/' :: (t ++ pathTo l) := rfl
    rw [whole, withParameters_append_slash, ih, List.map_cons, whole]

/-! ## Extensions of pages -/

/-- The extensions of pages. -/
def pageEndings : List Text := ["js", "jsx", "ts", "tsx", "vue", "svelte"].map Text.of

/-- What is left of a path after the extension of a page: a line feed at most. -/
def pathEnds : List Text := [[], ['\n']]

/-- Whether a text ends as a page does. -/
def EndsAsPage (path : Text) : Prop :=
  ∃ ext ∈ pageEndings, ∃ t ∈ pathEnds, '.' :: (ext ++ t) <:+ path

instance : DecidablePred EndsAsPage := fun path =>
  inferInstanceAs (Decidable (∃ ext ∈ pageEndings, ∃ t ∈ pathEnds, '.' :: (ext ++ t) <:+ path))

theorem pageExtension_reads {t : Text} {rec : List (Nat × Text)}
    (reads : pageExtension.Reads t rec) : ∃ ext ∈ pageEndings, t = '.' :: ext := by
  obtain ⟨_, _, _, _, upToEnd, atEnd, rfl, -⟩ := reads_seq_iff.1 reads
  obtain ⟨_, _, _, _, dot, ending, rfl, -⟩ := reads_seq_iff.1 upToEnd
  obtain ⟨word, member, rfl⟩ := exists_of_reads_oneOf (List.cons_ne_nil _ _) ending
  cases dot
  cases atEnd
  exact ⟨word.toList, List.mem_map.2 ⟨word, member, rfl⟩, List.append_nil _⟩

/-- The extension of a page is read at the end of a path only. -/
theorem exists_of_matchAt?_pageExtension {p : Place} {m : Match}
    (found : pageExtension.matchAt? p = some m) :
    ∃ ext ∈ pageEndings, ∃ t ∈ pathEnds, p.rest = '.' :: (ext ++ t) := by
  have atEnd : m.last.rest ∈ pathEnds := by
    simpa [pathEnds] using isTextEnd_iff.1 (holds_of_matchAt? found)
  obtain ⟨⟨rest, reads⟩, rfl⟩ := matches_of_matchAt? found
  obtain ⟨ext, member, read⟩ := pageExtension_reads reads
  rw [read] at rest
  exact ⟨ext, member, _, atEnd, rest⟩

theorem matchAt?_pageExtension {ext t : Text} (member : ext ∈ pageEndings) (ends : t ∈ pathEnds)
    (previous : Option Char) : ∃ last, pageExtension.matchAt?
      (between previous ('.' :: (ext ++ t))) =
        some ⟨between previous ('.' :: (ext ++ t)), between last t, []⟩ := by
  simp only [pageEndings, pathEnds, List.map_cons, List.map_nil, List.mem_cons, List.not_mem_nil,
    or_false] at member ends
  rcases member with rfl | rfl | rfl | rfl | rfl | rfl <;> rcases ends with rfl | rfl <;>
    exact ⟨_, rfl⟩

theorem replaceFrom_of_not_endsAsPage {image : Match → Text} {text : Text}
    (other : ¬ EndsAsPage text) (previous : Option Char) :
    pageExtension.replaceFrom image (between previous text) = text := by
  induction text generalizing previous with
  | nil => exact replaceFrom_nil rfl
  | cons c text ih =>
    have here : pageExtension.matchAt? (between previous (c :: text)) = none := by
      rw [Option.eq_none_iff_forall_ne_some]
      intro m found
      obtain ⟨ext, member, t, ends, whole⟩ := exists_of_matchAt?_pageExtension found
      refine other ⟨ext, member, t, ends, ?_⟩
      rw [← whole]
      exact List.suffix_rfl
    rw [replaceFrom_of_none here, ih fun ⟨ext, member, t, ends, suffix⟩ =>
      other ⟨ext, member, t, ends, suffix.trans (List.suffix_cons c text)⟩]

theorem erase_of_not_endsAsPage {path : Text} (other : ¬ EndsAsPage path) :
    pageExtension.erase path = path := by
  rw [erase, substitute_eq]
  exact replaceFrom_of_not_endsAsPage other none

theorem erase_of_endsAsPage {ext t : Text} (member : ext ∈ pageEndings) (ends : t ∈ pathEnds)
    (base : Text) : pageExtension.erase (base ++ '.' :: (ext ++ t)) = base ++ t := by
  have noDot : ∀ ext ∈ pageEndings, ∀ t ∈ pathEnds, '.' ∉ ext ++ t := by decide
  have other : ∀ t ∈ pathEnds, ¬ EndsAsPage t := by decide
  have go (base : Text) (previous : Option Char) : pageExtension.replaceFrom (fun _ => [])
      (between previous (base ++ '.' :: (ext ++ t))) = base ++ t := by
    induction base generalizing previous with
    | nil =>
      obtain ⟨last, found⟩ := matchAt?_pageExtension member ends previous
      have shorter : (between last t).size < (between previous ('.' :: (ext ++ t))).size := by
        show t.length < ('.' :: (ext ++ t)).length
        rw [List.length_cons, List.length_append]
        omega
      rw [List.nil_append, replaceFrom_of_matchAt? found shorter,
        replaceFrom_of_not_endsAsPage (other t ends)]
    | cons c base ih =>
      -- Nothing is read before the last dot.
      have here : pageExtension.matchAt? (between previous (c :: (base ++ '.' :: (ext ++ t)))) =
          none := by
        rw [Option.eq_none_iff_forall_ne_some]
        intro m found
        obtain ⟨ext', member', t', ends', whole⟩ := exists_of_matchAt?_pageExtension found
        have same : base ++ '.' :: (ext ++ t) = ext' ++ t' := (List.cons.inj whole).2
        refine noDot ext' member' t' ends' ?_
        rw [← same]
        exact List.mem_append_right _ (.head _)
      rw [List.cons_append, replaceFrom_of_none here, ih, List.cons_append]
  rw [erase, substitute_eq]
  exact go base none

/-- Whether a path ends as a page does is seen from its last segment. -/
theorem endsAsPage_of_append (front : Text) {last : Text}
    (h : EndsAsPage (front ++ '/' :: last)) : EndsAsPage last := by
  obtain ⟨ext, member, t, ends, suffix⟩ := h
  have noSlash : ∀ ext ∈ pageEndings, ∀ t ∈ pathEnds, '/' ∉ '.' :: (ext ++ t) := by decide
  refine ⟨ext, member, t, ends, ?_⟩
  rcases List.suffix_or_suffix_of_suffix suffix (List.suffix_append front ('/' :: last)) with
    inLast | inEnding
  · exact (List.suffix_cons_iff.1 inLast).resolve_left nofun
  · exact absurd (inEnding.subset (.head _)) (noSlash ext member t ends)

/-! ## Pages of the name `index` -/

theorem append_slash_inj {front front' base base' : Text} (noSlash : '/' ∉ base)
    (noSlash' : '/' ∉ base') (same : front ++ '/' :: base = front' ++ '/' :: base') :
    base = base' := by
  have nested {gap base base' : Text} (noSlash : '/' ∉ base)
      (same : '/' :: base = gap ++ '/' :: base') : base = base' := by
    cases gap with
    | nil => exact (List.cons.inj same).2
    | cons c gap =>
      rw [(List.cons.inj same).2] at noSlash
      exact absurd (List.mem_append_right gap (.head _)) noSlash
  rcases List.append_eq_append_iff.1 same with ⟨gap, -, same⟩ | ⟨gap, -, same⟩
  · exact nested noSlash same
  · exact (nested noSlash' same).symm

theorem withoutIndex_append {base : Text} (noSlash : '/' ∉ base) (front : Text) :
    withoutIndex (front ++ '/' :: base) =
      front ++ '/' :: (if base = Text.of "index" then [] else base) := by
  have noSlash' : '/' ∉ Text.of "index" := by decide
  have notOnly : front ++ '/' :: base ≠ Text.of "index" := by
    intro only
    rw [← only] at noSlash'
    exact noSlash' (List.mem_append_right front (.head _))
  have suffix : ('/' :: Text.of "index").isSuffixOf (front ++ '/' :: base) = true ↔
      base = Text.of "index" := by
    rw [List.isSuffixOf_iff_suffix]
    constructor
    · rintro ⟨before, same⟩
      exact (append_slash_inj noSlash' noSlash same).symm
    · rintro rfl
      exact List.suffix_append front _
  unfold withoutIndex
  simp only [notOnly, suffix, false_or]
  by_cases isIndex : base = Text.of "index"
  · rw [if_pos isIndex, if_pos isIndex, isIndex, List.append_cons, List.length_append,
      Nat.add_sub_cancel, List.take_left]
  · rw [if_neg isIndex, if_neg isIndex]

/-! ## Routes -/

variable {folders segments : List Text} {base ext path last : Text}

/-- What a page is called in its route. -/
def pageSegments (base : Text) : List Text :=
  if base = [] ∨ base = Text.of "index" then [] else [base]

theorem isPart_withParameters {s : Text} (h : IsPart s) : IsPart (withParameters s) :=
  ⟨(translates_withParameters s).ne_nil h.1, (translates_withParameters s).not_mem_slash h.2⟩

theorem isPart_pageSegments (parts : ∀ s ∈ folders, IsPart s) (noSlash : '/' ∉ base) :
    ∀ s ∈ (folders ++ pageSegments base).map withParameters, IsPart s := by
  rw [List.forall_mem_map, List.forall_mem_append]
  refine ⟨fun s member => isPart_withParameters (parts s member), fun s member => ?_⟩
  unfold pageSegments at member
  split at member
  · cases member
  · next named =>
    obtain rfl := List.mem_singleton.1 member
    exact isPart_withParameters ⟨fun empty => named (.inl empty), noSlash⟩

/-- The route of a page is told from its folders and from what is left of its name without the
extension. -/
theorem fileRoutePath_of_erase (parts : ∀ s ∈ folders, IsPart s) (noSlash : '/' ∉ base)
    (erased : pageExtension.erase path = pathTo folders ++ '/' :: base) :
    fileRoutePath path =
      '/' :: Text.joinWith ['/'] ((folders ++ pageSegments base).map withParameters) := by
  have translated (name : Text) : withParameters (pathTo folders ++ '/' :: name) =
      pathTo (folders.map withParameters) ++ '/' :: withParameters name := by
    rw [withParameters_append_slash]
    exact congrArg (· ++ _) (withParameters_append_pathTo [] folders)
  have parts' := isPart_pageSegments parts noSlash
  have opened : fileRoutePath path =
      '/' :: (withParameters (withoutIndex (pageExtension.erase path))).trimBy (· == '/') := rfl
  rw [opened, erased, withoutIndex_append noSlash, translated]
  congr 1
  unfold pageSegments at parts' ⊢
  by_cases named : base = [] ∨ base = Text.of "index"
  · have dropped : (if base = Text.of "index" then [] else base) = [] := by
      rcases named with rfl | rfl <;> rfl
    rw [if_pos named, List.append_nil] at parts' ⊢
    obtain ⟨before, slashes, whole⟩ := exists_pathTo_eq (folders.map withParameters)
    rw [dropped, whole, List.append_assoc, show withParameters [] = [] from rfl]
    exact trimBy_joinWith parts' slashes (by simp)
  · have kept : (if base = Text.of "index" then [] else base) = base :=
      if_neg fun isIndex => named (.inr isIndex)
    rw [if_neg named] at parts' ⊢
    obtain ⟨before, slashes, whole⟩ := exists_pathTo_eq ((folders ++ [base]).map withParameters)
    rw [kept, ← pathTo_concat, ← List.map_singleton, ← List.map_append, whole,
      ← List.append_nil (Text.joinWith _ _)]
    exact (trimBy_joinWith parts' slashes (List.forall_mem_nil _)).trans (List.append_nil _).symm

theorem fileRoutePath_page (parts : ∀ s ∈ folders, IsPart s) (isPart : IsPart base)
    (isExtension : ext ∈ pageEndings) :
    fileRoutePath (pathTo folders ++ '/' :: (base ++ '.' :: ext)) = '/' :: Text.joinWith ['/']
      ((folders ++ if base = Text.of "index" then [] else [base]).map withParameters) := by
  have erased : pageExtension.erase (pathTo folders ++ '/' :: (base ++ '.' :: ext)) =
      pathTo folders ++ '/' :: base := by
    have same := erase_of_endsAsPage isExtension (t := []) (.head _) (pathTo folders ++ '/' :: base)
    simpa using same
  rw [fileRoutePath_of_erase parts isPart.2 erased]
  simp only [pageSegments, isPart.1, false_or]

/-- The route of a page is made of its translated segments, without one for `index`. No segment of
it is empty. -/
theorem page_route (parts : ∀ s ∈ folders, IsPart s) (isPart : IsPart base)
    (isExtension : ext ∈ pageEndings) :
    let route := fileRoutePath (pathTo (folders ++ [base ++ '.' :: ext]))
    (∀ s out, Translates s out ↔ withParameters s = out) ∧
    route = '/' :: Text.joinWith ['/']
      ((folders ++ if base = Text.of "index" then [] else [base]).map withParameters) ∧
    (route = ['/'] ∨
      route.getLast? ≠ some '/' ∧ [] ∉ Text.splitOn route.tail (· == '/')) := by
  intro route
  have parts' := isPart_pageSegments parts isPart.2
  simp only [pageSegments, isPart.1, false_or] at parts'
  have made : route = '/' :: Text.joinWith ['/']
      ((folders ++ if base = Text.of "index" then [] else [base]).map withParameters) := by
    unfold route
    rw [pathTo_concat, fileRoutePath_page parts isPart isExtension]
  refine ⟨fun _ _ => translates_iff, made, ?_⟩
  generalize (folders ++ if base = Text.of "index" then [] else [base]).map withParameters = names
    at made parts'
  rw [made]
  cases names with
  | nil => exact .inl rfl
  | cons first others =>
    refine .inr ⟨fun last => ?_, fun empty => ?_⟩
    · rw [List.getLast?_cons, Option.some_inj] at last
      cases inner : (Text.joinWith ['/'] (first :: others)).getLast? with
      | none =>
        rw [List.getLast?_eq_none_iff, Text.joinWith_cons, List.append_eq_nil_iff] at inner
        exact (parts' first (.head _)).1 inner.1
      | some c =>
        rw [inner] at last
        exact getLast?_joinWith parts' inner last
    · rw [List.tail_cons, splitOn_joinWith_slash (List.cons_ne_nil _ _)
        fun s member => (parts' s member).2] at empty
      exact (parts' [] empty).1 rfl

/-- The page of all posts and the page of the folder. -/
theorem page_route_posts :
    fileRoutePath (pathTo ["blog".toList, "[[...slug]]".toList, "index.tsx".toList]) =
      "/blog/:slug".toList := by
  have parts : ∀ s ∈ ["blog".toList, "[[...slug]]".toList], IsPart s := by decide
  have isPart : IsPart "index".toList := by decide
  have isExtension : "tsx".toList ∈ pageEndings := by decide
  obtain ⟨-, made, -⟩ := page_route parts isPart isExtension
  have translated : '/' :: Text.joinWith ['/']
      (["blog".toList, "[[...slug]]".toList].map withParameters) = "/blog/:slug".toList := by
    decide +kernel
  exact made.trans translated

/-! ## Routes of folders -/

/-- Whether a folder is not part of the path of the pages in it. -/
def IsAside (segment : Text) : Prop :=
  (segment.head? = some '(' ∧ segment.getLast? = some ')') ∨ segment.head? = some '@'

instance : DecidablePred IsAside := fun segment => inferInstanceAs
  (Decidable ((segment.head? = some '(' ∧ segment.getLast? = some ')') ∨ segment.head? = some '@'))

theorem isPathSegment_iff {segment : Text} :
    isPathSegment segment = true ↔ segment ≠ [] ∧ ¬ IsAside segment := by
  simp only [isPathSegment, IsAside, Bool.and_eq_true, Bool.not_eq_true', Bool.and_eq_false_iff,
    List.isEmpty_eq_false_iff, beq_eq_false_iff_ne, bne_iff_ne, not_or, not_and_or, and_assoc]

/-- The first slash of a path makes no difference. -/
theorem fileRoutePath_cons_slash (path : Text) :
    fileRoutePath ('/' :: path) = fileRoutePath path := by
  have erased : pageExtension.erase ('/' :: path) = '/' :: pageExtension.erase path := by
    by_cases ends : EndsAsPage path
    · obtain ⟨ext, member, t, ends, base, rfl⟩ := ends
      rw [erase_of_endsAsPage member ends, ← List.cons_append, erase_of_endsAsPage member ends,
        List.cons_append]
    · have ends' : ¬ EndsAsPage ('/' :: path) := mt (endsAsPage_of_append []) ends
      rw [erase_of_not_endsAsPage ends, erase_of_not_endsAsPage ends']
  have shortened (p : Text) : withoutIndex ('/' :: p) = '/' :: withoutIndex p := by
    have notOnly : '/' :: p ≠ Text.of "index" := by
      intro only
      cases only
    have suffix : ('/' :: Text.of "index").isSuffixOf ('/' :: p) = true ↔
        p = Text.of "index" ∨ ('/' :: Text.of "index").isSuffixOf p = true := by
      rw [List.isSuffixOf_iff_suffix, List.isSuffixOf_iff_suffix, List.suffix_cons_iff,
        List.cons.injEq]
      exact or_congr_left ⟨fun same => same.2.symm, fun same => ⟨rfl, same.symm⟩⟩
    unfold withoutIndex
    simp only [notOnly, suffix, false_or]
    split
    · next isIndex =>
      have long : (Text.of "index").length ≤ p.length := by
        rcases isIndex with rfl | ends
        · exact le_rfl
        · exact Nat.le_of_succ_le (List.isSuffixOf_iff_suffix.1 ends).length_le
      rw [List.length_cons, Nat.succ_sub long, List.take_succ_cons]
    · rfl
  have opened (p : Text) : fileRoutePath p =
      '/' :: (withParameters (withoutIndex (pageExtension.erase p))).trimBy (· == '/') := rfl
  have slash (p : Text) : withParameters ('/' :: p) = '/' :: withParameters p :=
    withParameters_append_slash [] p
  rw [opened, opened, erased, shortened, slash]
  rfl

theorem directoryRoute_pathTo (parts : ∀ s ∈ segments, IsPart s) :
    directoryRoute (pathTo segments) =
      fileRoutePath (pathTo (segments.filter fun s => ¬ IsAside s)) := by
  have kept : ((pathTo segments).splitOn (· == '/')).filter isPathSegment =
      segments.filter fun s => ¬ IsAside s := by
    rw [splitOn_pathTo fun s member => (parts s member).2, List.filter_cons_of_neg (by decide)]
    refine List.filter_congr fun s member => ?_
    rw [Bool.eq_iff_iff, isPathSegment_iff, decide_eq_true_eq]
    exact and_iff_right (parts s member).1
  unfold directoryRoute
  rw [kept]
  cases segments.filter fun s => ¬ IsAside s with
  | nil => rfl
  | cons first others => rw [pathTo_cons, fileRoutePath_cons_slash]

/-! ### Lengths of routes -/

theorem length_route_le (names : List Text) :
    ('/' :: Text.joinWith ['/'] names).length ≤ (pathTo names).length + 1 := by
  obtain ⟨before, -, whole⟩ := exists_pathTo_eq names
  rw [whole, List.length_append, List.length_cons]
  omega

theorem length_pageRoute_le (folders : List Text) (base : Text) :
    ('/' :: Text.joinWith ['/'] ((folders ++ pageSegments base).map withParameters)).length ≤
      (pathTo (folders.map withParameters)).length + (withParameters base).length + 1 := by
  unfold pageSegments
  split
  · have bound := length_route_le (folders.map withParameters)
    rw [List.append_nil]
    omega
  · rw [List.map_append, List.map_singleton, joinWith_concat, List.length_append, List.length_cons]
    omega

theorem withParameters_append_plain (s : Text) {t : Text} (plain : ∀ c ∈ t, c ≠ '[' ∧ c ≠ ']') :
    withParameters (s ++ t) = withParameters s ++ t :=
  translates_iff.1 ((translates_withParameters s).append_plain plain)

theorem length_withParameters_lt {t : Text} (isExtension : ext ∈ pageEndings) (ends : t ∈ pathEnds)
    (base : Text) : (withParameters (base ++ t)).length <
      (withParameters (base ++ '.' :: (ext ++ t))).length := by
  have plain : ∀ ext ∈ pageEndings, ∀ t ∈ pathEnds, ∀ c ∈ '.' :: (ext ++ t), c ≠ '[' ∧ c ≠ ']' := by
    decide
  have plainEnd : ∀ t ∈ pathEnds, ∀ c ∈ t, c ≠ '[' ∧ c ≠ ']' := by decide
  rw [withParameters_append_plain _ (plain ext isExtension t ends),
    withParameters_append_plain _ (plainEnd t ends)]
  simp only [List.length_append, List.length_cons]
  omega

/-! ### Folders that look like pages -/

theorem fileRoutePath_folder_iff (parts : ∀ s ∈ folders, IsPart s) (isPart : IsPart last) :
    fileRoutePath (pathTo (folders ++ [last])) =
        '/' :: Text.joinWith ['/'] ((folders ++ [last]).map withParameters) ↔
      last ≠ Text.of "index" ∧ ¬ EndsAsPage last := by
  have whole : '/' :: Text.joinWith ['/'] ((folders ++ [last]).map withParameters) =
      pathTo (folders.map withParameters) ++ '/' :: withParameters last := by
    rw [List.map_append, List.map_singleton, joinWith_concat]
  -- A route that is made without the whole name of the folder is shorter.
  have differ {base : Text}
      (shorter : (withParameters base).length < (withParameters last).length) : '/' ::
        Text.joinWith ['/'] ((folders ++ pageSegments base).map withParameters) ≠
          '/' :: Text.joinWith ['/'] ((folders ++ [last]).map withParameters) := by
    intro same
    have bound := length_pageRoute_le folders base
    rw [same, whole, List.length_append, List.length_cons] at bound
    omega
  rw [pathTo_concat]
  by_cases ends : EndsAsPage last
  · obtain ⟨ext, isExtension, t, isEnd, base, rfl⟩ := ends
    have ends : EndsAsPage (base ++ '.' :: (ext ++ t)) :=
      ⟨ext, isExtension, t, isEnd, List.suffix_append _ _⟩
    have erased := erase_of_endsAsPage isExtension isEnd (pathTo folders ++ '/' :: base)
    rw [List.append_assoc, List.append_assoc, List.cons_append, List.cons_append] at erased
    have noSlash : '/' ∉ base ++ t := by
      have outside := isPart.2
      simp only [List.mem_append, List.mem_cons, not_or] at outside ⊢
      exact ⟨outside.1, outside.2.2.2⟩
    rw [fileRoutePath_of_erase parts noSlash erased]
    exact iff_of_false (differ (length_withParameters_lt isExtension isEnd base))
      fun ⟨_, other⟩ => other ends
  · have erased := erase_of_not_endsAsPage (mt (endsAsPage_of_append (pathTo folders)) ends)
    rw [fileRoutePath_of_erase parts isPart.2 erased]
    by_cases isIndex : last = Text.of "index"
    · have lost : pageSegments last = pageSegments [] := by
        rw [isIndex]
        rfl
      rw [lost]
      refine iff_of_false (differ ?_) fun ⟨other, _⟩ => other isIndex
      exact List.length_pos_iff.2 (isPart_withParameters isPart).1
    · have kept : pageSegments last = [last] := if_neg (not_or.2 ⟨isPart.1, isIndex⟩)
      rw [kept]
      exact iff_of_true rfl ⟨isIndex, ends⟩

/-- The route of a folder is made of its translated segments, but for groups and slots, exactly if
the last of them is not called as a page could be: neither `index` nor with the extension of a
page. -/
theorem directoryRoute_iff (parts : ∀ s ∈ segments, IsPart s) :
    (∀ s out, Translates s out ↔ withParameters s = out) ∧
    (directoryRoute (pathTo segments) = '/' :: Text.joinWith ['/']
        ((segments.filter fun s => ¬ IsAside s).map withParameters) ↔
      ∀ last, (segments.filter fun s => ¬ IsAside s).getLast? = some last →
        last ≠ Text.of "index" ∧ ¬ EndsAsPage last) := by
  refine ⟨fun _ _ => translates_iff, ?_⟩
  have parts' : ∀ s ∈ segments.filter fun s => ¬ IsAside s, IsPart s :=
    fun s member => parts s (List.mem_filter.1 member).1
  rw [directoryRoute_pathTo parts]
  generalize (segments.filter fun s => ¬ IsAside s) = kept at parts'
  cases kept using List.reverseRecOn with
  | nil => exact iff_of_true rfl nofun
  | append_singleton folders last =>
    obtain ⟨parts, isPart⟩ := List.forall_mem_append.1 parts'
    rw [fileRoutePath_folder_iff parts (isPart last (.head _)), List.getLast?_concat]
    simp

/-- A folder in a group. -/
theorem directoryRoute_items :
    directoryRoute (pathTo ["(shop)".toList, "items".toList, "[id]".toList]) =
      "/items/:id".toList := by
  have parts : ∀ s ∈ ["(shop)".toList, "items".toList, "[id]".toList], IsPart s := by decide
  have named : ∀ last, some "[id]".toList = some last →
      last ≠ Text.of "index" ∧ ¬ EndsAsPage last := by
    rintro last ⟨⟩
    decide
  have translated : '/' :: Text.joinWith ['/']
      (["items".toList, "[id]".toList].map withParameters) = "/items/:id".toList := by
    decide +kernel
  exact ((directoryRoute_iff parts).2.2 named).trans translated

/-- A folder that is called as a page is. -/
theorem not_directoryRoute_eq : ¬ ∀ segments : List Text, (∀ s ∈ segments, IsPart s) →
    directoryRoute (pathTo segments) = '/' :: Text.joinWith ['/']
      ((segments.filter fun s => ¬ IsAside s).map withParameters) := by
  intro always
  have folder : ∀ s ∈ ["docs".toList], IsPart s := by decide
  have isPart : IsPart "index".toList := by decide
  have parts : ∀ s ∈ ["docs".toList, "index".toList], IsPart s := by decide
  have same := always _ parts
  rw [directoryRoute_pathTo parts] at same
  exact ((fileRoutePath_folder_iff folder isPart).1 same).1 rfl

end Routes

end CodeSurvey
