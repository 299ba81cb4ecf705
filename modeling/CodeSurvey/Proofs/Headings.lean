import CodeSurvey.Proofs.Replacement
import CodeSurvey.Proofs.Survey
import CodeSurvey.Proofs.Text
import CodeSurvey.Survey

/-!
# Titles of headings

The title of a Markdown document is read lazily: it ends where what follows up to the end of the
line is blanks and number signs only. Within a title that is refused until only number signs of the
title are left (`Document.closing_refuses`), whether or not there is a blank before them. So the
first heading gives its title without the number signs at its end, and the whole title exactly if
there are none (`documents_titled`).
-/

namespace CodeSurvey

/-! ## Titles -/

/-- A title as it is written in a heading: a line with something but number signs and without blanks
around it. It does not end in number signs after a blank, since these close the heading. -/
structure IsTitle (title : Text) : Prop where
  full : ∃ c ∈ title, c ≠ '#'
  oneLine : '\n' ∉ title
  first : ∀ c, title.head? = some c → isBlank c = false
  last : ∀ c, title.getLast? = some c → isBlank c = false
  unclosed : ∀ front c marks, title = front ++ c :: marks → marks ≠ [] → (∀ m ∈ marks, m = '#') →
    isBlank c = false

/-- A title without the number signs at its end. -/
def withoutMarks (title : Text) : Text := List.rdropWhile (· == '#') title

theorem withoutMarks_eq_iff {title : Text} :
    withoutMarks title = title ↔ title.getLast? ≠ some '#' := by
  rw [withoutMarks, List.rdropWhile_eq_self_iff]
  rcases List.eq_nil_or_concat title with rfl | ⟨front, c, rfl⟩ <;> simp

theorem withoutMarks_append {front marks : Text} {c : Char} (other : c ≠ '#')
    (allMarks : ∀ m ∈ marks, m = '#') : withoutMarks (front ++ c :: marks) = front ++ [c] := by
  have dropped : List.rdropWhile (· == '#') marks = [] :=
    List.rdropWhile_eq_nil_iff.2 fun m mark => by simpa using allMarks m mark
  have ends := @Text.rdropWhile_append_cons (· == '#') c (by simpa using other) front marks
  rwa [dropped] at ends

/-- A line is a title if it is visible at its ends, with and without the number signs. -/
theorem isTitle_of_ends {title : Text} (full : ∃ c ∈ title, c ≠ '#') (oneLine : '\n' ∉ title)
    (first : ∀ c, title.head? = some c → isBlank c = false)
    (last : ∀ c, title.getLast? = some c → isBlank c = false)
    (open_ : ∀ c, (withoutMarks title).getLast? = some c → isBlank c = false) :
    IsTitle title := by
  refine ⟨full, oneLine, first, last, ?_⟩
  rintro front c marks rfl - allMarks
  rw [← Bool.not_eq_true]
  intro blank
  have other : c ≠ '#' := by
    rintro rfl
    cases blank
  have visible := open_ c (by simp [withoutMarks_append other allMarks])
  exact Bool.false_ne_true (visible.symm.trans blank)

/-- Some characters outside a class are followed by characters of the class only. -/
theorem exists_last_outside (drop : Char → Bool) {text : Text}
    (some : ∃ c ∈ text, drop c = false) : ∃ front c rest,
      text = front ++ c :: rest ∧ drop c = false ∧ ∀ d ∈ rest, drop d = true := by
  induction text with
  | nil => simp at some
  | cons first text ih =>
    by_cases later : ∃ c ∈ text, drop c = false
    · obtain ⟨front, c, rest, rfl, kept, dropped⟩ := ih later
      exact ⟨first :: front, c, rest, rfl, kept, dropped⟩
    · have all : ∀ d ∈ text, drop d = true := by simpa using later
      refine ⟨[], first, text, rfl, ?_, all⟩
      obtain ⟨c, member, kept⟩ := some
      rcases List.mem_cons.1 member with rfl | member
      · exact kept
      · exact absurd ⟨c, member, kept⟩ later

/-- A title ends in a visible character and number signs. -/
theorem IsTitle.exists_parts {title : Text} (h : IsTitle title) : ∃ front c marks,
    title = front ++ [c] ++ marks ∧ withoutMarks title = front ++ [c] ∧ c ≠ '#' ∧
      isBlank c = false ∧ ∀ m ∈ marks, m = '#' := by
  obtain ⟨front, c, marks, rfl, kept, dropped⟩ :=
    exists_last_outside (· == '#') (by simpa using h.full)
  have allMarks : ∀ m ∈ marks, m = '#' := by simpa using dropped
  have other : c ≠ '#' := by simpa using kept
  refine ⟨front, c, marks, List.append_cons .., withoutMarks_append other allMarks, other, ?_,
    allMarks⟩
  by_cases none : marks = []
  · exact h.last c (by simp [none])
  · exact h.unclosed front c marks rfl none allMarks

theorem IsTitle.withoutMarks_ne_nil {title : Text} (h : IsTitle title) :
    withoutMarks title ≠ [] := by
  obtain ⟨front, c, marks, -, body, -⟩ := h.exists_parts
  simp [body]

/-- Nothing is left to trim. -/
theorem IsTitle.trim_withoutMarks {title : Text} (h : IsTitle title) :
    (withoutMarks title).trim = withoutMarks title := by
  obtain ⟨front, c, marks, whole, body, -, visible, -⟩ := h.exists_parts
  refine Text.trimBy_of_ends (fun d head => h.first d ?_) (by simpa [body] using visible)
  rwa [whole, ← body, List.head?_append_of_ne_nil _ h.withoutMarks_ne_nil]

/-! ## Headings -/

namespace Document

open Pattern Place

/-- What may follow a title up to the end of the line. -/
def closing : Pattern := blanks ++ some0 (· == '#') ++ blanks ++ lineEnd

section
variable {α : Type} {front marks rest : Text} {c : Char} {g : Groups}

theorem run_heading (p : Place) (g : Groups) (accept : Accept α) :
    heading.run p g accept =
      (lineStart ++ "#" ++ blanks1).run p g fun q g =>
        runLazy (· != '\n') (fun r => closing.run r ((1, ⟨q, r⟩) :: g) accept) q.rest q rfl 1 := rfl

/-- Before a visible character of the title that is no number sign nothing closes the heading. -/
theorem closing_refuses (other : c ≠ '#') (visible : isBlank c = false)
    (oneLine : '\n' ∉ front ++ [c]) (previous : Option Char) :
    closing.Refuses (between previous (front ++ c :: rest)) g := by
  intro α accept
  rw [Option.eq_none_iff_forall_ne_some]
  intro a found
  change (blanks ++ some0 (· == '#') ++ blanks).run _ g
    (fun q g => if isLineEnd q = true then accept q g else none) = some a at found
  obtain ⟨q, g', ⟨t, rec, reads, after, -⟩, accepted⟩ := run_eq_some found
  have outside : c ∉ t := by
    obtain ⟨_, _, s₃, _, front, third, rfl, -⟩ := reads_seq_iff.1 reads
    obtain ⟨s₁, _, s₂, _, first, second, rfl, -⟩ := reads_seq_iff.1 front
    intro member
    rcases List.mem_append.1 member with member | member
    · rcases List.mem_append.1 member with member | member
      · exact Bool.false_ne_true (visible.symm.trans ((reads_many_iff.1 first).1 c member))
      · exact other (by simpa using (reads_many_iff.1 second).1 c member)
    · exact Bool.false_ne_true (visible.symm.trans ((reads_many_iff.1 third).1 c member))
  obtain ⟨w, rfl⟩ := Text.prefix_of_not_mem outside ⟨q.rest, after.symm⟩
  have left : q.rest = w ++ c :: rest := by
    have whole : t ++ w ++ c :: rest = t ++ q.rest := after
    rw [List.append_assoc, List.append_cancel_left_eq] at whole
    exact whole.symm
  split at accepted
  · next ends =>
    rw [isLineEnd, left] at ends
    cases w with
    | nil =>
      obtain rfl : c = '\n' := by simpa using ends
      exact oneLine (by simp)
    | cons d w =>
      obtain rfl : d = '\n' := by simpa using ends
      exact oneLine (by simp)
  · cases accepted

/-- Number signs at the end of a line close the heading. -/
theorem closing_run_ne_none {accept : Accept α} (total : ∀ q g, accept q g ≠ none)
    (allMarks : ∀ m ∈ marks, m = '#') (ends : rest = [] ∨ rest.head? = some '\n')
    (previous : Option Char) (g : Groups) :
    closing.run (between previous (marks ++ rest)) g accept ≠ none := by
  have ended (previous : Option Char) (g : Groups) :
      lineEnd.run (between previous rest) g accept ≠ none := by
    have lineEnds : isLineEnd (between previous rest) = true := by
      rcases ends with rfl | next
      · rfl
      · obtain ⟨below, rfl⟩ := List.head?_eq_some_iff.1 next
        rfl
    rw [lineEnd, run, if_pos lineEnds]
    exact total _ _
  have noBlanks : ∀ c ∈ ([] : Text), isBlank c = true := List.forall_mem_nil _
  show blanks.run _ g (fun p g => (some0 (· == '#')).run p g fun p g =>
    blanks.run p g fun p g => lineEnd.run p g accept) ≠ none
  refine run_some0_ne_none (t := []) noBlanks previous ?_
  refine run_some0_ne_none (fun m mark => by simpa using allMarks m mark) _ ?_
  exact run_some0_ne_none (t := []) noBlanks _ (ended _ _)

/-- What closes a heading records no group. -/
theorem group_of_closing {p q : Place} {span : Span} {m : Match}
    (found : closing.run q [(1, span)] (fun r g => some ⟨p, r, g⟩) = some m) :
    m.group 1 = span.text := by
  obtain ⟨r, g, ⟨t, rec, reads, -, groups⟩, accepted⟩ := run_eq_some found
  cases accepted
  have recorded : (Groups.texts g).lookup 1 = some span.text := by
    rw [groups, List.lookup_append, reads.lookup_eq_none rfl]
    rfl
  rw [Match.group, Match.group?, ← Groups.lookup_texts, recorded]
  rfl

/-- A title is read up to its last visible character that is no number sign. -/
theorem runLazy_title {accept : Accept α} {a : α} {p : Place} (other : c ≠ '#')
    (visible : isBlank c = false) (oneLine : '\n' ∉ front ++ [c]) (previous : Option Char)
    (closed : closing.run (between (lastOf previous (front ++ [c])) rest)
      [(1, ⟨p, between (lastOf previous (front ++ [c])) rest⟩)] accept = some a) :
    runLazy (· != '\n') (fun q => closing.run q [(1, ⟨p, q⟩)] accept) (front ++ [c] ++ rest)
      (between previous (front ++ [c] ++ rest)) rfl 1 = some a := by
  have inLine : ∀ d ∈ front ++ [c], (d != '\n') = true := Text.bne_of_not_mem oneLine
  refine runLazy_first previous inLine (by simp) (fun u v parts some => ?_) closed
  obtain ⟨v, d, rfl⟩ := (List.eq_nil_or_concat v).resolve_left some
  rw [List.concat_eq_append, ← List.append_assoc] at parts
  obtain ⟨rfl, last⟩ := List.append_inj' parts rfl
  obtain rfl : c = d := by simpa using last
  have within : '\n' ∉ v ++ [c] := fun member => oneLine (by simp_all)
  rw [List.concat_eq_append, ← List.append_cons]
  exact closing_refuses other visible within _ accept

end

/-- A heading is found with its title without the number signs at the end. -/
theorem find_heading {title rest : Text} (h : IsTitle title)
    (ends : rest = [] ∨ rest.head? = some '\n') :
    ∃ m, heading.find (Text.of "# " ++ (title ++ rest)) = some m ∧
      m.group 1 = withoutMarks title := by
  obtain ⟨front, c, marks, rfl, body, other, visible, allMarks⟩ := h.exists_parts
  have oneLine : '\n' ∉ front ++ [c] := mt (List.mem_append_left _) h.oneLine
  have first : ∀ d, (front ++ [c] ++ (marks ++ rest)).head? = some d → isBlank d = false := by
    intro d head
    refine h.first d ?_
    rwa [List.head?_append_of_ne_nil _ (by simp)] at head ⊢
  have text : Text.of "# " ++ (front ++ [c] ++ marks ++ rest) =
      ['#'] ++ ([' '] ++ (front ++ [c] ++ (marks ++ rest))) := by
    simp [Text.of]
  rw [body, text, find]
  generalize isStart : start (['#'] ++ _) = p
  -- Before the title stand a number sign and one blank.
  have starts : (lineStart ++ "#" ++ blanks1).Offers p []
      (between (some ' ') (front ++ [c] ++ (marks ++ rest))) [] := by
    rw [← isStart]
    exact ((offers_test rfl).seq (offers_lit none ['#'] _)).seq
      (offers_many (t := [' ']) (some '#') (by decide) first (by decide))
  have closes := closing_run_ne_none (fun q g => Option.some_ne_none (⟨p, q, g⟩ : Match)) allMarks
    ends (lastOf (some ' ') (front ++ [c]))
    [(1, ⟨between (some ' ') (front ++ [c] ++ (marks ++ rest)),
      between (lastOf (some ' ') (front ++ [c])) (marks ++ rest)⟩)]
  obtain ⟨m, closed⟩ := Option.ne_none_iff_exists'.1 closes
  have here : heading.matchAt? p = some m := by
    rw [matchAt?, run_heading]
    exact starts (runLazy_title other visible oneLine (some ' ') closed)
  refine ⟨m, find?_of_matchAt? here, ?_⟩
  rw [group_of_closing closed]
  exact upTo_eq rfl

/-! ## Documents -/

/-- Whether a name is that of a Markdown file. -/
def IsMarkdown (file : String) : Prop :=
  hasEnding file ".md" = true ∨ hasEnding file ".markdown" = true

theorem extensionOf_markdown {file : String} (markdown : IsMarkdown file) :
    extensionOf file ≠ ".html" := by
  intro isHtml
  have html : ".html".toList <:+ file.toList := by
    rw [← isHtml, extensionOf, String.toList_ofList]
    exact List.drop_suffix ..
  have last {ending : Text} (c : Char) (ends : ending <:+ file.toList)
      (endsIn : ending.getLast? = some c) : file.toList.getLast? = some c := by
    obtain ⟨front, whole⟩ := ends
    rw [← whole, List.getLast?_append, endsIn, Option.some_or]
  have isL := last 'l' html rfl
  rcases markdown with md | markdown
  · have isD := last 'd' (List.isSuffixOf_iff_suffix.1 md) rfl
    rw [isL] at isD
    cases isD
  · have isN := last 'n' (List.isSuffixOf_iff_suffix.1 markdown) rfl
    rw [isL] at isN
    cases isN

/-- The title of a Markdown document that starts with a heading. -/
theorem titleOf_heading {file : String} (markdown : IsMarkdown file) {title rest : Text}
    (h : IsTitle title) (ends : rest = [] ∨ rest.head? = some '\n') :
    titleOf file (Text.of "# " ++ (title ++ rest)) = String.ofList (withoutMarks title) := by
  obtain ⟨m, found, group⟩ := find_heading h ends
  rw [titleOf, if_neg (extensionOf_markdown markdown), found]
  simp [group, h.trim_withoutMarks, h.withoutMarks_ne_nil]

/-! ## Loading -/

/-- Whether a path, given by its segments, is that of a document. -/
def IsDocument (path : List String) : Prop :=
  endings.any (hasEnding (path.getLast?.getD "")) = true

theorem isDocument_of_markdown {path : List String}
    (markdown : IsMarkdown (path.getLast?.getD "")) : IsDocument path := by
  rcases markdown with md | markdown <;> simp [IsDocument, endings, *]

/-- If all members of a list have results, the list has the list of these. -/
theorem exists_mapM {ε α β : Type} {f : α → Except ε β} {l : List α}
    (returns : ∀ a ∈ l, ∃ b, f a = .ok b) :
    ∃ results, l.mapM f = .ok results ∧ ∀ b, b ∈ results ↔ ∃ a ∈ l, f a = .ok b := by
  induction l with
  | nil => exact ⟨[], rfl, by simp⟩
  | cons a l ih =>
    obtain ⟨⟨b, here⟩, later⟩ := List.forall_mem_cons.1 returns
    obtain ⟨results, all, members⟩ := ih later
    refine ⟨b :: results, by rw [List.mapM_cons, here, all]; rfl, fun c => ?_⟩
    rw [List.mem_cons, members, List.exists_mem_cons_iff, here]
    simp [eq_comm]

section
variable {d : Disk} {host : Host} {folder : Location} {found : List (List String)}

/-- The documents of a folder, if all of them may be looked at. -/
theorem documents_loaded (isFolder : d.isFolder folder = .ok true)
    (walked : paths d host.depths.documents folder = .ok found)
    (inReach : ∀ path ∈ found, IsDocument path →
      ∃ text, d.text? (folder.join (String.intercalate "/" path)) = .ok text) :
    ∃ documents, (Survey.documents d host folder).result = .ok documents ∧
      ∀ document, document ∈ documents ↔
        ∃ path ∈ found, IsDocument path ∧ load? d folder path = .ok (some document) := by
  have listed {path : List String} : path ∈ (found.filter fun path =>
      endings.any (hasEnding (path.getLast?.getD ""))).mergeSort isInOrder ↔
        path ∈ found ∧ IsDocument path := List.mem_mergeSort.trans List.mem_filter
  obtain ⟨results, all, members⟩ := exists_mapM (f := load? d folder) fun path member => by
    obtain ⟨member, isDocument⟩ := listed.1 member
    obtain ⟨text, read⟩ := inReach path member isDocument
    exact ⟨_, by rw [load?, read]; rfl⟩
  have loaded : loadAll d host.depths.documents folder = .ok (results.filterMap id) := by
    rw [loadAll_eq, walked]
    show (List.mapM (load? d folder) _).map _ = _
    rw [all]
    rfl
  refine ⟨results.filterMap id, ?_, fun document => ?_⟩
  · rw [Survey.documents, Report.result_bind, isFolder]
    show (Report.ofExcept _).result = _
    rw [loaded]
    rfl
  · simp only [List.mem_filterMap, id, exists_eq_right, members, listed, and_assoc]

/-- The Markdown documents of a folder that start with a heading get its title without the number
signs at the end, so the whole title exactly if there are none. For number signs close a heading
even where no blank stands before them. -/
theorem documents_titled (isFolder : d.isFolder folder = .ok true)
    (walked : paths d host.depths.documents folder = .ok found)
    (inReach : ∀ path ∈ found, IsDocument path →
      ∃ text, d.text? (folder.join (String.intercalate "/" path)) = .ok text) :
    ∃ documents, (Survey.documents d host folder).result = .ok documents ∧
      ∀ path ∈ found, IsMarkdown (path.getLast?.getD "") → ∀ title rest, IsTitle title →
        rest = [] ∨ rest.head? = some '\n' →
        d.text? (folder.join (String.intercalate "/" path)) =
          .ok (some (Text.of "# " ++ (title ++ rest))) →
        ∃ document ∈ documents, document.source = String.intercalate "/" path ∧
          document.content = String.ofList (Text.of "# " ++ (title ++ rest)) ∧
          document.title = String.ofList (withoutMarks title) ∧
          (document.title = String.ofList title ↔ title.getLast? ≠ some '#') := by
  obtain ⟨documents, loaded, members⟩ := documents_loaded isFolder walked inReach
  refine ⟨documents, loaded, fun path member markdown title rest h ends read => ?_⟩
  have document : load? d folder path = .ok (some ⟨String.ofList (withoutMarks title),
      String.ofList (Text.of "# " ++ (title ++ rest)), String.intercalate "/" path⟩) := by
    simp only [load?, read, Except.map, Option.map_some, titleOf_heading markdown h ends]
  refine ⟨_, (members _).2 ⟨path, member, isDocument_of_markdown markdown, document⟩, rfl, rfl, rfl,
    ?_⟩
  exact String.ofList_inj.trans withoutMarks_eq_iff

end

def asciiFile (text : String) : Node :=
  .file ((Text.of text).map fun c => UInt8.ofNat c.toNat)

/-- A folder with two guides. The title of one ends in a number sign. -/
def twoGuides : Disk := ⟨.folder [("docs", .folder
  [("guide.md", asciiFile "# C#\n"), ("log.md", asciiFile "# #1 log\n\n## All")])], []⟩

def guideFolder : Location := Location.read "/docs"

theorem isTitle_sharp : IsTitle (Text.of "C#") :=
  isTitle_of_ends ⟨'C', by decide, by decide⟩ (by decide) (by rintro _ ⟨⟩; rfl)
    (by rintro _ ⟨⟩; rfl) (by rintro _ ⟨⟩; rfl)

theorem isTitle_log : IsTitle (Text.of "#1 log") :=
  isTitle_of_ends ⟨'1', by decide, by decide⟩ (by decide) (by rintro _ ⟨⟩; rfl)
    (by rintro _ ⟨⟩; rfl) (by rintro _ ⟨⟩; rfl)

theorem twoGuides_isFolder : twoGuides.isFolder guideFolder = .ok true := rfl

theorem twoGuides_walk : paths twoGuides Survey.plainHost.depths.documents guideFolder =
    .ok [["guide.md"], ["log.md"]] := rfl

theorem twoGuides_guide : twoGuides.text? (guideFolder.join (String.intercalate "/" ["guide.md"])) =
    .ok (some (Text.of "# " ++ (Text.of "C#" ++ ['\n']))) := rfl

theorem twoGuides_log : twoGuides.text? (guideFolder.join (String.intercalate "/" ["log.md"])) =
    .ok (some (Text.of "# " ++ (Text.of "#1 log" ++ Text.of "\n\n## All"))) := rfl

theorem twoGuides_inReach : ∀ path ∈ [["guide.md"], ["log.md"]], IsDocument path →
    ∃ text, twoGuides.text? (guideFolder.join (String.intercalate "/" path)) = .ok text := by
  rintro path (_ | ⟨_, _ | ⟨_, ⟨⟩⟩⟩) -
  · exact ⟨_, twoGuides_guide⟩
  · exact ⟨_, twoGuides_log⟩

theorem twoGuides_titled : ∃ documents,
    (Survey.documents twoGuides Survey.plainHost guideFolder).result = .ok documents ∧
      (∃ document ∈ documents, document.source = "guide.md" ∧ document.title = "C") ∧
      ∃ document ∈ documents, document.source = "log.md" ∧ document.title = "#1 log" := by
  obtain ⟨documents, loaded, titled⟩ :=
    documents_titled twoGuides_isFolder twoGuides_walk twoGuides_inReach
  obtain ⟨guide, listed, source, -, title, -⟩ := titled ["guide.md"] (by simp) (.inl (by decide))
    (Text.of "C#") ['\n'] isTitle_sharp (.inr rfl) twoGuides_guide
  obtain ⟨log, listed', source', -, title', -⟩ := titled ["log.md"] (by simp) (.inl (by decide))
    (Text.of "#1 log") (Text.of "\n\n## All") isTitle_log (.inr rfl) twoGuides_log
  exact ⟨documents, loaded, ⟨guide, listed, source, title⟩, log, listed', source', title'⟩

/-- So it is not true that a document gets the whole title of its first heading. -/
theorem titles_not_whole :
    ¬ ∀ (d : Disk) (host : Host) (folder : Location) (documents : List Document)
        (document : Document) (title rest : Text),
      (Survey.documents d host folder).result = .ok documents → document ∈ documents →
      hasEnding document.source ".md" = true → IsTitle title →
      rest = [] ∨ rest.head? = some '\n' →
      document.content = String.ofList (Text.of "# " ++ (title ++ rest)) →
        document.title = String.ofList title := by
  intro whole
  obtain ⟨documents, loaded, members⟩ :=
    documents_loaded twoGuides_isFolder twoGuides_walk twoGuides_inReach
  have title : titleOf "guide.md" (Text.of "# " ++ (Text.of "C#" ++ ['\n'])) = "C" := by
    decide +kernel
  have listed : ⟨"C", "# C#\n", "guide.md"⟩ ∈ documents := by
    refine (members _).2 ⟨["guide.md"], .head _, isDocument_of_markdown (.inl (by decide)), ?_⟩
    rw [load?, twoGuides_guide]
    exact congrArg (fun title => Except.ok (some (Document.mk title "# C#\n" "guide.md"))) title
  have same := whole twoGuides Survey.plainHost guideFolder documents _ (Text.of "C#") ['\n']
    loaded listed (by decide) isTitle_sharp (.inr rfl) rfl
  exact absurd same (by decide)

end Document

end CodeSurvey
