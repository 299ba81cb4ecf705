import CodeSurvey.Proofs.Replacement
import CodeSurvey.Proofs.Sound
import CodeSurvey.Proofs.Words
import CodeSurvey.Routes.Pages

/-!
# Exported methods

A file of handlers exports functions and constants that are named for the methods that they handle.
`Routes.Exports` says what an export is. Within an export no other starts, so the search from left
to right finds them all (`Routes.areExports_findAll`), and the methods of a file are those that are
exported, each once and in the order in which they are exported first
(`Routes.areServed_handlerMethods`).
-/

namespace CodeSurvey.Routes

open Pattern

/-! ## Exports -/

/-- One or more blanks. -/
def AreBlanks (text : Text) : Prop := text ≠ [] ∧ ∀ c ∈ text, isBlank c = true

/-- The declaration of an exported function or constant up to its name, which is a method. -/
structure Export where
  /-- What stands between `export` and the next word. -/
  gap : Text
  /-- What stands between `async` and the next word, if the function is asynchronous. -/
  async? : Option Text
  keyword : String
  space : Text
  verb : String

def exportKeywords : List String := ["function", "const"]

def exportVerbs : List String := ["GET", "POST", "PUT", "PATCH", "DELETE"]

namespace Export

/-- The text from `async` to the keyword. -/
def asyncText : Option Text → Text
  | none => []
  | some gap => Text.of "async" ++ gap

/-- What stands after `export`. -/
def tail (x : Export) : Text :=
  x.gap ++ (asyncText x.async? ++ (Text.of x.keyword ++ (x.space ++ Text.of x.verb)))

def text (x : Export) : Text := Text.of "export" ++ x.tail

structure IsWritten (x : Export) : Prop where
  gap : AreBlanks x.gap
  async : ∀ gap, x.async? = some gap → AreBlanks gap
  keyword : x.keyword ∈ exportKeywords
  space : AreBlanks x.space
  verb : x.verb ∈ exportVerbs

end Export

/-- Whether a text starts with an export of a method, whose name ends with a word. -/
def Exports (text : Text) (verb : String) : Prop :=
  ∃ x : Export, x.IsWritten ∧ x.verb = verb ∧ ∃ after, text = x.text ++ after ∧
    ∀ c, after.head? = some c → isWord c = false

/-! ## Reading an export -/

section
variable {p : Place} {m : Match}

theorem run_async_eq_some {α : Type} {accept : Accept α} {a : α} {g : Groups}
    (found : (opt ("async" ++ blanks1)).run p g accept = some a) : ∃ async? q,
      (∀ gap, async? = some gap → AreBlanks gap) ∧ p.rest = Export.asyncText async? ++ q.rest ∧
      accept q g = some a := by
  rcases run_opt_eq_some found with here | here
  · change (lit (Text.of "async")).run p g (fun p g => blanks1.run p g accept) = some a at here
    obtain ⟨q, async, here⟩ := run_lit_eq_some here
    obtain ⟨gap, r, inGap, blank, long, accepted⟩ := run_many_eq_some here
    refine ⟨some gap, r, ?_, by rw [async, inGap]; exact (List.append_assoc ..).symm, accepted⟩
    rintro _ ⟨⟩
    exact ⟨List.ne_nil_of_length_pos long, blank⟩
  · exact ⟨none, p, nofun, rfl, here⟩

/-- A method ends in a word character. -/
theorem any_lastOf_verb {verb : String} (isVerb : verb ∈ exportVerbs) (previous : Option Char) :
    (Place.lastOf previous verb.toList).any isWord = true := by
  have ends : ∀ verb ∈ exportVerbs, verb.toList.getLast?.any isWord = true := by decide
  obtain ⟨c, last, isWord⟩ := (Option.any_eq_true ..).1 (ends verb isVerb)
  rw [Place.lastOf, last, Option.some_or]
  exact isWord

/-- What is read as an export is one. -/
theorem exports_of_matchAt? (found : exportedVerb.matchAt? p = some m) :
    ∃ x : Export, x.IsWritten ∧ x.verb = m.string 1 ∧ p.rest = x.text ++ m.last.rest ∧
      ∀ c, m.last.rest.head? = some c → isWord c = false := by
  change (lit (Text.of "export")).run p [] (fun p g => blanks1.run p g fun p g =>
    (opt ("async" ++ blanks1)).run p g fun p g => (oneOf exportKeywords).run p g fun p g =>
      blanks1.run p g fun p g => (oneOf exportVerbs).run p g fun q g =>
        wordEdge.run q ((1, ⟨p, q⟩) :: g) _) = some m at found
  obtain ⟨p₁, export_, found⟩ := run_lit_eq_some found
  obtain ⟨gap, p₂, inGap, blank, long, found⟩ := run_many_eq_some found
  obtain ⟨async?, p₃, blanks, async, found⟩ := run_async_eq_some found
  obtain ⟨keyword, isKeyword, p₄, declares, -, found⟩ := run_oneOf_eq_some found
  obtain ⟨space, p₅, inSpace, blank', long', found⟩ := run_many_eq_some found
  obtain ⟨verb, isVerb, q, named, before, found⟩ := run_oneOf_eq_some found
  rw [wordEdge, run] at found
  split at found
  · next edge =>
    cases found
    have word : Match.string ⟨p, q, (1, ⟨p₅, q⟩) :: []⟩ 1 = verb := by
      show String.ofList (p₅.upTo q) = verb
      rw [Place.upTo_eq named, String.ofList_toList]
    refine ⟨⟨gap, async?, keyword, space, verb⟩, ⟨⟨List.ne_nil_of_length_pos long, blank⟩, blanks,
      isKeyword, ⟨List.ne_nil_of_length_pos long', blank'⟩, isVerb⟩, word.symm, ?_, ?_⟩
    · rw [export_, inGap, async, declares, inSpace, named]
      simp only [Export.text, Export.tail, Text.of, List.append_assoc]
    · intro c next
      rw [isAfterWord, before, any_lastOf_verb isVerb, isBeforeWord, next] at edge
      simpa using edge
  · cases found

theorem not_isBlank_head? (async? : Option Text) {keyword : String}
    (isKeyword : keyword ∈ exportKeywords) (rest : Text) : ∀ c,
      (Export.asyncText async? ++ (keyword.toList ++ rest)).head? = some c → isBlank c = false := by
  simp only [exportKeywords, List.mem_cons, List.not_mem_nil, or_false] at isKeyword
  cases async? with
  | some gap => exact stops_cons (by decide)
  | none => rcases isKeyword with rfl | rfl <;> exact stops_cons (by decide)

theorem async_offers {async? : Option Text} (blanks : ∀ gap, async? = some gap → AreBlanks gap)
    {keyword : String} (isKeyword : keyword ∈ exportKeywords) (previous : Option Char)
    (rest : Text) (g : Groups) : ∃ before, (opt ("async" ++ blanks1)).Offers
      (Place.between previous (Export.asyncText async? ++ (keyword.toList ++ rest))) g
      (Place.between before (keyword.toList ++ rest)) g := by
  cases async? with
  | some gap =>
    obtain ⟨some, blank⟩ := blanks gap rfl
    have word := offers_lit (g := g) previous (Text.of "async") (gap ++ (keyword.toList ++ rest))
    have space := offers_many (g := g) (Place.lastOf previous (Text.of "async")) blank
      (not_isBlank_head? none isKeyword rest) (List.length_pos_of_ne_nil some)
    exact ⟨_, (word.seq space).left⟩
  | none =>
    simp only [exportKeywords, List.mem_cons, List.not_mem_nil, or_false] at isKeyword
    rcases isKeyword with rfl | rfl <;>
      exact ⟨previous, Offers.right ((refuses_lit (by decide) previous _ _).seq _) offers_empty⟩

theorem not_isBlank_head?_verb {verb : String} (isVerb : verb ∈ exportVerbs) (rest : Text) :
    ∀ c, (verb.toList ++ rest).head? = some c → isBlank c = false := by
  have starts : ∀ verb ∈ exportVerbs, (verb.toList.head?.any fun c => !isBlank c) = true := by
    decide
  obtain ⟨d, head, visible⟩ := (Option.any_eq_true ..).1 (starts verb isVerb)
  intro c first
  rw [List.head?_append, head] at first
  cases first
  simpa using visible

theorem edge_offers {verb : String} (isVerb : verb ∈ exportVerbs) {after : Text}
    (stop : ∀ c, after.head? = some c → isWord c = false) (previous : Option Char) {g : Groups} :
    wordEdge.Offers (Place.between (Place.lastOf previous verb.toList) after) g
      (Place.between (Place.lastOf previous verb.toList) after) g := by
  have noWord : after.head?.any isWord = false := by
    cases first : after.head? with
    | none => rfl
    | some c => exact stop c first
  refine offers_test ?_
  show ((Place.lastOf previous verb.toList).any isWord != after.head?.any isWord) = true
  rw [any_lastOf_verb isVerb, noWord]
  rfl

/-- An export is read, whatever comes before it. -/
theorem matchAt?_of_exports {x : Export} (written : x.IsWritten) {after : Text}
    (stop : ∀ c, after.head? = some c → isWord c = false) (previous : Option Char) :
    ∃ m, exportedVerb.matchAt? (Place.between previous (x.text ++ after)) = some m ∧
      m.string 1 = x.verb ∧ m.last.rest = after := by
  obtain ⟨gap, async?, keyword, space, verb⟩ := x
  obtain ⟨⟨someGap, inGap⟩, async, isKeyword, ⟨someSpace, inSpace⟩, isVerb⟩ := written
  have apartKeywords : ∀ a ∈ exportKeywords, ∀ b ∈ exportKeywords,
      a.toList <+: b.toList → a = b := by decide
  have apartVerbs : ∀ a ∈ exportVerbs, ∀ b ∈ exportVerbs, a.toList <+: b.toList → a = b := by
    decide
  -- Each part is offered in front of the next.
  let inFront := space ++ (verb.toList ++ after)
  have export_ := offers_lit (g := []) previous (Text.of "export")
    (gap ++ (Export.asyncText async? ++ (keyword.toList ++ inFront)))
  have gap_ := offers_many (g := []) (Place.lastOf previous (Text.of "export")) inGap
    (not_isBlank_head? async? isKeyword inFront) (List.length_pos_of_ne_nil someGap)
  obtain ⟨before, async_⟩ := async_offers async isKeyword
    (Place.lastOf (Place.lastOf previous (Text.of "export")) gap) inFront []
  have keyword_ := offers_oneOf (g := []) apartKeywords isKeyword before inFront
  have space_ := offers_many (g := []) (Place.lastOf before keyword.toList) inSpace
    (not_isBlank_head?_verb isVerb after) (List.length_pos_of_ne_nil someSpace)
  have verb_ := (offers_oneOf (g := []) apartVerbs isVerb
    (Place.lastOf (Place.lastOf before keyword.toList) space) after).group (n := 1)
  have whole := (((((export_.seq gap_).seq async_).seq keyword_).seq space_).seq verb_).seq
    (edge_offers isVerb stop (Place.lastOf (Place.lastOf before keyword.toList) space))
  have split : Export.text ⟨gap, async?, keyword, space, verb⟩ ++ after = Text.of "export" ++
      (gap ++ (Export.asyncText async? ++ (keyword.toList ++ inFront))) := by
    simp only [Export.text, Export.tail, Text.of, List.append_assoc, inFront]
  rw [split]
  refine ⟨_, matchAt?_of_offers whole, ?_, rfl⟩
  show String.ofList (Place.upTo _ _) = verb
  rw [Place.upTo_eq rfl, String.ofList_toList]

end

/-! ## All exports -/

/-- An export starts with the only `e` in it. -/
theorem Export.IsWritten.exists_cons {x : Export} (written : x.IsWritten) :
    ∃ inner, x.text = 'e' :: inner ∧ 'e' ∉ inner := by
  have blank {gap : Text} (areBlanks : AreBlanks gap) : 'e' ∉ gap := fun member =>
    absurd (areBlanks.2 'e' member) (by decide)
  have async : 'e' ∉ asyncText x.async? := by
    cases gap : x.async? with
    | none => exact List.not_mem_nil
    | some gap' =>
      rw [asyncText, List.mem_append, not_or]
      exact ⟨by decide, blank (written.async gap' gap)⟩
  have keywords : ∀ keyword ∈ exportKeywords, 'e' ∉ Text.of keyword := by decide
  have verbs : ∀ verb ∈ exportVerbs, 'e' ∉ Text.of verb := by decide
  refine ⟨Text.of "xport" ++ x.tail, rfl, ?_⟩
  simp only [tail, List.mem_append, not_or]
  exact ⟨by decide, blank written.gap, async, keywords _ written.keyword, blank written.space,
    verbs _ written.verb⟩

/-- An export in a text that starts with one is this one, or starts after it. -/
theorem eq_or_suffix_of_exports {x : Export} (written : x.IsWritten) {after rest : Text}
    {verb : String} (below : rest <:+ x.text ++ after) (exports : Exports rest verb) :
    rest = x.text ++ after ∨ rest <:+ after := by
  obtain ⟨before, split⟩ := below
  rcases List.append_eq_append_iff.1 split with ⟨inner, whole, rfl⟩ | ⟨passed, -, rfl⟩
  · obtain ⟨later, starts, noE⟩ := written.exists_cons
    cases before with
    | nil => exact .inl (by rw [whole]; rfl)
    | cons c before =>
      refine .inr ?_
      cases inner with
      | nil => exact List.suffix_rfl
      | cons d inner =>
        -- The text from here on would start with an `e` within the export.
        obtain ⟨x', written', -, after', text, -⟩ := exports
        obtain ⟨later', starts', -⟩ := written'.exists_cons
        rw [starts'] at text
        obtain ⟨rfl, -⟩ := List.cons.inj text
        rw [starts] at whole
        refine absurd ?_ noE
        rw [(List.cons.inj whole).2]
        exact List.mem_append_right _ (.head _)
  · exact .inr (List.suffix_append ..)

/-- The exports in a text from left to right, each with the text from it on. -/
structure AreExports (text : Text) (exports : List (Text × String)) : Prop where
  mem : ∀ rest verb, (rest, verb) ∈ exports ↔ rest <:+ text ∧ Exports rest verb
  order : exports.Pairwise fun e e' => e'.1.length < e.1.length

theorem areExports_of_none {c : Char} {text : Text} {exports : List (Text × String)}
    (none : ∀ verb, ¬ Exports (c :: text) verb) (h : AreExports text exports) :
    AreExports (c :: text) exports where
  mem rest verb := by
    rw [h.mem, List.suffix_cons_iff, or_and_right]
    constructor
    · exact .inr
    · rintro (⟨rfl, here⟩ | later)
      · exact absurd here (none verb)
      · exact later
  order := h.order

/-- An export at the start of a text is read. -/
theorem exists_matchAt?_of_exports {text : Text} {verb : String} (exported : Exports text verb)
    (previous : Option Char) : ∃ m,
      exportedVerb.matchAt? (Place.between previous text) = some m ∧ m.string 1 = verb := by
  obtain ⟨x, written, rfl, after, rfl, stop⟩ := exported
  obtain ⟨m, found, verb, -⟩ := matchAt?_of_exports written stop previous
  exact ⟨m, found, verb⟩

/-- A text does not start with exports of two methods. -/
theorem eq_of_exports {text : Text} {verb other : String} (exported : Exports text verb)
    (exported' : Exports text other) : verb = other := by
  obtain ⟨m, found, rfl⟩ := exists_matchAt?_of_exports exported none
  obtain ⟨m', found', rfl⟩ := exists_matchAt?_of_exports exported' none
  rw [found] at found'
  cases found'
  rfl

theorem areExports_cons {x : Export} (written : x.IsWritten) {after : Text}
    (stop : ∀ c, after.head? = some c → isWord c = false) {exports : List (Text × String)}
    (h : AreExports after exports) :
    AreExports (x.text ++ after) ((x.text ++ after, x.verb) :: exports) := by
  have here : Exports (x.text ++ after) x.verb := ⟨x, written, rfl, after, rfl, stop⟩
  refine ⟨fun rest verb => ?_, List.pairwise_cons.2 ⟨fun e member => ?_, h.order⟩⟩
  · rw [List.mem_cons, h.mem, Prod.mk.injEq]
    constructor
    · rintro (⟨rfl, rfl⟩ | ⟨below, later⟩)
      · exact ⟨List.suffix_rfl, here⟩
      · exact ⟨below.trans (List.suffix_append ..), later⟩
    · rintro ⟨below, exported⟩
      rcases eq_or_suffix_of_exports written below exported with rfl | below
      · exact .inl ⟨rfl, eq_of_exports exported here⟩
      · exact .inr ⟨below, exported⟩
  · obtain ⟨inner, starts, -⟩ := written.exists_cons
    have below := ((h.mem e.1 e.2).1 member).1.length_le
    rw [starts, List.cons_append, List.length_cons, List.length_append]
    omega

theorem areExports_nil (none : ∀ verb, ¬ Exports [] verb) : AreExports [] [] where
  mem rest verb := by
    simp only [List.not_mem_nil, false_iff, List.suffix_nil]
    rintro ⟨rfl, exported⟩
    exact none verb exported
  order := .nil

/-- The search for exports finds them all. -/
theorem areExports_findAll (previous : Option Char) (text : Text) :
    AreExports text ((exportedVerb.findAll (Place.between previous text)).map fun m =>
      (m.first.rest, m.string 1)) := by
  induction size : text.length using Nat.strong_induction_on generalizing previous text with
  | h n ih =>
    cases here : exportedVerb.matchAt? (Place.between previous text) with
    | none =>
      have nothing (verb : String) : ¬ Exports text verb := by
        intro exported
        obtain ⟨m, found, -⟩ := exists_matchAt?_of_exports exported previous
        rw [here] at found
        cases found
      cases text with
      | nil =>
        rw [findAll_nil here]
        exact areExports_nil nothing
      | cons c rest =>
        rw [findAll_of_none here]
        exact areExports_of_none nothing (ih rest.length (by simp [← size]) (some c) rest rfl)
    | some m =>
      -- The search goes on behind the export, where the text is shorter.
      obtain ⟨x, written, verb, rest, stop⟩ := exports_of_matchAt? here
      have first : m.first = Place.between previous text := (matches_of_matchAt? here).2
      obtain ⟨inner, starts, -⟩ := written.exists_cons
      have shorter : m.last.rest.length < text.length := by
        rw [show text = x.text ++ m.last.rest from rest, starts, List.length_append]
        simp
      have later := ih _ (size ▸ shorter) m.last.previous m.last.rest rfl
      rw [← Place.eq_between] at later
      have found := findAll_of_matchAt? here (by rw [m.last.size_eq]; exact shorter)
      rw [found, List.map_cons, first, ← verb]
      change AreExports text ((text, x.verb) :: _)
      obtain rfl : text = x.text ++ m.last.rest := rest
      exact areExports_cons written stop later

/-! ## Methods -/

/-- A name comes first among different ones where the others have not come before. -/
theorem eraseDups_pairwise (names : List String) :
    names.eraseDups.Pairwise fun a b => ∃ pre post, names = pre ++ a :: post ∧ b ∉ pre := by
  match names with
  | [] => exact .nil
  | name :: rest =>
    rw [List.eraseDups_cons, List.pairwise_cons]
    refine ⟨fun b _ => ⟨[], rest, rfl, List.not_mem_nil⟩, ?_⟩
    have later := eraseDups_pairwise (rest.filter fun other => !other == name)
    refine later.imp_of_mem fun {a b} _ member => ?_
    rintro ⟨pre, post, split, fresh⟩
    have other : b ≠ name := by
      simpa using (List.mem_filter.1 (List.mem_eraseDups.1 member)).2
    obtain ⟨front, back, rfl, rfl, behind⟩ := List.filter_eq_append_iff.1 split
    obtain ⟨dropped, back, rfl, none, -, -⟩ := List.filter_eq_cons_iff.1 behind
    refine ⟨name :: (front ++ dropped), back, by simp, ?_⟩
    simp only [List.mem_cons, List.mem_append, not_or]
    refine ⟨other, fun inFront => ?_, fun isDropped => ?_⟩
    · exact fresh (List.mem_filter.2 ⟨inFront, by simpa using other⟩)
    · exact none b isDropped (by simpa using other)
termination_by names.length
decreasing_by exact Nat.lt_succ_of_le (List.length_filter_le ..)

/-- The methods that a text exports, each once: one of which no other is exported before it. -/
structure AreExported (text : Text) (methods : List String) : Prop where
  nodup : methods.Nodup
  mem : ∀ verb, verb ∈ methods ↔ ∃ rest, rest <:+ text ∧ Exports rest verb
  order : methods.Pairwise fun verb later => ∃ rest, rest <:+ text ∧ Exports rest verb ∧
    ∀ rest', rest' <:+ text → Exports rest' later → rest'.length < rest.length

/-- The methods that a file of handlers serves: those that it exports, or GET if there is none. -/
def AreServed (text : Text) (methods : List String) : Prop :=
  ∃ exported, AreExported text exported ∧
    methods = if exported = [] then ["GET"] else exported

theorem AreExports.areExported {text : Text} {exports : List (Text × String)}
    (h : AreExports text exports) : AreExported text (exports.map (·.2)).eraseDups where
  nodup := nodup_eraseDups _
  mem verb := by
    simp only [List.mem_eraseDups, List.mem_map, Prod.exists, exists_eq_right, h.mem]
  order := by
    have firsts := (nodup_eraseDups _).and (eraseDups_pairwise (exports.map (·.2)))
    refine firsts.imp fun {verb later} => ?_
    rintro ⟨differ, pre, post, split, fresh⟩
    obtain ⟨before, from_, rfl, rfl, behind⟩ := List.map_eq_append_iff.1 split
    obtain ⟨⟨rest, verb⟩, after, rfl, rfl, rfl⟩ := List.map_eq_cons_iff.1 behind
    obtain ⟨below, exported⟩ := (h.mem rest verb).1 (by simp)
    refine ⟨rest, below, exported, fun rest' below' exported' => ?_⟩
    rcases List.mem_append.1 ((h.mem rest' later).2 ⟨below', exported'⟩) with earlier | here
    · exact absurd (List.mem_map_of_mem (f := (·.2)) earlier) fresh
    · rcases List.mem_cons.1 here with same | inAfter
      · exact absurd (congrArg (·.2) same).symm differ
      · exact (List.pairwise_cons.1 (List.pairwise_append.1 h.order).2.1).1 _ inAfter

theorem unique_names_exportedVerb (text : Text) :
    ∃ exports, AreExports text exports ∧
      unique (exportedVerb.names 1 text) = (exports.map (·.2)).eraseDups := by
  have found := areExports_findAll none text
  refine ⟨_, found, ?_⟩
  have names : exportedVerb.names 1 text = ((exportedVerb.all text).map fun m =>
      (m.first.rest, m.string 1)).map (·.2) := by
    rw [List.map_map]
    rfl
  have full : ∀ name ∈ exportedVerb.names 1 text, (!name.isEmpty) = true := by
    intro name member
    rw [names] at member
    obtain ⟨⟨rest, verb⟩, isExport, rfl⟩ := List.mem_map.1 member
    obtain ⟨x, written, rfl, -⟩ := ((found.mem rest verb).1 isExport).2
    have nonempty : ∀ verb ∈ exportVerbs, (!verb.isEmpty) = true := by decide
    exact nonempty _ written.verb
  rw [unique, List.filter_eq_self.2 full, names]
  rfl

/-- A file that cannot be read is served like one that exports nothing. -/
theorem areServed_handlerMethods (text? : Option Text) :
    AreServed (text?.getD []) (handlerMethods text?) := by
  cases text? with
  | none =>
    have nothing : AreExported [] [] := by
      obtain ⟨exports, found, same⟩ := unique_names_exportedVerb []
      have areExported := found.areExported
      rwa [← same, show unique (exportedVerb.names 1 []) = [] by decide] at areExported
    exact ⟨[], nothing, rfl⟩
  | some text =>
    obtain ⟨exports, found, same⟩ := unique_names_exportedVerb text
    refine ⟨_, found.areExported, ?_⟩
    rw [handlerMethods, ← same]
    simp only [List.isEmpty_iff]

theorem AreServed.ne_nil {text : Text} {methods : List String} (h : AreServed text methods) :
    methods ≠ [] := by
  obtain ⟨exported, -, rfl⟩ := h
  split
  · exact List.cons_ne_nil _ _
  · assumption

theorem AreServed.nodup {text : Text} {methods : List String} (h : AreServed text methods) :
    methods.Nodup := by
  obtain ⟨exported, areExported, rfl⟩ := h
  split
  · exact List.nodup_singleton _
  · exact areExported.nodup

end CodeSurvey.Routes
