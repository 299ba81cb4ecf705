import CodeSurvey.Proofs.Attributes
import Mathlib.Data.List.Forall2

/-!
# Bodies of Python classes

A class lists its attributes, and its methods follow (`ClassBody`). Of such a body the lines at the
level of the class are kept, which are the attributes and lines that open methods: the bodies of the
methods are indented deeper, and texts between triple quotes change neither
(`ClassBody.exists_topLevelLines`). So the fields that are read are those of the attributes
(`Models.annotatedFields_lines`).
-/

namespace CodeSurvey

open Pattern (isQuote)

/-! ## Lines by their indentation -/

section
variable {indent text s t t' line : Text} {q c : Char}

theorem takeWhile_append_visible (visible : isBlank c = false) (s t : Text) :
    (s ++ c :: t).takeWhile isBlank = s.takeWhile isBlank := by
  induction s with
  | nil => exact List.takeWhile_cons_of_neg (by simp [visible])
  | cons c' s ih =>
    rw [List.cons_append, List.takeWhile_cons, List.takeWhile_cons, ih]

theorem indent_append_visible (visible : isBlank c = false) (s t : Text) :
    (s ++ c :: t).indent = s.indent := by
  rw [Text.indent, takeWhile_append_visible visible, Text.indent]

theorem indent_le_append (s t : Text) : s.indent ≤ (s ++ t).indent := by
  induction s with
  | nil => exact Nat.zero_le _
  | cons c s ih =>
    rw [Text.indent, Text.indent, List.cons_append, List.takeWhile_cons, List.takeWhile_cons]
    split
    · exact Nat.succ_le_succ ih
    · exact le_rfl

theorem isBlankText_append_visible (visible : isBlank c = false) (s t : Text) :
    (s ++ c :: t).isBlankText = false := by
  simp [Text.isBlankText, visible]

theorem isBlank_of_isQuote (quote : isQuote q = true) : isBlank q = false := by
  simp only [isQuote, Bool.or_eq_true, beq_iff_eq] at quote
  rcases quote with rfl | rfl <;> rfl

/-- What starts at an indentation is indented so far. -/
theorem IsIndent.append_startsLine (isIndent : IsIndent indent) (starts : StartsLine text) :
    (indent ++ text).indent = indent.length ∧ (indent ++ text).isBlankText = false := by
  obtain ⟨c, rest, rfl, visible, -⟩ := starts.exists_cons
  have all : indent.takeWhile isBlank = indent :=
    List.takeWhile_eq_self_iff.2 fun c member => isBlank_of_isSpace (isIndent.2 c member)
  rw [indent_append_visible visible, Text.indent, all]
  exact ⟨rfl, isBlankText_append_visible visible indent rest⟩

/-- Whether a line opens a method at an indentation. -/
def OpensAt (indent line : Text) : Prop := ∃ text, line = indent ++ text ∧ OpensMethod text

theorem exists_openings {lines : List Text} (each : ∀ line ∈ lines, OpensAt indent line) :
    ∃ openings : List Text, lines = openings.map (indent ++ ·) ∧
      ∀ text ∈ openings, OpensMethod text := by
  induction lines with
  | nil => exact ⟨[], rfl, List.forall_mem_nil _⟩
  | cons line lines ih =>
    obtain ⟨⟨text, rfl, opens⟩, others⟩ := List.forall_mem_cons.1 each
    obtain ⟨openings, rfl, opens'⟩ := ih others
    exact ⟨text :: openings, rfl, List.forall_mem_cons.2 ⟨opens, opens'⟩⟩

/-- Whether a line is blank, indented deeper than the class level or opens a method there. -/
def IsMethodLine (indent line : Text) : Prop :=
  line.isBlankText = true ∨ indent.length < line.indent ∨ OpensAt indent line

theorem append_of_quote (quote : isQuote q = true) (same : s ++ q :: t = text ++ t')
    (quoteless : ∀ c ∈ text, isQuote c = false) : ∃ s', s = text ++ s' ∧ t' = s' ++ q :: t := by
  have outside : q ∉ text := by
    intro member
    rw [quoteless q member] at quote
    cases quote
  obtain ⟨s', rfl⟩ := Text.prefix_of_not_mem outside (same ▸ List.prefix_append text t')
  rw [List.append_assoc] at same
  exact ⟨s', rfl, (List.append_cancel_left same).symm⟩

theorem OpensMethod.cut (quote : isQuote q = true) (h : OpensMethod (s ++ q :: t)) (t' : Text) :
    OpensMethod (s ++ t') := by
  generalize same : s ++ q :: t = text at h
  cases h with
  | @mark c rest visible noWord other =>
    cases s with
    | nil =>
      obtain ⟨rfl, -⟩ := List.cons.inj same
      simp only [isQuote, Bool.or_eq_true, beq_iff_eq] at quote
      rcases quote with rfl | rfl <;> exact absurd other (by decide)
    | cons c' s =>
      obtain ⟨rfl, -⟩ := List.cons.inj same
      exact .mark visible noWord other
  | @words first gap second rest isName isGap some isName' =>
    have quoteless {name : Text} (isName : IsName name) : ∀ c ∈ name, isQuote c = false :=
      fun c member => isQuote_of_apart (by decide) (isName.2 c member)
    obtain ⟨s, rfl, afterName⟩ := append_of_quote quote same (quoteless isName)
    obtain ⟨s, rfl, afterGap⟩ := append_of_quote quote afterName.symm fun c member =>
      isQuote_of_apart ⟨rfl, rfl⟩ (isGap.isBlank c member)
    obtain ⟨s, rfl, -⟩ := append_of_quote quote afterGap.symm (quoteless isName')
    simp only [List.append_assoc]
    exact .words isName isGap some isName'

/-- What opens a method does so whatever follows a quote in the line. -/
theorem OpensAt.cut (isIndent : IsIndent indent) (quote : isQuote q = true)
    (h : OpensAt indent (s ++ q :: t)) (t' : Text) : OpensAt indent (s ++ t') := by
  obtain ⟨text, same, opens⟩ := h
  have quoteless : ∀ c ∈ indent, isQuote c = false :=
    fun c member => isQuote_of_apart ⟨rfl, rfl⟩ (isIndent.2 c member)
  obtain ⟨s', rfl, rfl⟩ := append_of_quote quote same quoteless
  exact ⟨s' ++ t', List.append_assoc _ _ _, opens.cut quote t'⟩

theorem IsMethodLine.cut (isIndent : IsIndent indent) (quote : isQuote q = true)
    (h : IsMethodLine indent (s ++ q :: t)) (t' : Text) : IsMethodLine indent (s ++ t') := by
  have visible := isBlank_of_isQuote quote
  rcases h with blank | deeper | opens
  · rw [isBlankText_append_visible visible] at blank
    cases blank
  · rw [indent_append_visible visible] at deeper
    exact .inr (.inl (deeper.trans_le (indent_le_append s t')))
  · exact .inr (.inr (opens.cut isIndent quote t'))

end

/-! ## Bodies -/

/-- A method: what stands in the line that opens it after the indentation, and the lines below. -/
structure PythonMethod where
  opening : Text
  body : List Text
  opens : OpensMethod opening

/-- The body of a class: attributes in lines of their own, with blank lines anywhere between them,
and methods with bodies that are indented deeper. -/
structure ClassBody where
  indent : Text
  attributes : List PythonAttribute
  listing : List Text
  methods : List PythonMethod
  isIndent : IsIndent indent
  listed : listing.filter (!·.isBlankText) = attributes.map (indent ++ ·.text)
  deeper : ∀ f ∈ methods, ∀ line ∈ f.body, line.isBlankText = true ∨ indent.length < line.indent

namespace ClassBody

variable (b : ClassBody)

def methodLines : List Text := b.methods.flatMap fun f => (b.indent ++ f.opening) :: f.body

def lines : List Text := b.listing ++ b.methodLines

theorem attribute_of_mem {line : Text} (member : line ∈ b.listing)
    (visible : line.isBlankText = false) : ∃ a ∈ b.attributes, line = b.indent ++ a.text := by
  have kept : line ∈ b.listing.filter (!·.isBlankText) :=
    List.mem_filter.2 ⟨member, by simp [visible]⟩
  rw [b.listed] at kept
  obtain ⟨a, inList, rfl⟩ := List.mem_map.1 kept
  exact ⟨a, inList, rfl⟩

theorem indent_attribute (a : PythonAttribute) : (b.indent ++ a.text).indent = b.indent.length ∧
    (b.indent ++ a.text).isBlankText = false :=
  b.isIndent.append_startsLine a.startsLine

theorem quoteless_of_mem {line : Text} (member : line ∈ b.listing) :
    ∀ c ∈ line, isQuote c = false := by
  cases visible : line.isBlankText with
  | true =>
    intro c inLine
    exact isQuote_of_apart ⟨rfl, rfl⟩ (List.all_eq_true.1 visible c inLine)
  | false =>
    obtain ⟨a, -, rfl⟩ := b.attribute_of_mem member visible
    refine List.forall_mem_append.2 ⟨fun c inLine => ?_, fun c inLine => (a.text_clean c inLine).2⟩
    exact isQuote_of_apart ⟨rfl, rfl⟩ (b.isIndent.2 c inLine)

theorem isMethodLine_of_mem {line : Text} (member : line ∈ b.methodLines) :
    IsMethodLine b.indent line := by
  obtain ⟨f, inMethods, member⟩ := List.mem_flatMap.1 member
  rcases List.mem_cons.1 member with rfl | inBody
  · exact .inr (.inr ⟨f.opening, rfl, f.opens⟩)
  · rcases b.deeper f inMethods line inBody with blank | deeper
    · exact .inl blank
    · exact .inr (.inl deeper)

/-- The lines of methods start with a line that opens one. -/
theorem methodLines_eq : b.methodLines = [] ∨
    ∃ line rest, b.methodLines = line :: rest ∧ OpensAt b.indent line := by
  unfold methodLines
  cases b.methods with
  | nil => exact .inl rfl
  | cons f methods => exact .inr ⟨_, _, rfl, f.opening, rfl, f.opens⟩

theorem indent_of_opensAt {line : Text} (h : OpensAt b.indent line) :
    line.indent = b.indent.length ∧ line.isBlankText = false := by
  obtain ⟨text, rfl, opens⟩ := h
  exact b.isIndent.append_startsLine opens.startsLine

theorem le_indent_of_isMethodLine {line : Text} (h : IsMethodLine b.indent line) :
    line.isBlankText = true ∨ b.indent.length ≤ line.indent := by
  rcases h with blank | deeper | opens
  · exact .inl blank
  · exact .inr deeper.le
  · exact .inr (b.indent_of_opensAt opens).1.ge

/-- All lines of a class are in its block. -/
theorem blockLines_lines {others : List Text}
    (ends : ∀ line, others.head? = some line → line.isBlankText = false ∧ line.indent = 0) :
    blockLines (b.lines ++ others) = b.lines := by
  have margin : b.indent.length ≠ 0 := (List.length_pos_iff.2 b.isIndent.1).ne'
  refine blockLines_append margin (fun line first => ?_) (fun line member => ?_) ends
  · obtain ⟨visible, -⟩ := List.find?_eq_some_iff_append.1 first
    have visible : line.isBlankText = false := by simpa using visible
    rw [lines, List.find?_append] at first
    cases listed : b.listing.find? (!·.isBlankText) with
    | some line' =>
      rw [listed] at first
      cases first
      obtain ⟨a, -, rfl⟩ := b.attribute_of_mem (List.mem_of_find?_eq_some listed) visible
      exact (b.indent_attribute a).1
    | none =>
      rw [listed, Option.none_or] at first
      rcases b.methodLines_eq with none | ⟨line', rest, same, opens⟩
      · rw [none] at first
        cases first
      · obtain ⟨level, visible'⟩ := b.indent_of_opensAt opens
        rw [same, List.find?_cons_of_pos (by simp [visible'])] at first
        cases first
        exact level
  · rcases List.mem_append.1 member with inList | inMethods
    · cases visible : line.isBlankText with
      | true => exact .inl rfl
      | false =>
        obtain ⟨a, -, rfl⟩ := b.attribute_of_mem inList visible
        exact .inr (b.indent_attribute a).1.ge
    · exact b.le_indent_of_isMethodLine (b.isMethodLine_of_mem inMethods)

/-- The lines at the level of the class are those that are indented least. -/
theorem min?_indent {after : List Text} (cuts : Cuts [] b.methodLines [] after)
    (inMethods : ∀ line ∈ after, IsMethodLine b.indent line)
    (some : b.attributes.map (b.indent ++ ·.text) ++ after.filter (!·.isBlankText) ≠ []) :
    ((b.attributes.map (b.indent ++ ·.text) ++ after.filter (!·.isBlankText)).map
      Text.indent).min? = .some b.indent.length := by
  rw [List.min?_eq_some_iff]
  constructor
  · refine List.mem_map.2 ?_
    cases attributes : b.attributes with
    | cons a attributes => exact ⟨_, .head _, (b.indent_attribute a).1⟩
    | nil =>
      rcases b.methodLines_eq with none | ⟨line, rest, same, opens⟩
      · rw [none] at cuts
        cases cuts
        rw [attributes] at some
        exact absurd rfl some
      · rw [same] at cuts
        cases cuts with
        | @next _ line' _ lines' later =>
          have opens' : OpensAt b.indent line' :=
            (later.forall_mem fun s q t t' quote (h : OpensAt b.indent (s ++ q :: t)) =>
              h.cut b.isIndent quote t').1 [] opens
          obtain ⟨level, visible⟩ := b.indent_of_opensAt opens'
          exact ⟨line', List.mem_filter.2 ⟨.head _, by simp [visible]⟩, level⟩
  · intro n member
    obtain ⟨line, inLines, rfl⟩ := List.mem_map.1 member
    rcases List.mem_append.1 inLines with member | member
    · obtain ⟨a, -, rfl⟩ := List.mem_map.1 member
      exact (b.indent_attribute a).1.ge
    · obtain ⟨inAfter, visible⟩ := List.mem_filter.1 member
      rcases b.le_indent_of_isMethodLine (inMethods line inAfter) with blank | level
      · rw [blank] at visible
        cases visible
      · exact level

/-- The lines at the level of the class are the attributes and lines that open methods. -/
theorem exists_topLevelLines (clean : ∀ line ∈ b.lines, ∀ c ∈ line, endsLine c = false) :
    ∃ openings : List Text, topLevelLines (joinedLines b.lines) = joinedLines
        (b.attributes.map (b.indent ++ ·.text) ++ openings.map (b.indent ++ ·)) ∧
      ∀ text ∈ openings, OpensMethod text ∧ '\n' ∉ text := by
  obtain ⟨lines', erased, cuts⟩ := exists_erase_docString b.lines
  have clean' : ∀ line ∈ lines', ∀ c ∈ line, endsLine c = false :=
    (List.forall_mem_cons.1 (cuts.clean (List.forall_mem_cons.2 ⟨List.forall_mem_nil _, clean⟩))).2
  obtain ⟨after, rfl, below⟩ := cuts.exists_append fun line => b.quoteless_of_mem
  have inMethods : ∀ line ∈ after, IsMethodLine b.indent line :=
    (below.forall_mem fun s q t t' quote (h : IsMethodLine b.indent (s ++ q :: t)) =>
      h.cut b.isIndent quote t').2 fun line => b.isMethodLine_of_mem
  let level := b.attributes.map (b.indent ++ ·.text)
  let kept := after.filter (!·.isBlankText)
  have visible : (docString.erase (joinedLines b.lines)).lines.filter (!·.isBlankText) =
      level ++ kept := by
    rw [erased, filter_lines_joinedLines clean', List.filter_append, b.listed]
  have least : ((level ++ kept).map Text.indent).min? =
      if level ++ kept = [] then none else some b.indent.length := by
    split
    · next empty => rw [empty]; rfl
    · next nonempty => exact b.min?_indent below inMethods nonempty
  have all : level.filter (·.indent == b.indent.length) = level := by
    refine List.filter_eq_self.2 fun line member => ?_
    obtain ⟨a, -, rfl⟩ := List.mem_map.1 member
    simpa using (b.indent_attribute a).1
  have opens : ∀ line ∈ kept.filter (·.indent == b.indent.length), OpensAt b.indent line := by
    intro line member
    obtain ⟨inKept, atLevel⟩ := List.mem_filter.1 member
    obtain ⟨inAfter, notBlank⟩ := List.mem_filter.1 inKept
    rcases inMethods line inAfter with blank | deeper | opens
    · rw [blank] at notBlank
      cases notBlank
    · rw [beq_iff_eq.1 atLevel] at deeper
      exact absurd deeper (lt_irrefl _)
    · exact opens
  obtain ⟨openings, same, opens⟩ := exists_openings opens
  have clean'' : ∀ text ∈ openings, '\n' ∉ text := by
    intro text member lineFeed
    have inKept : b.indent ++ text ∈ kept.filter (·.indent == b.indent.length) := by
      rw [same]
      exact List.mem_map_of_mem member
    have inAfter := (List.mem_filter.1 (List.mem_filter.1 inKept).1).1
    have noEnd := clean' _ (List.mem_append_right _ inAfter) '\n' (List.mem_append_right _ lineFeed)
    cases noEnd
  refine ⟨openings, ?_, fun text member => ⟨opens text member, clean'' text member⟩⟩
  have split : (level ++ kept).filter (·.indent == b.indent.length) =
      level ++ openings.map (b.indent ++ ·) := by
    rw [List.filter_append, all, same]
  unfold topLevelLines
  simp only [visible, least]
  by_cases empty : level ++ kept = []
  · rw [← split, empty]
    rfl
  · rw [if_neg empty]
    exact congrArg joinedLines split

end ClassBody

/-! ## Fields -/

namespace Models

/-- Whether a field is what is read from an attribute: its name and the front of its annotation,
which is all of it exactly if subscripts are not nested in it. -/
def Declares (a : PythonAttribute) (f : Field) : Prop :=
  f.name = String.ofList a.name ∧ f.type.toList <+: a.annotation ∧
    (f.type = String.ofList a.annotation ↔ a.depth ≤ 1)

/-- The field that an attribute declares. -/
def declared (a : PythonAttribute) : Field := ⟨String.ofList a.name, String.ofList a.annotation⟩

/-- The fields that are read are those declared exactly if no subscripts are nested. -/
theorem eq_declared_iff {attributes : List PythonAttribute} {fields : List Field}
    (h : List.Forall₂ Declares attributes fields) :
    fields = attributes.map declared ↔ ∀ a ∈ attributes, a.depth ≤ 1 := by
  induction h with
  | nil => simp
  | @cons a f attributes fields here later ih =>
    obtain ⟨name, -, type⟩ := here
    have same : f = declared a ↔ a.depth ≤ 1 := by
      rw [← type]
      constructor
      · rintro rfl
        rfl
      · intro all
        rw [declared, ← name, ← all]
    rw [List.map_cons, List.cons.injEq, List.forall_mem_cons, same, ih]

theorem declares_of_readAs {a : PythonAttribute} {m : Match} (h : ReadAs a m) :
    Declares a ⟨m.string 1, String.ofList (m.group 2).trim⟩ := by
  obtain ⟨name, inFront, whole⟩ := h
  have trimmed : (m.group 2).trim <+: m.group 2 := by
    obtain ⟨c, rest, starts, visible⟩ := a.isAnnotation.starts
    cases recorded : m.group 2 with
    | nil => exact List.prefix_rfl
    | cons c' type =>
      rw [recorded, starts] at inFront
      obtain ⟨rfl, -⟩ := List.cons_prefix_cons.1 inFront
      obtain ⟨core, after, same, rfl, -⟩ := Text.exists_trimBy_cons visible type
      rw [Text.trim, same]
      exact ⟨after, rfl⟩
  refine ⟨congrArg String.ofList name, ?_, ?_⟩
  · rw [String.toList_ofList]
    exact trimmed.trans inFront
  · rw [String.ofList_inj, ← whole]
    constructor
    · intro all
      rw [all] at trimmed
      exact inFront.eq_of_length_le trimmed.length_le
    · intro all
      rw [all, a.isAnnotation.trim_eq]

/-- From the body of a class the attributes are read, up to the number of fields that are reported,
and nothing else. -/
theorem annotatedFields_lines (b : ClassBody)
    (clean : ∀ line ∈ b.lines, ∀ c ∈ line, endsLine c = false) :
    List.Forall₂ Declares (b.attributes.take maxFields)
      (annotatedFields (joinedLines b.lines)) := by
  obtain ⟨openings, same, opens⟩ := b.exists_topLevelLines clean
  have all := all_attributes b.isIndent b.attributes opens
  rw [annotatedFields, same]
  refine List.forall₂_take maxFields (List.forall₂_map_right_iff.2 (all.imp fun a m readAs => ?_))
  exact declares_of_readAs readAs

end Models

end CodeSurvey
