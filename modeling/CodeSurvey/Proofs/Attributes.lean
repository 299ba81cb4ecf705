import CodeSurvey.Proofs.Annotations
import CodeSurvey.Proofs.Blocks

/-!
# Attributes of Python classes

The lines of a class at its own level are attributes with annotations and lines that open methods.
Each attribute gives one reading, with its name and the front of its annotation, which is all of it
exactly if subscripts are not nested in it (`Models.exists_matchAt?_attribute`); no other reading
starts in such a line. So the readings in the lines are those of the attributes
(`Models.all_attributes`).
-/

namespace CodeSurvey

/-- A default value or a comment at the end of a line, without strings. -/
def IsValue (text : Text) : Prop :=
  (∀ c, text.head? = some c → c = '=' ∨ c = '#') ∧
    ∀ c ∈ text, endsLine c = false ∧ Pattern.isQuote c = false

/-- An attribute with its annotation and what follows in the line. -/
structure PythonAttribute where
  name : Text
  gap : Text
  gap' : Text
  depth : Nat
  annotation : Text
  gap'' : Text
  value : Text
  isName : IsName name
  isGap : IsGap gap
  isGap' : IsGap gap'
  isAnnotation : IsAnnotation .one depth annotation
  isGap'' : IsGap gap''
  isValue : IsValue value

/-- What stands in the line of an attribute after the indentation. -/
def PythonAttribute.text (a : PythonAttribute) : Text :=
  a.name ++ (a.gap ++ ':' :: (a.gap' ++ (a.annotation ++ (a.gap'' ++ a.value))))

/-- Whether a line opens a method after the indentation: with a mark, as a decorator or the end of
a list of parameters, or with two words. -/
inductive OpensMethod : Text → Prop where
  | mark {c : Char} {rest : Text} (visible : isBlank c = false) (noWord : isWord c = false)
      (other : c ∉ ['|', '"', '\'']) : OpensMethod (c :: rest)
  | words {first gap second rest : Text} (isName : IsName first) (isGap : IsGap gap)
      (some : gap ≠ []) (isName' : IsName second) :
      OpensMethod (first ++ (gap ++ (second ++ rest)))

/-- The indentation of lines: spaces and tabs. -/
def IsIndent (text : Text) : Prop := text ≠ [] ∧ ∀ c ∈ text, Pattern.isSpace c = true

instance : DecidablePred IsIndent := fun text =>
  inferInstanceAs (Decidable (text ≠ [] ∧ ∀ c ∈ text, Pattern.isSpace c = true))

/-- Whether a text starts with a visible character by which no annotation goes on. -/
def StartsLine (text : Text) : Prop :=
  ∃ c, text.head? = some c ∧ isBlank c = false ∧ c ≠ '|'

theorem StartsLine.exists_cons {text : Text} (h : StartsLine text) :
    ∃ c rest, text = c :: rest ∧ isBlank c = false ∧ c ≠ '|' := by
  obtain ⟨c, first, starts⟩ := h
  obtain ⟨rest, same⟩ := List.head?_eq_some_iff.1 first
  exact ⟨c, rest, same, starts⟩

theorem startsLine_of_isName {name : Text} (isName : IsName name) (rest : Text) :
    StartsLine (name ++ rest) := by
  obtain ⟨c, name, rfl⟩ := List.exists_cons_of_ne_nil isName.1
  have word := isName.2 c (.head _)
  refine ⟨c, rfl, isBlank_of_isWord word, ?_⟩
  rintro rfl
  exact absurd word (by decide)

theorem PythonAttribute.startsLine (a : PythonAttribute) : StartsLine a.text :=
  startsLine_of_isName a.isName _

theorem OpensMethod.startsLine {text : Text} (h : OpensMethod text) : StartsLine text := by
  cases h with
  | @mark c rest visible noWord other =>
    refine ⟨c, rfl, visible, ?_⟩
    rintro rfl
    exact other (.head _)
  | words isName isGap some isName' => exact startsLine_of_isName isName _

theorem isBlank_of_isSpace {c : Char} (space : Pattern.isSpace c = true) : isBlank c = true := by
  simp only [Pattern.isSpace, Bool.or_eq_true, beq_iff_eq] at space
  rcases space with rfl | rfl <;> rfl

theorem isSpace_of_visible {c : Char} (visible : isBlank c = false) :
    Pattern.isSpace c = false := by
  rw [← Bool.not_eq_true]
  intro space
  rw [isBlank_of_isSpace space] at visible
  cases visible

theorem isSpace_of_isName {name : Text} (isName : IsName name) (rest : Text) :
    ∀ c, (name ++ rest).head? = some c → Pattern.isSpace c = false := by
  intro c first
  obtain ⟨c', first', visible, -⟩ := startsLine_of_isName isName rest
  rw [first] at first'
  cases first'
  exact isSpace_of_visible visible

/-- A class of characters without quotes. -/
theorem isQuote_of_apart {ok : Char → Bool} (none : ok '\'' = false ∧ ok '"' = false) {c : Char}
    (inClass : ok c = true) : Pattern.isQuote c = false := by
  rw [← Bool.not_eq_true]
  intro quotes
  simp only [Pattern.isQuote, Bool.or_eq_true, beq_iff_eq] at quotes
  rcases quotes with rfl | rfl
  · rw [none.1] at inClass
    cases inClass
  · rw [none.2] at inClass
    cases inClass

theorem PythonAttribute.text_clean (a : PythonAttribute) :
    ∀ c ∈ a.text, endsLine c = false ∧ Pattern.isQuote c = false := by
  have gap {gap : Text} (isGap : IsGap gap) :
      ∀ c ∈ gap, endsLine c = false ∧ Pattern.isQuote c = false :=
    fun c member => ⟨(isGap c member).2, isQuote_of_apart ⟨rfl, rfl⟩ (isGap.isBlank c member)⟩
  have name : ∀ c ∈ a.name, endsLine c = false ∧ Pattern.isQuote c = false := by
    intro c member
    have word := a.isName.2 c member
    exact ⟨endsLine_of_isBlank_eq_false (isBlank_of_isWord word),
      isQuote_of_apart (by decide) word⟩
  have annotation : ∀ c ∈ a.annotation, endsLine c = false ∧ Pattern.isQuote c = false := by
    intro c member
    have ok := a.isAnnotation.forall_mem c member
    exact ⟨endsLine_of_isAnnotationChar ok, isQuote_of_apart (by decide) ok⟩
  simp only [PythonAttribute.text, List.forall_mem_append, List.forall_mem_cons]
  exact ⟨name, gap a.isGap, by decide, gap a.isGap', annotation, gap a.isGap'', a.isValue.2⟩

namespace Models

open Pattern Place

variable {indent : Text} {previous : Option Char} {p : Place}

/-! ## One line -/

/-- What an attribute is read by, up to its annotation. -/
def attributeHead : Pattern :=
  lineStart ++ some1 isSpace ++ group 1 word ++ blanks ++ ":" ++ blanks

/-- What is read as an attribute: the indentation, the name, a colon and an annotation, with gaps
around the colon. -/
theorem exists_of_reads_attribute {t : Text} {rec : List (Nat × Text)}
    (reads : annotatedAttribute.Reads t rec) : ∃ spaces name gap gap' type,
      t = spaces ++ (name ++ (gap ++ ':' :: (gap' ++ type))) ∧ IsIndent spaces ∧ IsName name ∧
      (∀ c ∈ gap, isBlank c = true) ∧ (∀ c ∈ gap', isBlank c = true) ∧
      (∃ rec, annotationParts.Reads type rec) ∧
      rec.lookup 1 = some name ∧ rec.lookup 2 = some type := by
  obtain ⟨_, _, _, _, head, type, rfl, rfl⟩ := reads_seq_iff.1 reads
  obtain ⟨_, _, _, _, upToColon, gap', rfl, rfl⟩ := reads_seq_iff.1 head
  obtain ⟨_, _, _, _, upToGap, colon, rfl, rfl⟩ := reads_seq_iff.1 upToColon
  obtain ⟨_, _, _, _, upToName, gap, rfl, rfl⟩ := reads_seq_iff.1 upToGap
  obtain ⟨_, _, _, _, indented, name, rfl, rfl⟩ := reads_seq_iff.1 upToName
  obtain ⟨_, _, _, _, start, spaces, rfl, rfl⟩ := reads_seq_iff.1 indented
  obtain ⟨_, named, rfl⟩ := reads_group_iff.1 name
  obtain ⟨_, parts, rfl⟩ := reads_group_iff.1 type
  obtain ⟨all, some, rfl⟩ := reads_many_iff.1 spaces
  obtain ⟨inName, some', rfl⟩ := reads_many_iff.1 named
  obtain ⟨blank, -, rfl⟩ := reads_many_iff.1 gap
  obtain ⟨blank', -, rfl⟩ := reads_many_iff.1 gap'
  cases start
  cases colon
  have silent := parts.lookup_eq_none (n := 1) rfl
  refine ⟨_, _, _, _, _, ?_, ⟨List.length_pos_iff.1 some, all⟩,
    ⟨List.length_pos_iff.1 some', inName⟩, blank, blank', ⟨_, parts⟩, ?_, rfl⟩
  · simp
  · rw [List.cons_append, List.lookup_cons, List.lookup_append, silent]
    rfl

/-- Whether a match recorded the name of an attribute and the front of its annotation, which is all
of it exactly if subscripts are not nested in it. -/
def ReadAs (a : PythonAttribute) (m : Match) : Prop :=
  m.group 1 = a.name ∧ m.group 2 <+: a.annotation ∧ (m.group 2 = a.annotation ↔ a.depth ≤ 1)

theorem isLineStart_iff : isLineStart p = true ↔ ∀ c, p.previous = some c → c = '\n' := by
  unfold isLineStart
  cases p.previous with
  | none => simp
  | some c => simp

/-- Inside a line no attribute is read. -/
theorem matchAt?_attribute_inside {c : Char} (inside : c ≠ '\n') (before : p.previous = some c) :
    annotatedAttribute.matchAt? p = none := by
  have noStart : isLineStart p = false := by
    rw [← Bool.not_eq_true, isLineStart_iff]
    exact fun starts => inside (starts c before)
  have refuses : lineStart.Refuses p [] := by
    intro α accept
    show (if isLineStart p = true then accept p [] else none) = none
    rw [noStart]
    rfl
  exact matchAt?_of_refuses ((((((refuses.seq _).seq _).seq _).seq _).seq _).seq _)

/-- What follows the line of an attribute: nothing, or lines that go on with no annotation. -/
def IsBelow (rest : Text) : Prop :=
  (∀ c, rest.head? = some c → c = '\n') ∧ (rest.dropWhile isBlank).head? ≠ some '|'

theorem isBelow_below {lines : List Text}
    (starts : ∀ line ∈ lines, ∃ text, line = indent ++ text ∧ StartsLine text)
    (isIndent : IsIndent indent) : IsBelow (below lines) := by
  cases lines with
  | nil => exact ⟨nofun, nofun⟩
  | cons line lines =>
    obtain ⟨text, rfl, startsLine⟩ := starts line (.head _)
    obtain ⟨c, rest, rfl, visible, noBar⟩ := startsLine.exists_cons
    refine ⟨by rintro c ⟨⟩; rfl, ?_⟩
    have blank : ∀ c ∈ '\n' :: indent, isBlank c = true :=
      List.forall_mem_cons.2 ⟨rfl, fun c member => isBlank_of_isSpace (isIndent.2 c member)⟩
    rw [below_cons, joinedLines_cons, List.append_assoc, ← List.cons_append,
      List.dropWhile_append_of_pos blank, List.cons_append,
      List.dropWhile_cons_of_neg (by simp [visible])]
    intro bar
    exact noBar (Option.some_inj.1 bar)

theorem endsAnnotation_attribute (a : PythonAttribute) {rest : Text} (isBelow : IsBelow rest) :
    EndsAnnotation (a.gap'' ++ (a.value ++ rest)) := by
  have mark : ∀ c, (a.value ++ rest).head? = some c → c = '=' ∨ c = '#' ∨ c = '\n' := by
    intro c first
    cases value : a.value with
    | nil =>
      rw [value] at first
      exact .inr (.inr (isBelow.1 c first))
    | cons c' value' =>
      rw [value] at first
      rcases a.isValue.1 c (by rw [value]; exact first) with isMark | isMark
      · exact .inl isMark
      · exact .inr (.inl isMark)
  constructor
  · refine Text.forall_head?_append (fun c member => ?_) fun c first => ?_
    · exact ⟨isDotted_of_isBlank (a.isGap''.isBlank c member), (a.isGap''.others c member).1⟩
    · rcases mark c first with rfl | rfl | rfl <;> decide
  · rw [List.dropWhile_append_of_pos a.isGap''.isBlank]
    cases value : a.value with
    | nil => exact isBelow.2
    | cons c value' =>
      have visible : isBlank c = false ∧ c ≠ '|' := by
        rcases a.isValue.1 c (by rw [value]; rfl) with rfl | rfl <;> decide
      rw [List.cons_append, List.dropWhile_cons_of_neg (by simp [visible.1])]
      intro bar
      exact visible.2 (Option.some_inj.1 bar)

theorem attributeHead_offers (isIndent : IsIndent indent)
    (starts : ∀ c, previous = some c → c = '\n') (a : PythonAttribute) (rest : Text) :
    ∃ last g, attributeHead.Offers (between previous (indent ++ (a.text ++ rest))) []
      (between last (a.annotation ++ (a.gap'' ++ (a.value ++ rest)))) g := by
  let t₃ := a.annotation ++ (a.gap'' ++ (a.value ++ rest))
  let t₂ := a.gap ++ (':' :: (a.gap' ++ t₃))
  let t₁ := a.name ++ t₂
  have shape : a.text ++ rest = t₁ := by simp [PythonAttribute.text, t₁, t₂, t₃]
  let named := lastOf (lastOf previous indent) a.name
  let groups : Groups := [(1, ⟨between (lastOf previous indent) t₁, between named t₂⟩)]
  have start : lineStart.Offers (between previous (indent ++ t₁)) []
      (between previous (indent ++ t₁)) [] := offers_test (isLineStart_iff.2 starts)
  have spaces : (some1 isSpace).Offers (between previous (indent ++ t₁)) []
      (between (lastOf previous indent) t₁) [] := by
    refine offers_many _ isIndent.2 ?_ (List.length_pos_iff.2 isIndent.1)
    exact isSpace_of_isName a.isName t₂
  have name : (group 1 word).Offers (between (lastOf previous indent) t₁) []
      (between named t₂) groups := by
    refine .group (offers_many _ a.isName.2 ?_ (List.length_pos_iff.2 a.isName.1))
    exact isWord_head?_append a.isGap.isBlank (stops_cons (by decide))
  have gap : blanks.Offers (between named t₂) groups
      (between (lastOf named a.gap) (':' :: (a.gap' ++ t₃))) groups :=
    offers_many _ a.isGap.isBlank (stops_cons rfl) (Nat.zero_le _)
  have colon : (lit ":".toList).Offers (between (lastOf named a.gap) (':' :: (a.gap' ++ t₃))) groups
      (between (some ':') (a.gap' ++ t₃)) groups := offers_lit _ [':'] _
  have gap' : blanks.Offers (between (some ':') (a.gap' ++ t₃)) groups
      (between (lastOf (some ':') a.gap') t₃) groups := by
    refine offers_many _ a.isGap'.isBlank ?_ (Nat.zero_le _)
    obtain ⟨c, rest', same, visible⟩ := a.isAnnotation.starts
    rw [show t₃ = c :: (rest' ++ (a.gap'' ++ (a.value ++ rest))) by
      simp only [t₃, same, List.cons_append]]
    exact stops_cons visible
  rw [shape]
  exact ⟨_, _, ((((start.seq spaces).seq name).seq gap).seq colon).seq gap'⟩

/-- What is read at the line of an attribute is its name and a type that starts as the
annotation. -/
theorem exists_of_prefix_attribute {t : Text} {rec : List (Nat × Text)} (isIndent : IsIndent indent)
    (a : PythonAttribute) {rest rest' : Text} (reads : annotatedAttribute.Reads t rec)
    (whole : t ++ rest' = indent ++ (a.text ++ rest)) : ∃ type,
      rec.lookup 1 = some a.name ∧ rec.lookup 2 = some type ∧
      subscripts false type = some false ∧
      type ++ rest' = a.annotation ++ (a.gap'' ++ (a.value ++ rest)) := by
  obtain ⟨spaces, name, gap, gap', type, rfl, isIndent', isName, blank, blank', ⟨_, parts⟩, first,
    second⟩ := exists_of_reads_attribute reads
  obtain ⟨c, tail, starts, visible⟩ := starts_of_reads parts
  obtain ⟨c', tail', starts', visible'⟩ := a.isAnnotation.starts
  simp only [PythonAttribute.text, List.append_assoc, List.cons_append] at whole
  obtain ⟨rfl, named⟩ := Text.append_inj_of_stop isSpace isIndent'.2 isIndent.2
    (isSpace_of_isName isName _) (isSpace_of_isName a.isName _) whole
  obtain ⟨rfl, gaps⟩ := Text.append_inj_of_stop isWord isName.2 a.isName.2
    (isWord_head?_append blank (stops_cons (by decide)))
    (isWord_head?_append a.isGap.isBlank (stops_cons (by decide))) named
  obtain ⟨rfl, colons⟩ := Text.append_inj_of_stop isBlank blank a.isGap.isBlank (stops_cons rfl)
    (stops_cons rfl) gaps
  obtain ⟨rfl, types⟩ := Text.append_inj_of_stop isBlank blank' a.isGap'.isBlank
    (by rw [starts]; exact stops_cons visible) (by rw [starts']; exact stops_cons visible')
    (List.cons.inj colons).2
  exact ⟨type, first, second, subscripts_of_reads parts, types⟩

/-- Where a bracket closes before the next colon no attribute is read. -/
theorem matchAt?_attribute_of_bracket {s rest : Text} (noColon : ':' ∉ s)
    (here : p.rest = s ++ ']' :: rest) : annotatedAttribute.matchAt? p = none := by
  refine matchAt?_of_refuses (refuses_of_reads fun t rec reads inFront => ?_)
  obtain ⟨spaces, name, gap, gap', type, rfl, isIndent, isName, blank, -⟩ :=
    exists_of_reads_attribute reads
  have noBracket : ']' ∉ spaces ++ (name ++ (gap ++ [':'])) := by
    simp only [List.mem_append, not_or]
    refine ⟨fun member => ?_, fun member => ?_, fun member => ?_, by decide⟩
    · exact absurd (isIndent.2 _ member) (by decide)
    · exact absurd (isName.2 _ member) (by decide)
    · exact absurd (blank _ member) (by decide)
  have upToColon : spaces ++ (name ++ (gap ++ [':'])) <+: s ++ ']' :: rest := by
    rw [← here]
    exact List.IsPrefix.trans ⟨gap' ++ type, by simp⟩ inFront
  have inside := Text.prefix_of_not_mem noBracket upToColon
  exact noColon (inside.subset (by simp))

/-- At the line of an attribute its name and the front of its annotation are read, and nothing is
read from the rest of the annotation on. -/
theorem exists_matchAt?_attribute (isIndent : IsIndent indent)
    (starts : ∀ c, previous = some c → c = '\n') (a : PythonAttribute) {rest : Text}
    (isBelow : IsBelow rest) : ∃ m tail,
      annotatedAttribute.matchAt? (between previous (indent ++ (a.text ++ rest))) = some m ∧
      ReadAs a m ∧ m.group 2 ++ tail = a.annotation ∧
      m.last.rest = tail ++ (a.gap'' ++ (a.value ++ rest)) ∧
      annotatedAttribute.matchAt? m.last = none := by
  have ends := endsAnnotation_attribute a isBelow
  obtain ⟨last, g, head⟩ := attributeHead_offers isIndent starts a rest
  have readable : annotatedAttribute.matchAt? (between previous (indent ++ (a.text ++ rest))) ≠
      none :=
    head.run_ne_none (run_annotationParts_ne_none a.isAnnotation (fun c first => (ends.1 c first).1)
      (fun _ _ => Option.some_ne_none _) last g)
  obtain ⟨m, found⟩ := Option.ne_none_iff_exists'.1 readable
  obtain ⟨⟨whole, reads⟩, first⟩ := matches_of_matchAt? found
  rw [first] at whole
  obtain ⟨type, name, recorded, flat, after⟩ :=
    exists_of_prefix_attribute isIndent a reads whole.symm
  have group {n : Nat} {t : Text} (recorded : m.groups.texts.lookup n = some t) :
      m.group n = t := by
    rw [Match.group, Match.group?, ← Groups.lookup_texts, recorded]
    rfl
  have named := group name
  obtain rfl := group recorded
  have only {c : Char} (member : c ∈ a.annotation) : c ≠ '\n' ∧ c ≠ ':' := by
    have ok := a.isAnnotation.forall_mem c member
    constructor <;> rintro rfl <;> exact absurd ok (by decide)
  by_cases shallow : a.depth ≤ 1
  · have offers := head.seq ((annotation_offers a.isAnnotation shallow ends last g).group (n := 2))
    have ended : m.last = between (lastOf last a.annotation) (a.gap'' ++ (a.value ++ rest)) :=
      congrArg Match.last (Option.some.inj
        (found.symm.trans (matchAt?_of_offers (x := annotatedAttribute) offers)))
    have all : m.group 2 = a.annotation := by
      rw [ended] at after
      exact List.append_cancel_right after
    obtain ⟨c, rest', starts', -⟩ := a.isAnnotation.starts
    have some : a.annotation ≠ [] := by
      rw [starts']
      exact List.cons_ne_nil c rest'
    have before : m.last.previous = Option.some (a.annotation.getLast some) := by
      rw [ended]
      show a.annotation.getLast?.or last = _
      rw [List.getLast?_eq_some_getLast some]
      rfl
    refine ⟨m, [], found, ⟨named, ?_, iff_of_true all shallow⟩, ?_, by rw [ended]; rfl,
      matchAt?_attribute_inside (only (List.getLast_mem some)).1 before⟩
    · exact ⟨[], by rw [all, List.append_nil]⟩
    · rw [all, List.append_nil]
  · obtain ⟨s, t, same, here⟩ :=
      a.isAnnotation.exists_bracket (Nat.lt_of_not_le shallow) flat after
    have noColon : ':' ∉ s := by
      intro member
      have inAnnotation : ':' ∈ a.annotation := by
        rw [same]
        exact List.mem_append_right _ (List.mem_append_left _ member)
      exact (only inAnnotation).2 rfl
    have notAll : m.group 2 ≠ a.annotation := by
      intro all
      rw [all] at same
      simpa using List.self_eq_append_right.1 same
    refine ⟨m, s ++ ']' :: t, found, ⟨named, ⟨_, same.symm⟩, iff_of_false notAll shallow⟩,
      same.symm, ?_, matchAt?_attribute_of_bracket noColon here⟩
    rw [here, List.append_assoc]
    rfl

/-- At the line that opens a method no attribute is read. -/
theorem matchAt?_attribute_of_opens (isIndent : IsIndent indent) {text : Text}
    (opens : OpensMethod text) (rest : Text) :
    annotatedAttribute.matchAt? (between previous (indent ++ (text ++ rest))) = none := by
  refine matchAt?_of_refuses (refuses_of_reads fun t rec reads inFront => ?_)
  obtain ⟨spaces, name, gap, gap', type, rfl, isIndent', isName, blank, -⟩ :=
    exists_of_reads_attribute reads
  obtain ⟨rest', whole⟩ : _ <+: indent ++ (text ++ rest) := inFront
  have whole : spaces ++ (name ++ (gap ++ ':' :: (gap' ++ (type ++ rest')))) =
      indent ++ (text ++ rest) := by simpa using whole
  obtain ⟨c, rest'', starts, visible, -⟩ := opens.startsLine.exists_cons
  obtain ⟨-, named⟩ := Text.append_inj_of_stop isSpace isIndent'.2 isIndent.2
    (isSpace_of_isName isName _) (by rw [starts]; exact stops_cons (isSpace_of_visible visible))
    whole
  cases opens with
  | mark visible noWord other =>
    obtain ⟨c', name, rfl⟩ := List.exists_cons_of_ne_nil isName.1
    have word := isName.2 c' (.head _)
    rw [(List.cons.inj named).1, noWord] at word
    cases word
  | @words first gap₂ second rest₂ isFirst isGap some isSecond =>
    have apart : ∀ c, (gap₂ ++ (second ++ rest₂ ++ rest)).head? = Option.some c →
        isWord c = false := by
      obtain ⟨c, gap₂, rfl⟩ := List.exists_cons_of_ne_nil some
      exact stops_cons (isWord_of_isBlank (isGap.isBlank c (.head _)))
    obtain ⟨c', second', rfl⟩ := List.exists_cons_of_ne_nil isSecond.1
    have inWord := isSecond.2 c' (.head _)
    simp only [List.append_assoc] at named apart
    obtain ⟨-, gaps⟩ := Text.append_inj_of_stop isWord isName.2 isFirst.2
      (isWord_head?_append blank (stops_cons (by decide))) apart named
    obtain ⟨-, colon⟩ := Text.append_inj_of_stop isBlank blank isGap.isBlank (stops_cons rfl)
      (stops_cons (isBlank_of_isWord inWord)) gaps
    rw [← (List.cons.inj colon).1] at inWord
    exact absurd inWord (by decide)

/-! ## All lines -/

/-- What is found from a place in a line on where none is read is found in the lines below. -/
theorem findAll_attribute_below {tail : Text} {lines : List Text}
    (none : annotatedAttribute.matchAt? p = none) (here : p.rest = tail ++ below lines)
    (inLine : '\n' ∉ tail) : annotatedAttribute.findAll p =
      annotatedAttribute.findAll (between (some '\n') (joinedLines lines)) := by
  rw [p.eq_between, here] at none ⊢
  generalize p.previous = previous at none
  clear here
  induction tail generalizing previous with
  | nil =>
    cases lines with
    | nil => rw [List.nil_append, show below [] = [] from rfl] at *; exact findAll_nil none
    | cons line lines =>
      rw [List.nil_append, below_cons] at none ⊢
      exact findAll_of_none none
  | cons c tail ih =>
    obtain ⟨other, inLine⟩ := not_or.1 (mt List.mem_cons.2 inLine)
    exact (findAll_of_none none).trans
      (ih inLine (some c) (matchAt?_attribute_inside (Ne.symm other) rfl))

/-- In lines that open methods no attribute is read. -/
theorem findAll_openings (isIndent : IsIndent indent) {openings : List Text}
    (opens : ∀ text ∈ openings, OpensMethod text ∧ '\n' ∉ text) (previous : Option Char) :
    annotatedAttribute.findAll
      (between previous (joinedLines (openings.map (indent ++ ·)))) = [] := by
  induction openings generalizing previous with
  | nil =>
    refine findAll_nil (matchAt?_of_refuses (refuses_of_reads fun t rec reads inFront => ?_))
    obtain ⟨spaces, name, gap, gap', type, rfl, isIndent, -⟩ := exists_of_reads_attribute reads
    exact isIndent.1 (List.append_eq_nil_iff.1 (List.prefix_nil.1 inFront)).1
  | cons text openings ih =>
    obtain ⟨⟨opensHere, noLineFeed⟩, others⟩ := List.forall_mem_cons.1 opens
    have here : annotatedAttribute.matchAt? (between previous
        (indent ++ (text ++ below (openings.map (indent ++ ·))))) = none :=
      matchAt?_attribute_of_opens isIndent opensHere _
    have inLine : '\n' ∉ indent ++ text := by
      rw [List.mem_append, not_or]
      exact ⟨fun member => absurd (isIndent.2 _ member) (by decide), noLineFeed⟩
    rw [← List.append_assoc] at here
    rw [List.map_cons, joinedLines_cons, findAll_attribute_below here rfl inLine]
    exact ih others _

/-- In the lines of a class at its own level each attribute is read, and nothing else. -/
theorem all_attributes (isIndent : IsIndent indent) (attributes : List PythonAttribute)
    {openings : List Text}
    (opens : ∀ text ∈ openings, OpensMethod text ∧ '\n' ∉ text) :
    List.Forall₂ ReadAs attributes (annotatedAttribute.all (joinedLines
      (attributes.map (indent ++ ·.text) ++ openings.map (indent ++ ·)))) := by
  have go (previous : Option Char) (starts : ∀ c, previous = some c → c = '\n') :
      List.Forall₂ ReadAs attributes (annotatedAttribute.findAll (between previous (joinedLines
        (attributes.map (indent ++ ·.text) ++ openings.map (indent ++ ·))))) := by
    induction attributes generalizing previous with
    | nil =>
      rw [List.map_nil, List.nil_append, findAll_openings isIndent opens]
      exact .nil
    | cons a attributes ih =>
      let lines := attributes.map (indent ++ ·.text) ++ openings.map (indent ++ ·)
      have isBelow : IsBelow (below lines) := by
        refine isBelow_below (fun line member => ?_) isIndent
        rcases List.mem_append.1 member with member | member
        · obtain ⟨a, -, rfl⟩ := List.mem_map.1 member
          exact ⟨_, rfl, a.startsLine⟩
        · obtain ⟨text, inside, rfl⟩ := List.mem_map.1 member
          exact ⟨_, rfl, (opens text inside).1.startsLine⟩
      obtain ⟨m, tail, found, readAs, whole, last, none⟩ :=
        exists_matchAt?_attribute isIndent starts a isBelow
      have shorter : m.last.size < (indent ++ (a.text ++ below lines)).length := by
        have long := List.length_pos_iff.2 isIndent.1
        rw [m.last.size_eq, last, PythonAttribute.text, ← whole]
        simp only [List.length_append, List.length_cons]
        omega
      have rest : m.last.rest = tail ++ (a.gap'' ++ a.value) ++ below lines := by
        rw [last]
        simp only [List.append_assoc]
      have inLine : '\n' ∉ tail ++ (a.gap'' ++ a.value) := by
        intro member
        have inText : '\n' ∈ a.text := by
          rw [PythonAttribute.text, ← whole]
          simp only [List.mem_append, List.mem_cons] at member ⊢
          tauto
        exact absurd (a.text_clean _ inText).1 (by decide)
      rw [List.map_cons, List.cons_append, joinedLines_cons, List.append_assoc,
        findAll_of_matchAt? found shorter, findAll_attribute_below none rest inLine]
      exact .cons readAs (ih _ (by rintro c ⟨⟩; rfl))
  exact go none nofun

end Models

end CodeSurvey
