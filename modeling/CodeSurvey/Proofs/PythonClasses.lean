import CodeSurvey.Proofs.ClassBodies
import CodeSurvey.Proofs.Reports

/-!
# The fields of Python classes

A class at the margin of a file is found whatever stands before it, if the bases of no class are
left open there (`Models.exists_findAll_class`). Its bases end at the first closing parenthesis, so
with a call among them it is not found (`Models.matchAt?_class_of_inner`). The fields of a class are
its attributes in their order, each with the front of its annotation, which is all of it exactly if
subscripts are not nested in it (`Models.class_attributes_reported`).
-/

namespace CodeSurvey

/-- What stands between the name of a class and the colon: nothing, or its bases in parentheses. -/
inductive IsBases : Text → Prop where
  | absent : IsBases []
  | listed {bases gap : Text} (inside : ')' ∉ bases) (isGap : IsGap gap) :
      IsBases ('(' :: (bases ++ ')' :: gap))

/-- What starts the bases or the colon. -/
theorem IsBases.starts {bases : Text} (h : IsBases bases) (rest : Text) :
    ∀ c, (bases ++ ':' :: rest).head? = some c → c = '(' ∨ c = ':' := by
  cases h with
  | absent =>
    rintro c ⟨⟩
    exact .inr rfl
  | listed inside isGap =>
    rintro c ⟨⟩
    exact .inl rfl

/-- A class: its line, and its body below. -/
structure PythonClass where
  gap : Text
  name : Text
  gap' : Text
  bases : Text
  trailer : Text
  body : ClassBody
  isGap : IsGap gap
  apart : gap ≠ []
  isName : IsName name
  isGap' : IsGap gap'
  isBases : IsBases bases
  inLine : '\n' ∉ trailer

/-- The line of a class. -/
def PythonClass.heading (c : PythonClass) : Text :=
  "class".toList ++ (c.gap ++ (c.name ++ (c.gap' ++ (c.bases ++ ':' :: c.trailer))))

/-- The text of a class. -/
def PythonClass.text (c : PythonClass) : Text := c.heading ++ '\n' :: joinedLines c.body.lines

namespace Models

open Pattern Place

variable {previous : Option Char} {before rest : Text}

/-! ## Lines of classes -/

theorem bases_offers {bases : Text} (isBases : IsBases bases) (rest : Text)
    (previous : Option Char) (g : Groups) : ∃ q last, (opt ("(" ++ some0 (· != ')') ++ ")")).Offers
        (between previous (bases ++ ':' :: rest)) g q g ∧
      blanks.Offers q g (between last (':' :: rest)) g := by
  cases isBases with
  | absent =>
    have refuses : Refuses ("(" ++ some0 (· != ')') ++ ")") (between previous (':' :: rest)) g :=
      ((refuses_lit (by decide) _ _ _).seq _).seq _
    have nothing : blanks.Offers (between previous (':' :: rest)) g
        (between previous (':' :: rest)) g :=
      offers_many (t := []) _ (List.forall_mem_nil _) (stops_cons rfl) (Nat.zero_le _)
    exact ⟨_, _, .right refuses offers_empty, nothing⟩
  | @listed bases gap inside isGap =>
    let t₂ := gap ++ ':' :: rest
    let t₁ := bases ++ ')' :: t₂
    have shape : '(' :: (bases ++ ')' :: gap) ++ ':' :: rest = '(' :: t₁ := by simp [t₁, t₂]
    have inner : (some0 (· != ')')).Offers (between (some '(') t₁) g
        (between (lastOf (some '(') bases) (')' :: t₂)) g :=
      offers_many _ (Text.bne_of_not_mem inside) (stops_cons rfl) (Nat.zero_le _)
    have parens := ((offers_lit (g := g) previous ['('] t₁).seq inner).seq (offers_lit _ [')'] t₂)
    have after : blanks.Offers (between (some ')') t₂) g
        (between (lastOf (some ')') gap) (':' :: rest)) g :=
      offers_many _ isGap.isBlank (stops_cons rfl) (Nat.zero_le _)
    rw [shape]
    exact ⟨_, _, .left parens, after⟩

/-- At the line of a class its name is read, and all up to the colon. -/
theorem exists_matchAt?_class (c : PythonClass) (starts : ∀ c, previous = some c → c = '\n')
    (rest : Text) : ∃ m, pythonClass.matchAt? (between previous (c.heading ++ rest)) = some m ∧
      m.string 1 = String.ofList c.name ∧ m.last.rest = c.trailer ++ rest := by
  let t₃ := c.bases ++ ':' :: (c.trailer ++ rest)
  let t₂ := c.gap' ++ t₃
  let t₁ := c.name ++ t₂
  have shape : c.heading ++ rest = "class".toList ++ (c.gap ++ t₁) := by
    simp [PythonClass.heading, t₁, t₂, t₃]
  let spaced := lastOf (some 's') c.gap
  let named := lastOf spaced c.name
  let groups : Groups := [(1, ⟨between spaced t₁, between named t₂⟩)]
  obtain ⟨n, name, same⟩ := List.exists_cons_of_ne_nil c.isName.1
  have visible : isBlank n = false := isBlank_of_isWord (c.isName.2 n (by rw [same]; exact .head _))
  have marks := c.isBases.starts (c.trailer ++ rest)
  have start : lineStart.Offers (between previous ("class".toList ++ (c.gap ++ t₁))) []
      (between previous ("class".toList ++ (c.gap ++ t₁))) [] :=
    offers_test (isLineStart_iff.2 starts)
  have space : blanks1.Offers (between (some 's') (c.gap ++ t₁)) [] (between spaced t₁) [] := by
    refine offers_many _ c.isGap.isBlank ?_ (List.length_pos_iff.2 c.apart)
    rw [show t₁ = n :: (name ++ t₂) by simp only [t₁, same, List.cons_append]]
    exact stops_cons visible
  have nameRead : (group 1 word).Offers (between spaced t₁) [] (between named t₂) groups := by
    refine .group (offers_many _ c.isName.2 (isWord_head?_append c.isGap'.isBlank
      fun c' first => ?_) (List.length_pos_iff.2 c.isName.1))
    rcases marks c' first with rfl | rfl <;> decide
  have gap : blanks.Offers (between named t₂) groups (between (lastOf named c.gap') t₃) groups := by
    refine offers_many _ c.isGap'.isBlank ?_ (Nat.zero_le _)
    intro c' first
    rcases marks c' first with rfl | rfl <;> rfl
  obtain ⟨q, last, bases, blank⟩ := bases_offers c.isBases (c.trailer ++ rest) (lastOf named c.gap')
    groups
  have colon : (lit ":".toList).Offers (between last (':' :: (c.trailer ++ rest))) groups
      (between (some ':') (c.trailer ++ rest)) groups := offers_lit _ [':'] _
  have offers : pythonClass.Offers (between previous ("class".toList ++ (c.gap ++ t₁))) []
      (between (some ':') (c.trailer ++ rest)) groups :=
    ((((((start.seq (offers_lit _ "class".toList _)).seq space).seq nameRead).seq gap).seq
      bases).seq blank).seq colon
  have recorded : (between spaced t₁).upTo (between named t₂) = c.name := upTo_eq rfl
  rw [shape]
  exact ⟨_, matchAt?_of_offers offers, congrArg String.ofList recorded, rfl⟩

/-! ## Where classes are found -/

/-- How what is read as a class ends after its name: with a colon, perhaps after parentheses. -/
def IsEnding (ending : Text) : Prop :=
  ending = [':'] ∨ ∃ bases blank, ending = '(' :: (bases ++ ')' :: (blank ++ [':'])) ∧
    ')' ∉ bases ∧ ∀ c ∈ blank, isBlank c = true

/-- What is read as a class: two words with white space after each, and what ends them. -/
theorem exists_of_reads_class {t : Text} {rec : List (Nat × Text)}
    (reads : pythonClass.Reads t rec) : ∃ gap name gap' ending,
      t = "class".toList ++ (gap ++ (name ++ gap')) ++ ending ∧ gap ≠ [] ∧
      (∀ c ∈ gap, isBlank c = true) ∧ IsName name ∧ (∀ c ∈ gap', isBlank c = true) ∧
      IsEnding ending := by
  obtain ⟨_, _, _, _, upToBlank, colon, rfl, -⟩ := reads_seq_iff.1 reads
  obtain ⟨_, _, blank, _, upToBases, blanked, rfl, -⟩ := reads_seq_iff.1 upToBlank
  obtain ⟨_, _, _, _, upToGap', based, rfl, -⟩ := reads_seq_iff.1 upToBases
  obtain ⟨_, _, gap', _, upToName, gapped', rfl, -⟩ := reads_seq_iff.1 upToGap'
  obtain ⟨_, _, name, _, upToGap, grouped, rfl, -⟩ := reads_seq_iff.1 upToName
  obtain ⟨_, _, gap, _, upToWord, gapped, rfl, -⟩ := reads_seq_iff.1 upToGap
  obtain ⟨_, _, _, _, start, word, rfl, -⟩ := reads_seq_iff.1 upToWord
  obtain ⟨_, named, -⟩ := reads_group_iff.1 grouped
  obtain ⟨inName, some, -⟩ := reads_many_iff.1 named
  obtain ⟨all, -, -⟩ := reads_many_iff.1 blanked
  obtain ⟨all', -, -⟩ := reads_many_iff.1 gapped'
  obtain ⟨all'', apart, -⟩ := reads_many_iff.1 gapped
  have isName : IsName name := ⟨List.length_pos_iff.1 some, inName⟩
  cases start
  cases word
  cases colon
  cases based with
  | right nothing =>
    cases nothing
    refine ⟨gap, name, gap' ++ blank, [':'], by simp, List.length_pos_iff.1 apart, all'', isName,
      List.forall_mem_append.2 ⟨all', all⟩, .inl rfl⟩
  | left parens =>
    obtain ⟨_, _, _, _, opened, close, rfl, -⟩ := reads_seq_iff.1 parens
    obtain ⟨_, _, bases, _, opening, inner, rfl, -⟩ := reads_seq_iff.1 opened
    cases opening
    cases close
    obtain ⟨inside, -, -⟩ := reads_many_iff.1 inner
    refine ⟨gap, name, gap', _, ?_, List.length_pos_iff.1 apart, all'', isName, all',
      .inr ⟨bases, blank, rfl, fun member => absurd (inside _ member) (by decide), all⟩⟩
    simp

/-- Characters of words and white space. -/
def isSpoken (c : Char) : Bool := isWord c || isBlank c

theorem isSpoken_of_mem {gap name gap' : Text} (blank : ∀ c ∈ gap, isBlank c = true)
    (isName : IsName name) (blank' : ∀ c ∈ gap', isBlank c = true) :
    ∀ c ∈ "class".toList ++ (gap ++ (name ++ gap')), isSpoken c = true := by
  simp only [List.forall_mem_append]
  refine ⟨by decide, fun c member => ?_, fun c member => ?_, fun c member => ?_⟩
  · simp [isSpoken, blank c member]
  · simp [isSpoken, isName.2 c member]
  · simp [isSpoken, blank' c member]

/-- Two words with white space after each are no end of the same with a line before them. -/
theorem heading_ne_append {gap name gap' : Text} (apart : gap ≠ [])
    (blank : ∀ c ∈ gap, isBlank c = true) (isName : IsName name)
    (blank' : ∀ c ∈ gap', isBlank c = true) (c : PythonClass) (some : before ≠ []) :
    "class".toList ++ (gap ++ (name ++ gap')) ≠
      before ++ ("class".toList ++ (c.gap ++ (c.name ++ c.gap'))) := by
  intro same
  have last {ok : Char → Bool} {t : Text} (s : Text) (some : t ≠ [])
      (none : ∀ c ∈ t, ok c = false) : ∀ c, (s ++ t).getLast? = Option.some c → ok c = false := by
    intro c isLast
    rw [List.getLast?_append_of_ne_nil _ some] at isLast
    exact none c (List.mem_of_getLast? isLast)
  have word {name : Text} (isName : IsName name) : ∀ c ∈ name, isBlank c = false :=
    fun c member => isBlank_of_isWord (isName.2 c member)
  have space {gap : Text} (blank : ∀ c ∈ gap, isBlank c = true) : ∀ c ∈ gap, isWord c = false :=
    fun c member => isWord_of_isBlank (blank c member)
  simp only [← List.append_assoc] at same
  obtain ⟨upToName, -⟩ := Text.append_inj_of_start isBlank blank' c.isGap'.isBlank
    (last _ isName.1 (word isName)) (last _ c.isName.1 (word c.isName)) same
  obtain ⟨upToGap, -⟩ := Text.append_inj_of_start isWord isName.2 c.isName.2
    (last _ apart (space blank)) (last _ c.apart (space c.isGap.isBlank)) upToName
  obtain ⟨front, -⟩ := Text.append_inj_of_start isBlank blank c.isGap.isBlank
    (last [] (by decide) (by decide)) (last before (by decide) (by decide)) upToGap
  exact some (List.self_eq_append_left.1 front)

theorem IsEnding.getLast?_eq {ending : Text} (h : IsEnding ending) (front : Text) :
    (front ++ ending).getLast? = some ':' := by
  rcases h with rfl | ⟨bases, blank, rfl, -⟩
  · exact List.getLast?_concat
  · have regroup : front ++ '(' :: (bases ++ ')' :: (blank ++ [':'])) =
        front ++ '(' :: (bases ++ ')' :: blank) ++ [':'] := by simp
    rw [regroup, List.getLast?_concat]

theorem IsEnding.not_spoken {ending : Text} (h : IsEnding ending) (rest : Text) :
    ∀ c, (ending ++ rest).head? = some c → isSpoken c = false := by
  rcases h with rfl | ⟨bases, blank, rfl, -⟩ <;> exact stops_cons (by decide)

/-- After a closed parenthesis no letter is read. -/
theorem IsEnding.ne_append {ending a : Text} (h : IsEnding ending) (beyond : Text)
    (closed : ∀ t, a = '(' :: t → ')' ∈ t) : ending ≠ a ++ 'c' :: beyond := by
  intro same
  rcases h with rfl | ⟨bases, blank, rfl, inside, blanks⟩
  · have member : 'c' ∈ [':'] := by
      rw [same]
      exact List.mem_append_right a (.head _)
    exact absurd member (by decide)
  · cases a with
    | nil => cases (List.cons.inj same).1
    | cons c' a =>
      obtain ⟨rfl, after⟩ := List.cons.inj same
      have close := closed a rfl
      rcases List.append_eq_append_iff.1 after with ⟨z, rfl, after'⟩ | ⟨z, rfl, -⟩
      · cases z with
        | nil =>
          rw [List.append_nil] at close
          exact inside close
        | cons d z =>
          have member : 'c' ∈ blank ++ [':'] := by
            rw [(List.cons.inj after').2]
            exact List.mem_append_right z (.head _)
          rcases List.mem_append.1 member with isBlank | isColon
          · cases blanks 'c' isBlank
          · exact absurd isColon (by decide)
      · exact inside (List.mem_append_left z close)

/-- No class is found if its bases hold a closing parenthesis that is not before a colon. -/
theorem matchAt?_class_of_inner {speech inside after : Text}
    (spoken : ∀ c ∈ speech, isSpoken c = true) (first : ')' ∉ inside)
    (noColon : (after.dropWhile isBlank).head? ≠ some ':') :
    pythonClass.matchAt? (between previous (speech ++ '(' :: (inside ++ ')' :: after))) = none := by
  refine matchAt?_of_refuses (refuses_of_reads fun t rec reads inFront => ?_)
  obtain ⟨gap, name, gap', ending, rfl, -, blank, isName, blank', ends⟩ :=
    exists_of_reads_class reads
  obtain ⟨r, whole⟩ : _ <+: speech ++ '(' :: (inside ++ ')' :: after) := inFront
  rw [List.append_assoc] at whole
  obtain ⟨-, ended⟩ := Text.append_inj_of_stop isSpoken (isSpoken_of_mem blank isName blank') spoken
    (ends.not_spoken r) (stops_cons (by decide)) whole
  rcases ends with rfl | ⟨bases, blanks, rfl, bare, blank⟩
  · cases (List.cons.inj ended).1
  · have ended' : bases ++ ')' :: (blanks ++ ':' :: r) = inside ++ ')' :: after := by
      simpa using ended
    obtain ⟨-, colon⟩ := Text.append_inj_of_stop (· != ')') (Text.bne_of_not_mem bare)
      (Text.bne_of_not_mem first) (stops_cons rfl) (stops_cons rfl) ended'
    rw [← (List.cons.inj colon).2, List.dropWhile_append_of_pos blank] at noColon
    exact noColon rfl

/-- Whether a text ends in `class` and a name, perhaps with white space after it. -/
def NamesClass (text : Text) : Prop :=
  ∃ front gap name gap', text = front ++ ("class".toList ++ (gap ++ (name ++ gap'))) ∧ gap ≠ [] ∧
    (∀ c ∈ gap, isBlank c = true) ∧ IsName name ∧ ∀ c ∈ gap', isBlank c = true

theorem NamesClass.below {text : Text} (h : NamesClass text) (front : Text) :
    NamesClass (front ++ text) := by
  obtain ⟨front', gap, name, gap', rfl, names⟩ := h
  exact ⟨front ++ front', gap, name, gap', (List.append_assoc ..).symm, names⟩

/-- Whether all bases of classes that open in a text close in it. -/
def BasesClosed (text : Text) : Prop :=
  ∀ s t, text = s ++ '(' :: t → NamesClass s → ')' ∈ t

theorem BasesClosed.of_append {front text : Text} (h : BasesClosed (front ++ text)) :
    BasesClosed text := by
  intro s t same names
  refine h (front ++ s) t ?_ (names.below front)
  rw [same, List.append_assoc]

/-- What is read as a class from before a line that starts a class does not reach into it. -/
theorem exists_rest_of_reads_class {t : Text} {rec : List (Nat × Text)}
    (reads : pythonClass.Reads t rec) (c : PythonClass)
    (inFront : t <+: before ++ (c.heading ++ rest)) (lastLine : before.getLast? = some '\n')
    (closed : BasesClosed before) :
    ∃ later, later ≠ [] ∧ before = t ++ later := by
  obtain ⟨gap, name, gap', ending, rfl, apart, blank, isName, blank', ends⟩ :=
    exists_of_reads_class reads
  let front := "class".toList ++ (gap ++ (name ++ gap'))
  have notWhole : before ≠ front ++ ending := by
    rintro rfl
    rw [ends.getLast?_eq] at lastLine
    cases lastLine
  rcases List.prefix_or_prefix_of_prefix inFront (List.prefix_append before _) with
    ⟨later, whole⟩ | ⟨beyond, whole⟩
  · refine ⟨later, ?_, whole.symm⟩
    rintro rfl
    rw [List.append_nil] at whole
    exact notWhole whole.symm
  · exfalso
    have inHeading : beyond <+: c.heading ++ rest := by
      rw [← whole] at inFront
      exact (List.prefix_append_right_inj before).1 inFront
    obtain ⟨beyond, rfl⟩ : ∃ tail, beyond = 'c' :: tail := by
      cases beyond with
      | nil => exact absurd ((List.append_nil before).symm.trans whole) notWhole
      | cons c' beyond =>
        obtain ⟨rfl, -⟩ := List.cons_prefix_cons.1 inHeading
        exact ⟨beyond, rfl⟩
    rcases List.append_eq_append_iff.1 whole with ⟨a, same, same'⟩ | ⟨a, same, same'⟩
    · -- The words read are those of the heading, so there is no room for a line before it.
      obtain ⟨r, inHeading⟩ := inHeading
      have spoken : ∀ c ∈ a, isSpoken c = true := by
        intro c' member
        refine isSpoken_of_mem blank isName blank' c' ?_
        rw [same]
        exact List.mem_append_right before member
      have regroup : a ++ (ending ++ r) = "class".toList ++ (c.gap ++ (c.name ++ c.gap')) ++
          (c.bases ++ ':' :: (c.trailer ++ rest)) := by
        rw [← List.append_assoc, ← same', inHeading, PythonClass.heading]
        simp
      have marks : ∀ c', (c.bases ++ ':' :: (c.trailer ++ rest)).head? = some c' →
          isSpoken c' = false := by
        intro c' first
        rcases c.isBases.starts _ c' first with rfl | rfl <;> decide
      obtain ⟨rfl, -⟩ := Text.append_inj_of_stop isSpoken spoken
        (isSpoken_of_mem c.isGap.isBlank c.isName c.isGap'.isBlank) (ends.not_spoken r) marks
        regroup
      have some : before ≠ [] := by
        rintro rfl
        cases lastLine
      exact heading_ne_append apart blank isName blank' c some same
    · refine ends.ne_append beyond (fun t opened => ?_) same'
      rw [opened] at same
      exact closed front t same ⟨[], gap, name, gap', rfl, apart, blank, isName, blank'⟩

/-- A class that starts a line is found, if no bases are open before it. -/
theorem exists_findAll_class (c : PythonClass) (rest : Text)
    (topLevel : ∀ c, before.getLast? = some c → c = '\n') (closed : BasesClosed before)
    (starts : before = [] → ∀ c, previous = some c → c = '\n') :
    ∃ earlier previous', (∀ c, previous' = some c → c = '\n') ∧
      pythonClass.findAll (between previous (before ++ (c.heading ++ rest))) =
        earlier ++ pythonClass.findAll (between previous' (c.heading ++ rest)) := by
  induction size : before.length using Nat.strong_induction_on generalizing before previous with
  | h n ih =>
    cases before with
    | nil => exact ⟨[], previous, starts rfl, rfl⟩
    | cons c' before =>
      have lastLine : (c' :: before).getLast? = some '\n' := by
        have some := List.getLast?_eq_some_getLast (List.cons_ne_nil c' before)
        rw [some, topLevel _ some]
      cases found : pythonClass.matchAt?
          (between previous (c' :: before ++ (c.heading ++ rest))) with
      | some m =>
        obtain ⟨⟨whole, reads⟩, first⟩ := matches_of_matchAt? found
        rw [first] at whole
        have whole : c' :: before ++ (c.heading ++ rest) = m.text ++ m.last.rest := whole
        have long : 0 < m.text.length := Nat.lt_of_lt_of_le (by decide) reads.least_le
        obtain ⟨later, some, same⟩ := exists_rest_of_reads_class reads c
          ⟨m.last.rest, whole.symm⟩ lastLine closed
        have last : m.last.rest = later ++ (c.heading ++ rest) := by
          rw [same, List.append_assoc] at whole
          exact (List.append_cancel_left whole).symm
        have shorter : m.last.size < (c' :: before ++ (c.heading ++ rest)).length := by
          rw [whole, m.last.size_eq, List.length_append]
          omega
        rw [same] at size topLevel closed
        rw [List.length_append] at size
        have topLevel' : ∀ c, later.getLast? = Option.some c → c = '\n' := fun c isLast =>
          topLevel c (by rw [List.getLast?_append_of_ne_nil _ some, isLast])
        have starts' : later = [] → ∀ c, m.last.previous = Option.some c → c = '\n' :=
          fun none => absurd none some
        obtain ⟨earlier, previous', starts'', all⟩ :=
          ih later.length (by omega) topLevel' closed.of_append starts' rfl
        refine ⟨m :: earlier, previous', starts'', ?_⟩
        rw [findAll_of_matchAt? found shorter, m.last.eq_between, last, all, List.cons_append]
      | none =>
        have shorter : before.length < n := by
          rw [← size]
          exact Nat.lt_succ_self _
        have topLevel' : ∀ c, before.getLast? = some c → c = '\n' := fun c isLast =>
          topLevel c (by rw [List.getLast?_cons, isLast]; rfl)
        have closed' : BasesClosed ([c'] ++ before) := closed
        have starts' : before = [] → ∀ c, some c' = some c → c = '\n' := fun none c same =>
          topLevel c (by rw [none]; exact same)
        obtain ⟨earlier, previous', starts'', all⟩ :=
          ih before.length shorter topLevel' closed'.of_append starts' rfl
        exact ⟨earlier, previous', starts'', (findAll_of_none found).trans all⟩

/-! ## What is reported -/

/-- What is reported of a class that is found in a file. -/
def classReport (file : String) (m : Match) : List Model :=
  Model.ofFields (m.string 1) (annotatedFields (indentedBlock m.last.rest)) file

section
variable {s : Source} {l : List String} {texts : String → Option Text} {file : String}
  {others : List Text}

/-- The attributes of a class at the margin are reported in their order, and nothing from its
methods, each with its name and the front of its annotation. That is all of the annotation exactly
if subscripts are not nested in it. -/
theorem class_attributes_reported (listed : s.files = .ok l)
    (reads : ∀ path ∈ l, s.read path = .ok (texts path)) (c : PythonClass)
    (text : texts file = some (before ++ (c.heading ++ '\n' :: rest)))
    (topLevel : ∀ c, before.getLast? = some c → c = '\n') (closed : BasesClosed before)
    (lines : rest.lines = c.body.lines ++ others)
    (ends : ∀ line, others.head? = some line → line.isBlankText = false ∧ line.indent = 0) :
    python.scan.run s = .ok ((findFiles ["**/*.py"] l).flatMap (Scan.visited inPython texts)) ∧
    ∃ earlier m later fields,
      Scan.visited inPython texts file = (earlier ++ m :: later).flatMap (classReport file) ∧
      m.first.rest = c.heading ++ '\n' :: rest ∧
      classReport file m = Model.ofFields (String.ofList c.name) fields file ∧
      List.Forall₂ Declares (c.body.attributes.take maxFields) fields ∧
      (fields = (c.body.attributes.take maxFields).map declared ↔
        ∀ a ∈ c.body.attributes.take maxFields, a.depth ≤ 1) := by
  refine ⟨Scan.run_eachFile_of_reads listed reads ["**/*.py"] inPython, ?_⟩
  have started : before = [] → ∀ c, (none : Option Char) = some c → c = '\n' := nofun
  obtain ⟨earlier, previous, starts, all⟩ :=
    exists_findAll_class c ('\n' :: rest) topLevel closed started
  obtain ⟨m, found, name, last⟩ := exists_matchAt?_class c starts ('\n' :: rest)
  have shorter : m.last.size < (c.heading ++ '\n' :: rest).length := by
    rw [m.last.size_eq, last, PythonClass.heading]
    simp only [List.length_append, List.length_cons]
    omega
  rw [findAll_of_matchAt? found shorter] at all
  have clean : ∀ line ∈ c.body.lines, ∀ c ∈ line, endsLine c = false := by
    intro line member
    have inRest : line ∈ rest.lines := by
      rw [lines]
      exact List.mem_append_left _ member
    exact Text.clean_of_mem_lines inRest
  have block : indentedBlock m.last.rest = joinedLines c.body.lines := by
    have trailer : (c.trailer ++ '\n' :: rest).dropWhile (· != '\n') = '\n' :: rest := by
      rw [List.dropWhile_append_of_pos (Text.bne_of_not_mem c.inLine)]
      rfl
    rw [indentedBlock, last, trailer]
    show joinedLines (blockLines rest.lines) = _
    rw [lines, c.body.blockLines_lines ends]
  have fields := annotatedFields_lines c.body clean
  refine ⟨earlier, m, pythonClass.findAll m.last, _, ?_, ?_, ?_, fields, eq_declared_iff fields⟩
  · rw [← all, Scan.visited, text]
    rfl
  · rw [(matches_of_matchAt? found).2]
    rfl
  · rw [classReport, name, block]

end

/-! ### Users -/

def keyAttribute : PythonAttribute where
  name := "key".toList
  gap := []
  gap' := [' ']
  depth := 0
  annotation := "int".toList
  gap'' := []
  value := []
  isName := by decide
  isGap := isGap_nil
  isGap' := isGap_space
  isAnnotation := .name (by decide)
  isGap'' := isGap_nil
  isValue := ⟨nofun, by decide⟩

def tagsAttribute : PythonAttribute where
  name := "tags".toList
  gap := []
  gap' := [' ']
  depth := 1
  annotation := "Dict[str, int] | None".toList
  gap'' := [' ']
  value := "= None".toList
  isName := by decide
  isGap := isGap_nil
  isGap' := isGap_space
  isAnnotation :=
    have value : IsAnnotation .many 0 ([' '] ++ "int".toList ++ []) :=
      .last (by decide) (.name (by decide)) (by decide)
    have arguments : IsAnnotation .many 0 ([] ++ "str".toList ++ [] ++ ',' :: " int".toList) :=
      .more (by decide) (.name (by decide)) (by decide) value
    have dict : IsAnnotation .one 1 ("Dict".toList ++ '[' :: ("str, int".toList ++ [']'])) :=
      .subscript (by decide) arguments
    show IsAnnotation .one 1 ("Dict[str, int]".toList ++ [' '] ++ '|' :: ([' '] ++ "None".toList))
      from .union dict (by decide) (by decide) (.name (by decide))
  isGap'' := isGap_space
  isValue := ⟨by rintro c ⟨⟩; exact .inl rfl, by decide⟩

def displayMethod : PythonMethod where
  opening := "def display(self) -> str:".toList
  body := ["        label: str = self.name".toList, "        return label".toList, []]
  opens := @OpensMethod.words "def".toList [' '] "display".toList "(self) -> str:".toList
    (by decide) (by decide) (by decide) (by decide)

/-- A class with a method. -/
def userClass : PythonClass where
  gap := [' ']
  name := "User".toList
  gap' := []
  bases := "(Base)".toList
  trailer := []
  body :=
    { indent := "    ".toList
      attributes := [keyAttribute, tagsAttribute]
      listing := ["    key: int".toList, "    tags: Dict[str, int] | None = None".toList, []]
      methods := [displayMethod]
      isIndent := by decide
      listed := by decide
      deeper := by decide }
  isGap := isGap_space
  apart := by decide
  isName := by decide
  isGap' := isGap_nil
  isBases := @IsBases.listed "Base".toList [] (by decide) (by decide)
  inLine := by decide

/-- The texts of a source with one file. -/
def moduleTexts (text : Text) (path : String) : Option Text := [("app.py", text)].lookup path

def moduleSource (text : Text) : Source := .ofTexts [("app.py", text)]

/-- The attributes of the class are reported, the local variable of its method is not. -/
theorem user_attributes_reported : ∃ earlier m later,
    Scan.visited inPython (moduleTexts ("import app\n\n@stored\n".toList ++ (userClass.text ++
      "\nhelper: int = 0\n".toList))) "app.py" = (earlier ++ m :: later).flatMap
        (classReport "app.py") ∧
    classReport "app.py" m = [⟨"User", [⟨"key", "int"⟩, ⟨"tags", "Dict[str, int] | None"⟩],
      "app.py"⟩] := by
  let rest := joinedLines userClass.body.lines ++ "\nhelper: int = 0\n".toList
  let before := "import app\n\n@stored\n".toList
  let text := before ++ (userClass.heading ++ '\n' :: rest)
  have shape : before ++ (userClass.text ++ "\nhelper: int = 0\n".toList) = text := by
    simp [text, rest, PythonClass.text]
  have listed : (moduleSource text).files = .ok ["app.py"] := rfl
  have reads : ∀ path ∈ ["app.py"], (moduleSource text).read path = .ok (moduleTexts text path) :=
    fun _ _ => rfl
  have atFile : moduleTexts text "app.py" = some (before ++ (userClass.heading ++ '\n' :: rest)) :=
    rfl
  have topLevel : ∀ c, before.getLast? = some c → c = '\n' := by
    rintro c ⟨⟩
    rfl
  have closed : BasesClosed before := by
    have noParenthesis : '(' ∉ before := by decide
    intro s t same names
    rw [same] at noParenthesis
    exact absurd (List.mem_append_right s (.head _)) noParenthesis
  have lines : rest.lines = userClass.body.lines ++ ["helper: int = 0".toList] := by decide +kernel
  have ends : ∀ line : Text, ["helper: int = 0".toList].head? = some line →
      line.isBlankText = false ∧ line.indent = 0 := by
    rintro line ⟨⟩
    decide
  obtain ⟨-, earlier, m, later, fields, visited, -, report, -, all⟩ :=
    class_attributes_reported listed reads userClass atFile topLevel closed lines ends
  have flat : ∀ a ∈ userClass.body.attributes.take maxFields, a.depth ≤ 1 := by decide
  rw [all.2 flat] at report
  rw [shape]
  exact ⟨earlier, m, later, visited, report⟩

def mapAttribute : PythonAttribute where
  name := "byName".toList
  gap := []
  gap' := [' ']
  depth := 2
  annotation := "Dict[str, List[int]]".toList
  gap'' := []
  value := []
  isName := by decide
  isGap := isGap_nil
  isGap' := isGap_space
  isAnnotation :=
    have entry : IsAnnotation .many 0 ([] ++ "int".toList ++ []) :=
      .last (by decide) (.name (by decide)) (by decide)
    have list : IsAnnotation .one 1 ("List".toList ++ '[' :: ("int".toList ++ [']'])) :=
      .subscript (by decide) entry
    have value : IsAnnotation .many 1 ([' '] ++ "List[int]".toList ++ []) :=
      .last (by decide) list (by decide)
    have arguments : IsAnnotation .many 1
        ([] ++ "str".toList ++ [] ++ ',' :: " List[int]".toList) :=
      .more (by decide) (.name (by decide)) (by decide) value
    show IsAnnotation .one 2 ("Dict".toList ++ '[' :: ("str, List[int]".toList ++ [']'])) from
      .subscript (by decide) arguments
  isGap'' := isGap_nil
  isValue := ⟨nofun, by decide⟩

/-- A class with an attribute in whose annotation subscripts are nested. -/
def indexClass : PythonClass where
  gap := [' ']
  name := "Index".toList
  gap' := []
  bases := []
  trailer := []
  body :=
    { indent := "    ".toList
      attributes := [mapAttribute]
      listing := ["    byName: Dict[str, List[int]]".toList]
      methods := []
      isIndent := by decide
      listed := by decide
      deeper := nofun }
  isGap := isGap_space
  apart := by decide
  isName := by decide
  isGap' := isGap_nil
  isBases := .absent
  inLine := by decide

/-- Of nested subscripts only the front is reported. -/
theorem annotations_not_always_reported :
    ¬ ∀ c : PythonClass, c.body.attributes ≠ [] → c.body.attributes.length ≤ maxFields →
      python.scan.run (moduleSource c.text) =
        .ok [⟨String.ofList c.name, c.body.attributes.map declared, "app.py"⟩] := by
  intro always
  have same := always indexClass (List.cons_ne_nil _ _) (by decide)
  have run : python.scan.run (moduleSource indexClass.text) =
      .ok ((findFiles ["**/*.py"] ["app.py"]).flatMap
        (Scan.visited inPython (moduleTexts indexClass.text))) :=
    Scan.run_eachFile_of_reads rfl (fun _ _ => rfl) ["**/*.py"] inPython
  rw [run, Except.ok.injEq] at same
  have differ : (findFiles ["**/*.py"] ["app.py"]).flatMap
      (Scan.visited inPython (moduleTexts indexClass.text)) ≠
        [⟨"Index", [⟨"byName", "Dict[str, List[int]]"⟩], "app.py"⟩] := by
    decide +kernel
  exact differ same

end Models

end CodeSurvey
