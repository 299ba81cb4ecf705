import CodeSurvey.Proofs.Text
import CodeSurvey.Text.Lines

/-!
# Lines and words of a text that is written down

The lines of a text are what stands between the ends of lines in it (`Text.areLines_lines`). A text
that is written line by line is read line by line (`Text.lines_append`), and each line stands at its
place in the text (`Text.prefix_of_mem_placedLines`). Pieces are joined with the separator before
each but the first (`Text.joinWith_cons`). Words joined by single spaces have the characters of the
text but for the white space (`Text.visible_joinWith_words`).
-/

namespace CodeSurvey

theorem isBlank_of_endsLine {c : Char} (ends : endsLine c = true) : isBlank c = true := by
  simp only [endsLine, Bool.or_eq_true, Bool.and_eq_true, decide_eq_true_eq, beq_iff_eq] at ends
  unfold isBlank
  simp only
  split
  · simp only [Bool.or_eq_true, Bool.and_eq_true, decide_eq_true_eq, beq_iff_eq]
    omega
  · simp only [Bool.or_eq_true, Bool.and_eq_true, decide_eq_true_eq, beq_iff_eq]
    omega

namespace Text

/-! ## Lines -/

theorem lines_go_append {line : Text} (within : ∀ c ∈ line, endsLine c = false) (rest before : Text)
    (done : List Text) :
    lines.go (line ++ '\n' :: rest) before done false =
      lines.go rest [] ((before.reverse ++ line) :: done) false := by
  induction line generalizing before with
  | nil =>
    rw [List.nil_append, List.append_nil]
    rfl
  | cons c line ih =>
    obtain ⟨here, later⟩ := List.forall_mem_cons.1 within
    rw [List.cons_append, lines.go, here]
    simp only [Bool.false_and, Bool.false_eq_true, if_false]
    rw [ih later, List.reverse_cons, List.append_assoc]
    rfl

theorem lines_go_eq (text line : Text) (done : List Text) (cr : Bool) :
    lines.go text line done cr = done.reverse ++ lines.go text line [] cr := by
  induction text generalizing line done cr with
  | nil =>
    cases line with
    | nil => simp [lines.go]
    | cons c line => simp [lines.go]
  | cons c text ih =>
    simp only [lines.go]
    split
    · exact ih line done false
    · split
      · rw [ih [] (line.reverse :: done), ih [] [line.reverse], List.reverse_cons,
          List.append_assoc]
        rfl
      · exact ih (c :: line) done false

/-- The first line of a text goes up to the first line feed. -/
theorem lines_append (line : Text) (within : ∀ c ∈ line, endsLine c = false) (rest : Text) :
    (line ++ '\n' :: rest).lines = line :: rest.lines := by
  rw [lines, lines_go_append within, lines_go_eq]
  rfl

/-- Whether a text is the end of a line when this stands behind it. A line feed behind a carriage
return belongs to the same end. -/
inductive IsEnding : Text → Text → Prop where
  | pair (rest : Text) : IsEnding ['\r', '\n'] rest
  | single {c : Char} {rest : Text} (ends : endsLine c = true)
      (alone : c = '\r' → rest.head? ≠ some '\n') : IsEnding [c] rest

/-- Whether a text comes apart into these lines. -/
inductive AreLines : Text → List Text → Prop where
  | none : AreLines [] []
  | last {line : Text} (some : line ≠ []) (clean : ∀ c ∈ line, endsLine c = false) :
      AreLines line [line]
  | ended {line ending rest : Text} {lines : List Text} (clean : ∀ c ∈ line, endsLine c = false)
      (ends : IsEnding ending rest) (later : AreLines rest lines) :
      AreLines (line ++ (ending ++ rest)) (line :: lines)

theorem AreLines.clean {text : Text} {lines : List Text} (h : AreLines text lines) :
    ∀ line ∈ lines, ∀ c ∈ line, endsLine c = false := by
  induction h with
  | none => exact List.forall_mem_nil _
  | last some clean => exact List.forall_mem_singleton.2 clean
  | ended clean ends later ih => exact List.forall_mem_cons.2 ⟨clean, ih⟩

/-- The lines are those of a line that has been begun and what follows it. After a carriage return
they are those of what is left when the end of its line is complete. -/
theorem areLines_go (text : Text) :
    (∀ line : Text, (∀ c ∈ line, endsLine c = false) →
      AreLines (line.reverse ++ text) (lines.go text line [] false)) ∧
    ∃ ending rest, '\r' :: text = ending ++ rest ∧ IsEnding ending rest ∧
      AreLines rest (lines.go text [] [] true) := by
  induction text with
  | nil =>
    refine ⟨fun line clean => ?_, ['\r'], [], rfl, .single rfl nofun, .none⟩
    cases line with
    | nil => exact .none
    | cons c line =>
      rw [List.append_nil]
      exact .last (by simp) fun c member => clean c (List.mem_reverse.1 member)
  | cons c text ih =>
    obtain ⟨begun, ending, rest, whole, ends, later⟩ := ih
    have fresh (line : Text) (clean : ∀ c ∈ line, endsLine c = false) :
        AreLines (line.reverse ++ c :: text) (lines.go (c :: text) line [] false) := by
      have clean' : ∀ c ∈ line.reverse, endsLine c = false :=
        fun c member => clean c (List.mem_reverse.1 member)
      rw [lines.go, Bool.false_and, if_neg Bool.false_ne_true]
      split
      · next closes =>
        rw [lines_go_eq]
        by_cases isReturn : c = '\r'
        · subst isReturn
          rw [whole]
          exact .ended clean' ends later
        · rw [beq_eq_false_iff_ne.2 isReturn]
          exact .ended clean' (.single closes fun same => absurd same isReturn)
            (begun [] (List.forall_mem_nil _))
      · next goesOn =>
        have one := begun (c :: line)
          (List.forall_mem_cons.2 ⟨Bool.eq_false_iff.2 goesOn, clean⟩)
        rwa [List.reverse_cons, List.append_assoc] at one
    refine ⟨fresh, ?_⟩
    by_cases feed : c = '\n'
    · subst feed
      exact ⟨['\r', '\n'], text, rfl, .pair text, begun [] (List.forall_mem_nil _)⟩
    · refine ⟨['\r'], c :: text, rfl, .single rfl fun _ same => feed (Option.some.inj same), ?_⟩
      have same : lines.go (c :: text) [] [] true = lines.go (c :: text) [] [] false := by
        rw [lines.go, lines.go, beq_eq_false_iff_ne.2 feed, Bool.and_false, Bool.and_false]
      rw [same]
      exact fresh [] (List.forall_mem_nil _)

theorem areLines_lines (text : Text) : AreLines text text.lines :=
  (areLines_go text).1 [] (List.forall_mem_nil _)

/-- The lines of a text, each with what stands before it. -/
def placedLines (text : Text) : List (Text × Text) :=
  go text [] [] false
where
  /-- `line` is what has been read of a line and `before` what stands before it, both reversed. -/
  go : Text → Text → Text → Bool → List (Text × Text)
    | [], _, [], _ => []
    | [], before, line, _ => [(before.reverse, line.reverse)]
    | c :: rest, before, line, cr =>
      if cr && c == '\n' then go rest (c :: before) line false
      else if endsLine c then
        (before.reverse, line.reverse) :: go rest (c :: (line ++ before)) [] (c == '\r')
      else go rest before (c :: line) false

theorem map_snd_placedLines (text : Text) : text.placedLines.map (·.2) = text.lines := by
  have go (text before line : Text) (cr : Bool) :
      (placedLines.go text before line cr).map (·.2) = lines.go text line [] cr := by
    induction text generalizing before line cr with
    | nil => cases line <;> rfl
    | cons c text ih =>
      simp only [placedLines.go, lines.go]
      split
      · exact ih (c :: before) line false
      · split
        · rw [List.map_cons, ih, lines_go_eq text [] [line.reverse]]
          rfl
        · exact ih before (c :: line) false
  exact go text [] [] false

/-- A line stands in its text where it is placed. -/
theorem prefix_of_mem_placedLines {text : Text} {placed : Text × Text}
    (member : placed ∈ text.placedLines) : placed.1 ++ placed.2 <+: text := by
  have go (text before line : Text) (cr : Bool) (fresh : cr = true → line = [])
      (member : placed ∈ placedLines.go text before line cr) :
      placed.1 ++ placed.2 <+: before.reverse ++ (line.reverse ++ text) := by
    induction text generalizing before line cr with
    | nil =>
      cases line with
      | nil => cases member
      | cons c line =>
        obtain rfl := List.mem_singleton.1 member
        exact ⟨[], List.append_assoc _ _ _⟩
    | cons c text ih =>
      simp only [placedLines.go] at member
      split at member
      · next lineFeed =>
        obtain rfl := fresh (Bool.and_eq_true_iff.1 lineFeed).1
        simpa using ih (c :: before) [] false (fun _ => rfl) member
      · split at member
        · rcases List.mem_cons.1 member with rfl | member
          · exact ⟨c :: text, by rw [List.append_assoc]⟩
          · simpa using ih (c :: (line ++ before)) [] _ (fun _ => rfl) member
        · simpa using ih before (c :: line) false nofun member
  exact go text [] [] false nofun member

theorem joinWith_cons (separator first : Text) (others : List Text) :
    joinWith separator (first :: others) = first ++ others.flatMap (separator ++ ·) := by
  induction others generalizing first with
  | nil => rw [joinWith_singleton, List.flatMap_nil, List.append_nil]
  | cons second others ih =>
    rw [joinWith_cons_cons, ih, List.flatMap_cons, List.append_assoc, List.append_assoc separator]

/-! ## Words -/

/-- The characters of a text that are no white space. -/
def visible (text : Text) : Text := text.filter (!isBlank ·)

@[simp] theorem visible_append (s t : Text) : (s ++ t).visible = s.visible ++ t.visible :=
  List.filter_append s t

theorem visible_eq_nil {text : Text} (blank : ∀ c ∈ text, isBlank c = true) : text.visible = [] :=
  List.filter_eq_nil_iff.2 fun c member => by simp [blank c member]

theorem visible_rdropWhile (text : Text) :
    visible (List.rdropWhile isBlank text) = text.visible := by
  have whole : List.rdropWhile isBlank text ++ List.rtakeWhile isBlank text = text :=
    List.rdropWhile_append_rtakeWhile
  have dropped : visible (List.rtakeWhile isBlank text) = [] :=
    visible_eq_nil fun _ => List.mem_rtakeWhile_imp
  rw [← List.append_nil (visible _), ← dropped, ← visible_append, whole]

theorem visible_trim (text : Text) : text.trim.visible = text.visible := by
  have whole : text.takeWhile isBlank ++ text.dropWhile isBlank = text :=
    List.takeWhile_append_dropWhile
  have dropped : visible (text.takeWhile isBlank) = [] :=
    visible_eq_nil fun _ => List.mem_takeWhile_imp
  rw [trim, trimBy_eq_rdropWhile, visible_rdropWhile, ← List.nil_append (visible _), ← dropped,
    ← visible_append, whole]

theorem visible_flatten_splitOnP (text : Text) :
    visible (List.splitOnP isBlank text).flatten = text.visible := by
  induction text with
  | nil => rfl
  | cons c text ih =>
    rw [List.splitOnP_cons_eq_if_modifyHead]
    split
    · next blank => rw [List.flatten_cons, List.nil_append, ih, visible, visible,
        List.filter_cons_of_neg (by simp [blank])]
    · next seen =>
      obtain ⟨head, pieces, whole⟩ := List.exists_cons_of_ne_nil (List.splitOnP_ne_nil isBlank text)
      rw [whole, List.flatten_cons] at ih
      have kept (t : Text) : visible (c :: t) = c :: visible t :=
        List.filter_cons_of_pos (by simpa using seen)
      rw [whole, List.modifyHead_cons, List.flatten_cons, List.cons_append, kept, kept, ← ih]

theorem flatten_filter_nonempty (pieces : List Text) :
    (pieces.filter (!·.isEmpty)).flatten = pieces.flatten := by
  induction pieces with
  | nil => rfl
  | cons piece pieces ih =>
    cases piece with
    | nil => exact ih
    | cons c piece =>
      rw [List.filter_cons_of_pos (by simp), List.flatten_cons, List.flatten_cons, ih]

theorem visible_joinWith {separator : Text} (blank : separator.visible = []) (pieces : List Text) :
    (joinWith separator pieces).visible = visible pieces.flatten := by
  cases pieces with
  | nil => rfl
  | cons first others =>
    rw [joinWith_cons, List.flatten_cons, visible_append, visible_append]
    congr 1
    induction others with
    | nil => rfl
    | cons second others ih =>
      rw [List.flatMap_cons, List.flatten_cons, visible_append, visible_append, visible_append, ih,
        blank, List.nil_append]

/-- Words that are joined by spaces have the characters of the text. -/
theorem visible_joinWith_words (text : Text) :
    (joinWith [' '] text.words).visible = text.visible := by
  rw [visible_joinWith (by decide), words, flatten_filter_nonempty, splitOn_eq_splitOnP,
    visible_flatten_splitOnP]

end Text

end CodeSurvey
