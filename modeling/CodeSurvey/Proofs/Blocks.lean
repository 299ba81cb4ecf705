import CodeSurvey.Proofs.Indentation
import CodeSurvey.Proofs.Replacement

/-!
# Indented blocks and the texts between quotes in them

A block ends where a line is indented less than its first line (`blockLines_append`). When the texts
between triple quotes are taken out of a block, a line that is left is one of its lines, or the
front of one, up to a quote, with the end of another. `Cuts` describes this and leaves open which
quotes belong together, so what it keeps is kept whatever stands between quotes
(`Cuts.forall_mem`, `Cuts.exists_append`).
-/

namespace CodeSurvey

open Pattern (isQuote)

/-! ## Lines below one another -/

/-- Lines below a line. -/
def below (lines : List Text) : Text := lines.flatMap ('\n' :: ·)

theorem joinedLines_cons (line : Text) (lines : List Text) :
    joinedLines (line :: lines) = line ++ below lines :=
  Text.joinWith_cons ['\n'] line lines

theorem below_cons (line : Text) (lines : List Text) :
    below (line :: lines) = '\n' :: joinedLines (line :: lines) := by
  rw [joinedLines_cons]
  rfl

/-- What is written item by item is read item by item, if each item is read wherever one may start
and nothing is read between them. -/
theorem read_joinedLines {α ρ : Type} {read : Place → List ρ} {text : α → Text}
    {items : α → List ρ} {ending : Text} (mayStart : Option Char → Prop)
    (item : ∀ x previous rest, mayStart previous → ∃ last,
      read (.between previous (text x ++ rest)) = items x ++ read (.between last rest))
    (feed : ∀ previous rest,
      read (.between previous ('\n' :: rest)) = read (.between (some '\n') rest))
    (nothing : ∀ previous, read (.between previous ending) = [])
    (afterFeed : mayStart (some '\n')) (xs : List α) {previous : Option Char}
    (starts : mayStart previous) :
    read (.between previous (joinedLines (xs.map text) ++ ending)) = xs.flatMap items := by
  have go (x : α) (xs : List α) {previous : Option Char} (starts : mayStart previous) :
      read (.between previous (text x ++ (below (xs.map text) ++ ending))) =
        (x :: xs).flatMap items := by
    induction xs generalizing x previous with
    | nil =>
      obtain ⟨last, here⟩ := item x previous ending starts
      rw [List.map_nil, below, List.flatMap_nil, List.nil_append, here, nothing,
        List.flatMap_singleton, List.append_nil]
    | cons y xs ih =>
      obtain ⟨last, here⟩ := item x previous (below ((y :: xs).map text) ++ ending) starts
      rw [here, List.map_cons, below_cons, List.cons_append, feed, joinedLines_cons,
        List.append_assoc, ih y afterFeed, ← List.flatMap_cons]
  cases xs with
  | nil => exact nothing previous
  | cons x xs =>
    rw [List.map_cons, joinedLines_cons, List.append_assoc]
    exact go x xs starts

theorem Text.lines_of_clean {line : Text} (clean : ∀ c ∈ line, endsLine c = false)
    (some : line ≠ []) : line.lines = [line] := by
  have go (rest before : Text) (clean : ∀ c ∈ rest, endsLine c = false)
      (some : before.reverse ++ rest ≠ []) :
      lines.go rest before [] false = [before.reverse ++ rest] := by
    induction rest generalizing before with
    | nil =>
      rw [List.append_nil] at some ⊢
      obtain ⟨c, before, rfl⟩ := List.exists_cons_of_ne_nil (List.reverse_ne_nil_iff.1 some)
      rfl
    | cons c rest ih =>
      obtain ⟨here, clean⟩ := List.forall_mem_cons.1 clean
      have regroup : before.reverse ++ c :: rest = (c :: before).reverse ++ rest := by simp
      rw [lines.go, here, regroup]
      exact ih (c :: before) clean (by rwa [← regroup])
  exact go line [] clean some

theorem Text.clean_of_mem_lines {text line : Text} (member : line ∈ text.lines) :
    ∀ c ∈ line, endsLine c = false :=
  text.areLines_lines.clean line member

/-- The lines that are joined are read again, but for blank ones. -/
theorem filter_lines_joinedLines {lines : List Text}
    (clean : ∀ line ∈ lines, ∀ c ∈ line, endsLine c = false) :
    (joinedLines lines).lines.filter (!·.isBlankText) = lines.filter (!·.isBlankText) := by
  induction lines with
  | nil => rfl
  | cons line lines ih =>
    obtain ⟨here, clean⟩ := List.forall_mem_cons.1 clean
    cases lines with
    | nil =>
      cases line with
      | nil => rfl
      | cons c line =>
        rw [show joinedLines [c :: line] = c :: line by simp [joinedLines_cons, below],
          Text.lines_of_clean here (List.cons_ne_nil c line)]
    | cons next lines =>
      rw [joinedLines_cons, below_cons, Text.lines_append _ here, List.filter_cons,
        List.filter_cons, ih clean]

/-! ## Blocks -/

/-- A block goes up to a line at the margin, if all its lines are indented as far as the first. -/
theorem blockLines_append {base : Nat} {block others : List Text} (some : base ≠ 0)
    (first : ∀ line, block.find? (!·.isBlankText) = .some line → line.indent = base)
    (inside : ∀ line ∈ block, line.isBlankText = true ∨ base ≤ line.indent)
    (ends : ∀ line, others.head? = .some line → line.isBlankText = false ∧ line.indent = 0) :
    blockLines (block ++ others) = block := by
  have margin {line : Text} (member : line ∈ block) (visible : line.isBlankText = false) :
      margin? (block ++ others) = .some base := by
    obtain ⟨found, isFirst⟩ := Option.isSome_iff_exists.1
      (List.find?_isSome.2 ⟨line, member, by simp [visible]⟩ :
        (block.find? (!·.isBlankText)).isSome = true)
    rw [margin?, List.find?_append, isFirst]
    exact congrArg Option.some (first found isFirst)
  have taken : ∀ line ∈ block, decide (IsInside (block ++ others) line) = true := by
    intro line member
    refine decide_eq_true ?_
    cases blank : line.isBlankText with
    | true => exact .inl blank
    | false =>
      have right := (inside line member).resolve_left (by simp [blank])
      exact .inr ⟨base, margin member blank, Nat.pos_of_ne_zero some, right⟩
  have stop : others.takeWhile (fun line => decide (IsInside (block ++ others) line)) = [] := by
    cases others with
    | nil => rfl
    | cons line others =>
      obtain ⟨visible, edge⟩ := ends line rfl
      refine List.takeWhile_cons_of_neg fun here => ?_
      rcases of_decide_eq_true here with blank | ⟨_, -, positive, right⟩
      · rw [blank] at visible
        cases visible
      · omega
  rw [blockLines_eq, List.takeWhile_append_of_pos taken, stop, List.append_nil]

/-! ## Texts between quotes -/

/-- Whether a line and those below it become others when texts that start with a quote are cut out.
Where one ends the text goes on with the end of a line. -/
inductive Cuts : Text → List Text → Text → List Text → Prop where
  | nil : Cuts [] [] [] []
  | keep {c : Char} {line line' : Text} {lines lines' : List Text}
      (later : Cuts line lines line' lines') : Cuts (c :: line) lines (c :: line') lines'
  | next {line line' : Text} {lines lines' : List Text} (later : Cuts line lines line' lines') :
      Cuts [] (line :: lines) [] (line' :: lines')
  | cut {q : Char} {line ending line' : Text} {lines others lines' : List Text}
      (quote : isQuote q = true) (ends : ∃ l ∈ line :: lines, ending <:+ l)
      (further : ∀ l ∈ others, l ∈ lines) (later : Cuts ending others line' lines') :
      Cuts (q :: line) lines line' lines'

namespace Cuts

variable {line line' : Text} {lines lines' : List Text}

/-- What holds of a line whatever follows the quotes in it holds of the lines that are left. -/
theorem forall_mem {P : Text → Prop}
    (cut : ∀ s q t t', isQuote q = true → P (s ++ q :: t) → P (s ++ t'))
    (h : Cuts line lines line' lines') :
    (∀ s, P (s ++ line) → P (s ++ line')) ∧ ((∀ l ∈ lines, P l) → ∀ l ∈ lines', P l) := by
  induction h with
  | nil => exact ⟨fun _ => id, id⟩
  | @keep c line line' lines lines' later ih =>
    refine ⟨fun s here => ?_, ih.2⟩
    have inside := ih.1 (s ++ [c])
    rw [List.append_assoc, List.append_assoc] at inside
    exact inside here
  | next later ih =>
    refine ⟨fun _ => id, fun all => ?_⟩
    obtain ⟨here, all⟩ := List.forall_mem_cons.1 all
    exact List.forall_mem_cons.2 ⟨ih.1 [] here, ih.2 all⟩
  | @cut q line ending line' lines others lines' quote ends further later ih =>
    exact ⟨fun s here => ih.1 s (cut s q line ending quote here),
      fun all => ih.2 fun l member => all l (further l member)⟩

/-- No characters are added. -/
theorem clean {ok : Char → Prop} (h : Cuts line lines line' lines')
    (clean : ∀ l ∈ line :: lines, ∀ c ∈ l, ok c) : ∀ l ∈ line' :: lines', ∀ c ∈ l, ok c := by
  induction h with
  | nil => exact clean
  | keep later ih =>
    obtain ⟨here, below⟩ := List.forall_mem_cons.1 clean
    obtain ⟨first, here⟩ := List.forall_mem_cons.1 here
    obtain ⟨here', below'⟩ := List.forall_mem_cons.1 (ih (List.forall_mem_cons.2 ⟨here, below⟩))
    exact List.forall_mem_cons.2 ⟨List.forall_mem_cons.2 ⟨first, here'⟩, below'⟩
  | next later ih =>
    exact List.forall_mem_cons.2 ⟨List.forall_mem_nil _, ih (List.forall_mem_cons.1 clean).2⟩
  | @cut q line ending line' lines others lines' quote ends further later ih =>
    obtain ⟨here, below⟩ := List.forall_mem_cons.1 clean
    obtain ⟨l, member, suffix⟩ := ends
    have inside : ∀ l ∈ line :: lines, ∀ c ∈ l, ok c :=
      List.forall_mem_cons.2 ⟨(List.forall_mem_cons.1 here).2, below⟩
    exact ih (List.forall_mem_cons.2 ⟨fun c inEnd => inside l member c (suffix.subset inEnd),
      fun l member => below l (further l member)⟩)

theorem of_quoteless (h : Cuts line lines line' lines')
    (quoteless : ∀ c ∈ line, isQuote c = false) :
    line' = line ∧ Cuts [] lines [] lines' := by
  induction line generalizing line' with
  | nil =>
    cases h with
    | nil => exact ⟨rfl, .nil⟩
    | next later => exact ⟨rfl, .next later⟩
  | cons c line ih =>
    obtain ⟨here, quoteless⟩ := List.forall_mem_cons.1 quoteless
    cases h with
    | keep later =>
      obtain ⟨rfl, below⟩ := ih later quoteless
      exact ⟨rfl, below⟩
    | cut quote =>
      rw [quote] at here
      cases here

/-- Lines without quotes before the others are left as they are. -/
theorem exists_append {before : List Text} (h : Cuts [] (before ++ lines) [] lines')
    (quoteless : ∀ l ∈ before, ∀ c ∈ l, isQuote c = false) :
    ∃ after, lines' = before ++ after ∧ Cuts [] lines [] after := by
  induction before generalizing lines' with
  | nil => exact ⟨lines', rfl, h⟩
  | cons l before ih =>
    obtain ⟨here, inOthers⟩ := List.forall_mem_cons.1 quoteless
    cases h with
    | next first =>
      obtain ⟨rfl, others⟩ := first.of_quoteless here
      obtain ⟨after, rfl, later⟩ := ih others inOthers
      exact ⟨after, rfl, later⟩

end Cuts

section
open Pattern Place

theorem exists_suffix_below {t rest line : Text} {lines : List Text}
    (whole : line ++ below lines = t ++ rest) : ∃ ending others, rest = ending ++ below others ∧
      (∃ l ∈ line :: lines, ending <:+ l) ∧ ∀ l ∈ others, l ∈ lines := by
  induction t generalizing line lines with
  | nil => exact ⟨line, lines, whole.symm, ⟨line, .head _, List.suffix_rfl⟩, fun _ => id⟩
  | cons c t ih =>
    cases line with
    | cons c' line =>
      obtain ⟨ending, others, same, ⟨l, member, suffix⟩, further⟩ := ih (List.cons.inj whole).2
      refine ⟨ending, others, same, ?_, further⟩
      rcases List.mem_cons.1 member with rfl | member
      · exact ⟨c' :: l, .head _, suffix.trans (List.suffix_cons c' l)⟩
      · exact ⟨l, .tail _ member, suffix⟩
    | nil =>
      cases lines with
      | nil => cases whole
      | cons line lines =>
        have shorter : line ++ below lines = t ++ rest := (List.cons.inj whole).2
        obtain ⟨ending, others, same, ⟨l, member, suffix⟩, further⟩ := ih shorter
        exact ⟨ending, others, same, ⟨l, .tail _ member, suffix⟩,
          fun l member => .tail _ (further l member)⟩

theorem exists_of_matchAt?_docString {p : Place} {m : Match}
    (found : docString.matchAt? p = some m) : ∃ q t, isQuote q = true ∧
      p.rest = q :: (t ++ m.last.rest) := by
  obtain ⟨⟨rest, reads⟩, rfl⟩ := matches_of_matchAt? found
  obtain ⟨_, _, closing, _, front, -, text, -⟩ := reads_seq_iff.1 reads
  obtain ⟨_, _, inside, _, opening, -, rfl, -⟩ := reads_seq_iff.1 front
  obtain ⟨_, quotes, -⟩ := reads_group_iff.1 opening
  obtain ⟨word, member, rfl⟩ := exists_of_reads_oneOf (List.cons_ne_nil _ _) quotes
  have starts : ∃ q t, isQuote q = true ∧ word.toList = q :: t := by
    simp only [List.mem_cons, List.not_mem_nil, or_false] at member
    rcases member with rfl | rfl
    · exact ⟨'"', ['"', '"'], rfl, rfl⟩
    · exact ⟨'\'', ['\'', '\''], rfl, rfl⟩
  obtain ⟨q, t, quote, same⟩ := starts
  rw [text, same] at rest
  refine ⟨q, t ++ (inside ++ closing), quote, rest.trans ?_⟩
  simp only [List.cons_append, List.append_assoc]

theorem exists_cuts (line : Text) (lines : List Text) (previous : Option Char) :
    ∃ line' lines', docString.replaceFrom (fun _ => []) (between previous (line ++ below lines)) =
      line' ++ below lines' ∧ Cuts line lines line' lines' := by
  induction size : (line ++ below lines).length using Nat.strong_induction_on
    generalizing line lines previous with
  | h n ih =>
    cases found : docString.matchAt? (between previous (line ++ below lines)) with
    | some m =>
      obtain ⟨q, t, quote, whole⟩ := exists_of_matchAt?_docString found
      have whole : line ++ below lines = q :: (t ++ m.last.rest) := whole
      have shorter : m.last.size < (line ++ below lines).length := by
        rw [whole, m.last.size_eq, List.length_cons, List.length_append]
        omega
      rw [replaceFrom_of_matchAt? found shorter, List.nil_append]
      cases line with
      | nil =>
        cases lines with
        | nil => cases whole
        | cons next lines =>
          rw [← (List.cons.inj whole).1] at quote
          cases quote
      | cons c line =>
        obtain ⟨rfl, after⟩ := List.cons.inj whole
        obtain ⟨ending, others, same, ends, further⟩ := exists_suffix_below after
        rw [m.last.size_eq, same, size] at shorter
        obtain ⟨line', lines', replaced, cuts⟩ :=
          ih _ shorter ending others m.last.previous rfl
        rw [m.last.eq_between, same]
        exact ⟨line', lines', replaced, .cut quote ends further cuts⟩
    | none =>
      cases line with
      | cons c line =>
        obtain ⟨line', lines', replaced, cuts⟩ :=
          ih (line ++ below lines).length (by rw [← size]; exact Nat.lt_succ_self _) line lines
            (some c) rfl
        refine ⟨c :: line', lines', (replaceFrom_of_none found).trans ?_, .keep cuts⟩
        exact congrArg (c :: ·) replaced
      | nil =>
        cases lines with
        | nil => exact ⟨[], [], replaceFrom_nil found, .nil⟩
        | cons line lines =>
          rw [List.nil_append, below_cons, joinedLines_cons] at found size ⊢
          obtain ⟨line', lines', replaced, cuts⟩ :=
            ih (line ++ below lines).length (by rw [← size]; exact Nat.lt_succ_self _) line lines
              (some '\n') rfl
          refine ⟨[], line' :: lines', ?_, .next cuts⟩
          rw [replaceFrom_of_none found, replaced, below_cons, joinedLines_cons, List.nil_append]

/-- Without the texts between triple quotes other lines are left. -/
theorem exists_erase_docString (lines : List Text) : ∃ lines',
    docString.erase (joinedLines lines) = joinedLines lines' ∧ Cuts [] lines [] lines' := by
  rw [erase, substitute_eq, start_eq]
  cases lines with
  | nil => exact ⟨[], replaceFrom_nil rfl, .nil⟩
  | cons line lines =>
    obtain ⟨line', lines', same, cuts⟩ := exists_cuts line lines none
    refine ⟨line' :: lines', ?_, .next cuts⟩
    rw [joinedLines_cons, joinedLines_cons, same]

end

end CodeSurvey
