import CodeSurvey.Indentation
import CodeSurvey.Proofs.Lines

/-!
# How far an indented block goes

The first line that is not blank sets the margin of a block. The block is the longest front of the
lines in which every line is blank or starts at the margin or further to the right, and at the edge
of the text there is no margin (`blockLines_isLongestFront`). So the line behind a block is not
blank and starts to the left of all lines of the block that are not (`IsLongestFront.outside`).
-/

namespace CodeSurvey

/-! ## Longest fronts -/

/-- Whether a list is the longest front of another one whose members are all of a kind. -/
structure IsLongestFront {α : Type} (P : α → Prop) (all front : List α) : Prop where
  isFront : front <+: all
  within : ∀ x ∈ front, P x
  longest : ∀ other, other <+: all → (∀ x ∈ other, P x) → other <+: front

theorem isLongestFront_takeWhile {α : Type} (p : α → Bool) (all : List α) :
    IsLongestFront (p · = true) all (all.takeWhile p) where
  isFront := List.takeWhile_prefix p
  within _ := List.mem_takeWhile_imp
  longest other isFront within := by
    obtain ⟨after, rfl⟩ := isFront
    rw [List.takeWhile_append_of_pos within]
    exact List.prefix_append other _

/-- What stands behind the longest front is not of the kind. -/
theorem IsLongestFront.not_next {α : Type} {P : α → Prop} {front after : List α} {x : α}
    (h : IsLongestFront P (front ++ x :: after) front) : ¬ P x := by
  intro kind
  have longer : front ++ [x] <+: front :=
    h.longest (front ++ [x]) ⟨after, by simp⟩
      (List.forall_mem_append.2 ⟨h.within, List.forall_mem_singleton.2 kind⟩)
  have short := longer.length_le
  rw [List.length_append, List.length_singleton] at short
  omega

/-! ## Blocks -/

/-- The indentation of the first line that is not blank. -/
def margin? (lines : List Text) : Option Nat := (lines.find? (!·.isBlankText)).map Text.indent

/-- Whether a line may stand in the block at the start of some lines: it is blank, or they have a
margin that is not the edge of the text, and it does not start to the left of it. -/
def IsInside (lines : List Text) (line : Text) : Prop :=
  line.isBlankText = true ∨ ∃ margin ∈ margin? lines, 0 < margin ∧ margin ≤ line.indent

instance (lines : List Text) (line : Text) : Decidable (IsInside lines line) :=
  inferInstanceAs (Decidable (_ ∨ _))

section
variable {line : Text} {lines : List Text}

theorem margin?_blank (blank : line.isBlankText = true) : margin? (line :: lines) = margin? lines :=
  congrArg (Option.map Text.indent) (List.find?_cons_of_neg (by simp [blank]))

theorem margin?_visible (visible : line.isBlankText = false) :
    margin? (line :: lines) = some line.indent :=
  congrArg (Option.map Text.indent) (List.find?_cons_of_pos (by simp [visible]))

theorem isInside_of_margin {margin : Nat} (first : margin? lines = some margin) :
    IsInside lines line ↔ line.isBlankText = true ∨ 0 < margin ∧ margin ≤ line.indent := by
  simp [IsInside, first]

/-- Once there is a margin, the block goes on up to a line that starts to the left of it. -/
theorem blockLines_go_some (margin : Nat) (lines before : List Text) :
    blockLines.go lines (some margin) before = before.reverse ++
      lines.takeWhile fun line => line.isBlankText || decide (margin ≤ line.indent) := by
  induction lines generalizing before with
  | nil => simp [blockLines.go]
  | cons line lines ih =>
    rw [blockLines.go, List.takeWhile_cons]
    cases line.isBlankText with
    | true => simp [ih]
    | false => by_cases left : line.indent < margin <;> simp [left, ih]

/-- A block goes on as long as lines may stand in it. -/
theorem blockLines_eq (lines : List Text) :
    blockLines lines = lines.takeWhile fun line => decide (IsInside lines line) := by
  have go (before : List Text) : blockLines.go lines none before =
      before.reverse ++ lines.takeWhile fun line => decide (IsInside lines line) := by
    induction lines generalizing before with
    | nil => simp [blockLines.go]
    | cons line lines ih =>
      rw [blockLines.go]
      cases blank : line.isBlankText with
      | true =>
        -- A blank line leaves it to the lines below to set the margin.
        have same (other : Text) : IsInside (line :: lines) other ↔ IsInside lines other := by
          rw [IsInside, IsInside, margin?_blank blank]
        have here : IsInside lines line := .inl blank
        rw [if_pos rfl, ih]
        simp [same, here]
      | false =>
        have inside (other : Text) : IsInside (line :: lines) other ↔
            other.isBlankText = true ∨ 0 < line.indent ∧ line.indent ≤ other.indent :=
          isInside_of_margin (margin?_visible blank)
        show (if line.indent = 0 then before.reverse
          else blockLines.go lines (some line.indent) (line :: before)) = _
        split
        · next edge => simp [inside, blank, edge]
        · next indented =>
          rw [blockLines_go_some]
          simp [inside, Nat.pos_of_ne_zero indented]
  exact go []

theorem blockLines_isLongestFront (lines : List Text) :
    IsLongestFront (IsInside lines) lines (blockLines lines) := by
  have taken := isLongestFront_takeWhile (fun line => decide (IsInside lines line)) lines
  rw [← blockLines_eq] at taken
  simpa using taken

end

/-- The line behind a block is not blank and starts to the left of all lines of the block that are
not blank, and at the edge of the text if there are none. -/
theorem IsLongestFront.outside {lines block after : List Text} {line : Text}
    (h : IsLongestFront (IsInside lines) lines block) (whole : block ++ line :: after = lines) :
    line.isBlankText = false ∧
      (∀ inner ∈ block, inner.isBlankText = false → line.indent < inner.indent) ∧
      ((∀ inner ∈ block, inner.isBlankText = true) → line.indent = 0) := by
  subst whole
  obtain ⟨visible, left⟩ := not_or.1 h.not_next
  refine ⟨by simpa using visible, fun inner member shown => ?_, fun blank => ?_⟩
  · obtain ⟨margin, first, some, right⟩ := (h.within inner member).resolve_left (by simp [shown])
    have here : ¬ margin ≤ line.indent := fun here => left ⟨margin, first, some, here⟩
    omega
  · have first : margin? (block ++ line :: after) = .some line.indent := by
      have none : block.find? (!·.isBlankText) = none :=
        List.find?_eq_none.2 fun inner member => by simp [blank inner member]
      rw [margin?, List.find?_append, none]
      simp [visible]
    have edge : ¬ 0 < line.indent := fun some => left ⟨line.indent, first, some, Nat.le_refl _⟩
    omega

/-! ## Blocks below a place in a text -/

/-- Below a place without a line feed at or behind it there is no block. Else what is behind the
first of them comes apart into lines, and the block is their longest front that may stand in it. -/
theorem indentedBlock_exact (text : Text) (index : Nat) :
    '\n' ∉ text.drop index ∧ indentedBlock (text.drop index) = [] ∨
    ∃ (before between rest : Text) (block after : List Text),
      text = before ++ (between ++ '\n' :: rest) ∧ (before.length = index ∧ '\n' ∉ between) ∧
      Text.AreLines rest rest.lines ∧ rest.lines = block ++ after ∧
      IsLongestFront (IsInside rest.lines) rest.lines block ∧
      indentedBlock (text.drop index) = joinedLines block ∧
      ∀ line, after.head? = some line → line.isBlankText = false ∧
        (∀ inner ∈ block, inner.isBlankText = false → line.indent < inner.indent) ∧
        ((∀ inner ∈ block, inner.isBlankText = true) → line.indent = 0) := by
  by_cases feed : '\n' ∈ text.drop index
  · obtain ⟨between, rest, behind, first⟩ := List.eq_append_cons_of_mem feed
    have length : (text.take index).length = index := by
      have longer := List.length_pos_of_mem feed
      rw [List.length_drop] at longer
      rw [List.length_take]
      omega
    have longest := blockLines_isLongestFront (Text.lines rest)
    obtain ⟨after, whole⟩ := longest.isFront
    refine .inr ⟨text.take index, between, rest, blockLines (Text.lines rest), after, ?_,
      ⟨length, first⟩, Text.areLines_lines rest, whole.symm, longest, ?_, fun line next => ?_⟩
    · rw [← behind, List.take_append_drop]
    · rw [indentedBlock, behind, List.dropWhile_append_of_pos (Text.bne_of_not_mem first),
        List.dropWhile_cons_of_neg (by simp)]
    · obtain ⟨later, rfl⟩ := List.head?_eq_some_iff.1 next
      exact longest.outside whole
  · refine .inl ⟨feed, ?_⟩
    rw [indentedBlock, List.dropWhile_eq_nil_iff.2 (Text.bne_of_not_mem feed)]

/-- The last line is indented, but not as far as the first one that is not blank. -/
example : indentedBlock ((Text.of "class A:\n\n  x\u2028    y\r\n\t\n z").drop 3) =
    Text.of "\n  x\n    y\n\t" := by decide +kernel

end CodeSurvey
