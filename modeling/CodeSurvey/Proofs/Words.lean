import CodeSurvey.Proofs.Lines
import CodeSurvey.Proofs.Splitting
import CodeSurvey.Text.Word

/-!
# Names and gaps

What sources are written with between their marks: names, which are runs of word characters, and
gaps, which are white space within a line. No character is both, and no bracket is either.
-/

namespace CodeSurvey

/-- White space within a line. -/
def IsGap (text : Text) : Prop := ∀ c ∈ text, isBlank c = true ∧ endsLine c = false

/-- One or more word characters. -/
def IsName (text : Text) : Prop := text ≠ [] ∧ ∀ c ∈ text, isWord c = true

instance : DecidablePred IsGap := fun text =>
  inferInstanceAs (Decidable (∀ c ∈ text, isBlank c = true ∧ endsLine c = false))

instance : DecidablePred IsName := fun text =>
  inferInstanceAs (Decidable (text ≠ [] ∧ ∀ c ∈ text, isWord c = true))

theorem isGap_nil : IsGap [] := List.forall_mem_nil _

theorem isGap_space : IsGap [' '] := by decide

theorem isBlank_of_isWord {c : Char} (isWord : isWord c = true) : isBlank c = false :=
  isBlank_of_apart (by decide +kernel) isWord

theorem isWord_of_isBlank {c : Char} (blank : isBlank c = true) : isWord c = false := by
  rw [← Bool.not_eq_true]
  intro word
  rw [isBlank_of_isWord word] at blank
  cases blank

theorem endsLine_of_isBlank_eq_false {c : Char} (visible : isBlank c = false) :
    endsLine c = false := by
  rw [← Bool.not_eq_true]
  intro ends
  rw [isBlank_of_endsLine ends] at visible
  cases visible

theorem isBracket_of_isWord {c : Char} (isWord : isWord c = true) : isBracket c = false := by
  rw [← Bool.not_eq_true]
  intro bracket
  simp only [isBracket, isOpener, isCloser, Bool.or_eq_true, beq_iff_eq] at bracket
  rcases bracket with (((rfl | rfl) | rfl) | rfl) | (((rfl | rfl) | rfl) | rfl) <;>
    exact absurd isWord (by decide)

theorem IsGap.isBlank {gap : Text} (h : IsGap gap) : ∀ c ∈ gap, isBlank c = true :=
  fun c member => (h c member).1

theorem IsGap.isBracket {gap : Text} (h : IsGap gap) : ∀ c ∈ gap, isBracket c = false :=
  fun c member => isBracket_of_isBlank (h.isBlank c member)

/-- A word ends before white space, and where there is none before what follows. -/
theorem isWord_head?_append {gap rest : Text} (blank : ∀ c ∈ gap, isBlank c = true)
    (stop : ∀ c, rest.head? = some c → isWord c = false) :
    ∀ c, (gap ++ rest).head? = some c → isWord c = false :=
  Text.forall_head?_append (fun c member => isWord_of_isBlank (blank c member)) stop

end CodeSurvey
