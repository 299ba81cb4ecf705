import CodeSurvey.Brackets
import Mathlib.Data.List.Infix

/-!
# Matching brackets

A text is balanced if it holds as many closers as openers and no prefix holds more closers than
openers. Scanning for the closer of an opener counts the brackets that are open; `Closes` says what
the count stands for. The span of an opener is the balanced text before a closer, of which there is
at most one (`balancedSpan_exact`).
-/

namespace CodeSurvey

variable {opener closer : Char}

/-- Whether every bracket of a text has its partner in the text. -/
def IsBalanced (opener closer : Char) (text : Text) : Prop :=
  text.count opener = text.count closer ∧
    ∀ start, start <+: text → start.count closer ≤ start.count opener

instance : DecidablePred (IsBalanced opener closer) := fun text =>
  decidable_of_iff (text.count opener = text.count closer ∧
    ∀ start ∈ text.inits, start.count closer ≤ start.count opener)
    (by simp only [List.mem_inits, IsBalanced])

/-! ## Counting open brackets -/

/-- Whether a text closes `depth` brackets that are open before it, besides its own, and never more
than are open. -/
structure Closes (opener closer : Char) (depth : Nat) (text : Text) : Prop where
  even : text.count closer = text.count opener + depth
  never_below : ∀ start, start <+: text → start.count closer ≤ start.count opener + depth

theorem closes_zero_iff {text : Text} :
    Closes opener closer 0 text ↔ IsBalanced opener closer text :=
  ⟨fun h => ⟨h.even.symm, h.never_below⟩, fun h => ⟨h.1.symm, h.2⟩⟩

theorem closes_nil_iff {depth : Nat} : Closes opener closer depth [] ↔ depth = 0 := by
  constructor
  · intro h
    simpa using h.even.symm
  · rintro rfl
    exact ⟨rfl, fun start h => by simp [List.prefix_nil.1 h]⟩

/-- A character that counts `o` as an opener and `k` as a closer is closed by the text after it at
the depth that it leads to. -/
theorem closes_cons_iff {c : Char} {text : Text} {depth after o k : Nat}
    (openers : ∀ t, (c :: t).count opener = t.count opener + o)
    (closers : ∀ t, (c :: t).count closer = t.count closer + k) (step : depth + o = after + k) :
    Closes opener closer depth (c :: text) ↔ Closes opener closer after text := by
  constructor
  · intro h
    refine ⟨?_, fun start isPrefix => ?_⟩
    · have even := h.even
      rw [openers, closers] at even
      omega
    · have below := h.never_below (c :: start) ((List.prefix_cons_inj c).2 isPrefix)
      rw [openers, closers] at below
      omega
  · intro h
    refine ⟨?_, fun start isPrefix => ?_⟩
    · have even := h.even
      rw [openers, closers]
      omega
    · rcases List.prefix_cons_iff.1 isPrefix with rfl | ⟨rest, rfl, inner⟩
      · simp
      · have below := h.never_below rest inner
        rw [openers, closers]
        omega

theorem closes_opener_cons_iff (differ : opener ≠ closer) {depth : Nat} {text : Text} :
    Closes opener closer depth (opener :: text) ↔ Closes opener closer (depth + 1) text :=
  closes_cons_iff (o := 1) (k := 0) (by simp) (by simp [differ]) rfl

theorem closes_closer_cons_iff (differ : opener ≠ closer) {depth : Nat} {text : Text} :
    Closes opener closer (depth + 1) (closer :: text) ↔ Closes opener closer depth text :=
  closes_cons_iff (o := 0) (k := 1) (by simp [differ.symm]) (by simp) rfl

theorem not_closes_zero_closer_cons (differ : opener ≠ closer) {text : Text} :
    ¬ Closes opener closer 0 (closer :: text) := fun h => by
  have below := h.never_below [closer] ⟨text, rfl⟩
  simp [differ.symm] at below

theorem closes_other_cons_iff {c : Char} (notOpener : c ≠ opener) (notCloser : c ≠ closer)
    {depth : Nat} {text : Text} :
    Closes opener closer depth (c :: text) ↔ Closes opener closer depth text :=
  closes_cons_iff (o := 0) (k := 0) (by simp [notOpener]) (by simp [notCloser]) rfl

/-! ## The closer of an opener -/

/-- Whether a scan of a text at some depth ends at a closer with `s`, which starts with what was
read before, the last character of it first. -/
def ScansTo (opener closer : Char) (depth : Nat) (text before s : Text) : Prop :=
  ∃ inner rest, text = inner ++ closer :: rest ∧ Closes opener closer depth inner ∧
    s = before.reverse ++ inner

/-- A scan goes on over a character at which it does not end. -/
theorem scansTo_cons_iff {c : Char} {text before s : Text} {depth after : Nat}
    (notHere : c = closer → depth ≠ 0)
    (step : ∀ t, Closes opener closer depth (c :: t) ↔ Closes opener closer after t) :
    ScansTo opener closer depth (c :: text) before s ↔
      ScansTo opener closer after text (c :: before) s := by
  constructor
  · rintro ⟨inner, rest, same, closes, rfl⟩
    cases inner with
    | nil =>
      obtain ⟨rfl, -⟩ := List.cons.inj same
      exact absurd (closes_nil_iff.1 closes) (notHere rfl)
    | cons c' inner =>
      obtain ⟨rfl, rfl⟩ := List.cons.inj same
      exact ⟨inner, rest, rfl, (step inner).1 closes, by simp⟩
  · rintro ⟨inner, rest, rfl, closes, rfl⟩
    exact ⟨c :: inner, rest, rfl, (step inner).2 closes, by simp⟩

/-- A scan ends at a closer before which all brackets are closed. -/
theorem scansTo_closer_iff (differ : opener ≠ closer) {text before s : Text} :
    ScansTo opener closer 0 (closer :: text) before s ↔ s = before.reverse := by
  constructor
  · rintro ⟨inner, rest, same, closes, rfl⟩
    cases inner with
    | nil => simp
    | cons c inner =>
      obtain ⟨rfl, -⟩ := List.cons.inj same
      exact absurd closes (not_closes_zero_closer_cons differ)
  · rintro rfl
    exact ⟨[], text, rfl, closes_nil_iff.2 rfl, by simp⟩

theorem bodyAfter?_go_eq_some_iff (differ : opener ≠ closer) {text before s : Text}
    {depth : Nat} :
    bodyAfter?.go opener closer text depth before = some s ↔
      ScansTo opener closer depth text before s := by
  induction text generalizing depth before with
  | nil => simp [bodyAfter?.go, ScansTo]
  | cons c text ih =>
    rw [bodyAfter?.go.eq_def]
    simp only
    split
    · next isOpener =>
      subst isOpener
      rw [ih, scansTo_cons_iff (fun same => absurd same differ)
        fun t => closes_opener_cons_iff differ]
    · next notOpener =>
      split
      · next isCloser =>
        subst isCloser
        cases depth with
        | zero => rw [scansTo_closer_iff differ, Option.some.injEq, eq_comm]
        | succ depth =>
          rw [ih, scansTo_cons_iff (fun _ => Nat.succ_ne_zero depth)
            fun t => closes_closer_cons_iff differ]
      · next notCloser =>
        rw [ih, scansTo_cons_iff (fun same => absurd same notCloser)
          fun t => closes_other_cons_iff notOpener notCloser]

/-- What is found after an opener is the balanced text before a closer. -/
theorem bodyAfter?_eq_some_iff (differ : opener ≠ closer) {text s : Text} :
    bodyAfter? opener closer text = some s ↔
      IsBalanced opener closer s ∧ ∃ rest, text = s ++ closer :: rest := by
  rw [bodyAfter?, bodyAfter?_go_eq_some_iff differ]
  constructor
  · rintro ⟨inner, rest, rfl, closes, rfl⟩
    exact ⟨closes_zero_iff.1 closes, rest, rfl⟩
  · rintro ⟨balanced, rest, rfl⟩
    exact ⟨s, rest, rfl, closes_zero_iff.2 balanced, rfl⟩

/-! ## Spans by position -/

/-- Whether the closer at position `j` of a text ends the balanced text `s` that starts after
position `i`. -/
def EndsSpan (opener closer : Char) (text : Text) (i j : Nat) (s : Text) : Prop :=
  i < j ∧ (text.take j).drop (i + 1) = s ∧ text[j]? = some closer ∧ IsBalanced opener closer s

theorem balancedSpan_append (before text : Text) :
    balancedSpan (before ++ opener :: text) before.length opener closer =
      bodyAfter? opener closer text := by
  simp [balancedSpan]

theorem endsSpan_append_iff {before text s : Text} {j : Nat} :
    EndsSpan opener closer (before ++ opener :: text) before.length j s ↔
      (IsBalanced opener closer s ∧ ∃ rest, text = s ++ closer :: rest) ∧
        j = before.length + 1 + s.length := by
  constructor
  · rintro ⟨after, rfl, atJ, balanced⟩
    obtain ⟨k, rfl⟩ := Nat.exists_eq_add_of_lt after
    have atK : text[k]? = some closer := by
      rwa [List.getElem?_append_right (by omega),
        show before.length + k + 1 - before.length = k + 1 by omega,
        List.getElem?_cons_succ] at atJ
    have between : ((before ++ opener :: text).take (before.length + k + 1)).drop
        (before.length + 1) = text.take k := by
      rw [Nat.add_assoc, List.take_length_add_append, List.take_succ_cons,
        List.drop_length_add_append, List.drop_succ_cons, List.drop_zero]
    rw [between] at balanced ⊢
    obtain ⟨inside, same⟩ := List.getElem?_eq_some_iff.1 atK
    refine ⟨⟨balanced, text.drop (k + 1), ?_⟩, ?_⟩
    · rw [← same, ← List.drop_eq_getElem_cons inside, List.take_append_drop]
    · rw [List.length_take]
      omega
  · rintro ⟨⟨balanced, rest, rfl⟩, rfl⟩
    refine ⟨by omega, ?_, ?_, balanced⟩
    · rw [Nat.add_assoc, Nat.add_comm 1, List.take_length_add_append, List.take_succ_cons,
        List.drop_length_add_append, List.drop_succ_cons, List.drop_zero, List.take_left']
      rfl
    · rw [List.getElem?_append_right (by omega),
        show before.length + 1 + s.length - before.length = s.length + 1 by omega,
        List.getElem?_cons_succ, List.getElem?_append_right (Nat.le_refl _), Nat.sub_self]
      rfl

/-- The span of an opener is the text up to a closer with balanced text between the two. There is at
most one such closer, and where there is none there is no span. Around a balanced text between an
opener and a closer it makes no difference what stands before and after. -/
theorem balancedSpan_exact (differ : opener ≠ closer) {text : Text} {i : Nat}
    (atOpener : text[i]? = some opener) :
    (∀ s, balancedSpan text i opener closer = some s ↔
      ∃ j, EndsSpan opener closer text i j s) ∧
    (∀ j j' s s', EndsSpan opener closer text i j s → EndsSpan opener closer text i j' s' →
      j = j') ∧
    (balancedSpan text i opener closer = none ↔ ¬ ∃ j s, EndsSpan opener closer text i j s) ∧
    ∀ before body after, IsBalanced opener closer body →
      balancedSpan (before ++ opener :: body ++ closer :: after) before.length opener closer =
        some body := by
  obtain ⟨before, rest, rfl, rfl⟩ : ∃ before rest,
      before ++ opener :: rest = text ∧ before.length = i := by
    obtain ⟨inside, same⟩ := List.getElem?_eq_some_iff.1 atOpener
    refine ⟨text.take i, text.drop (i + 1), ?_, by rw [List.length_take]; omega⟩
    rw [← same, ← List.drop_eq_getElem_cons inside, List.take_append_drop]
  have found (s : Text) : balancedSpan (before ++ opener :: rest) before.length opener closer =
      some s ↔ ∃ j, EndsSpan opener closer (before ++ opener :: rest) before.length j s := by
    simp only [balancedSpan_append, bodyAfter?_eq_some_iff differ, endsSpan_append_iff,
      exists_and_left, exists_eq, and_true]
  refine ⟨found, fun j j' s s' ends ends' => ?_, ?_, fun before body after balanced => ?_⟩
  · have same := ((found s).2 ⟨j, ends⟩).symm.trans ((found s').2 ⟨j', ends'⟩)
    cases same
    rw [(endsSpan_append_iff.1 ends).2, (endsSpan_append_iff.1 ends').2]
  · rw [Option.eq_none_iff_forall_ne_some]
    simp only [ne_eq, found]
    exact ⟨fun none ⟨j, s, ends⟩ => none s ⟨j, ends⟩, fun none s ⟨j, ends⟩ => none ⟨j, s, ends⟩⟩
  · rw [List.append_assoc, List.cons_append, balancedSpan_append,
      bodyAfter?_eq_some_iff differ]
    exact ⟨balanced, after, rfl⟩

/-- A call with brackets in its argument, and a closer after it that closes nothing. -/
def callText : Text := "f(a (b) c) d)".toList

theorem callText_span :
    balancedSpan callText 1 '(' ')' = some "a (b) c".toList ∧
      ∀ j s, EndsSpan '(' ')' callText 1 j s → j = 9 := by
  obtain ⟨found, unique, -⟩ := @balancedSpan_exact '(' ')' (by decide) callText 1 rfl
  have ends : EndsSpan '(' ')' callText 1 9 "a (b) c".toList :=
    ⟨by decide, by decide +kernel, rfl, by decide +kernel⟩
  exact ⟨(found _).2 ⟨9, ends⟩, fun j s other => unique j 9 s _ other ends⟩

end CodeSurvey
