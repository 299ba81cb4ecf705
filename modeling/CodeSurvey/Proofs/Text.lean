import CodeSurvey.Proofs.Location
import CodeSurvey.Text.Blank
import Mathlib.Data.List.DropRight

/-!
# What is left of a trimmed text

Trimming leaves a text that neither starts nor ends with a character of the class
(`Text.head?_trimBy`, `Text.getLast?_trimBy`), and leaves nothing exactly of a text within the class
(`Text.trimBy_eq_nil_iff`). A character that is not blank also shows in the words of its text
(`Text.words_ne_nil`). A text comes apart in one way where a class of characters ends or begins
(`Text.append_inj_of_stop`, `Text.append_inj_of_start`).
-/

namespace CodeSurvey

/-- What is asked of all characters of a text is decided by going through the text, not through all
characters. -/
instance decidableForallMem (P : Char → Prop) [DecidablePred P] (text : Text) :
    Decidable (∀ c ∈ text, P c) := List.decidableBAll P text

/-- The code points of white space. -/
def blankCodes : List Nat :=
  [9, 10, 11, 12, 13, 28, 29, 30, 31, 32, 0x85, 0xA0, 0x1680, 0x2000, 0x2001, 0x2002, 0x2003,
   0x2004, 0x2005, 0x2006, 0x2007, 0x2008, 0x2009, 0x200A, 0x2028, 0x2029, 0x202F, 0x205F, 0x3000]

/-- A class of characters without white space. -/
theorem isBlank_of_apart {ok : Char → Bool} (apart : ∀ n ∈ blankCodes, ok (Char.ofNat n) = false)
    {c : Char} (h : ok c = true) : isBlank c = false := by
  rw [← Bool.not_eq_true]
  intro blank
  have listed : c.toNat ∈ blankCodes := by
    simp only [isBlank] at blank
    split at blank <;> simp [blankCodes] at blank ⊢ <;> omega
  have := apart c.toNat listed
  rw [Char.ofNat_toNat, h] at this
  cases this

namespace Text

variable {text : Text} {drop : Char → Bool} {c : Char}

theorem trimBy_eq_rdropWhile (text : Text) (drop : Char → Bool) :
    text.trimBy drop = List.rdropWhile drop (text.dropWhile drop) := rfl

theorem trimBy_eq_nil_iff : text.trimBy drop = [] ↔ ∀ c ∈ text, drop c = true := by
  rw [trimBy_eq_rdropWhile, List.rdropWhile_eq_nil_iff, ← List.dropWhile_eq_nil_iff,
    ← List.dropWhile_eq_nil_iff, List.dropWhile_idempotent]

theorem getLast?_trimBy (last : (text.trimBy drop).getLast? = some c) : drop c = false := by
  have nonempty : text.trimBy drop ≠ [] := fun none => by simp [none] at last
  rw [List.getLast?_eq_some_getLast nonempty, Option.some_inj] at last
  simpa [trimBy_eq_rdropWhile, ← last] using List.rdropWhile_last_not drop _ nonempty

theorem head?_trimBy (first : (text.trimBy drop).head? = some c) : drop c = false := by
  have inFront : text.trimBy drop <+: text.dropWhile drop := List.rdropWhile_prefix drop _
  obtain ⟨rest, front⟩ := List.head?_eq_some_iff.1 first
  have starts := List.head?_dropWhile_not drop text
  obtain ⟨behind, whole⟩ := inFront
  rw [← whole, front] at starts
  simpa using starts

theorem rdropWhile_append {after : Text} (all : ∀ c ∈ after, drop c = true) :
    List.rdropWhile drop (text ++ after) = List.rdropWhile drop text := by
  induction after using List.reverseRecOn with
  | nil => rw [List.append_nil]
  | append_singleton after c ih =>
    obtain ⟨inner, last⟩ := List.forall_mem_append.1 all
    rw [← List.append_assoc, List.rdropWhile_concat_pos _ _ _ (last c (.head _)), ih inner]

/-- Characters of the class around a text that has none at its ends are dropped. -/
theorem trimBy_around {before after : Text} (allBefore : ∀ c ∈ before, drop c = true)
    (allAfter : ∀ c ∈ after, drop c = true) (first : ∀ c, text.head? = some c → drop c = false)
    (last : ∀ c, text.getLast? = some c → drop c = false) :
    (before ++ (text ++ after)).trimBy drop = text := by
  by_cases empty : text = []
  · subst empty
    rw [trimBy_eq_nil_iff, List.nil_append]
    exact List.forall_mem_append.2 ⟨allBefore, allAfter⟩
  · obtain ⟨c, rest, rfl⟩ := List.exists_cons_of_ne_nil empty
    have front : (before ++ (c :: rest ++ after)).dropWhile drop = c :: rest ++ after := by
      rw [List.dropWhile_append_of_pos allBefore, List.cons_append,
        List.dropWhile_cons_of_neg (by simp [first c rfl])]
    rw [trimBy_eq_rdropWhile, front, rdropWhile_append allAfter, List.rdropWhile_eq_self_iff]
    intro nonempty
    simp [last _ (List.getLast?_eq_some_getLast nonempty)]

/-- A text that has no character of the class at its ends is left as it is. -/
theorem trimBy_of_ends (first : ∀ c, text.head? = some c → drop c = false)
    (last : ∀ c, text.getLast? = some c → drop c = false) : text.trimBy drop = text := by
  have none : ∀ c ∈ ([] : Text), drop c = true := List.forall_mem_nil _
  have around := trimBy_around none none first last
  rwa [List.nil_append, List.append_nil] at around

theorem trimBy_trimBy (text : Text) (drop : Char → Bool) :
    (text.trimBy drop).trimBy drop = text.trimBy drop :=
  trimBy_of_ends (fun _ => head?_trimBy) (fun _ => getLast?_trimBy)

/-- Trimming drops characters of the class from the ends and nothing else. -/
theorem exists_trimBy (text : Text) (drop : Char → Bool) :
    ∃ before after, text = before ++ (text.trimBy drop ++ after) ∧
      (∀ c ∈ before, drop c = true) ∧ ∀ c ∈ after, drop c = true := by
  refine ⟨text.takeWhile drop, (text.dropWhile drop).rtakeWhile drop, ?_,
    fun c => List.mem_takeWhile_imp, fun c member => ?_⟩
  · rw [trimBy_eq_rdropWhile, List.rdropWhile_append_rtakeWhile, List.takeWhile_append_dropWhile]
  · exact List.mem_rtakeWhile_imp member

theorem trimBy_append {before : Text} (all : ∀ c ∈ before, drop c = true) (text : Text) :
    (before ++ text).trimBy drop = text.trimBy drop := by
  rw [trimBy_eq_rdropWhile, trimBy_eq_rdropWhile, List.dropWhile_append_of_pos all]

theorem rdropWhile_append_cons (kept : drop c = false) (front rest : Text) :
    List.rdropWhile drop (front ++ c :: rest) = front ++ c :: List.rdropWhile drop rest := by
  induction rest using List.reverseRecOn with
  | nil => rw [List.rdropWhile_concat_neg _ _ _ (by simp [kept]), List.rdropWhile_nil]
  | append_singleton rest a ih =>
    have whole : front ++ c :: (rest ++ [a]) = front ++ c :: rest ++ [a] := by simp
    rw [whole]
    by_cases dropped : drop a = true
    · rw [List.rdropWhile_concat_pos _ _ _ dropped, List.rdropWhile_concat_pos _ _ _ dropped, ih]
    · rw [List.rdropWhile_concat_neg _ _ _ dropped, List.rdropWhile_concat_neg _ _ _ dropped, whole]

/-- Trimming a text with a character that is kept trims what is before it at the start and what is
after it at the end. -/
theorem trimBy_append_cons (kept : drop c = false) (front rest : Text) :
    (front ++ c :: rest).trimBy drop =
      front.dropWhile drop ++ c :: List.rdropWhile drop rest := by
  have first : (front ++ c :: rest).dropWhile drop = front.dropWhile drop ++ c :: rest := by
    induction front with
    | nil => exact List.dropWhile_cons_of_neg (by simp [kept])
    | cons a front ih =>
      by_cases dropped : drop a = true
      · rw [List.cons_append, List.dropWhile_cons_of_pos dropped,
          List.dropWhile_cons_of_pos dropped, ih]
      · rw [List.cons_append, List.dropWhile_cons_of_neg dropped,
          List.dropWhile_cons_of_neg dropped, List.cons_append]
  rw [trimBy_eq_rdropWhile, first, rdropWhile_append_cons kept]

/-- Of a text that does not start with a character of the class only the end may be dropped. -/
theorem exists_trimBy_cons (kept : drop c = false) (rest : Text) :
    ∃ core after, Text.trimBy (c :: rest) drop = c :: core ∧ rest = core ++ after ∧
      ∀ c ∈ after, drop c = true :=
  ⟨_, _, trimBy_append_cons kept [] rest, (List.rdropWhile_append_rtakeWhile ..).symm,
    fun _ => List.mem_rtakeWhile_imp⟩

theorem trim_ne_nil (member : c ∈ text) (visible : isBlank c = false) : text.trim ≠ [] :=
  fun none => Bool.false_ne_true (visible.symm.trans (trimBy_eq_nil_iff.1 none c member))

/-! ## Texts at the start of others -/

/-- What starts before a text ends before it, if its end cannot be in the text. -/
theorem prefix_of_outside {s t u : Text} (outside : ∀ v, v ≠ [] → v <+: t → ¬ v <:+ s)
    (inFront : s <+: u ++ t) : s <+: u := by
  rcases List.prefix_or_prefix_of_prefix inFront (List.prefix_append u t) with short | ⟨v, rfl⟩
  · exact short
  · by_cases empty : v = []
    · exact ⟨[], by simp [empty]⟩
    · exact absurd (List.suffix_append u v)
        (outside v empty ((List.prefix_append_right_inj u).1 inFront))

/-- What starts before a character that it does not hold ends before it. -/
theorem prefix_of_not_mem {s t u : Text} (outside : c ∉ s) (inFront : s <+: u ++ c :: t) :
    s <+: u := by
  refine prefix_of_outside (fun v nonempty isPrefix isSuffix => ?_) inFront
  obtain ⟨c', v, rfl⟩ := List.exists_cons_of_ne_nil nonempty
  obtain ⟨rfl, -⟩ := List.cons_prefix_cons.1 isPrefix
  exact outside (isSuffix.subset (.head _))

theorem bne_of_not_mem (outside : c ∉ text) : ∀ d ∈ text, (d != c) = true := by
  intro d member
  rw [bne_iff_ne]
  rintro rfl
  exact outside member

/-- What is so of all characters of a text and of the first one after it is so of the first of
both. -/
theorem forall_head?_append {P : Char → Prop} {s t : Text} (all : ∀ c ∈ s, P c)
    (next : ∀ c, t.head? = some c → P c) : ∀ c, (s ++ t).head? = some c → P c := by
  cases s with
  | nil => exact next
  | cons c s =>
    rintro c' ⟨⟩
    exact all c (.head _)

theorem forall_head?_of_ne_nil {P : Char → Prop} {s t : Text} (all : ∀ c ∈ s, P c)
    (nonempty : s ≠ []) : ∀ c, (s ++ t).head? = some c → P c := by
  obtain ⟨c, s, rfl⟩ := List.exists_cons_of_ne_nil nonempty
  rintro c' ⟨⟩
  exact all c (.head _)

/-- Texts that go on where a class of characters ends are alike if they are put together alike. -/
theorem append_inj_of_stop (ok : Char → Bool) {s s' t t' : Text} (all : ∀ c ∈ s, ok c = true)
    (all' : ∀ c ∈ s', ok c = true) (stop : ∀ c, t.head? = some c → ok c = false)
    (stop' : ∀ c, t'.head? = some c → ok c = false) (same : s ++ t = s' ++ t') :
    s = s' ∧ t = t' := by
  have span {s t : Text} (all : ∀ c ∈ s, ok c = true)
      (stop : ∀ c, t.head? = some c → ok c = false) : (s ++ t).takeWhile ok = s := by
    rw [List.takeWhile_append_of_pos all]
    cases t with
    | nil => exact List.append_nil s
    | cons c t => rw [List.takeWhile_cons_of_neg (by simp [stop c rfl]), List.append_nil]
  have front : s = s' := by rw [← span all stop, same, span all' stop']
  subst front
  exact ⟨rfl, List.append_cancel_left same⟩

/-- Texts that start where a class of characters begins are alike if they are put together alike. -/
theorem append_inj_of_start (ok : Char → Bool) {s s' t t' : Text} (all : ∀ c ∈ t, ok c = true)
    (all' : ∀ c ∈ t', ok c = true) (stop : ∀ c, s.getLast? = some c → ok c = false)
    (stop' : ∀ c, s'.getLast? = some c → ok c = false) (same : s ++ t = s' ++ t') :
    s = s' ∧ t = t' := by
  have reversed : t.reverse ++ s.reverse = t'.reverse ++ s'.reverse := by
    rw [← List.reverse_append, ← List.reverse_append, same]
  obtain ⟨back, front⟩ := append_inj_of_stop ok (by simpa using all) (by simpa using all')
    (by simpa using stop) (by simpa using stop') reversed
  exact ⟨List.reverse_injective front, List.reverse_injective back⟩

/-! ## Words -/

/-- A character that separates nothing is in one of the pieces. -/
theorem exists_mem_splitOnP (member : c ∈ text) (kept : drop c = false) :
    ∃ piece ∈ List.splitOnP drop text, c ∈ piece := by
  induction text with
  | nil => cases member
  | cons first rest ih =>
    rw [List.splitOnP_cons_eq_if_modifyHead]
    split
    · next separates =>
      have other : c ≠ first := fun same => by rw [same, separates] at kept; cases kept
      obtain ⟨piece, inside, here⟩ := ih ((List.mem_cons.1 member).resolve_left other)
      exact ⟨piece, .tail _ inside, here⟩
    · obtain ⟨head, pieces, whole⟩ := List.exists_cons_of_ne_nil (List.splitOnP_ne_nil drop rest)
      rw [whole, List.modifyHead_cons]
      rcases List.mem_cons.1 member with rfl | member
      · exact ⟨c :: head, .head _, .head _⟩
      · obtain ⟨piece, inside, here⟩ := ih member
        rw [whole] at inside
        rcases List.mem_cons.1 inside with rfl | inside
        · exact ⟨first :: piece, .head _, .tail _ here⟩
        · exact ⟨piece, .tail _ inside, here⟩

theorem ne_nil_of_mem_words {word : Text} (h : word ∈ text.words) : word ≠ [] := by
  simpa using (List.mem_filter.1 h).2

theorem words_ne_nil (member : c ∈ text) (visible : isBlank c = false) : text.words ≠ [] := by
  obtain ⟨piece, inside, here⟩ := exists_mem_splitOnP member visible
  refine List.ne_nil_of_mem (a := piece) (List.mem_filter.2 ⟨?_, ?_⟩)
  · rw [splitOn_eq_splitOnP]
    exact inside
  · simpa using List.ne_nil_of_mem here

theorem joinWith_words_ne_nil (separator : Text) (member : c ∈ text) (visible : isBlank c = false) :
    Text.joinWith separator text.words ≠ [] := by
  have nonempty := fun word => @ne_nil_of_mem_words text word
  obtain ⟨first, rest, words⟩ := List.exists_cons_of_ne_nil (words_ne_nil member visible)
  rw [words] at nonempty ⊢
  have starts : first ≠ [] := nonempty first (.head _)
  cases rest with
  | nil => rwa [joinWith_singleton]
  | cons second rest =>
    rw [joinWith_cons_cons]
    simp [starts]

end Text

end CodeSurvey
